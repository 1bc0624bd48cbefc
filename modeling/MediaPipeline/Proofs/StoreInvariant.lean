import MediaPipeline.Store.Basic
import Mathlib.Data.List.Nodup

/-!
# The representation of a store

A store is built from the empty one by calls, each of which may fail. `Store.WellFormed`
says how the five containers of a store fit together, and `Store.Logged` that each of its
parameter maps is what the insertions into it leave behind. Both hold at the start and are
kept by every call, so they hold after every sequence of calls; `run_represented` puts the
two together.
-/

namespace MediaPipeline

/-! ## Logs of insertions -/

section Log

variable {κ α : Type} [DecidableEq κ]

/-- The value that a log of insertions gives to a key last. -/
def lastValue? (k : κ) (log : List (κ × α)) : Option α :=
  (log.reverse.find? fun e => e.1 = k).map (·.2)

theorem lastValue?_concat (k : κ) (log : List (κ × α)) (e : κ × α) :
    lastValue? k (log ++ [e]) = if e.1 = k then some e.2 else lastValue? k log := by
  by_cases h : e.1 = k <;> simp [lastValue?, h]

namespace IndexedMap

/-- A map is what a log of insertions leaves: its keys are the inserted ones in order of
first insertion, each with the value inserted last, and the index leads each key to its
own entry. -/
structure Records (m : IndexedMap κ α) (log : List (κ × α)) : Prop where
  indexed : ∀ k i, m.index.get? k = some i ↔ m.keys[i]? = some k
  nodup : m.keys.Nodup
  order : m.keys = (log.map (·.1)).eraseDups
  last : ∀ e ∈ m.entries, lastValue? e.1 log = some e.2

namespace Records

variable {m : IndexedMap κ α} {log : List (κ × α)}

theorem consistent (h : m.Records log) : m.Consistent := h.indexed

theorem empty : (empty : IndexedMap κ α).Records [] where
  indexed := Consistent.empty
  nodup := Consistent.empty.nodup
  order := rfl
  last := by
    intro e he
    cases he

/-- One more insertion. -/
theorem insert (h : m.Records log) (k : κ) (v : α) : (m.insert k v).Records (log ++ [(k, v)]) where
  indexed := h.consistent.insert k v
  nodup := (h.consistent.insert k v).nodup
  order := by
    have hmem : k ∈ m.keys ↔ k ∈ log.map (·.1) := by rw [h.order, List.mem_eraseDups]
    rw [h.consistent.keys_insert, List.map_append, List.eraseDups_append, ← h.order]
    by_cases hk : k ∈ m.keys
    · rw [if_pos hk]
      simp [List.removeAll, hmem.mp hk]
    · rw [if_neg hk]
      simp [List.removeAll, mt hmem.mpr hk, List.eraseDups_cons]
  last := by
    intro e he
    rw [lastValue?_concat]
    have hfound : (m.insert k v).get? e.1 = some e.2 := (h.consistent.insert k v).get?_eq_some.mpr he
    by_cases hk : k = e.1
    · subst hk
      rw [h.consistent.get?_insert_self] at hfound
      rw [if_pos rfl, hfound]
    · rw [h.consistent.get?_insert_ne v (Ne.symm hk)] at hfound
      rw [if_neg hk]
      exact h.last e (h.consistent.get?_eq_some.mp hfound)

end Records

end IndexedMap

end Log

/-! ## Calls -/

/-- The parameter maps of a store. -/
inductive ParamPlace where
  | dynamic
  | tmp
  | sequence (type : SequenceType) (id : SequenceId)
  | resource (key : ResourceKey) (id : ResourceId)
deriving DecidableEq

/-- The map that a kind of parameter means in a scope. -/
def ParamPlace.inScope? : ContextKind → Scope → Option ParamPlace
  | .dynamic, _ => some .dynamic
  | .tmp, _ => some .tmp
  | .segment, _ => none
  | .sequence, ⟨_, some (t, id), _⟩ => some (.sequence t id)
  | .resource, ⟨some segm, some (t, seq), some id⟩ => some (.resource ⟨segm, t, seq⟩ id)
  | _, _ => none

namespace Store

/-- A call that changes a store. -/
inductive Call where
  | addSegment (id : SegmentId)
  | addSequence (type : SequenceType) (id : SequenceId)
  | addResource (key : ResourceKey) (id : ResourceId)
  | addParameter (kind : ContextKind) (scope : Scope) (name : String) (param : Param)
  | setDynamic (name value : String)
  | setTmp (name value : String) (cleanup : CleanupPolicy)

/-- The outcome of a call. -/
def perform (s : Store) : Call → Except Cause Store
  | .addSegment id => .ok (s.addSegment id)
  | .addSequence t id => .ok (s.addSequence t id)
  | .addResource key id => s.addResource key id
  | .addParameter kind scope name param =>
    (s.addParameter kind scope name param).mapError NotFound.toCause
  | .setDynamic name value => .ok (s.setDynamic name value)
  | .setTmp name value cleanup => .ok (s.setTmp name value cleanup)

/-- The store after a call, which a failure leaves as it was. -/
def after (s : Store) (c : Call) : Store :=
  match s.perform c with
  | .ok s' => s'
  | .error _ => s

/-- The store after a sequence of calls. -/
def run (s : Store) : List Call → Store
  | [] => s
  | c :: cs => (s.after c).run cs

/-- What a call inserts if it succeeds, and into which map. -/
def Call.assignment? : Call → Option (ParamPlace × String × Param)
  | .addParameter kind scope name param =>
    (ParamPlace.inScope? kind scope).map fun place => (place, name, param)
  | .setDynamic name value => some (.dynamic, name, .keep value)
  | .setTmp name value cleanup => some (.tmp, name, ⟨value, cleanup⟩)
  | _ => none

/-- What a call inserts into a map. -/
def written (s : Store) (c : Call) (place : ParamPlace) : List (String × Param) :=
  match s.perform c, c.assignment? with
  | .ok _, some (target, entry) => if target = place then [entry] else []
  | _, _ => []

/-- What a sequence of calls inserts into a map, in order. -/
def insertions (s : Store) (place : ParamPlace) : List Call → List (String × Param)
  | [] => []
  | c :: cs => s.written c place ++ (s.after c).insertions place cs

/-! ## How the containers fit together -/

/-- Identifiers are distinct at each level; resources are listed for registered pairs
only; each resource is listed once, for its recorded owner. -/
structure WellFormed (s : Store) : Prop where
  segments : s.segments.Nodup
  sequences : ∀ t, (s.sequenceIds t).Nodup
  keys : s.resources.keys.Nodup
  registered : ∀ key ∈ s.resources.keys,
    key.segment ∈ s.segments ∧ key.sequence ∈ s.sequenceIds key.type
  /-- No resource occurs twice in the whole store. -/
  once : (s.resources.entries.flatMap fun p => p.2.map (·.id)).Nodup
  owned : ∀ p ∈ s.resources.entries, ∀ e ∈ p.2, s.owners.get? e.id = some p.1
  listed : ∀ id key, s.owners.get? id = some key → id ∈ s.resourceIds key

/-- The parameter maps of the entries with an identifier. -/
def mapsOf {ι : Type} [DecidableEq ι] (id : ι) (entries : List (Entry ι)) : List ParamMap :=
  (entries.filter (·.id = id)).map (·.params)

/-- The maps at a place: in a well-formed store one or none. -/
def paramsAt (s : Store) : ParamPlace → List ParamMap
  | .dynamic => [s.dynamic]
  | .tmp => [s.tmp]
  | .sequence t id => mapsOf id (s.sequenceEntries t)
  | .resource key id => mapsOf id (s.resourceEntries key)

/-- Every parameter map is what the insertions into it leave, and nothing is ever
inserted where there is no map. -/
structure Logged (s : Store) (log : ParamPlace → List (String × Param)) : Prop where
  records : ∀ place, ∀ m ∈ s.paramsAt place, m.Records (log place)
  absent : ∀ place, s.paramsAt place = [] → log place = []

/-! ## Entries -/

section Entries

variable {ι : Type} [DecidableEq ι] {id : ι} {entries : List (Entry ι)} {e : Entry ι}

theorem ids_register (id : ι) (entries : List (Entry ι)) :
    (register id entries).map (·.id) =
      if id ∈ entries.map (·.id) then entries.map (·.id) else entries.map (·.id) ++ [id] := by
  have hany : (entries.any fun e => e.id = id) = true ↔ id ∈ entries.map (·.id) := by
    simp
  unfold register
  by_cases h : id ∈ entries.map (·.id)
  · rw [if_pos (hany.mpr h), if_pos h]
  · rw [if_neg (mt hany.mp h), if_neg h, List.map_append, List.map_singleton]

theorem mem_ids_register : id ∈ (register id entries).map (·.id) := by
  rw [ids_register]
  by_cases h : id ∈ entries.map (·.id) <;> simp [h]

theorem nodup_ids_register (h : (entries.map (·.id)).Nodup) :
    ((register id entries).map (·.id)).Nodup := by
  rw [ids_register]
  by_cases hid : id ∈ entries.map (·.id)
  · rwa [if_pos hid]
  · rw [if_neg hid, List.nodup_append_comm]
    exact List.nodup_cons.mpr ⟨hid, h⟩

theorem ids_setIn (id : ι) (name : String) (param : Param) (entries : List (Entry ι)) :
    (setIn id name param entries).map (·.id) = entries.map (·.id) := by
  rw [setIn, List.map_map]
  apply List.map_congr_left
  intro e _
  by_cases h : e.id = id <;> simp [h]

theorem mapsOf_eq_nil : mapsOf id entries = [] ↔ id ∉ entries.map (·.id) := by
  simp [mapsOf]

/-- A registration adds an empty map where there was none. -/
theorem mapsOf_register (id id' : ι) (entries : List (Entry ι)) :
    mapsOf id' (register id entries) = mapsOf id' entries ∨
      mapsOf id' entries = [] ∧ mapsOf id' (register id entries) = [.empty] := by
  unfold register
  by_cases hid : entries.any (·.id = id) = true
  · rw [if_pos hid]
    exact .inl rfl
  · rw [if_neg hid]
    by_cases hne : id = id'
    · subst hne
      have hnil : mapsOf id entries = [] := mapsOf_eq_nil.mpr (by simpa using hid)
      refine .inr ⟨hnil, ?_⟩
      rw [mapsOf, List.filter_append, List.map_append, ← mapsOf, hnil]
      simp
    · left
      simp [mapsOf, hne]

/-- An assignment goes to the maps of its own identifier. -/
theorem mapsOf_setIn (id id' : ι) (name : String) (param : Param) (entries : List (Entry ι)) :
    mapsOf id' (setIn id name param entries) =
      if id' = id then (mapsOf id' entries).map (·.insert name param) else mapsOf id' entries := by
  induction entries with
  | nil => simp [mapsOf, setIn]
  | cons e rest ih =>
    simp only [mapsOf, setIn, List.map_cons] at ih ⊢
    by_cases he : e.id = id
    · by_cases hid : id = id'
      · subst hid
        simp_all
      · simp_all [Ne.symm hid]
    · by_cases hid : e.id = id'
      · subst hid
        simp_all
      · simp_all

end Entries

theorem sequenceEntries_modify (s : Store)
    (f : List (Entry SequenceId) → List (Entry SequenceId)) (t t' : SequenceType) :
    { s with sequences := s.sequences.modify f t }.sequenceEntries t' =
      if t' = t then f (s.sequenceEntries t) else s.sequenceEntries t' := by
  by_cases h : t' = t
  · rw [if_pos h, h]
    exact PerType.get_modify_self _ _ _
  · rw [if_neg h]
    exact PerType.get_modify_ne _ _ h

theorem resourceEntries_insert (s : Store) (o : OrderedMap ResourceId ResourceKey)
    (key key' : ResourceKey) (list : List (Entry ResourceId)) :
    { s with owners := o, resources := s.resources.insert key list }.resourceEntries key' =
      if key' = key then list else s.resourceEntries key' := by
  unfold resourceEntries
  by_cases h : key' = key
  · rw [if_pos h, h, OrderedMap.get?_insert_self, Option.getD_some]
  · rw [if_neg h, OrderedMap.get?_insert_ne _ _ h]

namespace WellFormed

variable {s : Store}

theorem empty : empty.WellFormed where
  segments := List.nodup_nil
  sequences := by intro t; cases t <;> exact List.nodup_nil
  keys := List.nodup_nil
  registered := by intro key hkey; cases hkey
  once := List.nodup_nil
  owned := by intro p hp; cases hp
  listed := by intro id key h; cases h

/-- Resources of a pair that has any are listed. -/
theorem mem_entries_of_mem (h : s.WellFormed) {key : ResourceKey} {e : Entry ResourceId}
    (he : e ∈ s.resourceEntries key) : (key, s.resourceEntries key) ∈ s.resources.entries := by
  cases hg : s.resources.get? key with
  | none =>
    rw [resourceEntries, hg, Option.getD_none] at he
    cases he
  | some list =>
    rw [resourceEntries, hg, Option.getD_some]
    exact (OrderedMap.get?_eq_some h.keys).mp hg

theorem nodup_resourceIds (h : s.WellFormed) (key : ResourceKey) : (s.resourceIds key).Nodup := by
  rw [resourceIds]
  cases hl : s.resourceEntries key with
  | nil => exact List.nodup_nil
  | cons e rest =>
    have hp := h.mem_entries_of_mem (hl ▸ List.mem_cons_self : e ∈ s.resourceEntries key)
    rw [hl] at hp
    exact (List.nodup_flatMap.mp h.once).1 _ hp

/-- Lists without repetition whose resources belong to their keys share nothing. -/
theorem once_of_owned (hkeys : s.resources.keys.Nodup)
    (hlists : ∀ p ∈ s.resources.entries, (p.2.map (·.id)).Nodup)
    (howned : ∀ p ∈ s.resources.entries, ∀ e ∈ p.2, s.owners.get? e.id = some p.1) :
    (s.resources.entries.flatMap fun p => p.2.map (·.id)).Nodup := by
  refine List.nodup_flatMap.mpr ⟨hlists, ?_⟩
  have hpair : s.resources.entries.Pairwise fun p q => p.1 ≠ q.1 := List.pairwise_map.mp hkeys
  refine hpair.imp_of_mem fun {p q} hp hq hne => ?_
  intro id hid hid'
  obtain ⟨e, he, rfl⟩ := List.mem_map.mp hid
  obtain ⟨e', he', hee⟩ := List.mem_map.mp hid'
  have hown := howned q hq e' he'
  rw [hee, howned p hp e he] at hown
  exact hne (Option.some.inj hown)

theorem addSegment (h : s.WellFormed) (id : SegmentId) : (s.addSegment id).WellFormed := by
  unfold Store.addSegment
  by_cases hid : id ∈ s.segments
  · rwa [if_pos hid]
  · rw [if_neg hid]
    exact {
      h with
      segments := by
        rw [List.nodup_append_comm]
        exact List.nodup_cons.mpr ⟨hid, h.segments⟩
      registered := fun key hkey =>
        ⟨List.mem_append_left _ (h.registered key hkey).1, (h.registered key hkey).2⟩ }

/-- A change of the sequences of one type that forgets none of them. -/
theorem modifySequences (h : s.WellFormed)
    (f : List (Entry SequenceId) → List (Entry SequenceId)) (t : SequenceType)
    (hnodup : ((f (s.sequenceEntries t)).map (·.id)).Nodup)
    (hsub : ∀ id ∈ s.sequenceIds t, id ∈ (f (s.sequenceEntries t)).map (·.id)) :
    { s with sequences := s.sequences.modify f t }.WellFormed := by
  have hids : ∀ t', { s with sequences := s.sequences.modify f t }.sequenceIds t' =
      if t' = t then (f (s.sequenceEntries t)).map (·.id) else s.sequenceIds t' := by
    intro t'
    rw [sequenceIds, sequenceEntries_modify]
    by_cases ht : t' = t <;> simp [ht, sequenceIds]
  refine { h with sequences := ?_, registered := ?_ }
  · intro t'
    rw [hids]
    by_cases ht : t' = t
    · rwa [if_pos ht]
    · rw [if_neg ht]
      exact h.sequences t'
  · intro key hkey
    obtain ⟨hsegment, hsequence⟩ := h.registered key hkey
    refine ⟨hsegment, ?_⟩
    rw [hids]
    by_cases ht : key.type = t
    · rw [if_pos ht]
      exact hsub _ (ht ▸ hsequence)
    · rwa [if_neg ht]

theorem addSequence (h : s.WellFormed) (t : SequenceType) (id : SequenceId) :
    (s.addSequence t id).WellFormed := by
  refine h.modifySequences _ t (nodup_ids_register (h.sequences t)) ?_
  intro id' hid'
  rw [ids_register]
  by_cases hid : id ∈ (s.sequenceEntries t).map (·.id)
  · rwa [if_pos hid]
  · rw [if_neg hid]
    exact List.mem_append_left _ hid'

/-- A new list for a registered pair, with the owners that go with it. -/
theorem putResources (h : s.WellFormed) {key : ResourceKey} {list : List (Entry ResourceId)}
    {owners : OrderedMap ResourceId ResourceKey}
    (hkey : key.segment ∈ s.segments ∧ key.sequence ∈ s.sequenceIds key.type)
    (hnodup : (list.map (·.id)).Nodup)
    (hlist : ∀ id, owners.get? id = some key ↔ id ∈ list.map (·.id))
    (hother : ∀ id k, k ≠ key → (owners.get? id = some k ↔ s.owners.get? id = some k)) :
    { s with owners := owners, resources := s.resources.insert key list }.WellFormed := by
  have hkeys := OrderedMap.nodup_keys_insert h.keys key list
  have hmem : ∀ p ∈ (s.resources.insert key list).entries,
      p = (key, list) ∨ p.1 ≠ key ∧ p ∈ s.resources.entries := by
    intro p hp
    have hg := (OrderedMap.get?_eq_some hkeys).mpr hp
    by_cases hk : p.1 = key
    · rw [hk, OrderedMap.get?_insert_self] at hg
      exact .inl (Prod.ext hk (Option.some.inj hg).symm)
    · rw [OrderedMap.get?_insert_ne _ _ hk] at hg
      exact .inr ⟨hk, (OrderedMap.get?_eq_some h.keys).mp hg⟩
  have howned : ∀ p ∈ (s.resources.insert key list).entries, ∀ e ∈ p.2,
      owners.get? e.id = some p.1 := by
    intro p hp e he
    obtain rfl | ⟨hk, hp⟩ := hmem p hp
    · exact (hlist e.id).mpr (List.mem_map_of_mem he)
    · exact (hother e.id p.1 hk).mpr (h.owned p hp e he)
  refine { h with keys := hkeys, registered := ?_, once := ?_, owned := howned, listed := ?_ }
  · intro k hk
    rw [OrderedMap.keys_insert] at hk
    by_cases hin : key ∈ s.resources.keys
    · rw [if_pos hin] at hk
      exact h.registered k hk
    · rw [if_neg hin, List.mem_append, List.mem_singleton] at hk
      obtain hk | rfl := hk
      · exact h.registered k hk
      · exact hkey
  · refine once_of_owned hkeys ?_ howned
    intro p hp
    obtain rfl | ⟨-, hp⟩ := hmem p hp
    · exact hnodup
    · exact (List.nodup_flatMap.mp h.once).1 p hp
  · intro id k hk
    rw [resourceIds, resourceEntries_insert]
    by_cases hkk : k = key
    · rw [if_pos hkk]
      exact (hlist id).mp (hkk ▸ hk)
    · rw [if_neg hkk]
      exact h.listed id k ((hother id k hkk).mp hk)

/-- The recorded owner of a resource is the pair that lists it. -/
theorem owner_iff (h : s.WellFormed) (id : ResourceId) (key : ResourceKey) :
    s.owners.get? id = some key ↔ id ∈ s.resourceIds key := by
  refine ⟨h.listed id key, fun hid => ?_⟩
  obtain ⟨e, he, rfl⟩ := List.mem_map.mp hid
  exact h.owned _ (h.mem_entries_of_mem he) e he

end WellFormed

/-! ## Registering a resource -/

/-- What a resource call that succeeds has found, and what it leaves. -/
theorem addResource_ok {s s' : Store} {key : ResourceKey} {id : ResourceId}
    (h : s.addResource key id = .ok s') :
    (key.segment ∈ s.segments ∧ key.sequence ∈ s.sequenceIds key.type) ∧
    (∀ k, s.owners.get? id = some k → k = key) ∧
    s' = { s with
      owners := s.owners.insert id key
      resources := s.resources.insert key (register id (s.resourceEntries key)) } := by
  unfold addResource at h
  by_cases hsegment : key.segment ∈ s.segments
  · by_cases hsequence : key.sequence ∈ s.sequenceIds key.type
    · simp only [hsegment, hsequence, not_true_eq_false, if_false] at h
      cases howner : s.owners.get? id with
      | none =>
        simp only [howner, Except.ok.injEq] at h
        exact ⟨⟨hsegment, hsequence⟩, by simp, h.symm⟩
      | some owner =>
        by_cases heq : owner = key
        · simp only [howner, heq, if_true, Except.ok.injEq] at h
          exact ⟨⟨hsegment, hsequence⟩, by simp [heq], h.symm⟩
        · simp only [howner, heq, if_false, reduceCtorEq] at h
    · simp only [hsegment, hsequence, not_true_eq_false, not_false_eq_true, if_false, if_true,
        reduceCtorEq] at h
  · simp only [hsegment, not_false_eq_true, if_true, reduceCtorEq] at h

theorem WellFormed.addResource {s s' : Store} (h : s.WellFormed) {key : ResourceKey}
    {id : ResourceId} (hs : s.addResource key id = .ok s') : s'.WellFormed := by
  obtain ⟨hkey, hfree, rfl⟩ := addResource_ok hs
  refine h.putResources hkey (nodup_ids_register (h.nodup_resourceIds key)) ?_ ?_
  · intro id'
    by_cases hid : id' = id
    · subst hid
      simp only [OrderedMap.get?_insert_self, mem_ids_register]
    · rw [OrderedMap.get?_insert_ne _ _ hid, h.owner_iff, ids_register, resourceIds]
      by_cases hin : id ∈ (s.resourceEntries key).map (·.id)
      · rw [if_pos hin]
      · rw [if_neg hin, List.mem_append, List.mem_singleton, or_iff_left hid]
  · intro id' k hk
    by_cases hid : id' = id
    · subst hid
      rw [OrderedMap.get?_insert_self]
      exact iff_of_false (fun heq => hk (Option.some.inj heq).symm) fun heq => hk (hfree k heq)
    · rw [OrderedMap.get?_insert_ne _ _ hid]

/-! ## Assigning a parameter -/

/-- Whether a store has the map at a place. -/
def Has (s : Store) : ParamPlace → Prop
  | .dynamic => True
  | .tmp => True
  | .sequence t id => id ∈ s.sequenceIds t
  | .resource key id => id ∈ s.resourceIds key

theorem Has.paramsAt_ne_nil {s : Store} {place : ParamPlace} (h : s.Has place) :
    s.paramsAt place ≠ [] := by
  cases place with
  | dynamic => exact List.cons_ne_nil _ _
  | tmp => exact List.cons_ne_nil _ _
  | sequence t id => exact fun hnil => mapsOf_eq_nil.mp hnil h
  | resource key id => exact fun hnil => mapsOf_eq_nil.mp hnil h

/-- The store after an insertion into the map at a place. -/
def assign (s : Store) (name : String) (param : Param) : ParamPlace → Store
  | .dynamic => { s with dynamic := s.dynamic.insert name param }
  | .tmp => { s with tmp := s.tmp.insert name param }
  | .sequence t id => { s with sequences := s.sequences.modify (setIn id name param) t }
  | .resource key id =>
    { s with resources := s.resources.insert key (setIn id name param (s.resourceEntries key)) }

/-- A parameter call that succeeds assigns to the map that it addresses. -/
theorem addParameter_ok {s s' : Store} {kind : ContextKind} {scope : Scope} {name : String}
    {param : Param} (h : s.addParameter kind scope name param = .ok s') :
    ∃ place, ParamPlace.inScope? kind scope = some place ∧ s.Has place ∧
      s' = s.assign name param place := by
  obtain ⟨segment, sequence, resource⟩ := scope
  cases kind with
  | dynamic => exact ⟨.dynamic, rfl, trivial, (Except.ok.inj h).symm⟩
  | tmp => exact ⟨.tmp, rfl, trivial, (Except.ok.inj h).symm⟩
  | segment => cases h
  | sequence =>
    cases sequence with
    | none => cases h
    | some p =>
      obtain ⟨t, id⟩ := p
      simp only [addParameter, setSequenceParam] at h
      by_cases hid : id ∈ s.sequenceIds t
      · rw [if_pos hid] at h
        exact ⟨.sequence t id, rfl, hid, (Except.ok.inj h).symm⟩
      · rw [if_neg hid] at h
        cases h
  | resource =>
    cases segment with
    | none => cases h
    | some segm =>
      cases sequence with
      | none => cases h
      | some p =>
        cases resource with
        | none => cases h
        | some id =>
          obtain ⟨t, seq⟩ := p
          simp only [addParameter, setResourceParam] at h
          by_cases hid : id ∈ s.resourceIds ⟨segm, t, seq⟩
          · rw [if_pos hid] at h
            exact ⟨.resource ⟨segm, t, seq⟩ id, rfl, hid, (Except.ok.inj h).symm⟩
          · rw [if_neg hid] at h
            cases h

theorem WellFormed.assign {s : Store} (h : s.WellFormed) (name : String) (param : Param)
    {place : ParamPlace} (hp : s.Has place) : (s.assign name param place).WellFormed := by
  cases place with
  | dynamic => exact { h with }
  | tmp => exact { h with }
  | sequence t id =>
    refine h.modifySequences _ t ?_ ?_
    · rw [ids_setIn]
      exact h.sequences t
    · intro id' hid'
      rwa [ids_setIn]
  | resource key id =>
    obtain ⟨e, he, -⟩ := List.mem_map.mp hp
    have hkey : key ∈ s.resources.keys := List.mem_map_of_mem (h.mem_entries_of_mem he)
    refine h.putResources (h.registered key hkey) ?_ ?_ fun _ _ _ => Iff.rfl
    · rw [ids_setIn]
      exact h.nodup_resourceIds key
    · intro id'
      rw [ids_setIn]
      exact h.owner_iff id' key

/-- An assignment changes the maps at its place and no others. -/
theorem paramsAt_assign (s : Store) (name : String) (param : Param) (target place : ParamPlace) :
    (s.assign name param target).paramsAt place =
      if place = target then (s.paramsAt place).map (·.insert name param)
      else s.paramsAt place := by
  cases target with
  | dynamic => cases place <;> rfl
  | tmp => cases place <;> rfl
  | sequence t id =>
    cases place with
    | sequence t' id' =>
      simp only [paramsAt, assign, sequenceEntries_modify, ParamPlace.sequence.injEq]
      by_cases ht : t' = t
      · simp only [ht, if_true, mapsOf_setIn, true_and]
      · simp only [ht, if_false, false_and]
    | _ => rfl
  | resource key id =>
    cases place with
    | resource key' id' =>
      simp only [paramsAt, assign, resourceEntries_insert, ParamPlace.resource.injEq]
      by_cases hk : key' = key
      · simp only [hk, if_true, mapsOf_setIn, true_and]
      · simp only [hk, if_false, false_and]
    | _ => rfl

/-! ## Logs of a store -/

namespace Logged

variable {s s' : Store} {log : ParamPlace → List (String × Param)}

theorem empty : Logged empty fun _ => [] where
  records := by
    intro place m hm
    have hm : m = .empty := by
      cases place with
      | dynamic => exact List.mem_singleton.mp hm
      | tmp => exact List.mem_singleton.mp hm
      | sequence t id => cases t <;> cases hm
      | resource key id => cases hm
    rw [hm]
    exact .empty
  absent := fun _ _ => rfl

/-- New maps are empty, and nothing was inserted for them. -/
theorem register (h : s.Logged log)
    (hmaps : ∀ place, s'.paramsAt place = s.paramsAt place ∨
      s.paramsAt place = [] ∧ s'.paramsAt place = [.empty]) : s'.Logged log where
  records := by
    intro place m hm
    obtain heq | ⟨hnil, heq⟩ := hmaps place
    · exact h.records place m (heq ▸ hm)
    · rw [heq, List.mem_singleton] at hm
      rw [hm, h.absent place hnil]
      exact .empty
  absent := by
    intro place hnil
    obtain heq | ⟨-, heq⟩ := hmaps place
    · exact h.absent place (heq ▸ hnil)
    · rw [heq] at hnil
      cases hnil

/-- An insertion is logged where it is made. -/
theorem assign (h : s.Logged log) (name : String) (param : Param) {target : ParamPlace}
    (ht : s.Has target) : (s.assign name param target).Logged fun place =>
      log place ++ if target = place then [(name, param)] else [] where
  records := by
    intro place m hm
    rw [paramsAt_assign] at hm
    by_cases hp : place = target
    · rw [if_pos hp] at hm
      obtain ⟨o, ho, rfl⟩ := List.mem_map.mp hm
      simp only [hp, if_true]
      exact (h.records target o (hp ▸ ho)).insert name param
    · rw [if_neg hp] at hm
      simp only [Ne.symm hp, if_false, List.append_nil]
      exact h.records place m hm
  absent := by
    intro place hnil
    rw [paramsAt_assign] at hnil
    by_cases hp : place = target
    · rw [if_pos hp, hp, List.map_eq_nil_iff] at hnil
      exact absurd hnil ht.paramsAt_ne_nil
    · rw [if_neg hp] at hnil
      simp only [Ne.symm hp, if_false, List.append_nil]
      exact h.absent place hnil

end Logged

/-! ## Calls and runs -/

theorem addSegment_paramsAt (s : Store) (id : SegmentId) (place : ParamPlace) :
    (s.addSegment id).paramsAt place = s.paramsAt place := by
  unfold addSegment
  by_cases h : id ∈ s.segments
  · rw [if_pos h]
  · rw [if_neg h]
    cases place <;> rfl

theorem addSequence_paramsAt (s : Store) (t : SequenceType) (id : SequenceId)
    (place : ParamPlace) :
    (s.addSequence t id).paramsAt place = s.paramsAt place ∨
      s.paramsAt place = [] ∧ (s.addSequence t id).paramsAt place = [.empty] := by
  cases place with
  | sequence t' id' =>
    simp only [paramsAt, addSequence, sequenceEntries_modify]
    by_cases ht : t' = t
    · rw [if_pos ht, ht]
      exact mapsOf_register id id' _
    · rw [if_neg ht]
      exact .inl rfl
  | _ => exact .inl rfl

theorem addResource_paramsAt {s s' : Store} {key : ResourceKey} {id : ResourceId}
    (h : s.addResource key id = .ok s') (place : ParamPlace) :
    s'.paramsAt place = s.paramsAt place ∨
      s.paramsAt place = [] ∧ s'.paramsAt place = [.empty] := by
  obtain ⟨-, -, rfl⟩ := addResource_ok h
  cases place with
  | resource key' id' =>
    simp only [paramsAt, resourceEntries_insert]
    by_cases hk : key' = key
    · rw [if_pos hk, hk]
      exact mapsOf_register id id' _
    · rw [if_neg hk]
      exact .inl rfl
  | _ => exact .inl rfl

/-- What a call that succeeds does: it registers something, or it assigns. -/
theorem perform_cases {s s' : Store} {c : Call} (h : s.perform c = .ok s') :
    (c.assignment? = none ∧ (s.WellFormed → s'.WellFormed) ∧
      ∀ place, s'.paramsAt place = s.paramsAt place ∨
        s.paramsAt place = [] ∧ s'.paramsAt place = [.empty]) ∨
    ∃ place name param, c.assignment? = some (place, name, param) ∧ s.Has place ∧
      s' = s.assign name param place := by
  cases c with
  | addSegment id =>
    obtain rfl := Except.ok.inj h
    exact .inl ⟨rfl, fun hw => hw.addSegment id, fun place => .inl (addSegment_paramsAt s id place)⟩
  | addSequence t id =>
    obtain rfl := Except.ok.inj h
    exact .inl ⟨rfl, fun hw => hw.addSequence t id, addSequence_paramsAt s t id⟩
  | addResource key id =>
    exact .inl ⟨rfl, fun hw => hw.addResource h, addResource_paramsAt h⟩
  | addParameter kind scope name param =>
    cases hadd : s.addParameter kind scope name param with
    | error missing =>
      rw [perform, hadd] at h
      cases h
    | ok s'' =>
      rw [perform, hadd] at h
      obtain rfl := Except.ok.inj h
      obtain ⟨place, hplace, hhas, rfl⟩ := addParameter_ok hadd
      exact .inr ⟨place, name, param, by rw [Call.assignment?, hplace]; rfl, hhas, rfl⟩
  | setDynamic name value =>
    obtain rfl := Except.ok.inj h
    exact .inr ⟨.dynamic, name, .keep value, rfl, trivial, rfl⟩
  | setTmp name value cleanup =>
    obtain rfl := Except.ok.inj h
    exact .inr ⟨.tmp, name, ⟨value, cleanup⟩, rfl, trivial, rfl⟩

/-- One call, successful or not, keeps the representation. -/
theorem after_represented {s : Store} {log : ParamPlace → List (String × Param)}
    (hw : s.WellFormed) (hl : s.Logged log) (c : Call) :
    (s.after c).WellFormed ∧ (s.after c).Logged fun place => log place ++ s.written c place := by
  cases hc : s.perform c with
  | error cause =>
    have hwritten : ∀ place, s.written c place = [] := by
      intro place
      rw [written, hc]
    rw [after, hc]
    simp only [hwritten, List.append_nil]
    exact ⟨hw, hl⟩
  | ok s' =>
    rw [after, hc]
    obtain ⟨hnone, hkeep, hmaps⟩ | ⟨target, name, param, hsome, hhas, rfl⟩ := perform_cases hc
    · have hwritten : ∀ place, s.written c place = [] := by
        intro place
        rw [written, hc, hnone]
      simp only [hwritten, List.append_nil]
      exact ⟨hkeep hw, hl.register hmaps⟩
    · have hwritten : ∀ place,
          s.written c place = if target = place then [(name, param)] else [] := by
        intro place
        rw [written, hc, hsome]
      simp only [hwritten]
      exact ⟨hw.assign name param hhas, hl.assign name param hhas⟩

theorem run_represented_from {s : Store} {log : ParamPlace → List (String × Param)}
    (hw : s.WellFormed) (hl : s.Logged log) (calls : List Call) :
    (s.run calls).WellFormed ∧
      (s.run calls).Logged fun place => log place ++ s.insertions place calls := by
  induction calls generalizing s log with
  | nil =>
    simp only [insertions, List.append_nil]
    exact ⟨hw, hl⟩
  | cons c cs ih =>
    obtain ⟨hw', hl'⟩ := after_represented hw hl c
    obtain ⟨hwrun, hlrun⟩ := ih hw' hl'
    simp only [List.append_assoc] at hlrun
    exact ⟨hwrun, hlrun⟩

/-- After any sequence of calls, successful or not, the containers of a store fit together
and each of its parameter maps is what the insertions into it leave. -/
theorem run_represented (calls : List Call) :
    (empty.run calls).WellFormed ∧
      (empty.run calls).Logged fun place => empty.insertions place calls :=
  run_represented_from .empty .empty calls

end Store

end MediaPipeline

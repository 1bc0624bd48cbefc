import MediaPipeline.Proofs.TemplateBinding

/-!
# Writing a parameter

A parameter call finds the map that it writes to in one way, and a look-up finds the map that
it reads in another. `addParameter_effect` says that they agree: what was written is read in
every scope that names the same entry, every other look-up and every listing of identifiers
answers as before, and a call that fails, of a parameter or of a resource, leaves the store
as it was. The last is said of the calls as they work on a store in place, step by step, where
a change made before a failure would stay.
-/

namespace MediaPipeline

/-- The names that the store itself answers at a level. -/
def ContextKind.builtinNames : ContextKind → List String
  | .dynamic | .tmp => []
  | .segment | .resource => ["uuid", "index", "num"]
  | .sequence => ["uuid", "index", "num", "type"]

/-- The kind of the parameters of a map. -/
def ParamPlace.kind : ParamPlace → ContextKind
  | .dynamic => .dynamic
  | .tmp => .tmp
  | .sequence _ _ => .sequence
  | .resource _ _ => .resource

/-- Two scopes agree on all that matters for parameters of a kind. -/
def Scope.AgreesOn (a b : Scope) : ContextKind → Prop
  | .dynamic | .tmp => True
  | .segment => a.segment = b.segment
  | .sequence => a.sequence = b.sequence
  | .resource => a.segment = b.segment ∧ a.sequence = b.sequence ∧ a.resource = b.resource

theorem ParamPlace.kind_of_inScope? {kind : ContextKind} {scope : Scope} {place : ParamPlace}
    (h : inScope? kind scope = some place) : place.kind = kind := by
  obtain ⟨segment, sequence, resource⟩ := scope
  cases kind with
  | dynamic | tmp =>
    obtain rfl := Option.some.inj h
    rfl
  | segment => cases h
  | sequence =>
    cases sequence with
    | none => cases h
    | some p =>
      obtain rfl := Option.some.inj h
      rfl
  | resource =>
    cases segment <;> cases sequence <;> cases resource <;> cases h
    rfl

theorem ParamPlace.inScope?_congr {a b : Scope} {kind : ContextKind} (h : a.AgreesOn b kind) :
    inScope? kind a = inScope? kind b := by
  obtain ⟨asegment, asequence, aresource⟩ := a
  obtain ⟨bsegment, bsequence, bresource⟩ := b
  cases kind with
  | dynamic | tmp | segment => rfl
  | sequence =>
    obtain rfl : asequence = bsequence := h
    cases asequence <;> rfl
  | resource =>
    obtain ⟨rfl, rfl, rfl⟩ : asegment = bsegment ∧ asequence = bsequence ∧ aresource = bresource := h
    rfl

open Template (StoreM)

namespace Store

/-- The map that a look-up addresses: that of the entry in scope, or that of the sibling at a
position. -/
def addressed? (s : Store) (kind : ContextKind) (scope : Scope) : Selector → Option ParamPlace
  | .current => ParamPlace.inScope? kind scope
  | .index i =>
    match kind, scope.segment, scope.sequence with
    | .dynamic, _, _ => some .dynamic
    | .tmp, _, _ => some .tmp
    | .sequence, _, some (t, _) => (s.sequenceIds t)[i]?.map (.sequence t)
    | .resource, some segment, some (t, sequence) =>
      (s.resourceIds ⟨segment, t, sequence⟩)[i]?.map (.resource ⟨segment, t, sequence⟩)
    | _, _, _ => none

theorem kind_of_addressed? {s : Store} {kind : ContextKind} {scope : Scope} {selector : Selector}
    {place : ParamPlace} (h : s.addressed? kind scope selector = some place) :
    place.kind = kind := by
  cases selector with
  | current => exact ParamPlace.kind_of_inScope? h
  | index i =>
    simp only [addressed?] at h
    split at h
    · obtain rfl := Option.some.inj h
      rfl
    · obtain rfl := Option.some.inj h
      rfl
    · obtain ⟨id, -, rfl⟩ := Option.map_eq_some_iff.mp h
      rfl
    · obtain ⟨id, -, rfl⟩ := Option.map_eq_some_iff.mp h
      rfl
    · cases h

/-- Two stores list the same identifiers at every level. -/
structure SameIds (s s' : Store) : Prop where
  segments : s'.segments = s.segments
  sequences : ∀ t, s'.sequenceIds t = s.sequenceIds t
  resources : ∀ key, s'.resourceIds key = s.resourceIds key

/-- What a successful call has done: the value is read wherever it is addressed, and nothing
else can be told from the store before. -/
structure Written (s : Store) (kind : ContextKind) (scope : Scope) (name : String) (param : Param)
    (s' : Store) : Prop where
  read : name ∉ kind.builtinNames → ∀ scope', scope.AgreesOn scope' kind →
    s'.getParameter kind scope' name = .ok param.value
  others : ∀ kind' scope' selector name',
    kind' ≠ kind ∨ s.addressed? kind' scope' selector ≠ ParamPlace.inScope? kind scope ∨
      name' ≠ name ∨ name ∈ kind.builtinNames →
    s'.lookup kind' scope' selector name' = s.lookup kind' scope' selector name'
  ids : s.SameIds s'
  listings : ∀ kind' scope', s'.uuids kind' scope' = s.uuids kind' scope'
  pairs : s'.sequencePairs = s.sequencePairs

/-! ## Entries -/

section Entries

variable {α ι : Type} [DecidableEq ι]

/-- Siblings are picked by what does not change. -/
theorem pick_map {siblings : List α} {key : α → ι} {f : α → α} (hf : ∀ a, key (f a) = key a)
    (current : Except NotFoundReason ι) (unknown : ι → NotFoundReason) (selector : Selector) :
    pick (siblings.map f) key current unknown selector =
      (pick siblings key current unknown selector).map fun p => (p.1, f p.2) := by
  cases selector with
  | index i =>
    simp only [pick, List.getElem?_map, List.length_map]
    cases siblings[i]? <;> rfl
  | current =>
    cases current with
    | error reason => rfl
    | ok id =>
      simp only [pick, List.zipIdx_map, List.find?_map, Function.comp_def, Prod.map_fst, hf]
      cases siblings.zipIdx.find? fun p => key p.1 = id <;> rfl

/-- An entry after an assignment to the entry with an identifier. -/
def setEntry (id : ι) (name : String) (param : Param) (e : Entry ι) : Entry ι :=
  if e.id = id then { e with params := e.params.insert name param } else e

@[simp] theorem id_setEntry (id : ι) (name : String) (param : Param) (e : Entry ι) :
    (setEntry id name param e).id = e.id := by
  unfold setEntry
  split <;> rfl

theorem setIn_eq_map (id : ι) (name : String) (param : Param) (entries : List (Entry ι)) :
    setIn id name param entries = entries.map (setEntry id name param) := rfl

theorem stored_insert_self {m : ParamMap} (hm : m.Consistent) (name : String) (param : Param) :
    stored (m.insert name param) name = .ok param.value := by
  rw [stored, ParamMap.value?, hm.get?_insert_self]
  rfl

theorem stored_insert_ne {m : ParamMap} (hm : m.Consistent) {name name' : String} (param : Param)
    (h : name' ≠ name) : stored (m.insert name param) name' = stored m name' := by
  rw [stored, stored, ParamMap.value?, ParamMap.value?, hm.get?_insert_ne param h]

variable [ToString ι]

theorem entryValue_setEntry_self {id : ι} {name : String} {param : Param} {e : Entry ι} (i : Nat)
    (he : e.params.Consistent) (hid : e.id = id) (huuid : name ≠ "uuid") (hindex : name ≠ "index") :
    entryValue name (i, setEntry id name param e) = .ok param.value := by
  rw [entryValue, if_neg huuid, if_neg hindex, setEntry, if_pos hid]
  exact stored_insert_self he name param

/-- Another entry or another name does not notice an assignment. -/
theorem entryValue_setEntry_ne {id : ι} {name name' : String} {param : Param} {e : Entry ι}
    (i : Nat) (he : e.params.Consistent)
    (h : e.id ≠ id ∨ name' ≠ name ∨ name = "uuid" ∨ name = "index") :
    entryValue name' (i, setEntry id name param e) = entryValue name' (i, e) := by
  unfold entryValue
  by_cases huuid : name' = "uuid"
  · rw [if_pos huuid, if_pos huuid, id_setEntry]
  by_cases hindex : name' = "index"
  · rw [if_neg huuid, if_neg huuid, if_pos hindex, if_pos hindex]
  rw [if_neg huuid, if_neg huuid, if_neg hindex, if_neg hindex, setEntry]
  by_cases hid : e.id = id
  · have hne : name' ≠ name := by
      rcases h with h | h | rfl | rfl
      · exact absurd hid h
      · exact h
      · exact huuid
      · exact hindex
    rw [if_pos hid]
    exact stored_insert_ne he param hne
  · rw [if_neg hid]

end Entries

/-! ## Where a call writes -/

/-- The map that a parameter call finds, or the reason that there is none. -/
def locate (s : Store) (kind : ContextKind) (scope : Scope) : Except NotFoundReason ParamPlace :=
  match kind with
  | .dynamic => .ok .dynamic
  | .tmp => .ok .tmp
  | .segment => .error (.noParameters .segment)
  | .sequence =>
    match scope.sequence with
    | none => .error (.missingScope .sequence)
    | some (t, id) =>
      if id ∈ s.sequenceIds t then .ok (.sequence t id) else .error (.unknownSequence t id)
  | .resource =>
    match scope.segment, scope.sequence, scope.resource with
    | none, _, _ => .error (.missingScope .segment)
    | _, none, _ => .error (.missingScope .sequence)
    | _, _, none => .error (.missingScope .resource)
    | some segment, some (t, sequence), some id =>
      if id ∈ s.resourceIds ⟨segment, t, sequence⟩ then
        .ok (.resource ⟨segment, t, sequence⟩ id)
      else .error (.unknownResource id)

/-- A parameter call finds a map and inserts into it. -/
theorem addParameter_eq_assign (s : Store) (kind : ContextKind) (scope : Scope) (name : String)
    (param : Param) :
    s.addParameter kind scope name param =
      ((s.locate kind scope).mapError (NotFound.mk (referenceText kind name))).map
        (s.assign name param) := by
  obtain ⟨segment, sequence, resource⟩ := scope
  cases kind with
  | dynamic | tmp | segment => rfl
  | sequence =>
    rcases sequence with _ | ⟨t, id⟩
    · rfl
    · simp only [addParameter, setSequenceParam, locate]
      by_cases hid : id ∈ s.sequenceIds t <;> simp only [hid, if_true, if_false] <;> rfl
  | resource =>
    rcases segment with _ | segment
    · rfl
    rcases sequence with _ | ⟨t, sequence⟩
    · rfl
    rcases resource with _ | id
    · rfl
    simp only [addParameter, setResourceParam, locate]
    by_cases hid : id ∈ s.resourceIds ⟨segment, t, sequence⟩ <;>
      simp only [hid, if_true, if_false] <;> rfl

/-! ## Identifiers -/

theorem sameIds_assign (s : Store) (name : String) (param : Param) (place : ParamPlace) :
    s.SameIds (s.assign name param place) := by
  cases place with
  | dynamic | tmp => exact ⟨rfl, fun _ => rfl, fun _ => rfl⟩
  | sequence t id =>
    refine ⟨rfl, fun t' => ?_, fun _ => rfl⟩
    rw [sequenceIds, assign, sequenceEntries_modify]
    by_cases ht : t' = t
    · rw [if_pos ht, ids_setIn, ht]
      rfl
    · rw [if_neg ht]
      rfl
  | resource key id =>
    refine ⟨rfl, fun _ => rfl, fun key' => ?_⟩
    rw [resourceIds, assign, resourceEntries_insert]
    by_cases hkey : key' = key
    · rw [if_pos hkey, ids_setIn, hkey]
      rfl
    · rw [if_neg hkey]
      rfl

namespace SameIds

variable {s s' : Store}

theorem sequencePairs (h : s.SameIds s') : s'.sequencePairs = s.sequencePairs := by
  simp only [Store.sequencePairs, h.sequences]

/-- Listings show identifiers only. -/
theorem uuids (h : s.SameIds s') (kind : ContextKind) (scope : Scope) :
    s'.uuids kind scope = s.uuids kind scope := by
  have hresources : ∀ key, (s'.resourceEntries key).map (fun e => toString e.id) =
      (s.resourceEntries key).map fun e => toString e.id := by
    intro key
    have hids := congrArg (List.map toString) (h.resources key)
    simpa only [resourceIds, List.map_map, Function.comp_def] using hids
  obtain ⟨segment, sequence, resource⟩ := scope
  cases kind with
  | dynamic | tmp => rfl
  | segment => simp only [Store.uuids, h.segments]
  | sequence =>
    cases sequence with
    | none => simp only [Store.uuids, Scope.sequenceType?, Option.map_none, h.sequencePairs]
    | some p => simp only [Store.uuids, Scope.sequenceType?, Option.map_some, h.sequences]
  | resource =>
    rcases segment with _ | segment
    · rfl
    rcases sequence with _ | ⟨t, sequence⟩
    · rfl
    simp only [Store.uuids, resourcesIn, Except.map, hresources]

end SameIds

/-! ## Reading after an assignment -/

/-- Every parameter map of a store is consistent. -/
def ConsistentMaps (s : Store) : Prop :=
  ∀ place, ∀ m ∈ s.paramsAt place, m.Consistent

theorem run_consistentMaps (calls : List Call) : (empty.run calls).ConsistentMaps :=
  fun place m hm => ((run_represented calls).2.records place m hm).consistent

namespace ConsistentMaps

variable {s : Store}

theorem sequence (h : s.ConsistentMaps) {t : SequenceType} {e : Entry SequenceId}
    (he : e ∈ s.sequenceEntries t) : e.params.Consistent :=
  h (.sequence t e.id) _ (List.mem_map_of_mem (List.mem_filter.mpr ⟨he, by simp⟩))

theorem resource (h : s.ConsistentMaps) {key : ResourceKey} {e : Entry ResourceId}
    (he : e ∈ s.resourceEntries key) : e.params.Consistent :=
  h (.resource key e.id) _ (List.mem_map_of_mem (List.mem_filter.mpr ⟨he, by simp⟩))

end ConsistentMaps

section Entries

variable {ι : Type} [DecidableEq ι] [ToString ι] {entries : List (Entry ι)} {id : ι}
  {name : String} {param : Param}

/-- The entry that was assigned to has the value. -/
theorem entryValue_setIn_self (hentries : ∀ e ∈ entries, e.params.Consistent)
    (hid : id ∈ entries.map (·.id)) (huuid : name ≠ "uuid") (hindex : name ≠ "index")
    (unknown : ι → NotFoundReason) :
    (pick (setIn id name param entries) (·.id) (.ok id) unknown .current >>= entryValue name) =
      .ok param.value := by
  obtain ⟨i, e, hpick, hi, heq⟩ := Template.pick_current hid unknown
  rw [setIn_eq_map, pick_map (id_setEntry id name param), hpick]
  exact entryValue_setEntry_self i (hentries e (List.mem_of_getElem? hi)) heq huuid hindex

omit [ToString ι] in
theorem mem_of_pick {current : Except NotFoundReason ι} {unknown : ι → NotFoundReason}
    {selector : Selector} {found : Nat × Entry ι}
    (h : pick entries (·.id) current unknown selector = .ok found) : found.2 ∈ entries := by
  cases Template.pick_eq_ok.mp h with
  | index he => exact List.mem_of_getElem? he
  | current he _ _ => exact List.mem_of_getElem? he

/-- What is read at another entry, or of another name, stays. -/
theorem entryValue_setIn_ne {current : Except NotFoundReason ι} {unknown : ι → NotFoundReason}
    {selector : Selector} {name' : String} (hentries : ∀ e ∈ entries, e.params.Consistent)
    (h : ∀ found, pick entries (·.id) current unknown selector = .ok found →
      found.2.id ≠ id ∨ name' ≠ name ∨ name = "uuid" ∨ name = "index") :
    (pick (setIn id name param entries) (·.id) current unknown selector >>= entryValue name') =
      (pick entries (·.id) current unknown selector >>= entryValue name') := by
  rw [setIn_eq_map, pick_map (id_setEntry id name param)]
  cases hpick : pick entries (·.id) current unknown selector with
  | error reason => rfl
  | ok found =>
    exact entryValue_setEntry_ne found.1 (hentries _ (mem_of_pick hpick)) (h found hpick)

end Entries

/-- The map that a parameter call writes to is the one that a look-up in the same scope reads. -/
theorem find_assign_self {s : Store} (hs : s.ConsistentMaps) {kind : ContextKind} {scope : Scope}
    {place : ParamPlace} (hplace : ParamPlace.inScope? kind scope = some place)
    (hhas : s.Has place) {name : String} (hname : name ∉ kind.builtinNames) (param : Param) :
    (s.assign name param place).find kind scope .current name = .ok param.value := by
  obtain ⟨segment, sequence, resource⟩ := scope
  cases kind with
  | dynamic =>
    obtain rfl := Option.some.inj hplace
    exact stored_insert_self (hs .dynamic _ (List.mem_singleton.mpr rfl)) name param
  | tmp =>
    obtain rfl := Option.some.inj hplace
    exact stored_insert_self (hs .tmp _ (List.mem_singleton.mpr rfl)) name param
  | segment => cases hplace
  | sequence =>
    simp only [ContextKind.builtinNames, List.mem_cons, List.not_mem_nil, or_false, not_or] at hname
    obtain ⟨huuid, hindex, hnum, htype⟩ := hname
    rcases sequence with _ | ⟨t, id⟩
    · cases hplace
    obtain rfl := Option.some.inj hplace
    simp only [find, Scope.sequenceType?, Option.map_some, hnum, htype, if_false, sequenceAt, assign,
      sequenceEntries_modify, if_true]
    exact entryValue_setIn_self (fun e he => hs.sequence he) hhas huuid hindex _
  | resource =>
    simp only [ContextKind.builtinNames, List.mem_cons, List.not_mem_nil, or_false, not_or] at hname
    obtain ⟨huuid, hindex, hnum⟩ := hname
    rcases segment with _ | segment
    · cases hplace
    rcases sequence with _ | ⟨t, sequence⟩
    · cases hplace
    rcases resource with _ | id
    · cases hplace
    obtain rfl := Option.some.inj hplace
    simp only [find, resourcesIn, assign, resourceEntries_insert, if_true, hnum, if_false]
    exact entryValue_setIn_self (fun e he => hs.resource he) hhas huuid hindex _

/-- The map of a sequence that is found is the one that the look-up addresses. -/
theorem addressed?_sequence {s : Store} {scope : Scope} {t : SequenceType} {current : SequenceId}
    (hscope : scope.sequence = some (t, current)) {selector : Selector}
    {unknown : SequenceId → NotFoundReason} {found : Nat × Entry SequenceId}
    (h : pick (s.sequenceEntries t) (·.id) (.ok current) unknown selector = .ok found) :
    s.addressed? .sequence scope selector = some (.sequence t found.2.id) := by
  obtain ⟨segment, sequence, resource⟩ := scope
  obtain rfl : sequence = some (t, current) := hscope
  cases Template.pick_eq_ok.mp h with
  | index he => cases segment <;> simp [addressed?, sequenceIds, he]
  | current _ hc _ =>
    obtain rfl := Option.some.inj hc
    rfl

/-- The map of a resource that is found is the one that the look-up addresses. -/
theorem addressed?_resource {s : Store} {scope : Scope} {key : ResourceKey}
    (hsegment : scope.segment = some key.segment)
    (hsequence : scope.sequence = some (key.type, key.sequence)) {selector : Selector}
    {found : Nat × Entry ResourceId}
    (h : resourceAt (s.resourceEntries key) scope selector = .ok found) :
    s.addressed? .resource scope selector = some (.resource key found.2.id) := by
  obtain ⟨segment, sequence, resource⟩ := scope
  obtain rfl : segment = some key.segment := hsegment
  obtain rfl : sequence = some (key.type, key.sequence) := hsequence
  cases Template.resourceAt_eq_ok.mp h with
  | index he => simp [addressed?, resourceIds, he]
  | current _ hc _ =>
    obtain rfl : resource = _ := hc
    rfl

theorem find_assign_sequence_ne {s : Store} (hs : s.ConsistentMaps) {t : SequenceType}
    {id : SequenceId} {name name' : String} (param : Param) (kind : ContextKind) (scope : Scope)
    (selector : Selector)
    (h : s.addressed? kind scope selector ≠ some (.sequence t id) ∨ name' ≠ name ∨
      name ∈ ContextKind.sequence.builtinNames) :
    (s.assign name param (.sequence t id)).find kind scope selector name' =
      s.find kind scope selector name' := by
  cases kind with
  | dynamic | tmp | segment | resource => rfl
  | sequence =>
    cases hscope : scope.sequence with
    | none => simp only [find, Scope.sequenceType?, hscope, Option.map_none]
    | some p =>
      obtain ⟨t', current⟩ := p
      simp only [find, Scope.sequenceType?, hscope, Option.map_some, sequenceAt, assign,
        sequenceEntries_modify]
      by_cases ht : t' = t
      · subst ht
        rw [if_pos rfl, setIn_eq_map, List.length_map, ← setIn_eq_map]
        by_cases hnum : name' = "num"
        · rw [if_pos hnum, if_pos hnum]
        by_cases htype : name' = "type"
        · rw [if_neg hnum, if_neg hnum, if_pos htype, if_pos htype]
        rw [if_neg hnum, if_neg hnum, if_neg htype, if_neg htype]
        refine entryValue_setIn_ne (fun e he => hs.sequence he) fun found hfound => ?_
        rcases h with h | h | h
        · exact .inl fun heq => h (heq ▸ addressed?_sequence hscope hfound)
        · exact .inr (.inl h)
        · simp only [ContextKind.builtinNames, List.mem_cons, List.not_mem_nil, or_false] at h
          rcases h with rfl | rfl | rfl | rfl
          · exact .inr (.inr (.inl rfl))
          · exact .inr (.inr (.inr rfl))
          -- These two are answered before any map is read.
          · exact .inr (.inl hnum)
          · exact .inr (.inl htype)
      · simp only [ht, if_false]

theorem find_assign_resource_ne {s : Store} (hs : s.ConsistentMaps) {key : ResourceKey}
    {id : ResourceId} {name name' : String} (param : Param) (kind : ContextKind) (scope : Scope)
    (selector : Selector)
    (h : s.addressed? kind scope selector ≠ some (.resource key id) ∨ name' ≠ name ∨
      name ∈ ContextKind.resource.builtinNames) :
    (s.assign name param (.resource key id)).find kind scope selector name' =
      s.find kind scope selector name' := by
  cases kind with
  | dynamic | tmp | segment | sequence => rfl
  | resource =>
    cases hsegment : scope.segment with
    | none => simp only [find, resourcesIn, hsegment]
    | some segment =>
      cases hsequence : scope.sequence with
      | none => simp only [find, resourcesIn, hsegment, hsequence]
      | some p =>
        obtain ⟨t, sequence⟩ := p
        simp only [find, resourcesIn, hsegment, hsequence, assign, resourceEntries_insert]
        by_cases hkey : (⟨segment, t, sequence⟩ : ResourceKey) = key
        · subst hkey
          simp only [if_true, bind, Except.bind]
          rw [setIn_eq_map, List.length_map, ← setIn_eq_map]
          by_cases hnum : name' = "num"
          · rw [if_pos hnum, if_pos hnum]
          rw [if_neg hnum, if_neg hnum]
          refine entryValue_setIn_ne (fun e he => hs.resource he) fun found hfound => ?_
          rcases h with h | h | h
          · exact .inl fun heq => h (heq ▸ addressed?_resource hsegment hsequence hfound)
          · exact .inr (.inl h)
          · simp only [ContextKind.builtinNames, List.mem_cons, List.not_mem_nil, or_false] at h
            rcases h with rfl | rfl | rfl
            · exact .inr (.inr (.inl rfl))
            · exact .inr (.inr (.inr rfl))
            · exact .inr (.inl hnum)
        · simp only [hkey, if_false]

/-- A look-up elsewhere, or of another name, does not notice an assignment. A name that the
store answers itself hides what is assigned to it. -/
theorem find_assign_ne {s : Store} (hs : s.ConsistentMaps) {kind : ContextKind} {scope : Scope}
    {place : ParamPlace} (hplace : ParamPlace.inScope? kind scope = some place) {name name' : String}
    (param : Param) (kind' : ContextKind) (scope' : Scope) (selector : Selector)
    (h : s.addressed? kind' scope' selector ≠ some place ∨ name' ≠ name ∨
      name ∈ kind.builtinNames) :
    (s.assign name param place).find kind' scope' selector name' =
      s.find kind' scope' selector name' := by
  obtain ⟨segment, sequence, resource⟩ := scope
  cases kind with
  | dynamic =>
    obtain rfl := Option.some.inj hplace
    cases kind' with
    | dynamic =>
      have hne : name' ≠ name := by
        cases selector <;> simpa [addressed?, ParamPlace.inScope?, ContextKind.builtinNames] using h
      exact stored_insert_ne (hs .dynamic _ (List.mem_singleton.mpr rfl)) param hne
    | _ => rfl
  | tmp =>
    obtain rfl := Option.some.inj hplace
    cases kind' with
    | tmp =>
      have hne : name' ≠ name := by
        cases selector <;> simpa [addressed?, ParamPlace.inScope?, ContextKind.builtinNames] using h
      exact stored_insert_ne (hs .tmp _ (List.mem_singleton.mpr rfl)) param hne
    | _ => rfl
  | segment => cases hplace
  | sequence =>
    rcases sequence with _ | ⟨t, id⟩
    · cases hplace
    obtain rfl := Option.some.inj hplace
    exact find_assign_sequence_ne hs param kind' scope' selector h
  | resource =>
    rcases segment with _ | segment
    · cases hplace
    rcases sequence with _ | ⟨t, sequence⟩
    · cases hplace
    rcases resource with _ | id
    · cases hplace
    obtain rfl := Option.some.inj hplace
    exact find_assign_resource_ne hs param kind' scope' selector h

/-! ## Calls in place -/

/-- Find the map, then insert into it. -/
def addParameterInPlace (kind : ContextKind) (scope : Scope) (name : String) (param : Param) :
    StoreM Unit := do
  match (← get).locate kind scope with
  | .error reason => throw (NotFound.mk (referenceText kind name) reason).toCause
  | .ok place => modify fun s => s.assign name param place

/-- Check the segment, the sequence and the owner, record the owner, and list the resource. -/
def addResourceInPlace (key : ResourceKey) (id : ResourceId) : StoreM Unit := do
  if key.segment ∉ (← get).segments then
    throw (registrationFailure (.unknownSegment key.segment))
  if key.sequence ∉ (← get).sequenceIds key.type then
    throw (registrationFailure (.unknownSequence key.type key.sequence))
  if let some owner := (← get).owners.get? id then
    if owner ≠ key then
      throw (.config (.resourceTaken id owner.segment owner.type owner.sequence))
  modify fun s => { s with owners := s.owners.insert id key }
  modify fun s =>
    { s with resources := s.resources.insert key (register id (s.resourceEntries key)) }

/-- In place, a parameter call comes to the same, and to nothing if it fails. -/
theorem result_addParameterInPlace (s : Store) (kind : ContextKind) (scope : Scope)
    (name : String) (param : Param) :
    (addParameterInPlace kind scope name param).result s =
      match s.addParameter kind scope name param with
      | .ok s' => (.ok (), s')
      | .error missing => (.error missing.toCause, s) := by
  rw [addParameter_eq_assign, addParameterInPlace, StoreM.result_bind, StoreM.result_get]
  cases hplace : s.locate kind scope <;> simp only [hplace] <;> rfl

/-- In place, a resource call comes to the same, and to nothing if it fails. -/
theorem result_addResourceInPlace (s : Store) (key : ResourceKey) (id : ResourceId) :
    (addResourceInPlace key id).result s =
      match s.addResource key id with
      | .ok s' => (.ok (), s')
      | .error cause => (.error cause, s) := by
  -- All checks come before the first write, so a failure meets the store as it was.
  unfold addResource
  by_cases hsegment : key.segment ∈ s.segments
  · by_cases hsequence : key.sequence ∈ s.sequenceIds key.type
    · cases howner : s.owners.get? id with
      | none =>
        simp [addResourceInPlace, StoreM.result_bind, hsegment, hsequence, howner]
        rfl
      | some owner =>
        by_cases hown : owner = key
        · simp [addResourceInPlace, StoreM.result_bind, hsegment, hsequence, howner, hown]
          rfl
        · simp [addResourceInPlace, StoreM.result_bind, hsegment, hsequence, howner, hown]
    · simp [addResourceInPlace, StoreM.result_bind, hsegment, hsequence]
  · simp [addResourceInPlace, StoreM.result_bind, hsegment]

/-! ## The effect of a call -/

/-- A parameter call that succeeds is read back, and disturbs nothing else. -/
theorem written_of_addParameter {s s' : Store} (hs : s.ConsistentMaps) {kind : ContextKind}
    {scope : Scope} {name : String} {param : Param}
    (h : s.addParameter kind scope name param = .ok s') : s.Written kind scope name param s' := by
  obtain ⟨place, hplace, hhas, rfl⟩ := addParameter_ok h
  have hids := sameIds_assign s name param place
  refine ⟨fun hname scope' hagree => ?_, fun kind' scope' selector name' hother => ?_, hids,
    hids.uuids, hids.sequencePairs⟩
  · have hplace' : ParamPlace.inScope? kind scope' = some place :=
      (ParamPlace.inScope?_congr hagree).symm.trans hplace
    rw [getParameter, lookup, find_assign_self hs hplace' hhas hname param]
    rfl
  · rw [hplace] at hother
    have helsewhere : s.addressed? kind' scope' selector ≠ some place ∨ name' ≠ name ∨
        name ∈ kind.builtinNames := by
      rcases hother with hkind | hother
      · refine .inl fun haddressed => hkind ?_
        rw [← kind_of_addressed? haddressed, ParamPlace.kind_of_inScope? hplace]
      · exact hother
    rw [lookup, lookup, find_assign_ne hs hplace param kind' scope' selector helsewhere]

/-- In every store that calls can build, a parameter call that succeeds has its value read in
every scope that means the same entry, while every other look-up and every listing answers as
before; a parameter or a resource call that fails, and that works in place, leaves the store
as it was. -/
theorem addParameter_effect (calls : List Call) (kind : ContextKind) (scope : Scope)
    (name : String) (param : Param) (key : ResourceKey) (id : ResourceId) :
    (match (empty.run calls).addParameter kind scope name param with
      | .ok s' =>
        (empty.run calls).Written kind scope name param s' ∧
          (addParameterInPlace kind scope name param).result (empty.run calls) = (.ok (), s')
      | .error missing =>
        (addParameterInPlace kind scope name param).result (empty.run calls) =
          (.error missing.toCause, empty.run calls)) ∧
    match (empty.run calls).addResource key id with
      | .ok s' => (addResourceInPlace key id).result (empty.run calls) = (.ok (), s')
      | .error cause =>
        (addResourceInPlace key id).result (empty.run calls) = (.error cause, empty.run calls) := by
  constructor
  · rw [result_addParameterInPlace]
    cases h : (empty.run calls).addParameter kind scope name param with
    | ok s' => exact ⟨written_of_addParameter (run_consistentMaps calls) h, rfl⟩
    | error missing => rfl
  · rw [result_addResourceInPlace]
    cases (empty.run calls).addResource key id <;> rfl

/-- Sequences of different types may have the same identifier, and do not share parameters. -/
example :
    let scope (t : SequenceType) : Scope := ⟨none, some (t, ⟨⟨1⟩⟩), none⟩
    let s := empty.run [.addSequence .video ⟨⟨1⟩⟩, .addSequence .audio ⟨⟨1⟩⟩,
      .addParameter .sequence (scope .video) "fps" (.keep "25")]
    s.getParameter .sequence (scope .video) "fps" = .ok "25" ∧
      s.hasParameter .sequence (scope .audio) "fps" = false := by
  decide +kernel

end Store

end MediaPipeline

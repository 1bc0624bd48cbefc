import MediaPipeline.Proofs.Registration
import MediaPipeline.Store.Lookup

/-!
# What the scans of parameters list

A scan goes through the hierarchy of a store: it makes up every pair of a segment and a
sequence and looks for the resources that the pair has. `placesOf` says from the calls that
built the store which parameter maps there are, in the order of the hierarchy, and
`allParameters_scansOnce` that a scan goes through just these, each of them once, and lists
for each what was inserted into it.
-/

namespace MediaPipeline

/-! ## What a log leaves -/

section Log

variable {κ α : Type} [DecidableEq κ]

/-- The keys of a log in the order of their first insertion, each with the value that was
inserted last. -/
def latest (log : List (κ × α)) : List (κ × α) :=
  (log.map (·.1)).eraseDups.filterMap fun k => (lastValue? k log).map fun v => (k, v)

theorem mem_keys_of_lastValue? {k : κ} {v : α} {log : List (κ × α)}
    (h : lastValue? k log = some v) : k ∈ log.map (·.1) := by
  obtain ⟨e, he, -⟩ := Option.map_eq_some_iff.mp h
  have hk : e.1 = k := by simpa using List.find?_some he
  exact hk ▸ List.mem_map_of_mem (List.mem_reverse.mp (List.mem_of_find?_eq_some he))

theorem lastValue?_of_mem_keys {k : κ} {log : List (κ × α)} (h : k ∈ log.map (·.1)) :
    ∃ v, lastValue? k log = some v := by
  obtain ⟨e, he, rfl⟩ := List.mem_map.mp h
  have hsome : (log.reverse.find? fun e' => e'.1 = e.1).isSome := by
    rw [List.find?_isSome]
    exact ⟨e, List.mem_reverse.mpr he, by simp⟩
  obtain ⟨e', he'⟩ := Option.isSome_iff_exists.mp hsome
  exact ⟨e'.2, by rw [lastValue?, he']; rfl⟩

theorem mem_latest {k : κ} {v : α} {log : List (κ × α)} :
    (k, v) ∈ latest log ↔ lastValue? k log = some v := by
  rw [latest, List.mem_filterMap]
  constructor
  · rintro ⟨k', -, hk'⟩
    obtain ⟨v', hv', heq⟩ := Option.map_eq_some_iff.mp hk'
    cases heq
    exact hv'
  · intro h
    exact ⟨k, List.mem_eraseDups.mpr (mem_keys_of_lastValue? h), by rw [h]; rfl⟩

theorem keys_latest (log : List (κ × α)) :
    (latest log).map (·.1) = (log.map (·.1)).eraseDups := by
  rw [latest, List.map_filterMap]
  have hkey : ∀ k ∈ (log.map (·.1)).eraseDups,
      ((lastValue? k log).map fun v => (k, v)).map (·.1) = some k := by
    intro k hk
    obtain ⟨v, hv⟩ := lastValue?_of_mem_keys (List.mem_eraseDups.mp hk)
    rw [hv]
    rfl
  rw [List.filterMap_congr hkey, List.filterMap_some]

namespace IndexedMap.Records

variable {m : IndexedMap κ α} {log : List (κ × α)}

/-- The entries of a map are what its log leaves. -/
theorem entries_eq (h : m.Records log) : m.entries = latest log := by
  have hentry : ∀ e ∈ m.entries, (lastValue? e.1 log).map (fun v => (e.1, v)) = some e := by
    intro e he
    rw [h.last e he]
    rfl
  rw [latest, ← h.order, keys, List.filterMap_map]
  exact ((List.filterMap_congr hentry).trans List.filterMap_some).symm

/-- A look-up finds what was inserted last. -/
theorem get?_eq (h : m.Records log) (k : κ) : m.get? k = lastValue? k log := by
  refine Option.ext fun v => ?_
  rw [h.consistent.get?_eq_some, h.entries_eq, mem_latest]

end IndexedMap.Records

end Log

/-! ## Places -/

namespace Store

/-- Whether a parameter map is one of those that calls have made. -/
def Known (calls : List Call) : ParamPlace → Prop
  | .dynamic | .tmp => True
  | .sequence t id => .addSequence t id ∈ calls
  | .resource key id => (key, id) ∈ empty.additions calls

/-- The parameter maps of a kind that calls have made, in the order of the hierarchy:
resources by segment, then by sequence. -/
def placesOf (calls : List Call) : ContextKind → List ParamPlace
  | .dynamic => [.dynamic]
  | .tmp => [.tmp]
  | .segment => []
  | .sequence => SequenceType.all.flatMap fun t =>
    ((Registry.ofCalls calls).sequences t).map (.sequence t)
  | .resource => (Registry.ofCalls calls).segments.flatMap fun segment =>
    SequenceType.all.flatMap fun t =>
      ((Registry.ofCalls calls).sequences t).flatMap fun sequence =>
        (resourcesAdded calls ⟨segment, t, sequence⟩).map (.resource ⟨segment, t, sequence⟩)

variable {calls : List Call} {kind : ContextKind}

theorem mem_sequences_iff {t : SequenceType} {id : SequenceId} :
    id ∈ (Registry.ofCalls calls).sequences t ↔ .addSequence t id ∈ calls := by
  simp only [Registry.ofCalls, List.mem_eraseDups, List.mem_filterMap]
  constructor
  · rintro ⟨c, hc, hid⟩
    cases c with
    | addSequence t' id' =>
      simp only [Call.sequence?, Option.ite_none_right_eq_some, Option.some.injEq] at hid
      obtain ⟨rfl, rfl⟩ := hid
      exact hc
    | _ => cases hid
  · intro hc
    exact ⟨_, hc, if_pos rfl⟩

theorem mem_placesOf {place : ParamPlace} :
    place ∈ placesOf calls kind ↔ place.kind = kind ∧ Known calls place := by
  have hall (t : SequenceType) : t ∈ SequenceType.all := by cases t <;> decide
  cases kind with
  | dynamic | tmp | segment => cases place <;> simp [placesOf, ParamPlace.kind, Known]
  | sequence =>
    cases place with
    | sequence t id => simp [placesOf, ParamPlace.kind, Known, hall, mem_sequences_iff]
    | _ => simp [placesOf, ParamPlace.kind]
  | resource =>
    cases place with
    | resource key id =>
      simp only [placesOf, ParamPlace.kind, Known, List.mem_flatMap, List.mem_map,
        mem_resourcesAdded, ParamPlace.resource.injEq, true_and]
      constructor
      · rintro ⟨segment, -, t, -, sequence, -, id, hadded, rfl, rfl⟩
        exact hadded
      · intro hadded
        obtain ⟨hsegment, hsequence⟩ := registered_of_added hadded
        exact ⟨_, hsegment, _, hall _, _, hsequence, id, hadded, rfl, rfl⟩
    | _ => simp [placesOf, ParamPlace.kind]

/-- Lists that tell what they were made for have nothing in common. -/
theorem nodup_flatMap_of_unique {α β : Type} {l : List α} {f : α → List β} (hl : l.Nodup)
    (hf : ∀ a ∈ l, (f a).Nodup) (hunique : ∀ a b y, y ∈ f a → y ∈ f b → a = b) :
    (l.flatMap f).Nodup :=
  List.nodup_flatMap.mpr ⟨hf, hl.imp fun {a b} hne y ha hb => hne (hunique a b y ha hb)⟩

theorem nodup_placesOf (calls : List Call) (kind : ContextKind) : (placesOf calls kind).Nodup := by
  have hdistinct := Registry.distinct_ofCalls calls
  have hall : SequenceType.all.Nodup := by decide
  cases kind with
  | dynamic | tmp => exact List.nodup_singleton _
  | segment => exact List.nodup_nil
  | sequence =>
    refine nodup_flatMap_of_unique hall (fun t _ => ?_) fun a b y ha hb => ?_
    · exact (hdistinct.sequences t).map fun _ _ h => (ParamPlace.sequence.inj h).2
    · obtain ⟨_, -, rfl⟩ := List.mem_map.mp ha
      obtain ⟨_, -, heq⟩ := List.mem_map.mp hb
      exact (ParamPlace.sequence.inj heq).1.symm
  | resource =>
    have hkey {key key' : ResourceKey} {y : ParamPlace}
        (h : y ∈ (resourcesAdded calls key).map (.resource key))
        (h' : y ∈ (resourcesAdded calls key').map (.resource key')) : key = key' := by
      obtain ⟨_, -, rfl⟩ := List.mem_map.mp h
      obtain ⟨_, -, heq⟩ := List.mem_map.mp h'
      exact (ParamPlace.resource.inj heq).1.symm
    have hresources (key : ResourceKey) : (resourcesAdded calls key).Nodup := by
      rw [← resourceIds_run]
      exact (run_represented_from .empty .empty calls).1.nodup_resourceIds key
    -- A place tells its segment, its type and its sequence, one for each level.
    refine nodup_flatMap_of_unique hdistinct.segments (fun segment _ => ?_) fun a b y ha hb => ?_
    · refine nodup_flatMap_of_unique hall (fun t _ => ?_) fun a b y ha hb => ?_
      · refine nodup_flatMap_of_unique (hdistinct.sequences t) (fun sequence _ => ?_)
          fun a b y ha hb => congrArg ResourceKey.sequence (hkey ha hb)
        exact (hresources _).map fun _ _ h => (ParamPlace.resource.inj h).2
      · obtain ⟨_, -, ha⟩ := List.mem_flatMap.mp ha
        obtain ⟨_, -, hb⟩ := List.mem_flatMap.mp hb
        exact congrArg ResourceKey.type (hkey ha hb)
    · obtain ⟨_, -, ha⟩ := List.mem_flatMap.mp ha
      obtain ⟨_, -, ha⟩ := List.mem_flatMap.mp ha
      obtain ⟨_, -, hb⟩ := List.mem_flatMap.mp hb
      obtain ⟨_, -, hb⟩ := List.mem_flatMap.mp hb
      exact congrArg ResourceKey.segment (hkey ha hb)

/-! ## Scans -/

/-- The entries of the sequences and the resources hold what was inserted for them. -/
theorem records_sequence {t : SequenceType} {e : Entry SequenceId}
    (he : e ∈ (empty.run calls).sequenceEntries t) :
    e.params.Records (empty.insertions (.sequence t e.id) calls) :=
  (run_represented_from .empty .empty calls).2.records (.sequence t e.id) _
    (List.mem_map_of_mem (List.mem_filter.mpr ⟨he, by simp⟩))

theorem records_resource {key : ResourceKey} {e : Entry ResourceId}
    (he : e ∈ (empty.run calls).resourceEntries key) :
    e.params.Records (empty.insertions (.resource key e.id) calls) :=
  (run_represented_from .empty .empty calls).2.records (.resource key e.id) _
    (List.mem_map_of_mem (List.mem_filter.mpr ⟨he, by simp⟩))

/-- Entries list what the logs of their identifiers leave. -/
theorem flatMap_entries {ι : Type} {entries : List (Entry ι)} (log : ι → List (String × Param))
    (h : ∀ e ∈ entries, e.params.Records (log e.id)) :
    (entries.flatMap fun e => e.params.entries) =
      (entries.map (·.id)).flatMap fun id => latest (log id) := by
  rw [List.flatMap_map]
  exact List.flatMap_congr fun e he => (h e he).entries_eq

theorem allParameters_eq (calls : List Call) (kind : ContextKind) :
    (empty.run calls).allParameters kind =
      (placesOf calls kind).flatMap fun place => latest (empty.insertions place calls) := by
  have hlogged := (run_represented_from .empty .empty calls).2
  have hregistry := registry_run calls
  cases kind with
  | dynamic | tmp =>
    rw [placesOf, List.flatMap_singleton]
    exact (hlogged.records _ _ List.mem_cons_self).entries_eq
  | segment => rfl
  | sequence =>
    rw [placesOf, List.flatMap_assoc]
    refine List.flatMap_congr fun t _ => ?_
    rw [List.flatMap_map, ← hregistry]
    exact flatMap_entries (fun id => empty.insertions (.sequence t id) calls)
      fun e he => records_sequence he
  | resource =>
    rw [placesOf, List.flatMap_assoc, allParameters, resourceKeys, List.flatMap_assoc, ← hregistry]
    refine List.flatMap_congr fun segment _ => ?_
    rw [List.flatMap_map, sequencePairs, List.flatMap_assoc, List.flatMap_assoc]
    refine List.flatMap_congr fun t _ => ?_
    rw [List.flatMap_map, List.flatMap_assoc]
    refine List.flatMap_congr fun sequence _ => ?_
    rw [List.flatMap_map, ← resourceIds_run]
    exact flatMap_entries
      (fun id => empty.insertions (.resource ⟨segment, t, sequence⟩ id) calls)
      fun e he => records_resource he

/-- A listing of the parameters of a kind is complete and free of duplicates. -/
structure ScansOnce (calls : List Call) (kind : ContextKind) (listing : List (String × Param)) :
    Prop where
  /-- It goes through the parameter maps in the order of the hierarchy. -/
  listing : listing =
    (placesOf calls kind).flatMap fun place => latest (empty.insertions place calls)
  /-- It goes through all of those that calls have made, and through no others. -/
  complete : ∀ place, place ∈ placesOf calls kind ↔ place.kind = kind ∧ Known calls place
  once : (placesOf calls kind).Nodup
  /-- A resource is listed for one pair only. -/
  owner : ∀ key key' id, .resource key id ∈ placesOf calls kind →
    .resource key' id ∈ placesOf calls kind → key = key'
  /-- For each map it lists every name that was inserted, once, by first insertion. -/
  names : ∀ place, (latest (empty.insertions place calls)).map (·.1) =
    ((empty.insertions place calls).map (·.1)).eraseDups
  distinct : ∀ place, ((latest (empty.insertions place calls)).map (·.1)).Nodup
  /-- Each name is listed with what was inserted last. -/
  values : ∀ place name param, (name, param) ∈ latest (empty.insertions place calls) ↔
    lastValue? name (empty.insertions place calls) = some param

/-- Whatever calls have built a store, successful or not, a scan of it lists every parameter of
every parameter map that they have made exactly once. -/
theorem allParameters_scansOnce (calls : List Call) (kind : ContextKind) :
    ScansOnce calls kind ((empty.run calls).allParameters kind) where
  listing := allParameters_eq calls kind
  complete _ := mem_placesOf
  once := nodup_placesOf calls kind
  owner key key' id h h' := by
    have howner {k : ResourceKey} (hk : .resource k id ∈ placesOf calls kind) :
        (empty.run calls).owners.get? id = some k := by
      rw [(run_represented_from .empty .empty calls).1.owner_iff, resourceIds_run,
        mem_resourcesAdded]
      exact (mem_placesOf.mp hk).2
    exact Option.some.inj ((howner h).symm.trans (howner h'))
  names place := keys_latest _
  distinct place := by
    rw [keys_latest]
    exact nodup_eraseDups _
  values place name param := mem_latest

end Store

end MediaPipeline

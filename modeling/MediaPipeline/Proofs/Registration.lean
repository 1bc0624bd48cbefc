import MediaPipeline.Proofs.ParameterWrites
import Mathlib.Data.List.Induction

/-!
# What is registered

The segments, sequences and resources of a store are what the calls that built it have
registered, each identifier where it was registered first. For segments and sequences this
can be read off the calls alone (`registry_run`); whether a resource is added also depends on
the store that the call finds (`resourceIds_run`).
-/

namespace MediaPipeline

/-! ## Segments and sequences -/

/-- The segments, and the sequences of each type, in their orders. -/
@[ext]
structure Registry where
  segments : List SegmentId
  sequences : SequenceType → List SequenceId

/-- What a store has registered. -/
def Store.registry (s : Store) : Registry := ⟨s.segments, s.sequenceIds⟩

/-- The segment that a call registers. -/
def Store.Call.segment? : Store.Call → Option SegmentId
  | .addSegment id => some id
  | _ => none

/-- The sequence of a type that a call registers. -/
def Store.Call.sequence? (t : SequenceType) : Store.Call → Option SequenceId
  | .addSequence t' id => if t' = t then some id else none
  | _ => none

/-- What calls register: each identifier counts where it comes first. -/
def Registry.ofCalls (calls : List Store.Call) : Registry where
  segments := (calls.filterMap (·.segment?)).eraseDups
  sequences t := (calls.filterMap (·.sequence? t)).eraseDups

section Append

variable {α : Type} [DecidableEq α]

/-- Append an element unless it is there. -/
def appendNew (l : List α) (a : α) : List α := if a ∈ l then l else l ++ [a]

theorem foldl_appendNew (l : List α) : l.foldl appendNew [] = l.eraseDups := by
  induction l using List.reverseRecOn with
  | nil => rfl
  | append_singleton l a ih =>
    rw [List.foldl_append, ih, List.eraseDups_append, List.foldl_cons, List.foldl_nil, appendNew]
    by_cases ha : a ∈ l
    · simp [List.removeAll, ha]
    · simp [List.removeAll, ha, List.eraseDups_cons]

/-- What is appended only if it is new occurs once. -/
theorem nodup_eraseDups (l : List α) : l.eraseDups.Nodup := by
  induction l using List.reverseRecOn with
  | nil => exact List.nodup_nil
  | append_singleton l a ih =>
    rw [← foldl_appendNew, List.foldl_append, foldl_appendNew, List.foldl_cons, List.foldl_nil,
      appendNew]
    by_cases ha : a ∈ l.eraseDups
    · rwa [if_pos ha]
    · rw [if_neg ha, List.nodup_append_comm]
      exact List.nodup_cons.mpr ⟨ha, ih⟩

end Append

namespace Store

theorem segments_addSegment (s : Store) (id : SegmentId) :
    (s.addSegment id).segments = appendNew s.segments id := by
  unfold addSegment appendNew
  split <;> rfl

theorem sequenceIds_addSegment (s : Store) (id : SegmentId) (t : SequenceType) :
    (s.addSegment id).sequenceIds t = s.sequenceIds t := by
  unfold addSegment
  split <;> rfl

theorem sequenceIds_addSequence (s : Store) (t t' : SequenceType) (id : SequenceId) :
    (s.addSequence t' id).sequenceIds t =
      if t' = t then appendNew (s.sequenceIds t) id else s.sequenceIds t := by
  rw [sequenceIds, addSequence, sequenceEntries_modify]
  by_cases ht : t = t'
  · rw [if_pos ht, if_pos ht.symm, ids_register, ht]
    rfl
  · rw [if_neg ht, if_neg (Ne.symm ht), sequenceIds]

/-- An assignment registers nothing. -/
theorem registry_assign (s : Store) (name : String) (param : Param) (place : ParamPlace) :
    (s.assign name param place).registry = s.registry := by
  have hids := sameIds_assign s name param place
  exact Registry.ext hids.segments (funext hids.sequences)

/-- A call that registers neither a segment nor a sequence. -/
theorem registry_after (s : Store) {c : Call} (hsegment : c.segment? = none)
    (hsequence : ∀ t, c.sequence? t = none) : (s.after c).registry = s.registry := by
  unfold after
  cases hc : s.perform c with
  | error cause => rfl
  | ok s' =>
    cases c with
    | addSegment id => cases hsegment
    | addSequence t id =>
      have ht := hsequence t
      rw [Call.sequence?, if_pos rfl] at ht
      cases ht
    | addResource key id =>
      obtain ⟨-, -, rfl⟩ := addResource_ok hc
      rfl
    | addParameter kind scope name param =>
      cases hadd : s.addParameter kind scope name param with
      | error missing =>
        rw [perform, hadd] at hc
        cases hc
      | ok s'' =>
        rw [perform, hadd] at hc
        obtain rfl := Except.ok.inj hc
        obtain ⟨place, -, -, rfl⟩ := addParameter_ok hadd
        exact registry_assign s name param place
    | setDynamic name value =>
      obtain rfl := Except.ok.inj hc
      rfl
    | setTmp name value cleanup =>
      obtain rfl := Except.ok.inj hc
      rfl

theorem segments_after (s : Store) (c : Call) :
    (s.after c).segments = c.segment?.toList.foldl appendNew s.segments := by
  have hrest := registry_after s (c := c)
  cases c with
  | addSegment id => exact segments_addSegment s id
  | addSequence t id => rfl
  | _ => exact congrArg Registry.segments (hrest rfl fun _ => rfl)

theorem sequenceIds_after (s : Store) (c : Call) (t : SequenceType) :
    (s.after c).sequenceIds t = (c.sequence? t).toList.foldl appendNew (s.sequenceIds t) := by
  have hrest := registry_after s (c := c)
  cases c with
  | addSegment id => exact sequenceIds_addSegment s id t
  | addSequence t' id =>
    have hids := sequenceIds_addSequence s t t' id
    rw [Call.sequence?]
    by_cases ht : t' = t
    · rwa [if_pos ht] at hids ⊢
    · rwa [if_neg ht] at hids ⊢
  | _ => exact congrFun (congrArg Registry.sequences (hrest rfl fun _ => rfl)) t

theorem segments_run (s : Store) (calls : List Call) :
    (s.run calls).segments = (calls.filterMap (·.segment?)).foldl appendNew s.segments := by
  induction calls generalizing s with
  | nil => rfl
  | cons c cs ih =>
    rw [run, ih, segments_after, ← List.foldl_append]
    simp only [List.filterMap_eq_flatMap_toList, List.flatMap_cons]

theorem sequenceIds_run (s : Store) (calls : List Call) (t : SequenceType) :
    (s.run calls).sequenceIds t =
      (calls.filterMap (·.sequence? t)).foldl appendNew (s.sequenceIds t) := by
  induction calls generalizing s with
  | nil => rfl
  | cons c cs ih =>
    rw [run, ih, sequenceIds_after, ← List.foldl_append]
    simp only [List.filterMap_eq_flatMap_toList, List.flatMap_cons]

/-- A store has registered what the calls that built it have registered. -/
theorem registry_run (calls : List Call) : (empty.run calls).registry = .ofCalls calls := by
  have hempty (t : SequenceType) : empty.sequenceIds t = [] := by
    cases t <;> rfl
  rw [registry, Registry.ofCalls, segments_run, ← foldl_appendNew]
  congr 1
  funext t
  rw [sequenceIds_run, hempty, foldl_appendNew]

theorem sequenceIds_ofCalls (calls : List Call) :
    (empty.run calls).sequenceIds = (Registry.ofCalls calls).sequences :=
  congrArg Registry.sequences (registry_run calls)

/-! ## Which resources are added -/

/-- The resource that a call adds if it succeeds, with the pair that it belongs to. -/
def addition? (s : Store) (c : Call) : Option (ResourceKey × ResourceId) :=
  match s.perform c, c with
  | .ok _, .addResource key id => some (key, id)
  | _, _ => none

/-- The resources that a sequence of calls adds, in the order of the calls. -/
def additions (s : Store) : List Call → List (ResourceKey × ResourceId)
  | [] => []
  | c :: cs => (s.addition? c).toList ++ (s.after c).additions cs

/-- The resource of an addition to a pair. -/
def addedTo? (key : ResourceKey) (added : ResourceKey × ResourceId) : Option ResourceId :=
  if added.1 = key then some added.2 else none

/-- The resources that calls add to a pair: each counts where it comes first. -/
def resourcesAdded (calls : List Call) (key : ResourceKey) : List ResourceId :=
  ((empty.additions calls).filterMap (addedTo? key)).eraseDups

theorem mem_resourcesAdded {calls : List Call} {key : ResourceKey} {id : ResourceId} :
    id ∈ resourcesAdded calls key ↔ (key, id) ∈ empty.additions calls := by
  rw [resourcesAdded, List.mem_eraseDups, List.mem_filterMap]
  constructor
  · rintro ⟨⟨key', id'⟩, hmem, hadded⟩
    simp only [addedTo?, Option.ite_none_right_eq_some, Option.some.injEq] at hadded
    obtain ⟨rfl, rfl⟩ := hadded
    exact hmem
  · intro hmem
    exact ⟨(key, id), hmem, if_pos rfl⟩

/-- A call appends the resource that it adds to the list of its pair, unless it is there. -/
theorem resourceIds_after (s : Store) (c : Call) (key : ResourceKey) :
    (s.after c).resourceIds key =
      ((s.addition? c).toList.filterMap (addedTo? key)).foldl appendNew (s.resourceIds key) := by
  unfold after addition?
  cases hc : s.perform c with
  | error cause => rfl
  | ok s' =>
    cases c with
    | addSegment id =>
      obtain rfl := Except.ok.inj hc
      show (s.addSegment id).resourceIds key = s.resourceIds key
      unfold addSegment
      split <;> rfl
    | addResource key' id =>
      obtain ⟨-, -, rfl⟩ := addResource_ok hc
      show resourceIds _ key = ([(key', id)].filterMap (addedTo? key)).foldl appendNew _
      rw [resourceIds, resourceEntries_insert]
      by_cases hkey : key = key'
      · subst hkey
        rw [if_pos rfl, ids_register]
        simp [addedTo?, appendNew, resourceIds]
      · rw [if_neg hkey]
        simp [addedTo?, Ne.symm hkey, resourceIds]
    | addParameter kind scope name param =>
      cases hadd : s.addParameter kind scope name param with
      | error missing =>
        rw [perform, hadd] at hc
        cases hc
      | ok s'' =>
        rw [perform, hadd] at hc
        obtain rfl := Except.ok.inj hc
        obtain ⟨place, -, -, rfl⟩ := addParameter_ok hadd
        exact (sameIds_assign s name param place).resources key
    | addSequence t id | setDynamic name value | setTmp name value cleanup =>
      obtain rfl := Except.ok.inj hc
      rfl

theorem resourceIds_run_from (s : Store) (calls : List Call) (key : ResourceKey) :
    (s.run calls).resourceIds key =
      ((s.additions calls).filterMap (addedTo? key)).foldl appendNew (s.resourceIds key) := by
  induction calls generalizing s with
  | nil => rfl
  | cons c cs ih =>
    rw [run, ih, resourceIds_after, ← List.foldl_append, ← List.filterMap_append]
    rfl

/-- A store lists for each pair the resources that were added to it. -/
theorem resourceIds_run (calls : List Call) (key : ResourceKey) :
    (empty.run calls).resourceIds key = resourcesAdded calls key := by
  rw [resourceIds_run_from, resourcesAdded, ← foldl_appendNew]
  rfl

/-- Resources are added to registered pairs only. -/
theorem registered_of_added {calls : List Call} {key : ResourceKey} {id : ResourceId}
    (h : (key, id) ∈ empty.additions calls) :
    key.segment ∈ (Registry.ofCalls calls).segments ∧
      key.sequence ∈ (Registry.ofCalls calls).sequences key.type := by
  have hw := (run_represented_from .empty .empty calls).1
  rw [← mem_resourcesAdded, ← resourceIds_run] at h
  obtain ⟨e, he, -⟩ := List.mem_map.mp h
  rw [← registry_run]
  exact hw.registered key (List.mem_map_of_mem (hw.mem_entries_of_mem he))

end Store

/-- No identifier is listed twice. -/
structure Registry.Distinct (r : Registry) : Prop where
  segments : r.segments.Nodup
  sequences : ∀ t, (r.sequences t).Nodup

theorem Registry.distinct_ofCalls (calls : List Store.Call) : (ofCalls calls).Distinct where
  segments := nodup_eraseDups _
  sequences _ := nodup_eraseDups _

end MediaPipeline

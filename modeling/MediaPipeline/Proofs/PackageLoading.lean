import MediaPipeline.Job.Package
import MediaPipeline.Proofs.StoredParameters

/-!
# Loading a package

A package becomes a store by calls, one for each thing that it lists. The calls for segments
and sequences always succeed, and so do those for parameters, since their entry has just been
registered; only a resource can be refused. Whether one is refused depends on those before
it, but whether any is does not depend on their order: a package loads exactly if each of its
resources names a listed pair and no resource is listed for two pairs (`toStore_accepts`).
-/

namespace MediaPipeline

/-! ## Calls that all succeed -/

namespace Store

/-- Each of some calls succeeds when its turn comes. -/
def Allows (s : Store) : List Call → Prop
  | [] => True
  | c :: cs => ∃ s', s.perform c = .ok s' ∧ s'.Allows cs

/-- What a call inserts into a map if it succeeds. -/
def Call.insertion? (place : ParamPlace) (c : Call) : Option (String × Param) :=
  c.assignment?.bind fun a => if a.1 = place then some a.2 else none

/-- The resource that a call registers, with the pair that it is registered for. -/
def Call.resource? : Call → Option (ResourceKey × ResourceId)
  | .addResource key id => some (key, id)
  | _ => none

variable {s s' : Store} {calls : List Call}

theorem after_of_ok {c : Call} (h : s.perform c = .ok s') : s.after c = s' := by
  rw [after, h]

theorem run_append (s : Store) (cs ds : List Call) : s.run (cs ++ ds) = (s.run cs).run ds := by
  induction cs generalizing s with
  | nil => rfl
  | cons c cs ih => exact ih (s.after c)

theorem allows_append {cs ds : List Call} :
    s.Allows (cs ++ ds) ↔ s.Allows cs ∧ (s.run cs).Allows ds := by
  induction cs generalizing s with
  | nil => simp [Allows, run]
  | cons c cs ih =>
    simp only [List.cons_append, Allows, run]
    constructor
    · rintro ⟨t, ht, hrest⟩
      obtain ⟨hcs, hds⟩ := ih.mp hrest
      rw [after_of_ok ht]
      exact ⟨⟨t, ht, hcs⟩, hds⟩
    · rintro ⟨⟨t, ht, hcs⟩, hds⟩
      rw [after_of_ok ht] at hds
      exact ⟨t, ht, ih.mpr ⟨hcs, hds⟩⟩

/-- Calls that succeed in every store. -/
theorem run_map {α : Type} {f : Store → α → Store} {c : α → Call}
    (h : ∀ (s : Store) (a : α), s.perform (c a) = .ok (f s a)) (s : Store) (l : List α) :
    s.run (l.map c) = l.foldl f s ∧ s.Allows (l.map c) := by
  induction l generalizing s with
  | nil => exact ⟨rfl, trivial⟩
  | cons a l ih =>
    obtain ⟨hrun, hallows⟩ := ih (f s a)
    rw [List.map_cons, run, after_of_ok (h s a)]
    exact ⟨hrun, _, h s a, hallows⟩

/-- When all calls succeed, what they insert can be read off them. -/
theorem Allows.insertions (h : s.Allows calls) (place : ParamPlace) :
    s.insertions place calls = calls.filterMap (·.insertion? place) := by
  induction calls generalizing s with
  | nil => rfl
  | cons c cs ih =>
    obtain ⟨t, ht, hrest⟩ := h
    have hwritten : s.written c place = (c.insertion? place).toList := by
      unfold written Call.insertion?
      rw [ht]
      cases c.assignment? with
      | none => rfl
      | some a =>
        rw [Option.bind_some]
        by_cases ha : a.1 = place <;> simp [ha]
    rw [Store.insertions, hwritten, after_of_ok ht, ih hrest]
    simp only [List.filterMap_eq_flatMap_toList, List.flatMap_cons]

/-- When all calls succeed, so do those for resources. -/
theorem Allows.additions (h : s.Allows calls) :
    s.additions calls = calls.filterMap (·.resource?) := by
  induction calls generalizing s with
  | nil => rfl
  | cons c cs ih =>
    obtain ⟨t, ht, hrest⟩ := h
    have hadded : s.addition? c = c.resource? := by
      unfold addition?
      rw [ht]
      cases c <;> rfl
    rw [Store.additions, hadded, after_of_ok ht, ih hrest]
    simp only [List.filterMap_eq_flatMap_toList, List.flatMap_cons]

theorem run_addResource {key : ResourceKey} {id : ResourceId} {cs : List Call}
    (h : s.addResource key id = .ok s') : s.run (.addResource key id :: cs) = s'.run cs := by
  rw [run, after_of_ok (c := .addResource key id) h]

/-- A resource is added to a registered pair unless it belongs to another one. -/
theorem addResource_iff {key : ResourceKey} {id : ResourceId} :
    (∃ s', s.addResource key id = .ok s') ↔
      (key.segment ∈ s.segments ∧ key.sequence ∈ s.sequenceIds key.type) ∧
        ∀ owner, s.owners.get? id = some owner → owner = key := by
  constructor
  · rintro ⟨s', h⟩
    obtain ⟨hkey, hfree, -⟩ := addResource_ok h
    exact ⟨hkey, hfree⟩
  · rintro ⟨⟨hsegment, hsequence⟩, hfree⟩
    unfold addResource
    rw [if_neg (not_not_intro hsegment), if_neg (not_not_intro hsequence)]
    cases howner : s.owners.get? id with
    | none => exact ⟨_, rfl⟩
    | some owner =>
      obtain rfl := hfree owner howner
      exact ⟨_, if_pos rfl⟩

end Store

/-! ## The calls of a package -/

open Store (Call)

/-- The calls that set initial parameters. -/
def InitialParams.calls (kind : ContextKind) (scope : Scope) (params : InitialParams) : List Call :=
  params.map fun e => .addParameter kind scope e.1 (.keep e.2)

/-- The scope of a listed sequence. -/
def PackageSequence.scope (q : PackageSequence) : Scope := Scope.global.withSequence q.type q.id

/-- The calls for a listed sequence. -/
def PackageSequence.calls (q : PackageSequence) : List Call :=
  .addSequence q.type q.id :: InitialParams.calls .sequence q.scope q.parameters

/-- The calls for a listed resource. -/
def PackageResource.calls (r : PackageResource) : List Call :=
  .addResource r.key r.id :: InitialParams.calls .resource (r.key.scope r.id) r.parameters

namespace Package

variable {p : Package} {s s' : Store} {r : PackageResource}

/-- The calls for segments and sequences. -/
def firstCalls (p : Package) : List Call :=
  p.segments.map .addSegment ++ p.sequences.flatMap (·.calls)

/-- The calls for everything that a package lists. -/
def calls (p : Package) : List Call :=
  p.firstCalls ++ p.resources.flatMap (·.calls) ++ p.dynamic.map fun e => .setDynamic e.1 e.2

/-- Parameters of an entry that is there are set. -/
theorem addParams_of_has {kind : ContextKind} {scope : Scope} {place : ParamPlace}
    (hplace : ParamPlace.inScope? kind scope = some place) (hhas : s.Has place)
    (params : InitialParams) :
    addParams kind scope params s = .ok (s.run (params.calls kind scope)) ∧
      s.Allows (params.calls kind scope) ∧ s.SameListing (s.run (params.calls kind scope)) := by
  induction params generalizing s with
  | nil => exact ⟨rfl, trivial, .refl s⟩
  | cons e rest ih =>
    have hadd := Store.addParameter_of_has hplace hhas e.1 (.keep e.2)
    have hperform : s.perform (.addParameter kind scope e.1 (.keep e.2)) =
        .ok (s.assign e.1 (.keep e.2) place) := by
      rw [Store.perform, hadd]
      rfl
    have hsame := s.sameListing_assign e.1 (.keep e.2) place
    obtain ⟨hrun, hallows, hrest⟩ := ih (hsame.has_iff.mpr hhas)
    have hcalls : s.run (InitialParams.calls kind scope (e :: rest)) =
        (s.assign e.1 (.keep e.2) place).run (InitialParams.calls kind scope rest) := by
      rw [InitialParams.calls, List.map_cons, Store.run, Store.after_of_ok hperform]
      rfl
    rw [hcalls]
    refine ⟨?_, ⟨_, hperform, hallows⟩, hsame.trans hrest⟩
    rw [← hrun, addParams, List.foldlM_cons, hadd]
    rfl

/-- A listed sequence is always registered, and its parameters are set. -/
theorem addSequence_eq (s : Store) (q : PackageSequence) :
    addSequence s q = .ok (s.run q.calls) ∧ s.Allows q.calls := by
  have hhas : (s.addSequence q.type q.id).Has (.sequence q.type q.id) := by
    show q.id ∈ (s.addSequence q.type q.id).sequenceIds q.type
    rw [Store.sequenceIds_addSequence, if_pos rfl, appendNew]
    split <;> simp [*]
  obtain ⟨hrun, hallows, -⟩ :=
    addParams_of_has (show ParamPlace.inScope? .sequence q.scope = _ from rfl) hhas q.parameters
  exact ⟨hrun, ⟨_, rfl, hallows⟩⟩

theorem foldlM_addSequence (s : Store) (qs : List PackageSequence) :
    qs.foldlM addSequence s = .ok (s.run (qs.flatMap (·.calls))) ∧
      s.Allows (qs.flatMap (·.calls)) := by
  induction qs generalizing s with
  | nil => exact ⟨rfl, trivial⟩
  | cons q qs ih =>
    obtain ⟨hq, hallows⟩ := addSequence_eq s q
    obtain ⟨hqs, hrest⟩ := ih (s.run q.calls)
    rw [List.flatMap_cons, Store.run_append, Store.allows_append, List.foldlM_cons, hq]
    exact ⟨hqs, hallows, hrest⟩

/-- Once a listed resource is registered, its parameters are set. -/
theorem addResource_of_ok (h : s.addResource r.key r.id = .ok s') :
    addResource s r = .ok (s.run r.calls) ∧ s.Allows r.calls ∧
      s'.SameListing (s.run r.calls) := by
  have hhas : s'.Has (.resource r.key r.id) := by
    obtain ⟨-, -, rfl⟩ := Store.addResource_ok h
    show r.id ∈ Store.resourceIds _ r.key
    rw [Store.resourceIds, Store.resourceEntries_insert, if_pos rfl]
    exact Store.mem_ids_register
  obtain ⟨hrun, hallows, hsame⟩ :=
    addParams_of_has (show ParamPlace.inScope? .resource (r.key.scope r.id) = _ from rfl) hhas
      r.parameters
  have hcalls : s.run r.calls = s'.run (r.parameters.calls .resource (r.key.scope r.id)) :=
    Store.run_addResource h
  rw [hcalls]
  refine ⟨?_, ⟨s', h, hallows⟩, hsame⟩
  rw [← hrun, addResource, h]
  rfl

/-- The failure of a package whose resource cannot be registered. -/
def refusal (id : ResourceId) (cause : Cause) : JobFailure :=
  (JobFailure.ofCause (.failed (.plain cause))).within (.registering id)

theorem addResource_of_error {cause : Cause} (h : s.addResource r.key r.id = .error cause) :
    addResource s r = .error (refusal r.id cause) := by
  rw [addResource, h]
  rfl

/-! ## Which resources are refused -/

/-- A store can take up resources, whatever their order: their pairs are registered, and no
resource belongs to two of them. -/
structure Admits (s : Store) (rs : List PackageResource) : Prop where
  registered : ∀ r ∈ rs, r.key.segment ∈ s.segments ∧ r.key.sequence ∈ s.sequenceIds r.key.type
  free : ∀ r ∈ rs, ∀ owner, s.owners.get? r.id = some owner → owner = r.key
  agree : ∀ r ∈ rs, ∀ r' ∈ rs, r.id = r'.id → r.key = r'.key

theorem Admits.nil (s : Store) : Admits s [] where
  registered := by simp
  free := by simp
  agree := by simp

/-- A resource that was taken up belongs to its pair from then on. -/
theorem owner_run_calls (h : s.addResource r.key r.id = .ok s') (id : ResourceId) :
    (s.run r.calls).owners.get? id = if id = r.id then some r.key else s.owners.get? id := by
  obtain ⟨-, -, hsame⟩ := addResource_of_ok h
  obtain ⟨-, -, hs'⟩ := Store.addResource_ok h
  have howners : (s.run r.calls).owners = s.owners.insert r.id r.key := by rw [hsame.owners, hs']
  rw [howners]
  split_ifs with hid
  · rw [hid, OrderedMap.get?_insert_self]
  · exact OrderedMap.get?_insert_ne _ _ hid

/-- Taking up a resource registers no pair. -/
theorem registered_run_calls (h : s.addResource r.key r.id = .ok s') (key : ResourceKey) :
    (key.segment ∈ (s.run r.calls).segments ∧ key.sequence ∈ (s.run r.calls).sequenceIds key.type) ↔
      key.segment ∈ s.segments ∧ key.sequence ∈ s.sequenceIds key.type := by
  obtain ⟨-, -, hsame⟩ := addResource_of_ok h
  obtain ⟨-, -, hs'⟩ := Store.addResource_ok h
  rw [hsame.segments, hsame.sequences, hs']
  exact Iff.rfl

/-- What the first resource leaves admits the others exactly if the store admits them all. -/
theorem admits_cons {rs : List PackageResource} (h : s.addResource r.key r.id = .ok s') :
    Admits s (r :: rs) ↔ Admits (s.run r.calls) rs := by
  obtain ⟨hkey, hfree, -⟩ := Store.addResource_ok h
  constructor
  · intro hall
    refine ⟨fun a ha => (registered_run_calls h a.key).mpr (hall.registered a (.tail _ ha)), ?_,
      fun a ha b hb => hall.agree a (.tail _ ha) b (.tail _ hb)⟩
    intro a ha owner howner
    rw [owner_run_calls h] at howner
    split_ifs at howner with hid
    · rw [← Option.some.inj howner]
      exact hall.agree r (.head _) a (.tail _ ha) hid.symm
    · exact hall.free a (.tail _ ha) owner howner
  · intro hrest
    have hfirst : ∀ a ∈ rs, a.id = r.id → r.key = a.key := fun a ha hid =>
      hrest.free a ha r.key (by rw [owner_run_calls h, if_pos hid])
    refine ⟨List.forall_mem_cons.mpr ⟨hkey, fun a ha => ?_⟩,
      List.forall_mem_cons.mpr ⟨hfree, fun a ha owner howner => ?_⟩, fun a ha b hb hid => ?_⟩
    · exact (registered_run_calls h a.key).mp (hrest.registered a ha)
    · by_cases hid : a.id = r.id
      · rw [hid] at howner
        rw [hfree owner howner]
        exact hfirst a ha hid
      · exact hrest.free a ha owner (by rwa [owner_run_calls h, if_neg hid])
    · obtain rfl | ha' := List.mem_cons.mp ha <;> obtain rfl | hb' := List.mem_cons.mp hb
      · rfl
      · exact hfirst b hb' hid.symm
      · exact (hfirst a ha' hid).symm
      · exact hrest.agree a ha' b hb' hid

/-- Resources are taken up one after the other, or one of them is refused. -/
theorem foldlM_addResource (s : Store) (rs : List PackageResource) :
    (Admits s rs ∧ rs.foldlM addResource s = .ok (s.run (rs.flatMap (·.calls))) ∧
      s.Allows (rs.flatMap (·.calls))) ∨
    (¬ Admits s rs ∧ ∃ r ∈ rs, ∃ t cause, Store.addResource t r.key r.id = .error cause ∧
      rs.foldlM addResource s = .error (refusal r.id cause)) := by
  induction rs generalizing s with
  | nil => exact .inl ⟨.nil s, rfl, trivial⟩
  | cons r rs ih =>
    rw [List.foldlM_cons, List.flatMap_cons, Store.run_append, Store.allows_append]
    cases hr : s.addResource r.key r.id with
    | error cause =>
      refine .inr ⟨fun hall => ?_, r, .head _, s, cause, hr, ?_⟩
      · obtain ⟨s', hs'⟩ := Store.addResource_iff.mpr
          ⟨hall.registered r (.head _), hall.free r (.head _)⟩
        rw [hr] at hs'
        cases hs'
      · rw [addResource_of_error hr]
        rfl
    | ok s' =>
      obtain ⟨hadd, hallows, -⟩ := addResource_of_ok hr
      rw [hadd, admits_cons hr]
      obtain ⟨hrest, hload, hothers⟩ | ⟨hrest, a, ha, t, cause, hcause, hload⟩ := ih (s.run r.calls)
      · exact .inl ⟨hrest, hload, hallows, hothers⟩
      · exact .inr ⟨hrest, a, .tail _ ha, t, cause, hcause, hload⟩

/-! ## What a package lists -/

/-- The sequences of a type, as they are listed. -/
def sequenceIds (p : Package) (t : SequenceType) : List SequenceId :=
  p.sequences.filterMap fun q => if q.type = t then some q.id else none

/-- The resources of a pair, as they are listed. -/
def resourceIds (p : Package) (key : ResourceKey) : List ResourceId :=
  p.resources.filterMap fun r => if r.key = key then some r.id else none

/-- The parameters that are given at a place, entry by entry. -/
def given (p : Package) : ParamPlace → InitialParams
  | .dynamic => p.dynamic
  | .tmp => []
  | .sequence t id =>
    p.sequences.flatMap fun q => if q.type = t ∧ q.id = id then q.parameters else []
  | .resource key id =>
    p.resources.flatMap fun r => if r.key = key ∧ r.id = id then r.parameters else []

/-- Each resource names a listed segment and a listed sequence of its type, and no resource is
listed for two pairs. -/
structure Consistent (p : Package) : Prop where
  segments : ∀ r ∈ p.resources, r.key.segment ∈ p.segments
  sequences : ∀ r ∈ p.resources, ∃ q ∈ p.sequences, q.type = r.key.type ∧ q.id = r.key.sequence
  resources : ∀ r ∈ p.resources, ∀ r' ∈ p.resources, r.id = r'.id → r.key = r'.key

theorem mem_sequenceIds {t : SequenceType} {id : SequenceId} :
    id ∈ p.sequenceIds t ↔ ∃ q ∈ p.sequences, q.type = t ∧ q.id = id := by
  simp [sequenceIds]

theorem mem_resourceIds {key : ResourceKey} {id : ResourceId} :
    id ∈ p.resourceIds key ↔ ∃ r ∈ p.resources, r.key = key ∧ r.id = id := by
  simp [resourceIds]

section Readings

variable {β : Type}

/-- Calls for parameters are read in the order of the parameters. -/
theorem filterMap_calls (f : Call → Option β) (kind : ContextKind) (scope : Scope)
    (params : InitialParams) :
    (params.calls kind scope).filterMap f =
      params.filterMap fun e => f (.addParameter kind scope e.1 (.keep e.2)) :=
  List.filterMap_map

/-- The calls of a package are read part by part. -/
theorem filterMap_firstCalls (f : Call → Option β) (p : Package) :
    p.firstCalls.filterMap f =
      p.segments.filterMap (fun id => f (.addSegment id)) ++
        p.sequences.flatMap fun q => q.calls.filterMap f := by
  rw [firstCalls, List.filterMap_append, List.filterMap_map, List.filterMap_flatMap]
  rfl

theorem filterMap_calls_package (f : Call → Option β) (p : Package) :
    p.calls.filterMap f =
      p.firstCalls.filterMap f ++ (p.resources.flatMap fun r => r.calls.filterMap f) ++
        p.dynamic.filterMap fun e => f (.setDynamic e.1 e.2) := by
  rw [calls, List.filterMap_append, List.filterMap_append, List.filterMap_map,
    List.filterMap_flatMap]
  rfl

end Readings

theorem segments_firstCalls (p : Package) :
    p.firstCalls.filterMap (·.segment?) = p.segments := by
  have hq (q : PackageSequence) : q.calls.filterMap (·.segment?) = [] := by
    simp [PackageSequence.calls, filterMap_calls, Call.segment?]
  rw [filterMap_firstCalls]
  simp only [hq]
  simp [Call.segment?]

theorem sequences_firstCalls (p : Package) (t : SequenceType) :
    p.firstCalls.filterMap (·.sequence? t) = p.sequenceIds t := by
  have hq (q : PackageSequence) :
      q.calls.filterMap (·.sequence? t) = (if q.type = t then some q.id else none).toList := by
    by_cases ht : q.type = t <;> simp [PackageSequence.calls, filterMap_calls, Call.sequence?, ht]
  rw [filterMap_firstCalls, sequenceIds, List.filterMap_eq_flatMap_toList _ p.sequences]
  simp only [hq]
  simp [Call.sequence?]

theorem resources_firstCalls (p : Package) : p.firstCalls.filterMap (·.resource?) = [] := by
  have hq (q : PackageSequence) : q.calls.filterMap (·.resource?) = [] := by
    simp [PackageSequence.calls, filterMap_calls, Call.resource?]
  rw [filterMap_firstCalls]
  simp only [hq]
  simp [Call.resource?]

theorem segments_calls (p : Package) : p.calls.filterMap (·.segment?) = p.segments := by
  have hr (r : PackageResource) : r.calls.filterMap (·.segment?) = [] := by
    simp [PackageResource.calls, filterMap_calls, Call.segment?]
  rw [filterMap_calls_package, segments_firstCalls]
  simp only [hr]
  simp [Call.segment?]

theorem sequences_calls (p : Package) (t : SequenceType) :
    p.calls.filterMap (·.sequence? t) = p.sequenceIds t := by
  have hr (r : PackageResource) : r.calls.filterMap (·.sequence? t) = [] := by
    simp [PackageResource.calls, filterMap_calls, Call.sequence?]
  rw [filterMap_calls_package, sequences_firstCalls]
  simp only [hr]
  simp [Call.sequence?]

theorem resources_calls (p : Package) :
    p.calls.filterMap (·.resource?) = p.resources.map fun r => (r.key, r.id) := by
  have hr (r : PackageResource) : r.calls.filterMap (·.resource?) = [(r.key, r.id)] := by
    simp [PackageResource.calls, filterMap_calls, Call.resource?]
  rw [filterMap_calls_package, resources_firstCalls]
  simp only [hr]
  simp [Call.resource?, List.map_eq_flatMap]

/-- What is inserted at a place is what the package gives there, in its order. -/
theorem insertions_calls (p : Package) (place : ParamPlace) :
    p.calls.filterMap (·.insertion? place) = (p.given place).map fun e => (e.1, .keep e.2) := by
  have hq (q : PackageSequence) : q.calls.filterMap (·.insertion? place) =
      if .sequence q.type q.id = place then q.parameters.map fun e => (e.1, .keep e.2) else [] := by
    by_cases hplace : ParamPlace.sequence q.type q.id = place <;>
      simp [PackageSequence.calls, PackageSequence.scope, filterMap_calls, Call.insertion?,
        Call.assignment?, ParamPlace.inScope?, Scope.withSequence, hplace]
  have hr (r : PackageResource) : r.calls.filterMap (·.insertion? place) =
      if .resource r.key r.id = place then r.parameters.map fun e => (e.1, .keep e.2) else [] := by
    by_cases hplace : ParamPlace.resource r.key r.id = place <;>
      simp [PackageResource.calls, ResourceKey.scope, filterMap_calls, Call.insertion?,
        Call.assignment?, ParamPlace.inScope?, Scope.withSequence, Scope.withSegment,
        Scope.withResource, hplace]
  rw [filterMap_calls_package, filterMap_firstCalls]
  simp only [hq, hr]
  cases place with
  | dynamic =>
    have hnone {α : Type} (l : List α) :
        l.flatMap (fun _ => ([] : List (String × Param))) = [] := by
      simp
    simp [given, Call.insertion?, Call.assignment?, hnone]
  | tmp => simp [given, Call.insertion?, Call.assignment?]
  | sequence t id =>
    simp [given, Call.insertion?, Call.assignment?, List.map_flatMap, apply_ite]
  | resource key id =>
    simp [given, Call.insertion?, Call.assignment?, List.map_flatMap, apply_ite]

/-! ## The main result -/

/-- Segments and sequences are always registered. -/
theorem firstCalls_run (p : Package) :
    p.sequences.foldlM addSequence (p.segments.foldl Store.addSegment .empty) =
      .ok (Store.empty.run p.firstCalls) ∧ Store.empty.Allows p.firstCalls := by
  obtain ⟨hrun, hallows⟩ := Store.run_map (c := .addSegment) (fun _ _ => rfl) .empty p.segments
  obtain ⟨hsequences, hrest⟩ :=
    foldlM_addSequence (Store.empty.run (p.segments.map .addSegment)) p.sequences
  rw [firstCalls, Store.run_append, Store.allows_append, ← hrun]
  exact ⟨hsequences, hallows, hrest⟩

/-- After the segments and sequences, the resources of a consistent package are admitted. -/
theorem admits_firstCalls (p : Package) :
    Admits (Store.empty.run p.firstCalls) p.resources ↔ p.Consistent := by
  have hregistry := Store.registry_run p.firstCalls
  have hsegments : (Store.empty.run p.firstCalls).segments = p.segments.eraseDups := by
    rw [← segments_firstCalls p]
    exact congrArg Registry.segments hregistry
  have hsequences (t : SequenceType) :
      (Store.empty.run p.firstCalls).sequenceIds t = (p.sequenceIds t).eraseDups := by
    rw [← sequences_firstCalls p]
    exact congrFun (congrArg Registry.sequences hregistry) t
  have howners (id : ResourceId) (owner : ResourceKey) :
      (Store.empty.run p.firstCalls).owners.get? id ≠ some owner := by
    rw [ne_eq, (Store.run_represented p.firstCalls).1.owner_iff, Store.resourceIds_run,
      Store.mem_resourcesAdded, (firstCalls_run p).2.additions, resources_firstCalls]
    exact List.not_mem_nil
  constructor
  · intro h
    refine ⟨fun r hr => ?_, fun r hr => ?_, h.agree⟩
    · have := (h.registered r hr).1
      rwa [hsegments, List.mem_eraseDups] at this
    · have := (h.registered r hr).2
      rwa [hsequences, List.mem_eraseDups, mem_sequenceIds] at this
  · intro h
    refine ⟨fun r hr => ?_, fun r _ owner howner => absurd howner (howners r.id owner), h.resources⟩
    rw [hsegments, hsequences, List.mem_eraseDups, List.mem_eraseDups, mem_sequenceIds]
    exact ⟨h.segments r hr, h.sequences r hr⟩

/-- A package is loaded call by call, or one of its resources is refused. -/
theorem toStore_cases (p : Package) :
    (p.Consistent ∧ p.toStore = .ok (Store.empty.run p.calls) ∧ Store.empty.Allows p.calls) ∨
    (¬ p.Consistent ∧ ∃ r ∈ p.resources, ∃ t cause,
      Store.addResource t r.key r.id = .error cause ∧ p.toStore = .error (refusal r.id cause)) := by
  obtain ⟨hfirst, hallows⟩ := firstCalls_run p
  unfold toStore
  dsimp only
  rw [hfirst, ← admits_firstCalls]
  obtain ⟨hadmits, hload, hrest⟩ | ⟨hadmits, r, hr, t, cause, hcause, hload⟩ :=
    foldlM_addResource (Store.empty.run p.firstCalls) p.resources
  · obtain ⟨hrun, hdynamic⟩ := Store.run_map
      (c := fun e : String × String => .setDynamic e.1 e.2) (fun _ _ => rfl)
      ((Store.empty.run p.firstCalls).run (p.resources.flatMap (·.calls))) p.dynamic
    refine .inl ⟨hadmits, ?_, ?_⟩
    · rw [calls, Store.run_append, Store.run_append, hrun]
      show (p.resources.foldlM addResource (Store.empty.run p.firstCalls) >>= _) = _
      rw [hload]
      rfl
    · rw [calls, Store.allows_append, Store.allows_append, Store.run_append]
      exact ⟨⟨hallows, hrest⟩, hdynamic⟩
  · refine .inr ⟨hadmits, r, hr, t, cause, hcause, ?_⟩
    show (p.resources.foldlM addResource (Store.empty.run p.firstCalls) >>= _) = _
    rw [hload]
    rfl

/-- What a store holds once a package is loaded. Everything is listed in the order in which it
is listed first, and each parameter has the value that is given last. -/
structure Loaded (p : Package) (s : Store) : Prop where
  segments : s.segments = p.segments.eraseDups
  sequences : ∀ t, s.sequenceIds t = (p.sequenceIds t).eraseDups
  resources : ∀ key, s.resourceIds key = (p.resourceIds key).eraseDups
  distinct : s.segments.Nodup ∧ (∀ t, (s.sequenceIds t).Nodup) ∧ ∀ key, (s.resourceIds key).Nodup
  last : ∀ place name, s.param? place name = (lastValue? name (p.given place)).map .keep
  read : ∀ kind scope place, ParamPlace.inScope? kind scope = some place →
    ∀ e ∈ p.given place, e.1 ∉ kind.builtinNames →
      ∃ value, lastValue? e.1 (p.given place) = some value ∧
        s.getParameter kind scope e.1 = .ok value

/-- Parameters are given only where there is an entry. -/
theorem has_of_given (hsequences : ∀ t, s.sequenceIds t = (p.sequenceIds t).eraseDups)
    (hresources : ∀ key, s.resourceIds key = (p.resourceIds key).eraseDups) {place : ParamPlace}
    {e : String × String} (he : e ∈ p.given place) : s.Has place := by
  cases place with
  | dynamic | tmp => trivial
  | sequence t id =>
    show id ∈ s.sequenceIds t
    obtain ⟨q, hq, he⟩ := List.mem_flatMap.mp he
    split_ifs at he with hplace
    · rw [hsequences, List.mem_eraseDups, mem_sequenceIds]
      exact ⟨q, hq, hplace⟩
    · cases he
  | resource key id =>
    show id ∈ s.resourceIds key
    obtain ⟨r, hr, he⟩ := List.mem_flatMap.mp he
    split_ifs at he with hplace
    · rw [hresources, List.mem_eraseDups, mem_resourceIds]
      exact ⟨r, hr, hplace⟩
    · cases he

/-- A value that is changed on the way into a log is changed on the way out. -/
theorem lastValue?_map {κ α β : Type} [DecidableEq κ] (k : κ) (f : α → β) (log : List (κ × α)) :
    lastValue? k (log.map fun e => (e.1, f e.2)) = (lastValue? k log).map f := by
  rw [lastValue?, lastValue?, ← List.map_reverse, List.find?_map, Option.map_map, Option.map_map]
  rfl

theorem loaded_run (h : Store.empty.Allows p.calls) : p.Loaded (Store.empty.run p.calls) := by
  have hregistry := Store.registry_run p.calls
  have hsegments : (Store.empty.run p.calls).segments = p.segments.eraseDups := by
    rw [← segments_calls p]
    exact congrArg Registry.segments hregistry
  have hsequences (t : SequenceType) :
      (Store.empty.run p.calls).sequenceIds t = (p.sequenceIds t).eraseDups := by
    rw [← sequences_calls p]
    exact congrFun (congrArg Registry.sequences hregistry) t
  have hresources (key : ResourceKey) :
      (Store.empty.run p.calls).resourceIds key = (p.resourceIds key).eraseDups := by
    rw [Store.resourceIds_run, Store.resourcesAdded, h.additions, resources_calls,
      List.filterMap_map]
    rfl
  have hlast (place : ParamPlace) (name : String) :
      (Store.empty.run p.calls).param? place name =
        (lastValue? name (p.given place)).map .keep := by
    rw [Store.param?_run, h.insertions, insertions_calls, lastValue?_map]
  refine ⟨hsegments, hsequences, hresources, ⟨?_, fun t => ?_, fun key => ?_⟩, hlast, ?_⟩
  · rw [hsegments]
    exact nodup_eraseDups _
  · rw [hsequences]
    exact nodup_eraseDups _
  · rw [hresources]
    exact nodup_eraseDups _
  · intro kind scope place hplace e he hname
    obtain ⟨value, hvalue⟩ := lastValue?_of_mem_keys (List.mem_map_of_mem he)
    refine ⟨value, hvalue, ?_⟩
    have hhas := has_of_given hsequences hresources he
    rw [Store.getParameter_eq_ok hplace hhas hname, hlast, hvalue]
    rfl

/-- A package is accepted exactly if it is consistent. Its parameters never stand in the way:
listed sequences are always added, and listed resources are as soon as they are registered; so
every failure is that of registering a resource. What is accepted is loaded completely. -/
theorem toStore_accepts (p : Package) :
    ((∃ s, p.toStore = .ok s) ↔ p.Consistent) ∧
    (∀ s q, ∃ s', addSequence s q = .ok s') ∧
    (∀ (s : Store) (r : PackageResource), (∃ s', s.addResource r.key r.id = .ok s') →
      ∃ s', addResource s r = .ok s') ∧
    (∀ f, p.toStore = .error f → ∃ r ∈ p.resources, ∃ (s : Store) (cause : Cause),
      s.addResource r.key r.id = .error cause ∧ f = refusal r.id cause) ∧
    (∀ s, p.toStore = .ok s → p.Loaded s) := by
  refine ⟨?_, fun s q => ⟨_, (addSequence_eq s q).1⟩, ?_, ?_, ?_⟩
  · obtain ⟨hp, hload, -⟩ | ⟨hp, r, -, t, cause, -, hload⟩ := toStore_cases p
    · exact iff_of_true ⟨_, hload⟩ hp
    · refine iff_of_false ?_ hp
      rintro ⟨s, hs⟩
      rw [hload] at hs
      cases hs
  · rintro s r ⟨s', hs'⟩
    exact ⟨_, (addResource_of_ok hs').1⟩
  · intro f hf
    obtain ⟨-, hload, -⟩ | ⟨-, r, hr, t, cause, hcause, hload⟩ := toStore_cases p
    · rw [hload] at hf
      cases hf
    · rw [hload] at hf
      cases hf
      exact ⟨r, hr, t, cause, hcause, rfl⟩
  · intro s hs
    obtain ⟨-, hload, hallows⟩ | ⟨-, r, -, t, cause, -, hload⟩ := toStore_cases p
    · rw [hload] at hs
      cases hs
      exact loaded_run hallows
    · rw [hload] at hs
      cases hs

/-- Of two values for one parameter the later one counts. -/
example :
    let p : Package := ⟨[⟨⟨1⟩⟩],
      [⟨.video, ⟨⟨2⟩⟩, [("fps", "25")]⟩, ⟨.video, ⟨⟨2⟩⟩, [("fps", "24")]⟩],
      [⟨⟨⟨⟨1⟩⟩, .video, ⟨⟨2⟩⟩⟩, ⟨⟨3⟩⟩, []⟩], []⟩
    let scope := Scope.global.withSequence .video ⟨⟨2⟩⟩
    p.toStore.toOption.map (·.getParameter .sequence scope "fps") = some (.ok "24") := by
  decide +kernel

end Package

end MediaPipeline

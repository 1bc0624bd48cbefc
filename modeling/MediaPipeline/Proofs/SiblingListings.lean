import MediaPipeline.Proofs.TemplateBinding

/-!
# Listings of siblings

The siblings of a level are listed in one way, counted in a second, and picked in a third, by
their position or as the entry in scope. `Level` says that all of this is about one list, for
each of the three levels, and `lists_of_uuids` what a listing therefore tells of look-ups.
-/

namespace MediaPipeline

/-- The printed identifier of the entry of a kind that a scope names. -/
def Scope.ownId? (scope : Scope) : ContextKind → Option String
  | .dynamic | .tmp => none
  | .segment => scope.segment.map toString
  | .sequence => scope.sequenceId?.map toString
  | .resource => scope.resource.map toString

namespace Store

/-- Look-ups of identifiers, positions and the number of siblings speak of these identifiers. -/
structure Lists (s : Store) (kind : ContextKind) (scope : Scope) (ids : List String) : Prop where
  distinct : ids.Nodup
  uuid : ∀ i (hi : i < ids.length), s.lookup kind scope (.index i) "uuid" = .ok ids[i]
  index : ∀ i < ids.length, s.lookup kind scope (.index i) "index" = .ok (Text.showNat i)
  beyond : ∀ i, ids.length ≤ i → ∀ name ∈ ["uuid", "index"],
    s.lookup kind scope (.index i) name =
      .error ⟨referenceText kind name, .indexOutOfRange i ids.length⟩
  num : ∀ selector, s.lookup kind scope selector "num" = .ok (Text.showNat ids.length)
  /-- The entry in scope, if it is listed, has one position and answers with it. -/
  own : ∀ id, scope.ownId? kind = some id → id ∈ ids → ∃ i,
    s.lookup kind scope .current "uuid" = .ok id ∧
    s.lookup kind scope .current "index" = .ok (Text.showNat i) ∧ ∀ j, ids[j]? = some id ↔ j = i

/-! ## Levels -/

/-- A level in a scope: what is listed and counted there is what entries are picked from. -/
structure Level {α ι : Type} [DecidableEq ι] [ToString ι] (s : Store) (kind : ContextKind)
    (scope : Scope) (siblings : List α) (key : α → ι) (current : Except NotFoundReason ι)
    (unknown : ι → NotFoundReason) : Prop where
  uuids : s.uuids kind scope = .ok (siblings.map fun a => toString (key a))
  own : scope.ownId? kind = current.toOption.map toString
  num : ∀ selector, s.find kind scope selector "num" = .ok (Text.showNat siblings.length)
  uuid : ∀ selector, s.find kind scope selector "uuid" =
    (pick siblings key current unknown selector).map fun p => toString (key p.2)
  index : ∀ selector, s.find kind scope selector "index" =
    (pick siblings key current unknown selector).map fun p => Text.showNat p.1
  distinct : (siblings.map key).Nodup
  /-- Different identifiers are printed differently. -/
  printed : ∀ a b : ι, toString a = toString b → a = b

section Level

variable {α ι : Type} [DecidableEq ι] [ToString ι] {s : Store} {kind : ContextKind} {scope : Scope}
  {siblings : List α} {key : α → ι} {current : Except NotFoundReason ι}
  {unknown : ι → NotFoundReason}

theorem Level.nodup (h : s.Level kind scope siblings key current unknown) :
    (siblings.map fun a => toString (key a)).Nodup := by
  have hprinted : ((siblings.map key).map toString).Nodup :=
    h.distinct.map fun a b => h.printed a b
  rwa [List.map_map] at hprinted

theorem Level.lists (h : s.Level kind scope siblings key current unknown) :
    s.Lists kind scope (siblings.map fun a => toString (key a)) where
  distinct := h.nodup
  uuid i hi := by
    rw [List.length_map] at hi
    rw [lookup, h.uuid, pick, List.getElem?_eq_getElem hi, List.getElem_map]
    rfl
  index i hi := by
    rw [List.length_map] at hi
    rw [lookup, h.index, pick, List.getElem?_eq_getElem hi]
    rfl
  beyond i hi name hname := by
    rw [List.length_map] at hi ⊢
    have hpick : pick siblings key current unknown (.index i) =
        .error (.indexOutOfRange i siblings.length) := by
      rw [pick, List.getElem?_eq_none hi]
    simp only [List.mem_cons, List.not_mem_nil, or_false] at hname
    rcases hname with rfl | rfl
    · rw [lookup, h.uuid, hpick]
      rfl
    · rw [lookup, h.index, hpick]
      rfl
  num selector := by
    rw [lookup, h.num, List.length_map]
    rfl
  own id hid hmem := by
    rw [h.own] at hid
    cases current with
    | error reason => cases hid
    | ok own =>
      obtain rfl : toString own = id := Option.some.inj hid
      -- What is listed as a text is listed, since texts tell identifiers apart.
      obtain ⟨a, ha, hprint⟩ := List.mem_map.mp hmem
      have hown : own ∈ siblings.map key := h.printed _ _ hprint ▸ List.mem_map_of_mem ha
      obtain ⟨i, b, hpick, hi, rfl⟩ := Template.pick_current hown unknown
      have hget : (siblings.map fun a => toString (key a))[i]? = some (toString (key b)) := by
        rw [List.getElem?_map, hi]
        rfl
      refine ⟨i, ?_, ?_, fun j => ⟨fun hj => ?_, fun hj => hj ▸ hget⟩⟩
      · rw [lookup, h.uuid, hpick]
        rfl
      · rw [lookup, h.index, hpick]
        rfl
      · obtain ⟨hlt, -⟩ := List.getElem?_eq_some_iff.mp hj
        exact (List.getElem?_inj hlt h.nodup).mp (hj.trans hget.symm)

end Level

variable {s : Store} {scope : Scope}

theorem level_segment (hs : s.WellFormed) (scope : Scope) :
    s.Level .segment scope s.segments id
      (match scope.segment with
        | some id => .ok id
        | none => .error (.missingScope .segment)) .unknownSegment where
  uuids := rfl
  own := by
    unfold Scope.ownId?
    cases scope.segment <;> rfl
  num _ := rfl
  uuid _ := rfl
  index _ := rfl
  distinct := by
    rw [List.map_id]
    exact hs.segments
  printed := by
    rintro ⟨a⟩ ⟨b⟩ h
    exact congrArg SegmentId.mk (Uuid.render_inj h)

theorem level_sequence (hs : s.WellFormed) {t : SequenceType} {current : SequenceId}
    (hscope : scope.sequence = some (t, current)) :
    s.Level .sequence scope (s.sequenceEntries t) (·.id) (.ok current) (.unknownSequence t) := by
  obtain ⟨segment, sequence, resource⟩ := scope
  obtain rfl : sequence = some (t, current) := hscope
  exact {
    uuids := by
      simp only [uuids, Scope.sequenceType?, Option.map_some, sequenceIds, List.map_map]
      rfl
    own := rfl
    num := fun _ => rfl
    uuid := fun _ => rfl
    index := fun _ => rfl
    distinct := hs.sequences t
    printed := by
      rintro ⟨a⟩ ⟨b⟩ h
      exact congrArg SequenceId.mk (Uuid.render_inj h) }

theorem level_resource (hs : s.WellFormed) {g : SegmentId} {t : SequenceType} {current : SequenceId}
    (hsegment : scope.segment = some g) (hsequence : scope.sequence = some (t, current)) :
    s.Level .resource scope (s.resourceEntries ⟨g, t, current⟩) (·.id)
      (match scope.resource with
        | some id => .ok id
        | none => .error (.missingScope .resource)) .unknownResource := by
  obtain ⟨segment, sequence, resource⟩ := scope
  obtain rfl : segment = some g := hsegment
  obtain rfl : sequence = some (t, current) := hsequence
  exact {
    uuids := rfl
    own := by cases resource <;> rfl
    num := fun _ => rfl
    uuid := fun _ => rfl
    index := fun _ => rfl
    distinct := hs.nodup_resourceIds _
    printed := by
      rintro ⟨a⟩ ⟨b⟩ h
      exact congrArg ResourceId.mk (Uuid.render_inj h) }

/-- At every level, what is listed is what is looked up. -/
theorem lists_of_uuids (hs : s.WellFormed) {kind : ContextKind}
    (hscope : kind = .sequence → scope.sequence ≠ none) {ids : List String}
    (h : s.uuids kind scope = .ok ids) : s.Lists kind scope ids := by
  have hlists {ids' : List String} (hids : s.uuids kind scope = .ok ids')
      (hlists : s.Lists kind scope ids') : s.Lists kind scope ids :=
    Except.ok.inj (hids.symm.trans h) ▸ hlists
  cases kind with
  | dynamic | tmp => cases h
  | segment =>
    have hlevel := level_segment hs scope
    exact hlists hlevel.uuids hlevel.lists
  | sequence =>
    obtain ⟨⟨t, current⟩, hsequence⟩ := Option.ne_none_iff_exists'.mp (hscope rfl)
    have hlevel := level_sequence hs hsequence
    exact hlists hlevel.uuids hlevel.lists
  | resource =>
    cases hsegment : scope.segment with
    | none =>
      simp only [uuids, resourcesIn, hsegment] at h
      cases h
    | some segment =>
      cases hsequence : scope.sequence with
      | none =>
        simp only [uuids, resourcesIn, hsegment, hsequence] at h
        cases h
      | some p =>
        have hlevel := level_resource hs hsegment hsequence
        exact hlists hlevel.uuids hlevel.lists

end Store

end MediaPipeline

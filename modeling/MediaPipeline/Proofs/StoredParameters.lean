import MediaPipeline.Proofs.ParameterScans

/-!
# Stored parameters

A store as a function from places and names to parameters. A look-up of a name that the store
does not answer itself reads this function at the place in scope (`getParameter_eq_ok`), an
assignment changes it at one place and name (`param?_assign`), and after calls it is what they
have inserted last (`param?_run`).
-/

namespace MediaPipeline

/-- The scope of a resource of a pair. -/
def ResourceKey.scope (key : ResourceKey) (id : ResourceId) : Scope :=
  ((Scope.global.withSegment key.segment).withSequence key.type key.sequence).withResource id

namespace Store

/-- The parameter of a name in the map at a place. -/
def param? (s : Store) (place : ParamPlace) (name : String) : Option Param :=
  (s.paramsAt place).head?.bind (·.get? name)

variable {s : Store} {kind : ContextKind} {scope : Scope} {place : ParamPlace} {name : String}

/-! ## Look-ups -/

/-- The entry that is picked for an identifier is the one whose map counts. -/
theorem head?_mapsOf {ι : Type} [DecidableEq ι] {entries : List (Entry ι)} {id : ι}
    {unknown : ι → NotFoundReason} {found : Nat × Entry ι}
    (h : pick entries (·.id) (.ok id) unknown .current = .ok found) :
    (mapsOf id entries).head? = some found.2.params := by
  cases Template.pick_eq_ok.mp h with
  | @current i e he hid hfirst =>
    obtain rfl : id = e.id := Option.some.inj hid
    obtain ⟨hi, he⟩ := List.getElem?_eq_some_iff.mp he
    have hfind : entries.find? (·.id = e.id) = some e := by
      rw [List.find?_eq_some_iff_getElem]
      refine ⟨by simp, i, hi, he, fun j hj => ?_⟩
      have hmem : entries[j] ∈ entries.take i := List.mem_take_iff_getElem.mpr ⟨j, by omega, rfl⟩
      simpa using hfirst _ hmem
    rw [mapsOf, List.head?_map, List.head?_filter, hfind, Option.map_some]

/-- A look-up in an entry that is there reads its map. -/
theorem pick_entryValue {ι : Type} [DecidableEq ι] [ToString ι] {entries : List (Entry ι)} {id : ι}
    (hid : id ∈ entries.map (·.id)) (huuid : name ≠ "uuid") (hindex : name ≠ "index")
    (unknown : ι → NotFoundReason) :
    ∃ m, (mapsOf id entries).head? = some m ∧
      (pick entries (·.id) (.ok id) unknown .current >>= entryValue name) = stored m name := by
  obtain ⟨i, e, hpick, -, -⟩ := Template.pick_current hid unknown
  refine ⟨e.params, head?_mapsOf hpick, ?_⟩
  rw [hpick]
  show entryValue name (i, e) = stored e.params name
  rw [entryValue, if_neg huuid, if_neg hindex]

/-- A name that the store does not answer itself is looked up in the map at the place in
scope. -/
theorem find_eq_stored (hplace : ParamPlace.inScope? kind scope = some place) (hhas : s.Has place)
    (hname : name ∉ kind.builtinNames) :
    ∃ m, (s.paramsAt place).head? = some m ∧ s.find kind scope .current name = stored m name := by
  obtain ⟨segment, sequence, resource⟩ := scope
  cases kind with
  | dynamic | tmp =>
    obtain rfl := Option.some.inj hplace
    exact ⟨_, rfl, rfl⟩
  | segment => cases hplace
  | sequence =>
    simp only [ContextKind.builtinNames, List.mem_cons, List.not_mem_nil, or_false, not_or] at hname
    obtain ⟨huuid, hindex, hnum, htype⟩ := hname
    rcases sequence with _ | ⟨t, id⟩
    · cases hplace
    obtain rfl := Option.some.inj hplace
    simp only [find, Scope.sequenceType?, Option.map_some, hnum, htype, if_false, sequenceAt]
    exact pick_entryValue hhas huuid hindex _
  | resource =>
    simp only [ContextKind.builtinNames, List.mem_cons, List.not_mem_nil, or_false, not_or] at hname
    obtain ⟨huuid, hindex, hnum⟩ := hname
    rcases segment with _ | segment
    · cases hplace
    rcases sequence with _ | ⟨t, sequence⟩
    · cases hplace
    rcases resource with _ | id
    · cases hplace
    obtain rfl := Option.some.inj hplace
    simp only [find, resourcesIn, hnum, if_false]
    exact pick_entryValue hhas huuid hindex _

/-- The value that a look-up finds is that of the stored parameter. -/
theorem getParameter_eq_ok {value : String}
    (hplace : ParamPlace.inScope? kind scope = some place) (hhas : s.Has place)
    (hname : name ∉ kind.builtinNames) :
    s.getParameter kind scope name = .ok value ↔
      (s.param? place name).map (·.value) = some value := by
  obtain ⟨m, hm, hfind⟩ := find_eq_stored hplace hhas hname
  rw [getParameter, lookup, hfind, param?, hm, Option.bind_some, stored, ParamMap.value?]
  cases m.get? name <;> simp [Except.mapError]

theorem toOption_getParameter (hplace : ParamPlace.inScope? kind scope = some place)
    (hhas : s.Has place) (hname : name ∉ kind.builtinNames) :
    (s.getParameter kind scope name).toOption = (s.param? place name).map (·.value) := by
  apply Option.ext
  intro value
  rw [← getParameter_eq_ok hplace hhas hname]
  cases s.getParameter kind scope name <;> simp [Except.toOption]

theorem hasParameter_eq (hplace : ParamPlace.inScope? kind scope = some place) (hhas : s.Has place)
    (hname : name ∉ kind.builtinNames) :
    s.hasParameter kind scope name = (s.param? place name).isSome := by
  obtain ⟨m, hm, hfind⟩ := find_eq_stored hplace hhas hname
  rw [hasParameter, getParameter, lookup, hfind, param?, hm, Option.bind_some, stored,
    ParamMap.value?]
  cases m.get? name <;> rfl

/-! ## Assignments -/

/-- A parameter call finds the place in scope if it is there. -/
theorem addParameter_of_has (hplace : ParamPlace.inScope? kind scope = some place)
    (hhas : s.Has place) (name : String) (param : Param) :
    s.addParameter kind scope name param = .ok (s.assign name param place) := by
  have hlocate : s.locate kind scope = .ok place := by
    obtain ⟨segment, sequence, resource⟩ := scope
    cases kind with
    | dynamic | tmp =>
      obtain rfl := Option.some.inj hplace
      rfl
    | segment => cases hplace
    | sequence =>
      rcases sequence with _ | ⟨t, id⟩
      · cases hplace
      obtain rfl := Option.some.inj hplace
      exact if_pos hhas
    | resource =>
      rcases segment with _ | segment
      · cases hplace
      rcases sequence with _ | ⟨t, sequence⟩
      · cases hplace
      rcases resource with _ | id
      · cases hplace
      obtain rfl := Option.some.inj hplace
      exact if_pos hhas
  rw [addParameter_eq_assign, hlocate]
  rfl

theorem SameIds.has_iff {s' : Store} (h : s.SameIds s') : s'.Has place ↔ s.Has place := by
  cases place with
  | dynamic | tmp => exact Iff.rfl
  | sequence t id => simp only [Has, h.sequences]
  | resource key id => simp only [Has, h.resources]

/-- Two stores list the same identifiers, and each resource belongs to the same pair. -/
structure SameListing (s s' : Store) : Prop extends SameIds s s' where
  owners : s'.owners = s.owners

namespace SameListing

theorem refl (s : Store) : s.SameListing s := ⟨⟨rfl, fun _ => rfl, fun _ => rfl⟩, rfl⟩

theorem trans {s' s'' : Store} (h : s.SameListing s') (g : s'.SameListing s'') :
    s.SameListing s'' where
  segments := g.segments.trans h.segments
  sequences t := (g.sequences t).trans (h.sequences t)
  resources key := (g.resources key).trans (h.resources key)
  owners := g.owners.trans h.owners

end SameListing

theorem sameListing_assign (s : Store) (name : String) (param : Param) (place : ParamPlace) :
    s.SameListing (s.assign name param place) where
  toSameIds := sameIds_assign s name param place
  owners := by cases place <;> rfl

theorem ConsistentMaps.assign (h : s.ConsistentMaps) (name : String) (param : Param)
    (target : ParamPlace) : (s.assign name param target).ConsistentMaps := by
  intro place m hm
  rw [paramsAt_assign] at hm
  by_cases hp : place = target
  · rw [if_pos hp] at hm
    obtain ⟨o, ho, rfl⟩ := List.mem_map.mp hm
    exact (h place o ho).insert name param
  · rw [if_neg hp] at hm
    exact h place m hm

/-- An assignment changes one parameter. -/
theorem param?_assign (h : s.ConsistentMaps) {target : ParamPlace} (hhas : s.Has target)
    (name : String) (param : Param) (place : ParamPlace) (name' : String) :
    (s.assign name param target).param? place name' =
      if place = target ∧ name' = name then some param else s.param? place name' := by
  unfold param?
  rw [paramsAt_assign]
  by_cases hp : place = target
  · subst hp
    obtain ⟨m, rest, hm⟩ := List.exists_cons_of_ne_nil hhas.paramsAt_ne_nil
    have hconsistent : m.Consistent := h place m (by rw [hm]; exact List.mem_cons_self)
    rw [if_pos rfl, hm, List.map_cons, List.head?_cons, List.head?_cons, Option.bind_some,
      Option.bind_some]
    by_cases hname : name' = name
    · rw [if_pos ⟨rfl, hname⟩, hname]
      exact hconsistent.get?_insert_self name param
    · rw [if_neg fun hboth => hname hboth.2]
      exact hconsistent.get?_insert_ne param hname
  · rw [if_neg hp, if_neg fun hboth => hp hboth.1]

/-! ## Calls -/

/-- After calls, a parameter is what was inserted last. -/
theorem param?_run (calls : List Call) (place : ParamPlace) (name : String) :
    (empty.run calls).param? place name = lastValue? name (empty.insertions place calls) := by
  obtain ⟨-, hlogged⟩ := run_represented calls
  unfold param?
  cases hmaps : (empty.run calls).paramsAt place with
  | nil =>
    rw [hlogged.absent place hmaps]
    rfl
  | cons m rest =>
    have hrecords := hlogged.records place m (by rw [hmaps]; exact List.mem_cons_self)
    exact hrecords.get?_eq name

end Store

end MediaPipeline

import MediaPipeline.Proofs.StoredParameters

/-!
# Filling gaps

A parameter that is offered is added unless there is one. Of several offers for one name the
first counts (`param?_fillAll_self`), what is there stays (`Extends`), and offers for what is
there change nothing (`fillAll_eq_self`).
-/

namespace MediaPipeline.Store

variable {s t u : Store} {place target : ParamPlace} {name name' value : String}

/-- Add a parameter whose file stays, unless there is one. -/
def fill (s : Store) (place : ParamPlace) (name value : String) : Store :=
  if (s.param? place name).isSome then s else s.assign name (.keep value) place

/-- Add parameters that are offered, one after the other. -/
def fillAll (s : Store) (place : ParamPlace) (offers : List (String × String)) : Store :=
  offers.foldl (fun s o => s.fill place o.1 o.2) s

theorem fillAll_cons (s : Store) (place : ParamPlace) (o : String × String)
    (rest : List (String × String)) :
    s.fillAll place (o :: rest) = (s.fill place o.1 o.2).fillAll place rest := rfl

/-- What is kept by every assignment to a place is kept by every offer there. -/
theorem fill_induction {motive : Store → Prop} (h : motive s)
    (hassign : motive (s.assign name (.keep value) place)) : motive (s.fill place name value) := by
  unfold fill
  split
  · exact h
  · exact hassign

theorem sameListing_fill (s : Store) (place : ParamPlace) (name value : String) :
    s.SameListing (s.fill place name value) :=
  fill_induction (.refl s) (s.sameListing_assign name (.keep value) place)

theorem has_fill (h : s.Has target) (place : ParamPlace) (name value : String) :
    (s.fill place name value).Has target :=
  (s.sameListing_fill place name value).has_iff.mpr h

theorem ConsistentMaps.fill (h : s.ConsistentMaps) (place : ParamPlace) (name value : String) :
    (s.fill place name value).ConsistentMaps :=
  fill_induction h (h.assign name (.keep value) place)

/-- An offer is taken where there is a gap, and only there. -/
theorem param?_fill (h : s.ConsistentMaps) (hhas : s.Has target) (name value : String)
    (place : ParamPlace) (name' : String) :
    (s.fill target name value).param? place name' =
      if place = target ∧ name' = name then (s.param? place name').or (some (.keep value))
      else s.param? place name' := by
  unfold fill
  by_cases hsome : (s.param? target name).isSome = true
  · rw [if_pos hsome]
    split_ifs with hboth
    · obtain ⟨rfl, rfl⟩ := hboth
      obtain ⟨param, hparam⟩ := Option.isSome_iff_exists.mp hsome
      rw [hparam, Option.some_or]
    · rfl
  · rw [if_neg hsome, param?_assign h hhas]
    split_ifs with hboth
    · obtain ⟨rfl, rfl⟩ := hboth
      rw [Option.not_isSome_iff_eq_none.mp hsome, Option.none_or]
    · rfl

section Offers

variable {offers : List (String × String)}

theorem sameListing_fillAll (s : Store) (place : ParamPlace) (offers : List (String × String)) :
    s.SameListing (s.fillAll place offers) := by
  induction offers generalizing s with
  | nil => exact .refl s
  | cons o rest ih => exact (s.sameListing_fill place o.1 o.2).trans (ih _)

theorem ConsistentMaps.fillAll (h : s.ConsistentMaps) (place : ParamPlace)
    (offers : List (String × String)) : (s.fillAll place offers).ConsistentMaps := by
  induction offers generalizing s with
  | nil => exact h
  | cons o rest ih => exact ih (h.fill place o.1 o.2)

/-- Of the offers for a name the first one counts, if there is a gap. -/
theorem param?_fillAll_self (h : s.ConsistentMaps) (hhas : s.Has place) (name : String) :
    (s.fillAll place offers).param? place name =
      (s.param? place name).or ((OrderedMap.find name offers).map .keep) := by
  induction offers generalizing s with
  | nil => simp [fillAll, OrderedMap.find]
  | cons o rest ih =>
    rw [fillAll_cons, ih (h.fill place o.1 o.2) (has_fill hhas place o.1 o.2), param?_fill h hhas,
      OrderedMap.find]
    by_cases hname : o.1 = name
    · subst hname
      rw [if_pos ⟨rfl, rfl⟩, if_pos rfl]
      cases s.param? place o.1 <;> simp
    · rw [if_neg fun hboth => hname hboth.2.symm, if_neg hname]

/-- Offers at a place do not change another one. -/
theorem param?_fillAll_ne (h : s.ConsistentMaps) (hhas : s.Has target) (hplace : place ≠ target)
    (name : String) : (s.fillAll target offers).param? place name = s.param? place name := by
  induction offers generalizing s with
  | nil => rfl
  | cons o rest ih =>
    rw [fillAll_cons, ih (h.fill target o.1 o.2) (has_fill hhas target o.1 o.2), param?_fill h hhas,
      if_neg fun hboth => hplace hboth.1]

/-- Offers for what is there change nothing. -/
theorem fillAll_eq_self (h : ∀ o ∈ offers, (s.param? place o.1).isSome = true) :
    s.fillAll place offers = s := by
  induction offers with
  | nil => rfl
  | cons o rest ih =>
    rw [fillAll_cons, fill, if_pos (h o (.head _))]
    exact ih fun o ho => h o (.tail _ ho)

end Offers

/-! ## Stores that have more -/

/-- The second store has all parameters of the first one, and differs at most in having more
for its sequences and resources. -/
structure Extends (s t : Store) : Prop where
  listing : s.SameListing t
  dynamic : t.dynamic = s.dynamic
  tmp : t.tmp = s.tmp
  kept : ∀ place name param, s.param? place name = some param → t.param? place name = some param

namespace Extends

theorem refl (s : Store) : s.Extends s := ⟨.refl s, rfl, rfl, fun _ _ _ h => h⟩

theorem trans (h : s.Extends t) (g : t.Extends u) : s.Extends u where
  listing := h.listing.trans g.listing
  dynamic := g.dynamic.trans h.dynamic
  tmp := g.tmp.trans h.tmp
  kept place name param hs := g.kept place name param (h.kept place name param hs)

end Extends

/-- A place of the hierarchy, where there is something to fill. -/
theorem extends_fill (h : s.ConsistentMaps) (hhas : s.Has place) (hdynamic : place ≠ .dynamic)
    (htmp : place ≠ .tmp) (name value : String) : s.Extends (s.fill place name value) where
  listing := s.sameListing_fill place name value
  dynamic := by
    refine fill_induction (motive := fun t => t.dynamic = s.dynamic) rfl ?_
    cases place <;> first | rfl | exact absurd rfl hdynamic
  tmp := by
    refine fill_induction (motive := fun t => t.tmp = s.tmp) rfl ?_
    cases place <;> first | rfl | exact absurd rfl htmp
  kept place' name' param hparam := by
    rw [param?_fill h hhas, hparam, Option.some_or, ite_self]

theorem extends_fillAll (h : s.ConsistentMaps) (hhas : s.Has place) (hdynamic : place ≠ .dynamic)
    (htmp : place ≠ .tmp) (offers : List (String × String)) :
    s.Extends (s.fillAll place offers) := by
  induction offers generalizing s with
  | nil => exact .refl s
  | cons o rest ih =>
    have hfirst := extends_fill h hhas hdynamic htmp o.1 o.2
    exact hfirst.trans (ih (h.fill place o.1 o.2) (has_fill hhas place o.1 o.2))

/-- What is looked up elsewhere, or under a name that is not offered, stays. -/
theorem getParameter_fillAll {offers : List (String × String)} {kind kind' : ContextKind}
    {scope scope' : Scope} (h : s.ConsistentMaps) (hhas : s.Has place)
    (hplace : ParamPlace.inScope? kind scope = some place)
    (hother : kind' ≠ kind ∨ ∀ o ∈ offers, o.1 ≠ name) :
    (s.fillAll place offers).getParameter kind' scope' name = s.getParameter kind' scope' name := by
  induction offers generalizing s with
  | nil => rfl
  | cons o rest ih =>
    have hrest := hother.imp_right fun hne o ho => hne o (.tail _ ho)
    rw [fillAll_cons, ih (h.fill place o.1 o.2) (has_fill hhas place o.1 o.2) hrest]
    refine fill_induction (motive := fun t =>
      t.getParameter kind' scope' name = s.getParameter kind' scope' name) rfl ?_
    rw [getParameter, getParameter, lookup, lookup, find_assign_ne h hplace]
    rcases hother with hkind | hne
    · refine .inl fun haddressed => hkind ?_
      rw [← kind_of_addressed? haddressed, ParamPlace.kind_of_inScope? hplace]
    · exact .inr (.inl (Ne.symm (hne o (.head _))))

end MediaPipeline.Store

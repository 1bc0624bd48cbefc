import MediaPipeline.Template.Eval
import MediaPipeline.Proofs.StoreInvariant

/-!
# Bindings

What a reference means in a scope of a store, said by rules: which position its index
names, which entry that is, and what the name stands for there, which is a text that the
store answers itself or a parameter of one of its maps. `resolve_eq_ok` and
`resolve_missing` say that the look-up finds exactly these bindings, and that it fails
under the name of the reference when there is none.
-/

namespace MediaPipeline.Template

/-- What a name stands for. -/
inductive Referent where
  /-- The store answers itself. -/
  | answer (text : String)
  /-- A parameter, if the map at a place has it. -/
  | param (place : ParamPlace) (map : ParamMap)

/-- The value of a name that stands for something. -/
inductive Referent.Value (name : String) : Referent → String → Prop
  | answer (text : String) : Value name (.answer text) text
  | param {place : ParamPlace} {map : ParamMap} {p : Param} (h : map.get? name = some p) :
    Value name (.param place map) p.value

/-- The entry that an index means: the one in scope, the one at a written position, or
the one at the position that a dynamic parameter holds. -/
inductive Position (s : Store) : Option SiblingIndex → Store.Selector → Prop
  | current : Position s none .current
  | written (i : Nat) : Position s (some (.position i)) (.index i)
  | held {var : String} {p : Param} {i : Nat} (hp : s.dynamic.get? var = some p)
      (hi : Text.size? (Text.trim p.value.toList) = some i) :
    Position s (some (.variable var)) (.index i)

/-- The sibling that is meant, with its position. -/
inductive Picks {α ι : Type} (siblings : List α) (key : α → ι) (current : Option ι) :
    Store.Selector → Nat × α → Prop
  | index {i : Nat} {a : α} (h : siblings[i]? = some a) : Picks siblings key current (.index i) (i, a)
  | current {i : Nat} {a : α} (h : siblings[i]? = some a) (hc : current = some (key a))
      (hfirst : ∀ b ∈ siblings.take i, key b ≠ key a) :
    Picks siblings key current .current (i, a)

/-- What a name stands for at an entry. -/
inductive EntryDenotes {ι : Type} [ToString ι] (place : ι → ParamPlace) :
    Nat × Entry ι → String → Referent → Prop
  | uuid (found : Nat × Entry ι) :
    EntryDenotes place found "uuid" (.answer (toString found.2.id))
  | index (found : Nat × Entry ι) :
    EntryDenotes place found "index" (.answer (Text.showNat found.1))
  | stored (found : Nat × Entry ι) {name : String} (huuid : name ≠ "uuid")
      (hindex : name ≠ "index") :
    EntryDenotes place found name (.param (place found.2.id) found.2.params)

/-- What a name of some kind stands for in a scope. -/
inductive Denotes (s : Store) (scope : Scope) :
    ContextKind → Store.Selector → String → Referent → Prop
  | dynamic (sel : Store.Selector) (name : String) :
    Denotes s scope .dynamic sel name (.param .dynamic s.dynamic)
  | tmp (sel : Store.Selector) (name : String) :
    Denotes s scope .tmp sel name (.param .tmp s.tmp)
  | segmentNum (sel : Store.Selector) :
    Denotes s scope .segment sel "num" (.answer (Text.showNat s.segments.length))
  | segmentUuid {sel : Store.Selector} {found : Nat × SegmentId}
      (h : Picks s.segments id scope.segment sel found) :
    Denotes s scope .segment sel "uuid" (.answer (toString found.2))
  | segmentIndex {sel : Store.Selector} {found : Nat × SegmentId}
      (h : Picks s.segments id scope.segment sel found) :
    Denotes s scope .segment sel "index" (.answer (Text.showNat found.1))
  | sequenceNum {t : SequenceType} {current : SequenceId} (sel : Store.Selector)
      (hs : scope.sequence = some (t, current)) :
    Denotes s scope .sequence sel "num" (.answer (Text.showNat (s.sequenceEntries t).length))
  | sequenceType {t : SequenceType} {current : SequenceId} (sel : Store.Selector)
      (hs : scope.sequence = some (t, current)) :
    Denotes s scope .sequence sel "type" (.answer t.name)
  | sequence {t : SequenceType} {current : SequenceId} {sel : Store.Selector}
      {found : Nat × Entry SequenceId} {name : String} {referent : Referent}
      (hs : scope.sequence = some (t, current)) (hnum : name ≠ "num") (htype : name ≠ "type")
      (h : Picks (s.sequenceEntries t) (·.id) (some current) sel found)
      (he : EntryDenotes (.sequence t) found name referent) :
    Denotes s scope .sequence sel name referent
  | resourceNum {segment : SegmentId} {t : SequenceType} {current : SequenceId}
      (sel : Store.Selector) (hg : scope.segment = some segment)
      (hs : scope.sequence = some (t, current)) :
    Denotes s scope .resource sel "num"
      (.answer (Text.showNat (s.resourceEntries ⟨segment, t, current⟩).length))
  | resource {segment : SegmentId} {t : SequenceType} {current : SequenceId}
      {sel : Store.Selector} {found : Nat × Entry ResourceId} {name : String}
      {referent : Referent} (hg : scope.segment = some segment)
      (hs : scope.sequence = some (t, current)) (hnum : name ≠ "num")
      (h : Picks (s.resourceEntries ⟨segment, t, current⟩) (·.id) scope.resource sel found)
      (he : EntryDenotes (.resource ⟨segment, t, current⟩) found name referent) :
    Denotes s scope .resource sel name referent

/-- The value to which a reference is bound. -/
def Binds (s : Store) (scope : Scope) (r : Reference) (value : String) : Prop :=
  ∃ sel referent, Position s r.index sel ∧ Denotes s scope r.kind sel r.name referent ∧
    referent.Value r.name value

/-! ## Look-ups find bindings -/

section Lookup

variable {s : Store} {scope : Scope}

theorem stored_eq_ok {params : ParamMap} {name value : String} (place : ParamPlace) :
    Store.stored params name = .ok value ↔ (Referent.param place params).Value name value := by
  unfold Store.stored ParamMap.value?
  constructor
  · intro h
    cases hp : params.get? name with
    | none => simp [hp] at h
    | some p =>
      simp only [hp, Option.map_some, Except.ok.injEq] at h
      subst h
      exact .param hp
  · intro h
    cases h with
    | param hp => simp [hp]

theorem find?_zipIdx {α ι : Type} [DecidableEq ι] {siblings : List α} {key : α → ι} {id : ι}
    {a : α} {i : Nat} :
    siblings.zipIdx.find? (fun p => key p.1 = id) = some (a, i) ↔
      siblings[i]? = some a ∧ key a = id ∧ ∀ b ∈ siblings.take i, key b ≠ id := by
  rw [List.find?_eq_some_iff_getElem]
  constructor
  · rintro ⟨hk, j, hj, hp, hfirst⟩
    simp only [List.getElem_zipIdx, Nat.zero_add, Prod.mk.injEq] at hp
    obtain ⟨ha, rfl⟩ := hp
    rw [List.length_zipIdx] at hj
    refine ⟨List.getElem?_eq_some_iff.mpr ⟨hj, ha⟩, by simpa using hk, ?_⟩
    intro b hb
    obtain ⟨k, hk', rfl⟩ := List.mem_take_iff_getElem.mp hb
    have hlt : k < j := by omega
    simpa using hfirst k hlt
  · rintro ⟨ha, hk, hfirst⟩
    obtain ⟨hi, ha⟩ := List.getElem?_eq_some_iff.mp ha
    refine ⟨by simpa using hk, i, by simpa using hi, by simp [ha], ?_⟩
    intro j hj
    have hmem : siblings[j] ∈ siblings.take i :=
      List.mem_take_iff_getElem.mpr ⟨j, by omega, rfl⟩
    simpa using hfirst _ hmem

theorem pick_eq_ok {α ι : Type} [DecidableEq ι] {siblings : List α} {key : α → ι}
    {current : Except NotFoundReason ι} {unknown : ι → NotFoundReason} {sel : Store.Selector}
    {found : Nat × α} :
    Store.pick siblings key current unknown sel = .ok found ↔
      Picks siblings key current.toOption sel found := by
  obtain ⟨i, a⟩ := found
  cases sel with
  | index j =>
    simp only [Store.pick]
    constructor
    · intro h
      cases ha : siblings[j]? with
      | none => simp [ha] at h
      | some b =>
        simp only [ha, Except.ok.injEq, Prod.mk.injEq] at h
        obtain ⟨rfl, rfl⟩ := h
        exact .index ha
    · rintro ⟨ha⟩
      simp [ha]
  | current =>
    cases current with
    | error reason =>
      simp only [Store.pick, reduceCtorEq, false_iff]
      rintro (_ | ⟨_, hc, _⟩)
      cases hc
    | ok id =>
      have hpick : Store.pick siblings key (.ok id) unknown .current = .ok (i, a) ↔
          siblings.zipIdx.find? (fun p => key p.1 = id) = some (a, i) := by
        simp only [Store.pick]
        cases hf : siblings.zipIdx.find? fun p => key p.1 = id with
        | none => simp
        | some p => simp [Prod.ext_iff, and_comm]
      rw [hpick, find?_zipIdx]
      constructor
      · rintro ⟨ha, rfl, hfirst⟩
        exact .current ha rfl hfirst
      · rintro (_ | ⟨ha, hc, hfirst⟩)
        obtain rfl := Option.some.inj hc
        exact ⟨ha, rfl, hfirst⟩

/-- The sibling in scope is picked if it is listed. -/
theorem pick_current {α ι : Type} [DecidableEq ι] {siblings : List α} {key : α → ι} {id : ι}
    (hid : id ∈ siblings.map key) (unknown : ι → NotFoundReason) :
    ∃ i a, Store.pick siblings key (.ok id) unknown .current = .ok (i, a) ∧
      siblings[i]? = some a ∧ key a = id := by
  cases hf : siblings.zipIdx.find? fun p => key p.1 = id with
  | none =>
    obtain ⟨a, ha, rfl⟩ := List.mem_map.mp hid
    obtain ⟨i, hi⟩ := List.mem_iff_getElem?.mp ha
    have hno := List.find?_eq_none.mp hf (a, i) (List.mem_zipIdx_iff_getElem?.mpr hi)
    simp at hno
  | some p =>
    obtain ⟨hi, ha, -⟩ := find?_zipIdx.mp hf
    exact ⟨p.2, p.1, by simp only [Store.pick, hf], hi, ha⟩

theorem entryValue_eq_ok {ι : Type} [ToString ι] (place : ι → ParamPlace) {name value : String}
    {found : Nat × Entry ι} :
    Store.entryValue name found = .ok value ↔
      ∃ referent, EntryDenotes place found name referent ∧ referent.Value name value := by
  unfold Store.entryValue
  constructor
  · intro h
    by_cases huuid : name = "uuid"
    · rw [if_pos huuid] at h
      obtain rfl := Except.ok.inj h
      exact ⟨_, huuid ▸ .uuid found, .answer _⟩
    · by_cases hindex : name = "index"
      · rw [if_neg huuid, if_pos hindex] at h
        obtain rfl := Except.ok.inj h
        exact ⟨_, hindex ▸ .index found, .answer _⟩
      · rw [if_neg huuid, if_neg hindex] at h
        exact ⟨_, .stored found huuid hindex, (stored_eq_ok _).mp h⟩
  · rintro ⟨referent, hd, hv⟩
    cases hd with
    | uuid =>
      cases hv
      rfl
    | index =>
      cases hv
      rfl
    | stored huuid hindex =>
      rw [if_neg huuid, if_neg hindex]
      exact (stored_eq_ok _).mpr hv

theorem segmentAt_eq_ok {sel : Store.Selector} {found : Nat × SegmentId} :
    s.segmentAt scope sel = .ok found ↔ Picks s.segments id scope.segment sel found := by
  rw [Store.segmentAt, pick_eq_ok]
  cases scope.segment <;> rfl

theorem sequenceAt_eq_ok {t : SequenceType} {current : SequenceId} {sel : Store.Selector}
    {found : Nat × Entry SequenceId} (hs : scope.sequence = some (t, current)) :
    s.sequenceAt scope sel = .ok found ↔
      Picks (s.sequenceEntries t) (·.id) (some current) sel found := by
  simp only [Store.sequenceAt, hs, pick_eq_ok]
  rfl

theorem resourcesIn_eq_ok {siblings : List (Entry ResourceId)} :
    s.resourcesIn scope = .ok siblings ↔ ∃ segment t current, scope.segment = some segment ∧
      scope.sequence = some (t, current) ∧ siblings = s.resourceEntries ⟨segment, t, current⟩ := by
  unfold Store.resourcesIn
  cases scope.segment with
  | none => simp
  | some segment =>
    cases scope.sequence with
    | none => simp
    | some p =>
      obtain ⟨t, current⟩ := p
      simp [eq_comm]

theorem resourceAt_eq_ok {siblings : List (Entry ResourceId)} {sel : Store.Selector}
    {found : Nat × Entry ResourceId} :
    Store.resourceAt siblings scope sel = .ok found ↔
      Picks siblings (·.id) scope.resource sel found := by
  rw [Store.resourceAt, pick_eq_ok]
  cases scope.resource <;> rfl

theorem find_segment {sel : Store.Selector} {name value : String} :
    s.find .segment scope sel name = .ok value ↔
      ∃ referent, Denotes s scope .segment sel name referent ∧ referent.Value name value := by
  simp only [Store.find]
  constructor
  · intro h
    by_cases hnum : name = "num"
    · rw [if_pos hnum] at h
      obtain rfl := Except.ok.inj h
      exact ⟨_, hnum ▸ .segmentNum sel, .answer _⟩
    · rw [if_neg hnum] at h
      obtain ⟨found, hfound, h⟩ := bind_eq_ok.mp h
      have hpick := segmentAt_eq_ok.mp hfound
      by_cases huuid : name = "uuid"
      · rw [if_pos huuid] at h
        obtain rfl := Except.ok.inj h
        exact ⟨_, huuid ▸ .segmentUuid hpick, .answer _⟩
      · by_cases hindex : name = "index"
        · rw [if_neg huuid, if_pos hindex] at h
          obtain rfl := Except.ok.inj h
          exact ⟨_, hindex ▸ .segmentIndex hpick, .answer _⟩
        · rw [if_neg huuid, if_neg hindex] at h
          cases h
  · rintro ⟨referent, hd, hv⟩
    cases hd with
    | segmentNum =>
      cases hv
      rfl
    | segmentUuid hpick =>
      cases hv
      exact bind_eq_ok.mpr ⟨_, segmentAt_eq_ok.mpr hpick, rfl⟩
    | segmentIndex hpick =>
      cases hv
      exact bind_eq_ok.mpr ⟨_, segmentAt_eq_ok.mpr hpick, rfl⟩

theorem find_sequence {sel : Store.Selector} {name value : String} :
    s.find .sequence scope sel name = .ok value ↔
      ∃ referent, Denotes s scope .sequence sel name referent ∧ referent.Value name value := by
  cases hs : scope.sequence with
  | none =>
    simp only [Store.find, Scope.sequenceType?, hs, Option.map_none, reduceCtorEq, false_iff]
    rintro ⟨referent, hd, -⟩
    cases hd <;> simp_all
  | some p =>
    obtain ⟨t, current⟩ := p
    simp only [Store.find, Scope.sequenceType?, hs, Option.map_some]
    constructor
    · intro h
      by_cases hnum : name = "num"
      · rw [if_pos hnum] at h
        obtain rfl := Except.ok.inj h
        exact ⟨_, hnum ▸ .sequenceNum sel hs, .answer _⟩
      · by_cases htype : name = "type"
        · rw [if_neg hnum, if_pos htype] at h
          obtain rfl := Except.ok.inj h
          exact ⟨_, htype ▸ .sequenceType sel hs, .answer _⟩
        · rw [if_neg hnum, if_neg htype] at h
          obtain ⟨found, hfound, h⟩ := bind_eq_ok.mp h
          obtain ⟨referent, he, hv⟩ := (entryValue_eq_ok (.sequence t)).mp h
          exact ⟨referent, .sequence hs hnum htype ((sequenceAt_eq_ok hs).mp hfound) he, hv⟩
    · rintro ⟨referent, hd, hv⟩
      cases hd with
      | sequenceNum _ hs' =>
        cases hv
        obtain ⟨rfl, -⟩ := Prod.mk.inj (Option.some.inj (hs.symm.trans hs'))
        rfl
      | sequenceType _ hs' =>
        cases hv
        obtain ⟨rfl, -⟩ := Prod.mk.inj (Option.some.inj (hs.symm.trans hs'))
        rfl
      | sequence hs' hnum htype hpick he =>
        obtain ⟨rfl, rfl⟩ := Prod.mk.inj (Option.some.inj (hs.symm.trans hs'))
        rw [if_neg hnum, if_neg htype]
        exact bind_eq_ok.mpr ⟨_, (sequenceAt_eq_ok hs).mpr hpick,
          (entryValue_eq_ok (.sequence t)).mpr ⟨_, he, hv⟩⟩

theorem find_resource {sel : Store.Selector} {name value : String} :
    s.find .resource scope sel name = .ok value ↔
      ∃ referent, Denotes s scope .resource sel name referent ∧ referent.Value name value := by
  simp only [Store.find]
  constructor
  · intro h
    obtain ⟨siblings, hsiblings, h⟩ := bind_eq_ok.mp h
    obtain ⟨segment, t, current, hg, hs, rfl⟩ := resourcesIn_eq_ok.mp hsiblings
    by_cases hnum : name = "num"
    · rw [if_pos hnum] at h
      obtain rfl := Except.ok.inj h
      exact ⟨_, hnum ▸ .resourceNum sel hg hs, .answer _⟩
    · rw [if_neg hnum] at h
      obtain ⟨found, hfound, h⟩ := bind_eq_ok.mp h
      obtain ⟨referent, he, hv⟩ := (entryValue_eq_ok (.resource ⟨segment, t, current⟩)).mp h
      exact ⟨referent, .resource hg hs hnum (resourceAt_eq_ok.mp hfound) he, hv⟩
  · rintro ⟨referent, hd, hv⟩
    cases hd with
    | resourceNum _ hg hs =>
      cases hv
      exact bind_eq_ok.mpr ⟨_, resourcesIn_eq_ok.mpr ⟨_, _, _, hg, hs, rfl⟩, rfl⟩
    | resource hg hs hnum hpick he =>
      refine bind_eq_ok.mpr ⟨_, resourcesIn_eq_ok.mpr ⟨_, _, _, hg, hs, rfl⟩, ?_⟩
      rw [if_neg hnum]
      exact bind_eq_ok.mpr ⟨_, resourceAt_eq_ok.mpr hpick, (entryValue_eq_ok _).mpr ⟨_, he, hv⟩⟩

/-- A look-up finds what the name denotes. -/
theorem find_eq_ok {kind : ContextKind} {sel : Store.Selector} {name value : String} :
    s.find kind scope sel name = .ok value ↔
      ∃ referent, Denotes s scope kind sel name referent ∧ referent.Value name value := by
  cases kind with
  | dynamic =>
    rw [Store.find, stored_eq_ok .dynamic]
    constructor
    · exact fun h => ⟨_, .dynamic sel name, h⟩
    · rintro ⟨referent, ⟨⟩, hv⟩
      exact hv
  | tmp =>
    rw [Store.find, stored_eq_ok .tmp]
    constructor
    · exact fun h => ⟨_, .tmp sel name, h⟩
    · rintro ⟨referent, ⟨⟩, hv⟩
      exact hv
  | segment => exact find_segment
  | sequence => exact find_sequence
  | resource => exact find_resource

theorem lookup_eq_ok {kind : ContextKind} {sel : Store.Selector} {name value : String} :
    s.lookup kind scope sel name = .ok value ↔
      ∃ referent, Denotes s scope kind sel name referent ∧ referent.Value name value := by
  rw [← find_eq_ok, Store.lookup]
  cases s.find kind scope sel name <;> simp [Except.mapError]

/-! ## References -/

theorem getParameter_dynamic (var : String) :
    s.getParameter .dynamic scope var =
      match s.dynamic.get? var with
      | some p => .ok p.value
      | none => .error ⟨referenceText .dynamic var, .missingParameter⟩ := by
  cases hp : s.dynamic.get? var <;>
    simp [Store.getParameter, Store.lookup, Store.find, Store.stored, ParamMap.value?, hp,
      Except.mapError]

theorem siblingSelector_eq_ok {r : Reference} {sel : Store.Selector} :
    siblingSelector s scope r = .ok sel ↔ Position s r.index sel := by
  unfold siblingSelector
  cases r.index with
  | none =>
    constructor
    · intro h
      obtain rfl := Except.ok.inj h
      exact .current
    · rintro ⟨⟩
      rfl
  | some index =>
    rcases index with i | var
    · constructor
      · intro h
        obtain rfl := Except.ok.inj h
        exact .written i
      · rintro ⟨⟩
        rfl
    · cases hp : s.dynamic.get? var with
      | none =>
        simp only [getParameter_dynamic, hp, reduceCtorEq, false_iff]
        rintro ⟨⟩
        simp_all
      | some p =>
        simp only [getParameter_dynamic, hp]
        constructor
        · intro h
          cases hi : Text.size? (Text.trim p.value.toList) with
          | none => simp [hi] at h
          | some i =>
            simp only [hi, Except.ok.injEq] at h
            subst h
            exact .held hp hi
        · rintro (_ | _ | ⟨hp', hi⟩)
          obtain rfl := Option.some.inj (hp.symm.trans hp')
          simp only [hi]

/-- A reference resolves to what it is bound to. -/
theorem resolve_eq_ok {r : Reference} {value : String} :
    resolve s scope r = .ok value ↔ Binds s scope r value := by
  unfold resolve
  rw [bind_eq_ok]
  constructor
  · rintro ⟨sel, hsel, h⟩
    cases hl : s.lookup r.kind scope sel r.name with
    | error missing => simp [hl] at h
    | ok v =>
      simp only [hl, Pure.pure, Except.pure, Except.ok.injEq] at h
      subst h
      obtain ⟨referent, hd, hv⟩ := lookup_eq_ok.mp hl
      exact ⟨sel, referent, siblingSelector_eq_ok.mp hsel, hd, hv⟩
  · rintro ⟨sel, referent, hpos, hd, hv⟩
    refine ⟨sel, siblingSelector_eq_ok.mpr hpos, ?_⟩
    simp only [lookup_eq_ok.mpr ⟨referent, hd, hv⟩, Pure.pure, Except.pure]

/-- A reference that does not resolve fails under its own name. -/
theorem resolve_error {r : Reference} {cause : Cause} (h : resolve s scope r = .error cause) :
    ∃ absence, cause = .paramNotFound r.raw absence := by
  unfold resolve at h
  cases hsel : siblingSelector s scope r with
  | error c =>
    simp only [hsel, bind, Except.bind, Except.error.injEq] at h
    subst h
    unfold siblingSelector at hsel
    split at hsel
    · cases hsel
    · cases hsel
    · split at hsel
      · exact ⟨_, (Except.error.inj hsel).symm⟩
      · split at hsel
        · cases hsel
        · exact ⟨_, (Except.error.inj hsel).symm⟩
  | ok sel =>
    simp only [hsel, bind, Except.bind] at h
    split at h
    · cases h
    · exact ⟨_, (Except.error.inj h).symm⟩

theorem resolve_missing {r : Reference} (h : ∀ value, ¬ Binds s scope r value) :
    ∃ absence, resolve s scope r = .error (.paramNotFound r.raw absence) := by
  cases hr : resolve s scope r with
  | ok value => exact absurd (resolve_eq_ok.mp hr) (h value)
  | error cause =>
    obtain ⟨absence, rfl⟩ := resolve_error hr
    exact ⟨absence, rfl⟩

theorem Binds.unique {r : Reference} {v w : String} (hv : Binds s scope r v)
    (hw : Binds s scope r w) : v = w :=
  Except.ok.inj ((resolve_eq_ok.mpr hv).symm.trans (resolve_eq_ok.mpr hw))

end Lookup

end MediaPipeline.Template

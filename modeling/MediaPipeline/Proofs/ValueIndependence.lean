import MediaPipeline.Proofs.ArgumentLayout
import MediaPipeline.Proofs.TemplateResolution

/-!
# Value independence

Two stores that differ in values only, none of which a template reads in a directive or
as an index, resolve the template alike. The two walks meet the same things in lockstep
(`Walk.lockstep`), and what they put out has one layout, in which only the values are
exchanged (`resolveArgv_exchanged`).
-/

namespace MediaPipeline

/-! ## Stores that differ in values only -/

/-- Two maps hold the same names with the same values, but that a free name may have one
value here and another there. -/
structure ParamMap.SameBut (free : String → Prop) (m₁ m₂ : ParamMap) : Prop where
  keys : m₁.keys = m₂.keys
  index : m₁.index = m₂.index
  value : ∀ name, m₁.value? name = m₂.value? name ∨
    free name ∧ (m₁.value? name).isSome ∧ (m₂.value? name).isSome

/-- Two entries with one identifier hold the same but for free values. -/
structure Entry.SameBut {ι : Type} (free : ι → String → Prop) (e₁ e₂ : Entry ι) : Prop where
  id : e₁.id = e₂.id
  params : e₁.params.SameBut (free e₁.id) e₂.params

/-- Two stores hold the same but for the values of free parameters, which are set in
both. -/
structure Store.SameBut (free : ParamPlace → String → Prop) (s₁ s₂ : Store) : Prop where
  dynamic : s₁.dynamic.SameBut (free .dynamic) s₂.dynamic
  tmp : s₁.tmp.SameBut (free .tmp) s₂.tmp
  segments : s₁.segments = s₂.segments
  sequences : ∀ t, List.Forall₂ (Entry.SameBut fun id => free (.sequence t id))
    (s₁.sequenceEntries t) (s₂.sequenceEntries t)
  resources : ∀ key, List.Forall₂ (Entry.SameBut fun id => free (.resource key id))
    (s₁.resourceEntries key) (s₂.resourceEntries key)

section Same

variable {free : ParamPlace → String → Prop} {s₁ s₂ : Store}

theorem ParamMap.SameBut.symm {free : String → Prop} {m₁ m₂ : ParamMap} (h : m₁.SameBut free m₂) :
    m₂.SameBut free m₁ :=
  ⟨h.keys.symm, h.index.symm, fun name => (h.value name).imp Eq.symm (And.imp_right And.symm)⟩

/-- Where two maps have the same keys in the same places, an insertion changes the same
place, or none that a name leads to. -/
theorem get?_insert_or {m₁ m₂ : ParamMap} (hkeys : m₁.keys = m₂.keys)
    (hindex : m₁.index = m₂.index) (name other : String) (p : Param) :
    (m₁.insert name p).get? other = (m₂.insert name p).get? other ∨
      (m₁.insert name p).get? other = m₁.get? other ∧
        (m₂.insert name p).get? other = m₂.get? other := by
  have hlength : m₁.entries.length = m₂.entries.length := by
    simpa [IndexedMap.keys] using congrArg List.length hkeys
  cases hi : m₁.index.get? name with
  | some i =>
    rw [IndexedMap.insert_of_index p hi, IndexedMap.insert_of_index p (hindex ▸ hi)]
    simp only [IndexedMap.get?, ← hindex]
    cases hj : m₁.index.get? other with
    | none => exact .inl rfl
    | some j =>
      by_cases hij : i = j
      · subst hij
        left
        by_cases hlt : i < m₁.entries.length
        · simp [hlt, hlength ▸ hlt]
        · simp [List.getElem?_eq_none (Nat.le_of_not_lt hlt),
            List.getElem?_eq_none (hlength ▸ Nat.le_of_not_lt hlt)]
      · right
        simp [List.getElem?_modify, hij, Function.comp_def]
  | none =>
    rw [IndexedMap.insert_of_not_index p hi, IndexedMap.insert_of_not_index p (hindex ▸ hi)]
    simp only [IndexedMap.get?, ← hindex, hlength]
    by_cases ho : other = name
    · subst ho
      left
      simp [← hlength]
    · rw [OrderedMap.get?_insert_ne _ _ ho]
      cases hj : m₁.index.get? other with
      | none => exact .inl rfl
      | some j =>
        by_cases hlt : j < m₁.entries.length
        · right
          simp [List.getElem?_append_left hlt, List.getElem?_append_left (hlength ▸ hlt)]
        · left
          have hle : m₁.entries.length ≤ j := Nat.le_of_not_lt hlt
          simp [List.getElem?_append_right hle, List.getElem?_append_right (hlength ▸ hle), hlength]

theorem ParamMap.SameBut.insert {free : String → Prop} {m₁ m₂ : ParamMap}
    (h : m₁.SameBut free m₂) (name : String) (p : Param) :
    ParamMap.SameBut free (m₁.insert name p) (m₂.insert name p) := by
  refine ⟨?_, ?_, fun other => ?_⟩
  · cases hi : m₁.index.get? name with
    | some i =>
      rw [IndexedMap.insert_of_index p hi, IndexedMap.insert_of_index p (h.index ▸ hi)]
      simp only [IndexedMap.keys, IndexedMap.map_fst_modify]
      exact h.keys
    | none =>
      have hkeys : m₁.entries.map (·.1) = m₂.entries.map (·.1) := h.keys
      rw [IndexedMap.insert_of_not_index p hi, IndexedMap.insert_of_not_index p (h.index ▸ hi)]
      simp [IndexedMap.keys, hkeys]
  · have hlength : m₁.entries.length = m₂.entries.length := by
      simpa [IndexedMap.keys] using congrArg List.length h.keys
    simp only [IndexedMap.insert, ← h.index, hlength]
    cases m₁.index.get? name <;> simp [h.index]
  · unfold ParamMap.value?
    obtain he | ⟨he₁, he₂⟩ := get?_insert_or h.keys h.index name other p
    · exact .inl (by rw [he])
    · rw [he₁, he₂]
      exact h.value other

theorem Entry.SameBut.symm {ι : Type} {free : ι → String → Prop} {e₁ e₂ : Entry ι}
    (h : e₁.SameBut free e₂) : e₂.SameBut free e₁ :=
  ⟨h.id.symm, h.id ▸ h.params.symm⟩

namespace Store.SameBut

theorem symm (h : s₁.SameBut free s₂) : s₂.SameBut free s₁ := by
  refine ⟨h.dynamic.symm, h.tmp.symm, h.segments.symm, fun t => ?_, fun key => ?_⟩
  · exact List.Forall₂.flip ((h.sequences t).imp fun _ _ => Entry.SameBut.symm)
  · exact List.Forall₂.flip ((h.resources key).imp fun _ _ => Entry.SameBut.symm)

theorem setDynamic (h : s₁.SameBut free s₂) (name value : String) :
    (s₁.setDynamic name value).SameBut free (s₂.setDynamic name value) :=
  ⟨h.dynamic.insert name (.keep value), h.tmp, h.segments, h.sequences, h.resources⟩

end Store.SameBut

end Same

namespace Template

/-! ## Bindings in both stores -/

/-- Two meanings of a name that differ in free values only. -/
inductive Referent.SameBut (free : ParamPlace → String → Prop) : Referent → Referent → Prop
  | answer (text : String) : SameBut free (.answer text) (.answer text)
  | param (place : ParamPlace) {m₁ m₂ : ParamMap} (h : m₁.SameBut (free place) m₂) :
    SameBut free (.param place m₁) (.param place m₂)

/-- A reference reads the parameter of its name at a place. -/
def Reads (s : Store) (scope : Scope) (r : Reference) (place : ParamPlace) : Prop :=
  ∃ sel map, Position s r.index sel ∧ Denotes s scope r.kind sel r.name (.param place map)

/-- The index of a reference is not free. -/
def Reference.FixedIndex (free : ParamPlace → String → Prop) (r : Reference) : Prop :=
  ∀ var, r.index = some (.variable var) → ¬ free .dynamic var

section Bindings

variable {free : ParamPlace → String → Prop} {s₁ s₂ : Store} {scope : Scope}

theorem Position.same (hs : s₁.SameBut free s₂) {index : Option SiblingIndex}
    (hindex : ∀ var, index = some (.variable var) → ¬ free .dynamic var) {sel : Store.Selector}
    (h : Position s₁ index sel) : Position s₂ index sel := by
  cases h with
  | current => exact .current
  | written i => exact .written i
  | @held var p i hp hi =>
    have hvalue : s₁.dynamic.value? var = s₂.dynamic.value? var :=
      (hs.dynamic.value var).resolve_right fun hfree => hindex var rfl hfree.1
    rw [ParamMap.value?, ParamMap.value?, hp] at hvalue
    obtain ⟨q, hq, hpq⟩ := Option.map_eq_some_iff.mp hvalue.symm
    exact .held hq (hpq ▸ hi)

theorem Picks.same {α ι : Type} {R : α → α → Prop} {l₁ l₂ : List α} {key : α → ι}
    {current : Option ι} {sel : Store.Selector} {i : Nat} {a : α} (hl : List.Forall₂ R l₁ l₂)
    (hkey : ∀ a b, R a b → key a = key b) (h : Picks l₁ key current sel (i, a)) :
    ∃ b, Picks l₂ key current sel (i, b) ∧ R a b := by
  have hget {i : Nat} {a : α} (ha : l₁[i]? = some a) : ∃ b, l₂[i]? = some b ∧ R a b := by
    obtain ⟨hi, rfl⟩ := List.getElem?_eq_some_iff.mp ha
    have hi₂ : i < l₂.length := hl.length_eq ▸ hi
    exact ⟨l₂[i], List.getElem?_eq_getElem hi₂, hl.get hi hi₂⟩
  cases h with
  | index ha =>
    obtain ⟨b, hb, hab⟩ := hget ha
    exact ⟨b, .index hb, hab⟩
  | current ha hc hfirst =>
    obtain ⟨b, hb, hab⟩ := hget ha
    refine ⟨b, .current hb (hkey a b hab ▸ hc) ?_, hab⟩
    intro c hc
    have hkeys : (l₁.take i).map key = (l₂.take i).map key :=
      List.forall₂_eq_eq_eq ▸ List.forall₂_map_left_iff.mpr
        (List.forall₂_map_right_iff.mpr ((List.forall₂_take i hl).imp hkey))
    obtain ⟨d, hd, hdc⟩ := List.mem_map.mp (hkeys ▸ List.mem_map_of_mem hc)
    rw [← hkey a b hab, ← hdc]
    exact hfirst d hd

theorem EntryDenotes.same {ι : Type} [ToString ι] {place : ι → ParamPlace} {i : Nat}
    {e₁ e₂ : Entry ι} (he : e₁.SameBut (fun id => free (place id)) e₂) {name : String}
    {referent : Referent} (h : EntryDenotes place (i, e₁) name referent) :
    ∃ referent', EntryDenotes place (i, e₂) name referent' ∧ referent.SameBut free referent' := by
  cases h with
  | uuid => exact ⟨_, .uuid (i, e₂), he.id ▸ .answer _⟩
  | index => exact ⟨_, .index (i, e₂), .answer _⟩
  | stored huuid hindex => exact ⟨_, .stored (i, e₂) huuid hindex, he.id ▸ .param _ he.params⟩

theorem Denotes.same (hs : s₁.SameBut free s₂) {kind : ContextKind} {sel : Store.Selector}
    {name : String} {referent : Referent} (h : Denotes s₁ scope kind sel name referent) :
    ∃ referent', Denotes s₂ scope kind sel name referent' ∧ referent.SameBut free referent' := by
  cases h with
  | dynamic sel name => exact ⟨_, .dynamic sel name, .param .dynamic hs.dynamic⟩
  | tmp sel name => exact ⟨_, .tmp sel name, .param .tmp hs.tmp⟩
  | segmentNum sel => exact ⟨_, .segmentNum sel, hs.segments ▸ .answer _⟩
  | segmentUuid hpick => exact ⟨_, .segmentUuid (hs.segments ▸ hpick), .answer _⟩
  | segmentIndex hpick => exact ⟨_, .segmentIndex (hs.segments ▸ hpick), .answer _⟩
  | sequenceNum sel hscope =>
    exact ⟨_, .sequenceNum sel hscope, (hs.sequences _).length_eq ▸ .answer _⟩
  | sequenceType sel hscope => exact ⟨_, .sequenceType sel hscope, .answer _⟩
  | sequence hscope hnum htype hpick he =>
    obtain ⟨e₂, hpick₂, hsame⟩ := hpick.same (hs.sequences _) fun _ _ h => h.id
    obtain ⟨referent', hdenotes, hreferent⟩ := he.same hsame
    exact ⟨_, .sequence hscope hnum htype hpick₂ hdenotes, hreferent⟩
  | resourceNum sel hsegment hscope =>
    exact ⟨_, .resourceNum sel hsegment hscope, (hs.resources _).length_eq ▸ .answer _⟩
  | resource hsegment hscope hnum hpick he =>
    obtain ⟨e₂, hpick₂, hsame⟩ := hpick.same (hs.resources _) fun _ _ h => h.id
    obtain ⟨referent', hdenotes, hreferent⟩ := he.same hsame
    exact ⟨_, .resource hsegment hscope hnum hpick₂ hdenotes, hreferent⟩

/-- A reference with a fixed index is bound in both stores, to one value unless it reads a
free parameter. -/
theorem Binds.same (hs : s₁.SameBut free s₂) {r : Reference} (hr : r.FixedIndex free)
    {v₁ : String} (h : Binds s₁ scope r v₁) :
    ∃ v₂, Binds s₂ scope r v₂ ∧ (v₁ = v₂ ∨ ∃ place, Reads s₁ scope r place ∧ free place r.name) := by
  obtain ⟨sel, referent, hposition, hdenotes, hvalue⟩ := h
  obtain ⟨referent', hdenotes', hsame⟩ := hdenotes.same hs
  have hposition' := hposition.same hs hr
  cases hsame with
  | answer text =>
    cases hvalue
    exact ⟨_, ⟨sel, _, hposition', hdenotes', .answer _⟩, .inl rfl⟩
  | @param place m₁ m₂ hmaps =>
    obtain _ | ⟨hp⟩ := hvalue
    rename_i p
    have hvalue₁ : m₁.value? r.name = some p.value := by rw [ParamMap.value?, hp]; rfl
    obtain heq | ⟨hfree, -, hsome⟩ := hmaps.value r.name
    · obtain ⟨q, hq, hpq⟩ := Option.map_eq_some_iff.mp (heq.symm.trans hvalue₁)
      exact ⟨q.value, ⟨sel, _, hposition', hdenotes', .param hq⟩, .inl hpq.symm⟩
    · obtain ⟨v, hv⟩ := Option.isSome_iff_exists.mp hsome
      obtain ⟨q, hq, -⟩ := Option.map_eq_some_iff.mp hv
      exact ⟨q.value, ⟨sel, _, hposition', hdenotes', .param hq⟩,
        .inr ⟨place, ⟨sel, m₁, hposition, hdenotes⟩, hfree⟩⟩

theorem Binds.not_same (hs : s₁.SameBut free s₂) {r : Reference} (hr : r.FixedIndex free)
    (h : ∀ v, ¬ Binds s₁ scope r v) (v : String) : ¬ Binds s₂ scope r v := by
  intro hb
  obtain ⟨v₁, hb₁, -⟩ := hb.same hs.symm hr
  exact h v₁ hb₁

end Bindings

/-! ## Walks in lockstep -/

/-- What steers an evaluation: a parameter that is read as an index, or in a directive. -/
inductive Encounter.Steers (scope : Scope) : Encounter → ParamPlace → String → Prop
  | putIndex {r : Reference} {now : Store} {value : Option String} {var : String}
      (hi : r.index = some (.variable var)) : Steers scope (.put r now value) .dynamic var
  | readIndex {r : Reference} {now : Store} {value : Option String} {var : String}
      (hi : r.index = some (.variable var)) : Steers scope (.read r now value) .dynamic var
  | read {r : Reference} {now : Store} {value : Option String} {place : ParamPlace}
      (hr : Reads now scope r place) : Steers scope (.read r now value) place r.name

/-- No free parameter steers. -/
def Unsteered (free : ParamPlace → String → Prop) (scope : Scope) (ms : List Encounter) : Prop :=
  ∀ m ∈ ms, ∀ place name, m.Steers scope place name → ¬ free place name

/-- The same is met in two walks, and only a reference in text that reads a free parameter
may have one value here and another there. -/
inductive Encounter.Twin (free : ParamPlace → String → Prop) (scope : Scope) :
    Encounter → Encounter → Prop
  | text (cs : List Char) : Twin free scope (.text cs) (.text cs)
  | put {r : Reference} {now₁ now₂ : Store} {v₁ v₂ : String}
      (h : v₁ = v₂ ∨ ∃ place, Reads now₁ scope r place ∧ free place r.name) :
    Twin free scope (.put r now₁ (some v₁)) (.put r now₂ (some v₂))
  | missing (r : Reference) (now₁ now₂ : Store) :
    Twin free scope (.put r now₁ none) (.put r now₂ none)
  | read (r : Reference) (now₁ now₂ : Store) (value : Option String) :
    Twin free scope (.read r now₁ value) (.read r now₂ value)

section Lockstep

variable {free : ParamPlace → String → Prop} {s₁ s₂ : Store} {scope : Scope}
  {ms : List Encounter}

theorem Unsteered.of_cons {m : Encounter} (h : Unsteered free scope (m :: ms)) :
    (∀ place name, m.Steers scope place name → ¬ free place name) ∧ Unsteered free scope ms :=
  List.forall_mem_cons.mp h

theorem Unsteered.of_append {ms' : List Encounter} (h : Unsteered free scope (ms ++ ms')) :
    Unsteered free scope ms ∧ Unsteered free scope ms' :=
  List.forall_mem_append.mp h

theorem Spells.lockstep (hs : s₁.SameBut free s₂) {w : Word} {out : Except Stop (List Char)}
    (h : Spells s₁ scope w ms out) (hms : Unsteered free scope ms) :
    ∃ ms₂, Spells s₂ scope w ms₂ out ∧ List.Forall₂ (Encounter.Twin free scope) ms ms₂ := by
  induction h with
  | done => exact ⟨_, .done, .nil⟩
  | char c _ ih =>
    obtain ⟨ms₂, h₂, htwin⟩ := ih hms
    exact ⟨_, .char c h₂, htwin⟩
  | @bound r v w ms out hb _ ih =>
    obtain ⟨hm, hms⟩ := hms.of_cons
    obtain ⟨ms₂, h₂, htwin⟩ := ih hms
    obtain ⟨v₂, hb₂, hv⟩ := hb.same hs fun var hi => hm _ _ (.readIndex hi)
    have hfixed : ¬ ∃ place, Reads s₁ scope r place ∧ free place r.name := by
      rintro ⟨place, hread, hfree⟩
      exact hm place r.name (.read hread) hfree
    obtain rfl := hv.resolve_right hfixed
    exact ⟨_, .bound hb₂ h₂, .cons (.read r s₁ s₂ (some v)) htwin⟩
  | @missing r w hb =>
    have hb₂ := Binds.not_same hs (fun var hi => hms.of_cons.1 _ _ (.readIndex hi)) hb
    exact ⟨_, .missing w hb₂, .cons (.read r s₁ s₂ none) .nil⟩

theorem Decides.lockstep (hs : s₁.SameBut free s₂) {c : Condition} {out : Except Stop Bool}
    (h : Decides s₁ scope c ms out) (hms : Unsteered free scope ms) :
    ∃ ms₂, Decides s₂ scope c ms₂ out ∧ List.Forall₂ (Encounter.Twin free scope) ms ms₂ := by
  cases h with
  | flag negated h =>
    obtain ⟨ms₂, h₂, htwin⟩ := h.lockstep hs hms
    exact ⟨_, .flag negated h₂, htwin⟩
  | compare c hl hr =>
    obtain ⟨hleft, hright⟩ := hms.of_append
    obtain ⟨ms₂, hl₂, htwin⟩ := hl.lockstep hs hleft
    obtain ⟨ms₂', hr₂, htwin'⟩ := hr.lockstep hs hright
    exact ⟨_, .compare c hl₂ hr₂, List.rel_append htwin htwin'⟩
  | leftStops c right hl =>
    obtain ⟨ms₂, hl₂, htwin⟩ := hl.lockstep hs hms
    exact ⟨_, .leftStops c right hl₂, htwin⟩

theorem Counts.lockstep (hs : s₁.SameBut free s₂) {argument : String} {w : Word}
    {out : Except Stop Int} (h : Counts s₁ scope argument w ms out)
    (hms : Unsteered free scope ms) :
    ∃ ms₂, Counts s₂ scope argument w ms₂ out ∧
      List.Forall₂ (Encounter.Twin free scope) ms ms₂ := by
  obtain ⟨h⟩ := h
  obtain ⟨ms₂, h₂, htwin⟩ := h.lockstep hs hms
  exact ⟨_, .read h₂, htwin⟩

theorem Starts.lockstep (hs : s₁.SameBut free s₂) {first : Option Word} {out : Except Stop Int}
    (h : Starts s₁ scope first ms out) (hms : Unsteered free scope ms) :
    ∃ ms₂, Starts s₂ scope first ms₂ out ∧ List.Forall₂ (Encounter.Twin free scope) ms ms₂ := by
  cases h with
  | zero => exact ⟨_, .zero, .nil⟩
  | given h =>
    obtain ⟨ms₂, h₂, htwin⟩ := h.lockstep hs hms
    exact ⟨_, .given h₂, htwin⟩

theorem Spans.lockstep (hs : s₁.SameBut free s₂) {head : LoopHead}
    {out : Except Stop IndexRange} (h : Spans s₁ scope head ms out)
    (hms : Unsteered free scope ms) :
    ∃ ms₂, Spans s₂ scope head ms₂ out ∧ List.Forall₂ (Encounter.Twin free scope) ms ms₂ := by
  cases h with
  | last var hf hl =>
    obtain ⟨hfirst, hlast⟩ := hms.of_append
    obtain ⟨ms₂, hf₂, htwin⟩ := hf.lockstep hs hfirst
    obtain ⟨ms₂', hl₂, htwin'⟩ := hl.lockstep hs hlast
    exact ⟨_, .last var hf₂ hl₂, List.rel_append htwin htwin'⟩
  | count var hf hc =>
    obtain ⟨hfirst, hcount⟩ := hms.of_append
    obtain ⟨ms₂, hf₂, htwin⟩ := hf.lockstep hs hfirst
    obtain ⟨ms₂', hc₂, htwin'⟩ := hc.lockstep hs hcount
    exact ⟨_, .count var hf₂ hc₂, List.rel_append htwin htwin'⟩
  | firstStops var bound hf =>
    obtain ⟨ms₂, hf₂, htwin⟩ := hf.lockstep hs hms
    exact ⟨_, .firstStops var bound hf₂, htwin⟩

/-- A walk that no free parameter steers has a twin in the other store, with the same end. -/
theorem Walk.lockstep {ws : List Work} {out : Except Stop Unit} {s₁' : Store}
    (h : Walk scope s₁ ws ms out s₁') (hs : s₁.SameBut free s₂) (hms : Unsteered free scope ms) :
    ∃ ms₂ s₂', Walk scope s₂ ws ms₂ out s₂' ∧ s₁'.SameBut free s₂' ∧
      List.Forall₂ (Encounter.Twin free scope) ms ms₂ := by
  induction h generalizing s₂ with
  | finished s => exact ⟨_, _, .finished s₂, hs, .nil⟩
  | done _ ih =>
    obtain ⟨ms₂, s₂', h₂, hs', htwin⟩ := ih hs hms
    exact ⟨_, _, .done h₂, hs', htwin⟩
  | text cs _ ih =>
    obtain ⟨ms₂, s₂', h₂, hs', htwin⟩ := ih hs hms.of_cons.2
    exact ⟨_, _, .text cs h₂, hs', .cons (.text cs) htwin⟩
  | reference hb _ ih =>
    obtain ⟨hm, hms⟩ := hms.of_cons
    obtain ⟨v₂, hb₂, hv⟩ := hb.same hs fun var hi => hm _ _ (.putIndex hi)
    obtain ⟨ms₂, s₂', h₂, hs', htwin⟩ := ih hs hms
    exact ⟨_, _, .reference hb₂ h₂, hs', .cons (.put hv) htwin⟩
  | missing ws rest hb =>
    have hb₂ := Binds.not_same hs (fun var hi => hms.of_cons.1 _ _ (.putIndex hi)) hb
    exact ⟨_, _, .missing ws rest hb₂, hs, .cons (.missing _ _ _) .nil⟩
  | branch hc _ ih =>
    obtain ⟨hread, hrest⟩ := hms.of_append
    obtain ⟨ms₂, hc₂, htwin⟩ := hc.lockstep hs hread
    obtain ⟨ms₂', s₂', h₂, hs', htwin'⟩ := ih hs hrest
    exact ⟨_, _, .branch hc₂ h₂, hs', List.rel_append htwin htwin'⟩
  | conditionStops ws yes no rest hc =>
    obtain ⟨ms₂, hc₂, htwin⟩ := hc.lockstep hs hms
    exact ⟨_, _, .conditionStops ws yes no rest hc₂, hs, htwin⟩
  | loop hr _ ih =>
    obtain ⟨hread, hrest⟩ := hms.of_append
    obtain ⟨ms₂, hr₂, htwin⟩ := hr.lockstep hs hread
    obtain ⟨ms₂', s₂', h₂, hs', htwin'⟩ := ih hs hrest
    exact ⟨_, _, .loop hr₂ h₂, hs', List.rel_append htwin htwin'⟩
  | boundStops ws body rest hr =>
    obtain ⟨ms₂, hr₂, htwin⟩ := hr.lockstep hs hms
    exact ⟨_, _, .boundStops ws body rest hr₂, hs, htwin⟩
  | noRound var body i _ ih =>
    obtain ⟨ms₂, s₂', h₂, hs', htwin⟩ := ih hs hms
    exact ⟨_, _, .noRound var body i h₂, hs', htwin⟩
  | @round s s' ws ms out var body n i _ ih =>
    obtain ⟨ms₂, s₂', h₂, hs', htwin⟩ := ih (hs.setDynamic var (Text.showInt i)) hms
    exact ⟨_, _, .round h₂, hs', htwin⟩

end Lockstep

/-! ## One layout -/

@[simp] theorem outputs_text (cs : List Char) (ms : List Encounter) :
    outputs (.text cs :: ms) = .text cs :: outputs ms := rfl

@[simp] theorem outputs_put (r : Reference) (now : Store) (v : String) (ms : List Encounter) :
    outputs (.put r now (some v) :: ms) = .value v :: outputs ms := rfl

/-- The values that references in text put in, in order. -/
def insertedValues (ms : List Encounter) : List String :=
  ms.filterMap fun
    | .put _ _ value => value
    | _ => none

/-- Two argument vectors have one layout, in which the values put in on two walks are
exchanged for one another. -/
structure Exchanged (ms₁ ms₂ : List Encounter) (argv₁ argv₂ : List String)
    (layout : List (Pieces (String × String))) : Prop where
  first : argv₁ = fillIn Prod.fst layout
  second : argv₂ = fillIn Prod.snd layout
  values : layout.flatMap Pieces.values = (insertedValues ms₁).zip (insertedValues ms₂)

section Layout

variable {free : ParamPlace → String → Prop} {scope : Scope} {ms₁ ms₂ : List Encounter}

theorem twin_pieces (h : List.Forall₂ (Encounter.Twin free scope) ms₁ ms₂) :
    ∃ ps : Pieces (String × String),
      (outputs ms₁).flatMap Chunk.pieces = ps.map (Piece.map Prod.fst) ∧
      (outputs ms₂).flatMap Chunk.pieces = ps.map (Piece.map Prod.snd) ∧
      Pieces.values ps = (insertedValues ms₁).zip (insertedValues ms₂) := by
  induction h with
  | nil => exact ⟨[], rfl, rfl, rfl⟩
  | cons htwin _ ih =>
    obtain ⟨ps, h₁, h₂, hvalues⟩ := ih
    cases htwin with
    | text cs =>
      have hmap (f : String × String → String) :
          (cs.map Piece.char).map (Piece.map f) = cs.map Piece.char := List.map_map
      have hnone : Pieces.values (cs.map (Piece.char (β := String × String))) = [] := by
        simp [Pieces.values, Piece.value?]
      refine ⟨cs.map .char ++ ps, ?_, ?_, ?_⟩
      · rw [outputs_text, List.flatMap_cons, h₁, List.map_append, hmap, Chunk.pieces]
      · rw [outputs_text, List.flatMap_cons, h₂, List.map_append, hmap, Chunk.pieces]
      · rw [Pieces.values_append, hnone, hvalues]
        rfl
    | @put r now₁ now₂ v₁ v₂ _ =>
      refine ⟨.value (v₁, v₂) :: ps, ?_, ?_, ?_⟩
      · rw [outputs_put, List.flatMap_cons, h₁]
        rfl
      · rw [outputs_put, List.flatMap_cons, h₂]
        rfl
      · exact congrArg ((v₁, v₂) :: ·) hvalues
    | missing => exact ⟨ps, h₁, h₂, hvalues⟩
    | read => exact ⟨ps, h₁, h₂, hvalues⟩

/-- A parameter steers the evaluation of a template from a store. -/
def SteeredBy (t : Template) (scope : Scope) (s : Store) (place : ParamPlace) (name : String) :
    Prop :=
  ∃ ms out s' m, Walk scope s [.block t.tree] ms out s' ∧ m ∈ ms ∧ m.Steers scope place name

theorem commandOf_eq_ok {source : String} {arguments : Except Fault (List String)}
    {argv : List String} (h : commandOf source arguments = .ok argv) : arguments = .ok argv := by
  rcases arguments with fault | _ | ⟨program, rest⟩
  · cases h
  · cases h
  · exact congrArg Except.ok (Except.ok.inj h)

theorem isOk_commandOf_fillIn (source : String) {β : Type} (f g : β → String)
    (layout : Except Fault (List (Pieces β))) :
    (commandOf source (layout.map (fillIn f))).isOk =
      (commandOf source (layout.map (fillIn g))).isOk := by
  rcases layout with fault | _ | ⟨word, words⟩ <;> rfl

/-- Values that no directive and no index reads cannot decide whether a template resolves,
and they take their places in one layout of the arguments. -/
theorem resolveArgv_exchanged (t : Template) (scope : Scope)
    {free : ParamPlace → String → Prop} {s₁ s₂ : Store} (hs : s₁.SameBut free s₂)
    (hfree : ∀ place name, free place name → ¬ t.SteeredBy scope s₁ place name) :
    ((t.resolveArgv scope).result s₁).1.isOk = ((t.resolveArgv scope).result s₂).1.isOk ∧
    ∀ argv₁ argv₂, ((t.resolveArgv scope).result s₁).1 = .ok argv₁ →
      ((t.resolveArgv scope).result s₂).1 = .ok argv₂ →
      argv₁.length = argv₂.length ∧
      ∃ ms₁ ms₂ s₁' s₂' layout, Walk scope s₁ [.block t.tree] ms₁ (.ok ()) s₁' ∧
        Walk scope s₂ [.block t.tree] ms₂ (.ok ()) s₂' ∧
        List.Forall₂ (Encounter.Twin free scope) ms₁ ms₂ ∧
        Exchanged ms₁ ms₂ argv₁ argv₂ layout := by
  obtain ⟨ms₁, out, s₁', hwalk₁⟩ := walk_total scope s₁ t.tree
  have hms : Unsteered free scope ms₁ := by
    intro m hm place name hsteers hfreeName
    exact hfree place name hfreeName ⟨ms₁, out, s₁', m, hwalk₁, hm, hsteers⟩
  obtain ⟨ms₂, s₂', hwalk₂, -, htwin⟩ := hwalk₁.lockstep hs hms
  obtain ⟨answer₁, heval₁, hagrees₁⟩ := hwalk₁.agrees t.source
  obtain ⟨answer₂, heval₂, hagrees₂⟩ := hwalk₂.agrees t.source
  rw [evalAll_single] at heval₁ heval₂
  rcases out with e | ⟨⟩
  · obtain _ | _ := hagrees₁
    obtain _ | _ := hagrees₂
    rw [(resolve_of_error heval₁).1, (resolve_of_error heval₂).1]
    exact ⟨rfl, fun _ _ h => nomatch h⟩
  · cases hagrees₁
    cases hagrees₂
    obtain ⟨ps, hpieces₁, hpieces₂, hvalues⟩ := twin_pieces htwin
    rw [(resolve_of_ok heval₁).1, (resolve_of_ok heval₂).1, splitArguments_eq hpieces₁,
      splitArguments_eq hpieces₂]
    refine ⟨isOk_commandOf_fillIn t.source _ _ _, ?_⟩
    intro argv₁ argv₂ h₁ h₂
    obtain ⟨layout, hlayout, rfl⟩ := map_eq_ok.mp (commandOf_eq_ok h₁)
    obtain ⟨layout', hlayout', rfl⟩ := map_eq_ok.mp (commandOf_eq_ok h₂)
    obtain rfl := Except.ok.inj (hlayout.symm.trans hlayout')
    refine ⟨by simp [fillIn], ms₁, ms₂, s₁', s₂', layout, hwalk₁, hwalk₂, htwin, rfl, rfl, ?_⟩
    rw [arrange_values hlayout, hvalues]

/-- A command whose file is a parameter. -/
def playing : Template :=
  ⟨"play %\x7bdynamic.file\x7d",
    .text "play ".toList (.reference ⟨.dynamic, none, "file", "dynamic.file".toList⟩ .done)⟩

/-- A store that holds a file. -/
def withFile (value : String) : Store := Store.empty.setDynamic "file" value

theorem resolveArgv_exchanged_file :
    ∃ ms₁ ms₂ layout, Exchanged ms₁ ms₂ ["play", "a b"] ["play", "\" -x '"] layout := by
  let free : ParamPlace → String → Prop := fun place name => place = .dynamic ∧ name = "file"
  have hs : (withFile "a b").SameBut free (withFile "\" -x '") := by
    refine ⟨⟨rfl, rfl, fun name => ?_⟩, ⟨rfl, rfl, fun _ => .inl rfl⟩, rfl, ?_, ?_⟩
    · by_cases hname : name = "file"
      · exact .inr ⟨⟨rfl, hname⟩, hname ▸ rfl, hname ▸ rfl⟩
      · have hunset (value : String) : (withFile value).dynamic.value? name = none :=
          congrArg (Option.map _) (IndexedMap.Consistent.empty.get?_insert_ne _ hname)
        exact .inl ((hunset _).trans (hunset _).symm)
    · intro t
      cases t <;> exact .nil
    · exact fun _ => .nil
  have hfree (place : ParamPlace) (name : String) (_ : free place name) :
      ¬ playing.SteeredBy .global (withFile "a b") place name := by
    rintro ⟨ms, out, s', m, hwalk, hm, hsteers⟩
    rcases hwalk with _ | _ | ⟨_, hwalk⟩
    rcases hwalk with _ | _ | _ | ⟨_, hwalk⟩ | _
    · rcases hwalk with _ | ⟨⟨⟩⟩
      rcases hm with _ | ⟨_, _ | ⟨_, hm⟩⟩
      · cases hsteers
      · rcases hsteers with ⟨⟨⟩⟩
      · cases hm
    · rcases hm with _ | ⟨_, _ | ⟨_, hm⟩⟩
      · cases hsteers
      · rcases hsteers with ⟨⟨⟩⟩
      · cases hm
  obtain ⟨-, hargv⟩ := resolveArgv_exchanged playing .global hs hfree
  have h₁ : ((playing.resolveArgv .global).result (withFile "a b")).1 = .ok ["play", "a b"] := by
    decide +kernel
  have h₂ : ((playing.resolveArgv .global).result (withFile "\" -x '")).1 =
      .ok ["play", "\" -x '"] := by decide +kernel
  obtain ⟨-, ms₁, ms₂, -, -, layout, -, -, -, hexchanged⟩ := hargv _ _ h₁ h₂
  exact ⟨ms₁, ms₂, layout, hexchanged⟩

end Layout

end Template

end MediaPipeline

import MediaPipeline.Proofs.WrittenLoops
import MediaPipeline.Run.Engine

/-!
# The indices of loops

A loop in a template and a declared loop find their bounds in different ways and come to the
same range. `LoopTexts.Visits` says which indices a loop goes through and
`LoopTexts.Refused` when there are none at all; both speak of the texts of the bounds only.
Both kinds of loop read these texts like `LoopTexts.range`, up to what they call a fault
(`LoopTexts.range_head`, `LoopTexts.loopRange_compiled`), and `LoopTexts.range_cases` says
what that comes to.
-/

namespace MediaPipeline

open Template

/-! ## Ranges -/

namespace Template.IndexRange

theorem toList_succ (i : Int) (n : Nat) : toList ⟨i, n + 1⟩ = i :: toList ⟨i + 1, n⟩ := by
  simp only [toList, List.range_succ_eq_map, List.map_cons, List.map_map]
  refine List.cons_eq_cons.mpr ⟨by simp, List.map_congr_left fun k _ => ?_⟩
  simp only [Function.comp_apply, Nat.succ_eq_add_one]
  omega

theorem getElem?_toList (r : IndexRange) {k : Nat} (hk : k < r.length) :
    r.toList[k]? = some (r.first + k) := by
  simp [toList, hk]

theorem length_toList (r : IndexRange) : r.toList.length = r.length := by
  simp [toList]

theorem mem_inclusive {first last i : Int} :
    i ∈ (inclusive first last).toList ↔ first ≤ i ∧ i ≤ last := by
  simp only [toList, inclusive, List.mem_map, List.mem_range]
  constructor
  · rintro ⟨k, hk, rfl⟩
    omega
  · rintro ⟨hfirst, hlast⟩
    exact ⟨(i - first).toNat, by omega, by omega⟩

theorem pairwise_toList (r : IndexRange) : r.toList.Pairwise (· < ·) := by
  rw [toList, List.pairwise_map]
  exact List.pairwise_lt_range.imp fun h => by omega

/-- The first and the last index of a loop with a count in 64-bit arithmetic, in which sums
wrap around; none if the sum has wrapped. -/
def wrapping? (first count : Int64) : Option (Int64 × Int64) :=
  if count = 0 then some (1, 0)
  else if first ≤ first + (count - 1) then some (first, first + (count - 1))
  else none

/-- One less than a positive number does not wrap around. -/
theorem toInt_sub_one {n : Int64} (h : 0 < n.toInt) : (n - 1).toInt = n.toInt - 1 := by
  have hmax := n.toInt_lt
  rw [Int64.toInt_sub, Int64.toInt_one]
  exact Int.bmod_eq_of_le (by omega) (by omega)

/-- A sum that is not too small wraps around exactly if it is too large, and then it is
smaller than before. -/
theorem toInt_add (m n : Int64) (hn : 0 ≤ n.toInt) :
    (m.toInt + n.toInt ≤ Text.maxInt → (m + n).toInt = m.toInt + n.toInt) ∧
      (Text.maxInt < m.toInt + n.toInt → (m + n).toInt < m.toInt) := by
  have hmin := m.le_toInt
  have hmax := m.toInt_lt
  have hmax' := n.toInt_lt
  unfold Text.maxInt
  rw [Int64.toInt_add]
  refine ⟨fun h => Int.bmod_eq_of_le (by omega) (by omega), fun h => ?_⟩
  rw [Int.bmod_def]
  split_ifs <;> omega

/-- Nothing wraps around but a sum that is refused. -/
theorem counted?_eq_wrapping (first count : Int64) (hcount : 0 ≤ count) :
    counted? first.toInt count.toInt =
      (wrapping? first count).map fun p => inclusive p.1.toInt p.2.toInt := by
  have hn : 0 ≤ count.toInt := Int64.le_iff_toInt_le.mp hcount
  unfold wrapping? counted?
  by_cases hzero : count = 0
  · subst hzero
    rfl
  have hne : count.toInt ≠ 0 := fun h => hzero (Int64.toInt_inj.mp h)
  rw [if_neg hzero, if_neg hne]
  -- The distance to the last index does not wrap around, so only the last index can.
  have hless : (count - 1).toInt = count.toInt - 1 := toInt_sub_one (by omega)
  obtain ⟨hsum, hwraps⟩ := toInt_add first (count - 1) (by omega)
  rw [hless] at hsum hwraps
  by_cases hfits : first.toInt + (count.toInt - 1) ≤ Text.maxInt
  · have hsum := hsum hfits
    have hle : first ≤ first + (count - 1) := Int64.le_iff_toInt_le.mpr (by omega)
    rw [if_pos hfits, if_pos hle]
    simp only [Option.map_some, inclusive, hsum]
    congr 2
    omega
  · have hwraps := hwraps (by omega)
    have hlt : ¬ first ≤ first + (count - 1) := fun h => by
      have hle := Int64.le_iff_toInt_le.mp h
      omega
    rw [if_neg hfits, if_neg hlt, Option.map_none]

end Template.IndexRange

/-! ## What a loop visits -/

namespace LoopTexts

/-- The index with which a loop begins. -/
def firstIndex? (t : LoopTexts) : Option Int :=
  match t.first with
  | none => some 0
  | some text => Text.int? text.toList

/-- The indices of a loop, in order. -/
inductive Visits (t : LoopTexts) (is : List Int) : Prop
  /-- All numbers from the first to the last, upwards. -/
  | last {text : String} {first last : Int} (hfirst : t.firstIndex? = some first)
      (hbound : t.bound = .last text) (hlast : Text.int? text.toList = some last)
      (hmem : ∀ i, i ∈ is ↔ first ≤ i ∧ i ≤ last) (hupwards : is.Pairwise (· < ·))
  /-- So many numbers from the first on, one after the other. -/
  | count {text : String} {first : Int} {n : Nat} (hfirst : t.firstIndex? = some first)
      (hbound : t.bound = .count text) (hcount : Text.int? text.toList = some (n : Int))
      (hfits : n = 0 ∨ first + (n - 1) ≤ Text.maxInt) (hlength : is.length = n)
      (hindex : ∀ k < n, is[k]? = some (first + k))

/-- There is no telling the indices of a loop. -/
inductive Refused (t : LoopTexts) : Prop
  | first {text : String} (h : t.first = some text) (hvalue : Text.int? text.toList = none)
  | bound (hvalue : Text.int? t.bound.text.toList = none)
  | negative {text : String} {n : Int} (hbound : t.bound = .count text)
      (hcount : Text.int? text.toList = some n) (hn : n < 0)
  | overflow {text : String} {first n : Int} (hfirst : t.firstIndex? = some first)
      (hbound : t.bound = .count text) (hcount : Text.int? text.toList = some n) (hn : 0 < n)
      (hlast : Text.maxInt < first + (n - 1))

/-- The faults of a loop's bounds, each with the source that it is found in. -/
structure LoopFaults where
  first : String × Fault
  bound : String × Fault
  negative : Int → String × Fault
  overflow : Int → Int → String × Fault

/-- The range of a loop, given its first index. -/
def rangeFrom (t : LoopTexts) (faults : LoopFaults) (first : Int) :
    Except (String × Fault) IndexRange :=
  match Text.int? t.bound.text.toList, t.bound with
  | none, _ => .error faults.bound
  | some last, .last _ => .ok (.inclusive first last)
  | some count, .count _ =>
    if count < 0 then .error (faults.negative count)
    else
      match IndexRange.counted? first count with
      | some r => .ok r
      | none => .error (faults.overflow first count)

/-- The range of a loop. -/
def range (t : LoopTexts) (faults : LoopFaults) : Except (String × Fault) IndexRange :=
  match t.firstIndex? with
  | none => .error faults.first
  | some first => t.rangeFrom faults first

variable {t : LoopTexts} {var : String}

theorem visits_counted {text : String} {first n : Int} {r : IndexRange}
    (hfirst : t.firstIndex? = some first) (hbound : t.bound = .count text)
    (hcount : Text.int? text.toList = some n) (hn : 0 ≤ n)
    (hrange : IndexRange.counted? first n = some r) : t.Visits r.toList := by
  obtain ⟨m, rfl⟩ := Int.eq_ofNat_of_zero_le hn
  unfold IndexRange.counted? at hrange
  split_ifs at hrange with hzero hfits
  · cases hrange
    refine .count hfirst hbound hcount (.inl (by omega)) ?_ fun k hk => absurd hk (by omega)
    exact (Int.ofNat_eq_zero.mp hzero).symm
  · cases hrange
    exact .count hfirst hbound hcount (.inr hfits) (IndexRange.length_toList _) fun k hk =>
      IndexRange.getElem?_toList _ hk

/-- The text of its bound decides whether a loop is refused, once its first index is known. -/
theorem rangeFrom_cases {first : Int} (hfirst : t.firstIndex? = some first) :
    (t.Refused ∧ ∀ faults, ∃ fault, t.rangeFrom faults first = .error fault) ∨
      ∃ r : IndexRange, t.Visits r.toList ∧ ∀ faults, t.rangeFrom faults first = .ok r := by
  cases hn : Text.int? t.bound.text.toList with
  | none => exact .inl ⟨.bound hn, fun faults => ⟨faults.bound, by simp only [rangeFrom, hn]⟩⟩
  | some n =>
    cases hb : t.bound with
    | last text =>
      rw [hb] at hn
      refine .inr ⟨.inclusive first n, .last hfirst hb hn (fun _ => IndexRange.mem_inclusive)
        (IndexRange.pairwise_toList _), fun faults => ?_⟩
      simp only [rangeFrom, hb, hn]
    | count text =>
      rw [hb] at hn
      have hrange (faults : LoopFaults) : t.rangeFrom faults first =
          if n < 0 then .error (faults.negative n)
          else match IndexRange.counted? first n with
            | some r => .ok r
            | none => .error (faults.overflow first n) := by
        simp only [rangeFrom, hb, hn]
      by_cases hneg : n < 0
      · exact .inl ⟨.negative hb hn hneg, fun faults => ⟨_, (hrange faults).trans (if_pos hneg)⟩⟩
      simp only [hneg, if_false] at hrange
      cases hr : IndexRange.counted? first n with
      | some r =>
        simp only [hr] at hrange
        exact .inr ⟨r, visits_counted hfirst hb hn (by omega) hr, hrange⟩
      | none =>
        simp only [hr] at hrange
        refine .inl ⟨?_, fun faults => ⟨_, hrange faults⟩⟩
        unfold IndexRange.counted? at hr
        split_ifs at hr with hzero hfits
        exact .overflow hfirst hb hn (by omega) (by omega)

/-- The texts of its bounds decide whether a loop is refused, and what it visits otherwise. -/
theorem range_cases (t : LoopTexts) :
    (t.Refused ∧ ∀ faults, ∃ fault, t.range faults = .error fault) ∨
      ∃ r : IndexRange, t.Visits r.toList ∧ ∀ faults, t.range faults = .ok r := by
  cases hfirst : t.firstIndex? with
  | some first =>
    have hrange (faults : LoopFaults) : t.range faults = t.rangeFrom faults first := by
      rw [range, hfirst]
    simpa only [hrange] using rangeFrom_cases hfirst
  | none =>
    refine .inl ⟨?_, fun faults => ⟨faults.first, by rw [range, hfirst]⟩⟩
    -- Without a text the loop begins with zero.
    unfold firstIndex? at hfirst
    cases hf : t.first with
    | none =>
      rw [hf] at hfirst
      cases hfirst
    | some text =>
      rw [hf] at hfirst
      exact .first hf hfirst

theorem int?_bounds {cs : List Char} {n : Int} (h : Text.int? cs = some n) :
    Text.minInt ≤ n ∧ n ≤ Text.maxInt := by
  unfold Text.int? at h
  simpa using (Option.filter_eq_some_iff.mp h).2

theorem firstIndex?_bounds {first : Int} (h : t.firstIndex? = some first) :
    Text.minInt ≤ first ∧ first ≤ Text.maxInt := by
  unfold firstIndex? at h
  cases hf : t.first with
  | none =>
    rw [hf] at h
    cases h
    decide
  | some text =>
    rw [hf] at h
    exact int?_bounds h

/-- A loop that goes through some indices is not refused. -/
theorem Visits.not_refused {is : List Int} (h : t.Visits is) : ¬ t.Refused := by
  -- What is read of the bounds is read only once.
  have hindex {text : String} {first : Int} (hfirst : t.firstIndex? = some first)
      (ht : t.first = some text) : Text.int? text.toList ≠ none := by
    rw [firstIndex?, ht] at hfirst
    exact fun hnone => by simp [hnone] at hfirst
  cases h with
  | last hfirst hbound hlast hmem hupwards =>
    rintro (⟨ht, hvalue⟩ | hvalue | ⟨hbound', -, -⟩ | ⟨-, hbound', -, -, -⟩)
    · exact hindex hfirst ht hvalue
    · simp [hbound, BoundText.text, hlast] at hvalue
    · simp [hbound] at hbound'
    · simp [hbound] at hbound'
  | count hfirst hbound hcount hfits hlength hconsecutive =>
    rintro (⟨ht, hvalue⟩ | hvalue | ⟨hbound', hcount', hn⟩ | ⟨hfirst', hbound', hcount', hn, hlast⟩)
    · exact hindex hfirst ht hvalue
    · simp [hbound, BoundText.text, hcount] at hvalue
    · obtain rfl := BoundText.count.inj (hbound.symm.trans hbound')
      have hsame := Option.some.inj (hcount.symm.trans hcount')
      omega
    · obtain rfl := BoundText.count.inj (hbound.symm.trans hbound')
      have hsame := Option.some.inj (hcount.symm.trans hcount')
      have hstart := Option.some.inj (hfirst.symm.trans hfirst')
      omega

/-- Every index is a signed 64-bit number. -/
theorem Visits.bounds {is : List Int} (h : t.Visits is) :
    ∀ i ∈ is, Text.minInt ≤ i ∧ i ≤ Text.maxInt := by
  intro i hi
  cases h with
  | last hfirst hbound hlast hmem hupwards =>
    have hfirst := firstIndex?_bounds hfirst
    have hlast := int?_bounds hlast
    have hi := (hmem i).mp hi
    omega
  | count hfirst hbound hcount hfits hlength hindex =>
    have hfirst := firstIndex?_bounds hfirst
    obtain ⟨k, hk, rfl⟩ := List.getElem_of_mem hi
    have hget := hindex k (hlength ▸ hk)
    rw [List.getElem?_eq_getElem hk, Option.some_inj] at hget
    omega

end LoopTexts

/-! ## What the bounds are read as -/

theorem trim_plain {cs : List Char} (h : ∀ c ∈ cs, Plain c) : Text.trim cs = cs := by
  have hkeep {l : List Char} (hl : ∀ c ∈ l, Plain c) : l.dropWhile Text.isBlank = l := by
    cases l with
    | nil => rfl
    | cons c l => exact List.dropWhile_cons_of_neg (by simp [(hl c List.mem_cons_self).blank])
  rw [Text.trim, hkeep h, hkeep fun c hc => h c (List.mem_reverse.mp hc), List.reverse_reverse]

theorem eval_literalWord (store : Store) (scope : Scope) (text : String) :
    (literalWord text).eval store scope = .ok text.toList := by
  unfold literalWord
  induction text.toList with
  | nil => rfl
  | cons c cs ih =>
    rw [List.map_cons, Word.eval, ih]
    rfl

theorem boundValue_literal {text : String} (h : ∀ c ∈ text.toList, Plain c) (store : Store)
    (scope : Scope) (source argument : String) :
    boundValue store scope source argument (literalWord text) =
      match Text.int? text.toList with
      | some n => .ok n
      | none => .error (.template source (.boundNotInteger argument text)) := by
  rw [boundValue, eval_literalWord]
  simp only [bind, Except.bind, trim_plain h, String.ofList_toList]
  rfl

theorem render_literal {text : String} (h : ∀ c ∈ text.toList, Plain c) (scope : Scope)
    (s : Store) : ((literalTemplate text).render scope).result s = (.ok text, s) := by
  have hjoin (chunks : List Chunk) (hchunks : chunks.flatMap Chunk.chars = text.toList) :
      joinChunks chunks = text := by
    rw [joinChunks, hchunks, trim_plain h, String.ofList_toList]
  unfold literalTemplate Template.render Template.eval
  by_cases hnil : text.toList = []
  · rw [if_pos hnil]
    exact congrArg (fun out => (Except.ok out, s)) (hjoin [] hnil.symm)
  · rw [if_neg hnil]
    exact congrArg (fun out => (Except.ok out, s)) (hjoin [.text text.toList] (by simp [Chunk.chars]))

/-- The range of a loop in a template, given its first index. -/
def Template.LoopHead.rangeFrom (store : Store) (scope : Scope) (source : String)
    (head : LoopHead) (first : Int) : Except Cause IndexRange :=
  match head.bound with
  | .last w => do
    let last ← boundValue store scope source "to" w
    pure (.inclusive first last)
  | .count w => do
    let count ← boundValue store scope source "count" w
    if count < 0 then .error (.template source (.negativeCount head.var count))
    else
      match IndexRange.counted? first count with
      | some range => pure range
      | none => .error (.template source (.countOverflow head.var first count))

theorem Template.LoopHead.range_eq (store : Store) (scope : Scope) (source : String)
    (head : LoopHead) :
    head.range store scope source = (do
      let first ← (match head.first with
        | some w => boundValue store scope source "from" w
        | none => .ok 0 : Except Cause Int)
      head.rangeFrom store scope source first) := by
  unfold LoopHead.range
  cases head.first <;> rfl

namespace LoopTexts

variable {t : LoopTexts} {var : String}

/-- The faults of a loop in a template. -/
def directiveFaults (t : LoopTexts) (source var : String) : LoopFaults where
  first := (source, .boundNotInteger "from" (t.first.getD ""))
  bound := (source, .boundNotInteger (String.ofList t.bound.key) t.bound.text)
  negative count := (source, .negativeCount var count)
  overflow first count := (source, .countOverflow var first count)

/-- The faults of a declared loop. -/
def declaredFaults (t : LoopTexts) (var : String) : LoopFaults where
  first := (t.first.getD "", .loopBoundNotInteger (t.first.getD ""))
  bound := (t.bound.text, .loopBoundNotInteger t.bound.text)
  negative count := (t.bound.text, .loopNegativeCount var count)
  overflow first count := (t.bound.text, .loopCountOverflow var first count)

theorem rangeFrom_head (ht : t.IsPlain) (store : Store) (scope : Scope) (source : String)
    (first : Int) :
    (t.head var).rangeFrom store scope source first =
      (t.rangeFrom (t.directiveFaults source var) first).mapError fun f => .template f.1 f.2 := by
  have hbound := boundValue_literal (List.forall_mem_singleton.mp (List.forall_mem_append.mp ht).2)
    store scope source
  unfold LoopHead.rangeFrom rangeFrom head directiveFaults
  cases hb : t.bound with
  | last text =>
    rw [hb] at hbound
    simp only [BoundText.word, BoundText.text] at hbound ⊢
    rw [hbound "to"]
    cases Text.int? text.toList <;> rfl
  | count text =>
    rw [hb] at hbound
    simp only [BoundText.word, BoundText.text] at hbound ⊢
    rw [hbound "count"]
    cases Text.int? text.toList with
    | none => rfl
    | some count =>
      simp only [bind, Except.bind]
      by_cases hneg : count < 0
      · rw [if_pos hneg, if_pos hneg]
        rfl
      · rw [if_neg hneg, if_neg hneg]
        cases IndexRange.counted? first count <;> rfl

theorem range_head (ht : t.IsPlain) (var : String) (store : Store) (scope : Scope) (source : String) :
    (t.head var).range store scope source =
      (t.range (t.directiveFaults source var)).mapError fun f => .template f.1 f.2 := by
  have hfirst : (match (t.head var).first with
      | some w => boundValue store scope source "from" w
      | none => .ok 0) =
      match t.firstIndex? with
      | some n => .ok n
      | none => .error (.template source (.boundNotInteger "from" (t.first.getD ""))) := by
    unfold head firstIndex?
    cases hf : t.first with
    | none => rfl
    | some text =>
      exact boundValue_literal ((List.forall_mem_append.mp ht).1 text (Option.mem_toList.mpr hf)) ..
  rw [LoopHead.range_eq, hfirst, range]
  cases t.firstIndex? with
  | none => rfl
  | some first => exact rangeFrom_head ht store scope source first

theorem integer_literal {text : String} (h : ∀ c ∈ text.toList, Plain c) (scope : Scope)
    {σ : Type} (s : RunState σ) :
    (Run.integer scope (literalTemplate text)).result s =
      match Text.int? text.toList with
      | some n => (.ok n, s)
      | none => (.error (.plain (.template text (.loopBoundNotInteger text))), s) := by
  have hrender := render_literal h scope s.store
  rw [StoreM.result] at hrender
  rw [Run.integer, Run.result_bind, Run.result_onStore, hrender]
  show Run.result (match Text.int? text.toList with
    | some n => pure n
    | none => Run.fail (.template text (.loopBoundNotInteger text))) s = _
  cases Text.int? text.toList <;> rfl

theorem loopFirst_compiled (ht : t.IsPlain) (var : String) (name : OperationName) (scope : Scope)
    {σ : Type} (s : RunState σ) :
    (Run.loopFirst (t.compiled name var) scope).result s =
      match t.firstIndex? with
      | some n => (.ok n, s)
      | none => (.error (.plain (.template (t.first.getD "")
          (.loopBoundNotInteger (t.first.getD "")))), s) := by
  have hplain := (List.forall_mem_append.mp ht).1
  unfold Run.loopFirst compiled firstIndex?
  cases hf : t.first with
  | none => rfl
  | some text => exact integer_literal (hplain text (Option.mem_toList.mpr hf)) ..

theorem loopRange_compiled (ht : t.IsPlain) (var : String) (name : OperationName) (scope : Scope)
    {σ : Type} (s : RunState σ) :
    (Run.loopRange (t.compiled name var) scope).result s =
      ((t.range (t.declaredFaults var)).mapError fun f => .plain (.template f.1 f.2), s) := by
  have hbound := integer_literal (List.forall_mem_singleton.mp (List.forall_mem_append.mp ht).2)
    scope s
  rw [Run.loopRange, Run.result_bind, loopFirst_compiled ht, range]
  cases t.firstIndex? with
  | none => rfl
  | some first =>
    unfold rangeFrom compiled declaredFaults
    cases hb : t.bound with
    | last text =>
      rw [hb] at hbound
      simp only [BoundText.compiled, BoundText.text] at hbound ⊢
      rw [Run.result_bind, hbound]
      cases Text.int? text.toList <;> rfl
    | count text =>
      rw [hb] at hbound
      simp only [BoundText.compiled, BoundText.text] at hbound ⊢
      rw [Run.result_bind, hbound]
      cases Text.int? text.toList with
      | none => rfl
      | some count =>
        by_cases hneg : count < 0
        · simp only [hneg, if_true]
          rfl
        · simp only [hneg, if_false]
          cases IndexRange.counted? first count <;> rfl

end LoopTexts

end MediaPipeline

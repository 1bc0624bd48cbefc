/-!
# Whole numbers in decimal text

Readers for the two integer ranges that parameters may carry: sizes, from zero
up to the largest 64-bit unsigned number, and signed 64-bit numbers. One plus
sign may stand in front; the signed reader also takes one minus sign. Nothing
else may surround the digits.
-/

namespace MediaPipeline.Text

/-- One past the largest size. -/
def sizeLimit : Nat := 0x10000000000000000

/-- The smallest signed 64-bit number. -/
def minInt : Int := -0x8000000000000000

/-- The largest signed 64-bit number. -/
def maxInt : Int := 0x7FFFFFFFFFFFFFFF

/-- The value of an ASCII decimal digit. -/
def digit? (c : Char) : Option Nat :=
  if '0' ≤ c ∧ c ≤ '9' then some (c.toNat - '0'.toNat) else none

/-- Extend a number by decimal digits; anything else is refused. -/
def extendDigits : Nat → List Char → Option Nat
  | n, [] => some n
  | n, c :: cs =>
    match digit? c with
    | some d => extendDigits (n * 10 + d) cs
    | none => none

/-- The value of a non-empty run of decimal digits. -/
def digits? : List Char → Option Nat
  | [] => none
  | cs => extendDigits 0 cs

/-- A size: digits, possibly after one plus sign, in range. -/
def size? (cs : List Char) : Option Nat :=
  let body := match cs with
    | '+' :: rest => rest
    | _ => cs
  (digits? body).filter (· < sizeLimit)

/-- A signed number: digits, possibly after one sign, in range. -/
def int? (cs : List Char) : Option Int :=
  let value := match cs with
    | '+' :: rest => (digits? rest).map Int.ofNat
    | '-' :: rest => (digits? rest).map fun n => -(Int.ofNat n)
    | _ => (digits? cs).map Int.ofNat
  value.filter fun n => minInt ≤ n ∧ n ≤ maxInt

/-- The decimal text of a natural number. -/
def showNat (n : Nat) : String :=
  String.ofList (Nat.toDigits 10 n)

/-- The decimal text of an integer, with a minus sign when negative. -/
def showInt (n : Int) : String :=
  if n < 0 then String.ofList ('-' :: Nat.toDigits 10 n.natAbs) else showNat n.natAbs

/-- The decimal text of a number, filled up with zeros in front to `width` digits. -/
def showPadded (width n : Nat) : String :=
  let digits := Nat.toDigits 10 n
  String.ofList (List.replicate (width - digits.length) '0' ++ digits)

/-! ## Numbers read back -/

theorem digit?_of_isDigit {c : Char} (h : c.isDigit = true) :
    digit? c = some (c.toNat - '0'.toNat) :=
  if_pos (Char.isDigit_iff_toNat.mp h)

theorem digit?_eq_none {c : Char} (h : c.isDigit = false) : digit? c = none := by
  refine if_neg fun hdigit => ?_
  rw [Char.isDigit_iff_toNat.mpr hdigit] at h
  cases h

theorem isDigit_of_isAlpha {c : Char} (h : c.isAlpha = true) : c.isDigit = false := by
  rw [← Bool.not_eq_true, Char.isDigit_iff_toNat]
  change (decide (65 ≤ c.val ∧ c.val ≤ 90) || (97 ≤ c.val && c.val ≤ 122)) = true at h
  simp only [Bool.or_eq_true, Bool.and_eq_true, decide_eq_true_eq] at h
  have hn : (65 ≤ c.toNat ∧ c.toNat ≤ 90) ∨ (97 ≤ c.toNat ∧ c.toNat ≤ 122) := h
  have hnine : '9'.toNat = 57 := rfl
  omega

/-- A run of digits is read as the number that it spells. -/
theorem extendDigits_of_isDigit {cs : List Char} (h : ∀ c ∈ cs, c.isDigit = true) (n : Nat) :
    extendDigits n cs = some (Nat.ofDigitChars 10 cs n) := by
  induction cs generalizing n with
  | nil => rfl
  | cons c cs ih =>
    obtain ⟨hc, hcs⟩ := List.forall_mem_cons.mp h
    rw [extendDigits, digit?_of_isDigit hc, Nat.ofDigitChars_cons, Nat.mul_comm]
    exact ih hcs _

theorem extendDigits_eq_some {cs : List Char} {n m : Nat} :
    extendDigits n cs = some m ↔
      (∀ c ∈ cs, c.isDigit = true) ∧ m = Nat.ofDigitChars 10 cs n := by
  constructor
  · intro h
    have hdigits : ∀ c ∈ cs, c.isDigit = true := by
      induction cs generalizing n with
      | nil => exact fun c hc => nomatch hc
      | cons c cs ih =>
        rw [extendDigits] at h
        cases hc : c.isDigit with
        | false =>
          rw [digit?_eq_none hc] at h
          cases h
        | true =>
          rw [digit?_of_isDigit hc] at h
          exact List.forall_mem_cons.mpr ⟨hc, ih h⟩
    rw [extendDigits_of_isDigit hdigits] at h
    exact ⟨hdigits, (Option.some.inj h).symm⟩
  · rintro ⟨hdigits, rfl⟩
    exact extendDigits_of_isDigit hdigits n

theorem digits?_eq_some {cs : List Char} {n : Nat} :
    digits? cs = some n ↔
      cs ≠ [] ∧ (∀ c ∈ cs, c.isDigit = true) ∧ n = Nat.ofDigitChars 10 cs 0 := by
  cases cs with
  | nil => simp [digits?]
  | cons c cs => simp only [digits?, extendDigits_eq_some, ne_eq, reduceCtorEq, not_false_eq_true,
      true_and]

/-- A text that stands for a number: decimal digits, possibly after one plus sign. -/
def Spells (cs : List Char) (n : Nat) : Prop :=
  ∃ digits, (cs = digits ∨ cs = '+' :: digits) ∧ digits ≠ [] ∧
    (∀ c ∈ digits, c.isDigit = true) ∧ n = Nat.ofDigitChars 10 digits 0

theorem size?_eq_some {cs : List Char} {n : Nat} :
    size? cs = some n ↔ Spells cs n ∧ n < sizeLimit := by
  have hplus {digits rest : List Char} (heq : '+' :: rest = digits)
      (hdigits : ∀ c ∈ digits, c.isDigit = true) : False :=
    nomatch hdigits '+' (heq ▸ List.mem_cons_self)
  simp only [size?, Option.filter_eq_some_iff, digits?_eq_some, decide_eq_true_eq]
  refine and_congr_left fun _ => ?_
  split
  · next rest =>
    constructor
    · exact fun h => ⟨rest, .inr rfl, h⟩
    · rintro ⟨digits, heq | heq, hne, hdigits, rfl⟩
      · exact (hplus heq hdigits).elim
      · obtain rfl := (List.cons.inj heq).2
        exact ⟨hne, hdigits, rfl⟩
  · next hsign =>
    constructor
    · exact fun h => ⟨cs, .inl rfl, h⟩
    · rintro ⟨digits, rfl | rfl, h⟩
      · exact h
      · exact (hsign digits rfl).elim

theorem toList_showNat (n : Nat) : (showNat n).toList = Nat.toDigits 10 n := String.toList_ofList

theorem isDigit_of_mem_showNat {n : Nat} {c : Char} (h : c ∈ (showNat n).toList) :
    c.isDigit = true := by
  rw [toList_showNat] at h
  exact Nat.isDigit_of_mem_toDigits (by decide) (by decide) h

theorem digits?_showNat (n : Nat) : digits? (showNat n).toList = some n := by
  have hread := extendDigits_of_isDigit (fun c hc => isDigit_of_mem_showNat (n := n) hc) 0
  rw [toList_showNat] at hread ⊢
  rw [Nat.ofDigitChars_ten_toDigits] at hread
  obtain ⟨c, cs, hcs⟩ := List.exists_cons_of_ne_nil (Nat.toDigits_ne_nil (b := 10) (n := n))
  rw [hcs] at hread ⊢
  exact hread

/-- A shown number begins with no sign. -/
theorem showNat_ne_sign {n : Nat} {sign : Char} (hsign : sign.isDigit = false) (rest : List Char) :
    (showNat n).toList ≠ sign :: rest := by
  intro h
  rw [isDigit_of_mem_showNat (h ▸ List.mem_cons_self)] at hsign
  cases hsign

theorem showInt_natCast (n : Nat) : showInt n = showNat n := by
  rw [showInt, if_neg (Int.not_lt.mpr (Int.natCast_nonneg n)), Int.natAbs_natCast]

theorem size?_showNat {n : Nat} (h : n < sizeLimit) : size? (showNat n).toList = some n := by
  unfold size?
  split
  · next rest heq => exact absurd heq (showNat_ne_sign rfl rest)
  · show (digits? (showNat n).toList).filter _ = _
    rw [digits?_showNat]
    simp [h]

theorem int?_showNat {n : Nat} (h : (n : Int) ≤ maxInt) :
    int? (showNat n).toList = some (n : Int) := by
  unfold int?
  split
  · next rest heq => exact absurd heq (showNat_ne_sign rfl rest)
  · next rest heq => exact absurd heq (showNat_ne_sign rfl rest)
  · have hmin : minInt ≤ (n : Int) := Int.le_trans (by decide) (Int.natCast_nonneg n)
    rw [digits?_showNat]
    simp [h, hmin]

end MediaPipeline.Text

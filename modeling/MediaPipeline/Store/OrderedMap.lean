/-!
# Ordered maps

A map that remembers the order in which its keys were first inserted. Inserting
a key again replaces its value and keeps its place.
-/

namespace MediaPipeline

/-- A map as the list of its entries, in order of first insertion. -/
structure OrderedMap (κ α : Type) where
  entries : List (κ × α)
deriving DecidableEq

namespace OrderedMap

variable {κ α : Type} [DecidableEq κ]

/-- The map without entries. -/
def empty : OrderedMap κ α := ⟨[]⟩

/-- The value of the first entry with a key. -/
def find (k : κ) : List (κ × α) → Option α
  | [] => none
  | e :: rest => if e.1 = k then some e.2 else find k rest

/-- Replace the value of the first entry with a key, or append an entry. -/
def put (k : κ) (v : α) : List (κ × α) → List (κ × α)
  | [] => [(k, v)]
  | e :: rest => if e.1 = k then (k, v) :: rest else e :: put k v rest

/-- The value of a key. -/
def get? (m : OrderedMap κ α) (k : κ) : Option α := find k m.entries

/-- Whether a key has a value. -/
def contains (m : OrderedMap κ α) (k : κ) : Bool := (m.get? k).isSome

/-- Insert a key or replace its value. -/
def insert (m : OrderedMap κ α) (k : κ) (v : α) : OrderedMap κ α := ⟨put k v m.entries⟩

/-- The keys, in order of first insertion. -/
def keys (m : OrderedMap κ α) : List κ := m.entries.map (·.1)

@[simp] theorem get?_empty (k : κ) : (empty : OrderedMap κ α).get? k = none := rfl

theorem find_put_self (k : κ) (v : α) (l : List (κ × α)) : find k (put k v l) = some v := by
  induction l with
  | nil => simp [put, find]
  | cons e rest ih => by_cases h : e.1 = k <;> simp [put, find, h, ih]

theorem find_put_ne {k k' : κ} (v : α) (l : List (κ × α)) (h : k' ≠ k) :
    find k' (put k v l) = find k' l := by
  induction l with
  | nil => simp [put, find, Ne.symm h]
  | cons e rest ih =>
    by_cases he : e.1 = k
    · simp [put, find, he, Ne.symm h]
    · simp only [put, he, if_false, find, ih]

theorem put_of_not_mem {k : κ} (v : α) {l : List (κ × α)} (h : k ∉ l.map (·.1)) :
    put k v l = l ++ [(k, v)] := by
  induction l with
  | nil => rfl
  | cons e rest ih =>
    rw [List.map_cons, List.mem_cons, not_or] at h
    simp only [put, Ne.symm h.1, if_false, ih h.2, List.cons_append]

/-- With distinct keys, a value is replaced where its key stands. -/
theorem put_eq_modify {k : κ} (v : α) {l : List (κ × α)} {i : Nat} (hl : (l.map (·.1)).Nodup)
    (hi : (l.map (·.1))[i]? = some k) : put k v l = l.modify i fun e => (e.1, v) := by
  induction l generalizing i with
  | nil => simp at hi
  | cons e rest ih =>
    obtain ⟨hnot, hrest⟩ := List.nodup_cons.mp hl
    cases i with
    | zero =>
      obtain rfl : e.1 = k := Option.some.inj hi
      simp [put]
    | succ i =>
      have hmem : k ∈ rest.map (·.1) := List.mem_of_getElem? hi
      have he : e.1 ≠ k := by
        rintro rfl
        exact hnot hmem
      simp only [put, he, if_false, ih hrest hi, List.modify_succ_cons]

/-- The entries with other keys. -/
def without (k : κ) (l : List (κ × α)) : List (κ × α) := l.filter (·.1 ≠ k)

theorem without_cons (k : κ) (e : κ × α) (l : List (κ × α)) :
    without k (e :: l) = if e.1 = k then without k l else e :: without k l := by
  by_cases h : e.1 = k <;> simp [without, h]

/-- Entries chosen by their keys do not notice an insertion under a key that is not chosen. -/
theorem filter_put {p : κ → Bool} {k : κ} (hk : p k = false) (v : α) (l : List (κ × α)) :
    (put k v l).filter (fun e => p e.1) = l.filter fun e => p e.1 := by
  induction l with
  | nil => simp [put, hk]
  | cons e rest ih =>
    by_cases he : e.1 = k
    · simp [put, he, hk]
    · simp only [put, he, if_false, List.filter_cons, ih]

/-- The other entries do not notice an insertion. -/
theorem without_put_self (k : κ) (v : α) (l : List (κ × α)) :
    without k (put k v l) = without k l :=
  filter_put (p := fun k' => decide (k' ≠ k)) (by simp) v l

theorem without_put_ne {k k' : κ} (v : α) (l : List (κ × α)) (h : k ≠ k') :
    without k' (put k v l) = put k v (without k' l) := by
  induction l with
  | nil => simp [put, without, h]
  | cons e rest ih =>
    by_cases he : e.1 = k
    · simp [put, without_cons, he, h]
    · by_cases hk : e.1 = k'
      · simp [put, without_cons, hk, Ne.symm h, ih]
      · simp [put, without_cons, he, hk, ih]

theorem find_without {k k' : κ} (l : List (κ × α)) (h : k ≠ k') :
    find k (without k' l) = find k l := by
  induction l with
  | nil => rfl
  | cons e rest ih =>
    by_cases hk : e.1 = k'
    · simp [find, without_cons, hk, Ne.symm h, ih]
    · simp [find, without_cons, hk, ih]

@[simp] theorem get?_insert_self (m : OrderedMap κ α) (k : κ) (v : α) :
    (m.insert k v).get? k = some v :=
  find_put_self k v m.entries

theorem get?_insert_ne (m : OrderedMap κ α) {k k' : κ} (v : α) (h : k' ≠ k) :
    (m.insert k v).get? k' = m.get? k' :=
  find_put_ne v m.entries h

/-- A key that is present keeps its place; a new key comes last. -/
theorem keys_insert (m : OrderedMap κ α) (k : κ) (v : α) :
    (m.insert k v).keys = if k ∈ m.keys then m.keys else m.keys ++ [k] := by
  obtain ⟨l⟩ := m
  simp only [insert, keys]
  induction l with
  | nil => simp [put]
  | cons e rest ih =>
    by_cases h : e.1 = k
    · simp [put, h]
    · have hk : ¬ k = e.1 := fun h' => h h'.symm
      simp only [put, h, if_false, List.map_cons, List.mem_cons, hk, false_or, ih]
      by_cases hm : k ∈ rest.map (·.1) <;> simp [hm]

theorem nodup_keys_insert {m : OrderedMap κ α} (h : m.keys.Nodup) (k : κ) (v : α) :
    (m.insert k v).keys.Nodup := by
  rw [keys_insert]
  by_cases hk : k ∈ m.keys
  · rwa [if_pos hk]
  · rw [if_neg hk, List.nodup_append]
    refine ⟨h, by simp, ?_⟩
    rintro a ha b hb rfl
    exact hk (List.mem_singleton.mp hb ▸ ha)

/-- With distinct keys, what is listed is what is found. -/
theorem get?_eq_some {m : OrderedMap κ α} (h : m.keys.Nodup) {k : κ} {v : α} :
    m.get? k = some v ↔ (k, v) ∈ m.entries := by
  obtain ⟨l⟩ := m
  simp only [get?, keys] at h ⊢
  induction l with
  | nil => simp [find]
  | cons e rest ih =>
    obtain ⟨hnot, hrest⟩ := List.nodup_cons.mp h
    by_cases he : e.1 = k
    · subst he
      have hv : (e.1, v) ∉ rest := fun hm => hnot (List.mem_map.mpr ⟨_, hm, rfl⟩)
      simp only [find, if_true, Option.some.injEq, List.mem_cons, hv, or_false, Prod.ext_iff,
        true_and, eq_comm]
    · have hne : (k, v) ≠ e := fun heq => he (heq ▸ rfl)
      simp only [find, he, if_false, ih hrest, List.mem_cons, hne, false_or]

end OrderedMap

end MediaPipeline

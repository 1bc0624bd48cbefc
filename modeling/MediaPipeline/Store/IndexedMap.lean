import MediaPipeline.Store.OrderedMap

/-!
# Indexed maps

A map that lists its entries in order of first insertion and finds them through an
index, which says where the entry of a key stands. A key that is inserted again gets its
new value in place. That list and index never disagree (`Consistent`) is kept by every
insertion.
-/

namespace MediaPipeline

/-- A list of entries and an index of their positions. -/
structure IndexedMap (κ α : Type) where
  entries : List (κ × α)
  index : OrderedMap κ Nat
deriving DecidableEq

namespace IndexedMap

variable {κ α : Type} [DecidableEq κ]

/-- The map without entries. -/
def empty : IndexedMap κ α := ⟨[], .empty⟩

/-- The value that the index leads to. -/
def get? (m : IndexedMap κ α) (k : κ) : Option α :=
  (m.index.get? k).bind fun i => m.entries[i]?.map (·.2)

/-- Replace the value where the index says that the key stands, or append an entry. -/
def insert (m : IndexedMap κ α) (k : κ) (v : α) : IndexedMap κ α :=
  match m.index.get? k with
  | some i => { m with entries := m.entries.modify i fun e => (e.1, v) }
  | none => ⟨m.entries ++ [(k, v)], m.index.insert k m.entries.length⟩

/-- The keys, in order of first insertion. -/
def keys (m : IndexedMap κ α) : List κ := m.entries.map (·.1)

/-- The index leads each key to its own entry, and nothing else. -/
def Consistent (m : IndexedMap κ α) : Prop :=
  ∀ k i, m.index.get? k = some i ↔ m.keys[i]? = some k

omit [DecidableEq κ] in
theorem keys_getElem? (m : IndexedMap κ α) (i : Nat) :
    m.keys[i]? = m.entries[i]?.map (·.1) :=
  List.getElem?_map

theorem insert_of_index {m : IndexedMap κ α} {k : κ} {i : Nat} (v : α)
    (h : m.index.get? k = some i) :
    m.insert k v = { m with entries := m.entries.modify i fun e => (e.1, v) } := by
  simp only [insert, h]

theorem insert_of_not_index {m : IndexedMap κ α} {k : κ} (v : α) (h : m.index.get? k = none) :
    m.insert k v = ⟨m.entries ++ [(k, v)], m.index.insert k m.entries.length⟩ := by
  simp only [insert, h]

omit [DecidableEq κ] in
/-- A replaced value leaves the keys. -/
theorem map_fst_modify (l : List (κ × α)) (i : Nat) (v : α) :
    (l.modify i fun e => (e.1, v)).map (·.1) = l.map (·.1) := by
  apply List.ext_getElem?
  intro j
  simp only [List.getElem?_map, List.getElem?_modify, Option.map_eq_map, Option.map_map]
  congr 1
  funext e
  by_cases h : i = j <;> simp [h]

namespace Consistent

variable {m : IndexedMap κ α}

theorem empty : (empty : IndexedMap κ α).Consistent := by
  intro k i
  simp [IndexedMap.empty, keys]

theorem index_eq_none (h : m.Consistent) {k : κ} : m.index.get? k = none ↔ k ∉ m.keys := by
  rw [Option.eq_none_iff_forall_ne_some, List.mem_iff_getElem?, not_exists]
  exact forall_congr' fun i => not_congr (h k i)

theorem nodup (h : m.Consistent) : m.keys.Nodup := by
  rw [List.Nodup, List.pairwise_iff_getElem]
  intro i j hi hj hij heq
  have hki := (h m.keys[i] i).mpr (List.getElem?_eq_getElem hi)
  have hkj := (h m.keys[i] j).mpr (by rw [heq]; exact List.getElem?_eq_getElem hj)
  have : i = j := Option.some.inj (hki.symm.trans hkj)
  omega

/-- A consistent map finds what it lists. -/
theorem get?_eq_some (h : m.Consistent) {k : κ} {v : α} :
    m.get? k = some v ↔ (k, v) ∈ m.entries := by
  constructor
  · intro hg
    obtain ⟨i, hi, hv⟩ := Option.bind_eq_some_iff.mp hg
    obtain ⟨⟨k', v'⟩, he, rfl⟩ := Option.map_eq_some_iff.mp hv
    have hk := (h k i).mp hi
    rw [keys_getElem?, he] at hk
    obtain rfl : k' = k := Option.some.inj hk
    exact List.mem_of_getElem? he
  · intro hm
    obtain ⟨i, he⟩ := List.mem_iff_getElem?.mp hm
    have hk : m.keys[i]? = some k := by rw [keys_getElem?, he]; rfl
    simp only [get?, (h k i).mpr hk, Option.bind_some, he, Option.map_some]

/-- A key that is present keeps its place; a new key comes last. -/
theorem keys_insert (h : m.Consistent) (k : κ) (v : α) :
    (m.insert k v).keys = if k ∈ m.keys then m.keys else m.keys ++ [k] := by
  cases hi : m.index.get? k with
  | some i =>
    have hk : k ∈ m.keys := List.mem_of_getElem? ((h k i).mp hi)
    rw [insert_of_index v hi, if_pos hk]
    exact map_fst_modify m.entries i v
  | none =>
    rw [insert_of_not_index v hi, if_neg (h.index_eq_none.mp hi)]
    exact List.map_append

theorem insert (h : m.Consistent) (k : κ) (v : α) : (m.insert k v).Consistent := by
  intro k' j
  rw [h.keys_insert]
  cases hi : m.index.get? k with
  | some i =>
    rw [insert_of_index v hi, if_pos (List.mem_of_getElem? ((h k i).mp hi))]
    exact h k' j
  | none =>
    have hk : k ∉ m.keys := h.index_eq_none.mp hi
    have hlen : m.entries.length = m.keys.length := (List.length_map _).symm
    rw [insert_of_not_index v hi, if_neg hk, hlen, List.getElem?_append]
    by_cases hkk : k' = k
    · subst hkk
      rw [OrderedMap.get?_insert_self]
      have hnone : ∀ i, m.keys[i]? ≠ some k' := fun i hs => hk (List.mem_of_getElem? hs)
      by_cases hj : j < m.keys.length
      · rw [if_pos hj]
        simp only [hnone j, iff_false, Option.some.injEq]
        omega
      · rw [if_neg hj, List.getElem?_singleton]
        by_cases hz : j - m.keys.length = 0
        · simp only [hz, if_true, Option.some.injEq, iff_true]
          omega
        · simp only [hz, if_false, reduceCtorEq, iff_false, Option.some.injEq]
          omega
    · rw [OrderedMap.get?_insert_ne _ _ hkk, h k' j]
      by_cases hj : j < m.keys.length
      · rw [if_pos hj]
      · rw [if_neg hj, List.getElem?_eq_none (Nat.le_of_not_lt hj), List.getElem?_singleton]
        by_cases hz : j - m.keys.length = 0 <;> simp [hz, Ne.symm hkk]

theorem get?_insert_self (h : m.Consistent) (k : κ) (v : α) :
    (m.insert k v).get? k = some v := by
  cases hi : m.index.get? k with
  | some i =>
    have hk := (h k i).mp hi
    rw [keys_getElem?] at hk
    obtain ⟨e, he, -⟩ := Option.map_eq_some_iff.mp hk
    simp only [insert_of_index v hi, get?, hi, Option.bind_some, List.getElem?_modify, he,
      Option.map_eq_map, Option.map_some, if_true]
  | none =>
    simp only [insert_of_not_index v hi, get?, OrderedMap.get?_insert_self, Option.bind_some,
      List.getElem?_concat_length, Option.map_some]

theorem get?_insert_ne (h : m.Consistent) {k k' : κ} (v : α) (hne : k' ≠ k) :
    (m.insert k v).get? k' = m.get? k' := by
  cases hi : m.index.get? k with
  | some i =>
    simp only [insert_of_index v hi, get?]
    cases hj : m.index.get? k' with
    | none => rfl
    | some j =>
      -- two keys never share a position
      have hij : i ≠ j := by
        rintro rfl
        exact hne (Option.some.inj (((h k' i).mp hj).symm.trans ((h k i).mp hi)))
      simp [List.getElem?_modify, hij, Function.comp_def]
  | none =>
    simp only [insert_of_not_index v hi, get?, OrderedMap.get?_insert_ne _ _ hne]
    cases hj : m.index.get? k' with
    | none => rfl
    | some j =>
      obtain ⟨hlt, -⟩ := List.getElem?_eq_some_iff.mp ((h k' j).mp hj)
      have hlt : j < m.entries.length := by simpa [keys] using hlt
      simp [List.getElem?_append_left hlt]

/-- Through the index or not, an insertion does the same to the list. -/
theorem entries_insert (h : m.Consistent) (k : κ) (v : α) :
    (m.insert k v).entries = OrderedMap.put k v m.entries := by
  cases hi : m.index.get? k with
  | some i =>
    rw [insert_of_index v hi]
    exact (OrderedMap.put_eq_modify v h.nodup ((h k i).mp hi)).symm
  | none =>
    rw [insert_of_not_index v hi]
    exact (OrderedMap.put_of_not_mem v (h.index_eq_none.mp hi)).symm

/-- Through the index or not, the same is found. -/
theorem get?_eq_find (h : m.Consistent) (k : κ) : m.get? k = OrderedMap.find k m.entries := by
  apply Option.ext
  intro v
  exact h.get?_eq_some.trans (OrderedMap.get?_eq_some (m := ⟨m.entries⟩) h.nodup).symm

end Consistent

end IndexedMap

end MediaPipeline

import Mathlib.Data.List.Basic
import Mathlib.Tactic.Common
/-!
# Memory as a function

A memory gives the value at each address. `slice` reads a range as a list,
`store` writes a list and `move` copies a range, also onto itself.
-/

namespace StreamLib.Mem

variable {β : Type}

/-- The `n` values from address `p` on. -/
def slice (m : Nat → β) (p n : Nat) : List β := (List.range n).map (fun i => m (p + i))

/-- `bs` written from address `p` on. -/
def store (m : Nat → β) (p : Nat) (bs : List β) : Nat → β := fun i =>
  if p ≤ i then (bs[i - p]?).getD (m i) else m i

/-- The `n` values from `src` on copied to `dst`; the ranges may overlap. -/
def move (m : Nat → β) (dst src n : Nat) : Nat → β := fun i =>
  if dst ≤ i ∧ i < dst + n then m (src + (i - dst)) else m i

/-- The value `k` before address `i`; `below` holds what lies in front of the
memory, nearest first. -/
def back (below m : Nat → β) (i k : Nat) : β := if k ≤ i then m (i - k) else below (k - i - 1)

/-! ## Slices -/

@[simp] theorem length_slice (m : Nat → β) (p n : Nat) : (slice m p n).length = n := by simp [slice]

@[simp] theorem getElem_slice (m : Nat → β) (p n i : Nat) (h : i < (slice m p n).length) :
    (slice m p n)[i] = m (p + i) := by simp [slice]

theorem getElem?_slice (m : Nat → β) {p n i : Nat} (h : i < n) : (slice m p n)[i]? = some (m (p + i)) := by
  rw [List.getElem?_eq_getElem (by simpa using h), getElem_slice]

theorem slice_congr {m m' : Nat → β} {p n : Nat} (h : ∀ i, p ≤ i → i < p + n → m i = m' i) :
    slice m p n = slice m' p n := by
  refine List.map_congr_left fun i hi => h _ (Nat.le_add_right _ _) ?_
  have := List.mem_range.1 hi
  omega

theorem slice_add (m : Nat → β) (p a b : Nat) : slice m p (a + b) = slice m p a ++ slice m (p + a) b := by
  simp [slice, List.range_add, Function.comp_def, Nat.add_assoc]

theorem take_slice (m : Nat → β) {p n k : Nat} (h : k ≤ n) : (slice m p n).take k = slice m p k := by
  obtain ⟨d, rfl⟩ := Nat.exists_eq_add_of_le h
  rw [slice_add, List.take_append_of_le_length (by simp), List.take_of_length_le (by simp)]

theorem drop_slice (m : Nat → β) {p n k : Nat} (h : k ≤ n) : (slice m p n).drop k = slice m (p + k) (n - k) := by
  obtain ⟨d, rfl⟩ := Nat.exists_eq_add_of_le h
  rw [slice_add, List.drop_append_of_le_length (by simp), List.drop_of_length_le (by simp)]
  simp

/-! ## Stores -/

theorem store_before {m : Nat → β} {p i : Nat} (bs : List β) (h : i < p) : store m p bs i = m i := by
  simp [store, Nat.not_le.2 h]

theorem store_after {m : Nat → β} {p i : Nat} (bs : List β) (h : p + bs.length ≤ i) : store m p bs i = m i := by
  simp only [store]
  split
  · rw [List.getElem?_eq_none (by omega)]; rfl
  · rfl

theorem store_inside {m : Nat → β} {p k : Nat} {bs : List β} (h : k < bs.length) : store m p bs (p + k) = bs[k] := by
  simp [store, h]

theorem slice_store_self (m : Nat → β) (p : Nat) (bs : List β) : slice (store m p bs) p bs.length = bs := by
  refine List.ext_getElem (by simp) fun i h _ => ?_
  have hi : i < bs.length := by simpa using h
  simp [store, hi]

theorem slice_store_before (m : Nat → β) {p n q : Nat} (bs : List β) (h : p + n ≤ q) :
    slice (store m q bs) p n = slice m p n :=
  slice_congr fun i _ hi => store_before bs (by omega)

theorem slice_store_after (m : Nat → β) {p n q : Nat} (bs : List β) (h : q + bs.length ≤ p) :
    slice (store m q bs) p n = slice m p n :=
  slice_congr fun i hi _ => store_after bs (by omega)

/-- Writing right behind a range extends it. -/
theorem slice_store_append (m : Nat → β) (p n : Nat) (bs : List β) :
    slice (store m (p + n) bs) p (n + bs.length) = slice m p n ++ bs := by
  rw [slice_add, slice_store_before _ _ (Nat.le_refl _), slice_store_self]

/-! ## Moves -/

theorem move_before {m : Nat → β} {dst i : Nat} (src n : Nat) (h : i < dst) : move m dst src n i = m i := by
  simp [move, Nat.not_le.2 h]

theorem move_after {m : Nat → β} {dst n i : Nat} (src : Nat) (h : dst + n ≤ i) : move m dst src n i = m i := by
  simp [move, Nat.not_lt.2 h]

theorem slice_move (m : Nat → β) (dst src n : Nat) : slice (move m dst src n) dst n = slice m src n := by
  refine List.ext_getElem (by simp) fun i h _ => ?_
  have hi : i < n := by simpa using h
  simp [move, hi]

theorem slice_move_before (m : Nat → β) {p k dst : Nat} (src n : Nat) (h : p + k ≤ dst) :
    slice (move m dst src n) p k = slice m p k :=
  slice_congr fun i _ hi => move_before src n (by omega)

/-- A move onto itself changes nothing. -/
theorem move_self (m : Nat → β) (p n : Nat) : move m p p n = m := by
  funext i
  simp only [move]
  split
  · congr 1; omega
  · rfl

end StreamLib.Mem

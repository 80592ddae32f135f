import Mathlib.Data.List.Basic
import Mathlib.Tactic.Common
/-!
# Taking a stream in blocks

A state takes a list in blocks of `n`, and what is left over waits. `blockFold` takes a whole
list; taking it in parts leads to the same state with the same rest.
-/

namespace StreamLib.Blocks

variable {σ β : Type} (f : σ → List β → σ) (n : Nat)

/-- `s` after the whole blocks of `xs`, at most `k`, and the rest. -/
def blockFoldUpTo : Nat → σ → List β → σ × List β
  | 0, s, xs => (s, xs)
  | k + 1, s, xs => if n ≤ xs.length then blockFoldUpTo k (f s (xs.take n)) (xs.drop n) else (s, xs)

def blockFold (s : σ) (xs : List β) : σ × List β := blockFoldUpTo f n (xs.length / n) s xs

variable {f n}

theorem blockFoldUpTo_short {xs : List β} (h : xs.length < n) (k : Nat) (s : σ) :
    blockFoldUpTo f n k s xs = (s, xs) := by
  cases k with
  | zero => rfl
  | succ k => rw [blockFoldUpTo, if_neg (Nat.not_le.2 h)]

theorem blockFold_short {xs : List β} (h : xs.length < n) (s : σ) : blockFold f n s xs = (s, xs) :=
  blockFoldUpTo_short h _ s

/-- A block in front. -/
theorem blockFold_block {b : List β} (hn : 0 < n) (hb : b.length = n) (s : σ) (xs : List β) :
    blockFold f n s (b ++ xs) = blockFold f n (f s b) xs := by
  have hlen : (b ++ xs).length / n = xs.length / n + 1 := by
    rw [List.length_append, hb, Nat.add_comm, Nat.add_div_right _ hn]
  have hle : n ≤ (b ++ xs).length := by
    rw [List.length_append, hb]
    exact Nat.le_add_right n _
  rw [blockFold, hlen, blockFoldUpTo, if_pos hle, List.take_left' hb, List.drop_left' hb]
  rfl

/-- By blocks in front: the argument of every fact about `blockFold`. -/
theorem blocks_induction (hn : 0 < n) {P : List β → Prop} (hshort : ∀ xs, xs.length < n → P xs)
    (hblock : ∀ b xs, b.length = n → P xs → P (b ++ xs)) (xs : List β) : P xs := by
  induction hk : xs.length using Nat.strongRecOn generalizing xs with
  | ind k ih =>
    by_cases hlt : xs.length < n
    · exact hshort xs hlt
    · have hb : (xs.take n).length = n := List.length_take_of_le (Nat.not_lt.1 hlt)
      have hrest : (xs.drop n).length < k := by
        rw [List.length_drop]
        omega
      rw [← List.take_append_drop n xs]
      exact hblock _ _ hb (ih _ hrest _ rfl)

theorem blockFold_append (hn : 0 < n) (s : σ) (xs ys : List β) :
    blockFold f n s (xs ++ ys) = blockFold f n (blockFold f n s xs).1 ((blockFold f n s xs).2 ++ ys) := by
  induction xs using blocks_induction hn generalizing s with
  | hshort xs hlt => rw [blockFold_short hlt]
  | hblock b xs hb ih => rw [List.append_assoc, blockFold_block hn hb, ih, blockFold_block hn hb]

theorem length_rest (hn : 0 < n) (s : σ) (xs : List β) : (blockFold f n s xs).2.length = xs.length % n := by
  induction xs using blocks_induction hn generalizing s with
  | hshort xs hlt => rw [blockFold_short hlt, Nat.mod_eq_of_lt hlt]
  | hblock b xs hb ih => rw [blockFold_block hn hb, ih, List.length_append, hb, Nat.add_mod_left]

end StreamLib.Blocks

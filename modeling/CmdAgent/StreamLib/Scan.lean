import Mathlib.Data.List.Basic
import Mathlib.Tactic.Common
/-!
# Scans that stop early

A queue holds its oldest elements in front, and a scan takes elements off the front
as long as a test `fires`. The scan takes the `old` elements exactly if the test fires
for each of them and not for the first that is young.
-/

namespace StreamLib.Scan

variable {β : Type} {old fires : β → Bool} {l : List β}

/-- What is behind an element that is not old is not old. -/
def Aged (old : β → Bool) (l : List β) : Prop := l.Pairwise fun a b => old b = true → old a = true

/-- The test fires for the old elements and not for the first young one. -/
def Sees (old fires : β → Bool) (l : List β) : Prop :=
  (∀ a ∈ l, old a = true → fires a = true) ∧ ∀ a, l.find? (fun a => !old a) = some a → fires a = false

theorem filter_of_young {a : β} (h : Aged old (a :: l)) (ha : old a = false) : l.filter old = [] := by
  rw [List.filter_eq_nil_iff]
  intro b hb hold
  have := (List.pairwise_cons.1 h).1 b hb hold
  rw [ha] at this
  cases this

theorem takeWhile_eq_filter_iff (h : Aged old l) : l.takeWhile fires = l.filter old ↔ Sees old fires l := by
  unfold Sees
  induction l with
  | nil => simp
  | cons a l ih =>
    have hl : Aged old l := (List.pairwise_cons.1 h).2
    cases ha : old a with
    | true =>
      rw [List.filter_cons_of_pos ha, List.find?_cons_of_neg (by simp [ha])]
      cases hf : fires a with
      | true =>
        rw [List.takeWhile_cons_of_pos hf, List.cons_inj_right, ih hl, List.forall_mem_cons]
        simp [hf]
      | false =>
        rw [List.takeWhile_cons_of_neg (by simp [hf]), List.forall_mem_cons]
        simp [ha, hf]
    | false =>
      have hyoung := filter_of_young h ha
      rw [List.filter_cons_of_neg (by simp [ha]), hyoung, List.find?_cons_of_pos (by simp [ha])]
      have hnone : ∀ b ∈ l, old b = false := by
        intro b hb
        simpa using List.filter_eq_nil_iff.1 hyoung b hb
      cases hf : fires a with
      | true => simp [List.takeWhile_cons_of_pos hf, hf]
      | false =>
        rw [List.takeWhile_cons_of_neg (by simp [hf])]
        simpa [ha, hf] using fun b hb hold => absurd hold (by simp [hnone b hb])

/-- What such a scan leaves are the young elements. -/
theorem dropWhile_of_takeWhile (h : Aged old l) (ht : l.takeWhile fires = l.filter old) :
    l.dropWhile fires = l.filter (fun a => !old a) := by
  induction l with
  | nil => rfl
  | cons a l ih =>
    cases ha : old a with
    | true =>
      rw [List.filter_cons_of_pos ha] at ht
      cases hf : fires a with
      | true =>
        rw [List.takeWhile_cons_of_pos hf, List.cons_inj_right] at ht
        rw [List.dropWhile_cons_of_pos hf, List.filter_cons_of_neg (by simp [ha]),
          ih (List.pairwise_cons.1 h).2 ht]
      | false =>
        rw [List.takeWhile_cons_of_neg (by simp [hf])] at ht
        cases ht
    | false =>
      have hyoung := filter_of_young h ha
      rw [List.filter_cons_of_neg (by simp [ha]), hyoung] at ht
      have hf : fires a = false := by
        cases hf : fires a with
        | false => rfl
        | true =>
          rw [List.takeWhile_cons_of_pos hf] at ht
          cases ht
      rw [List.dropWhile_cons_of_neg (by simp [hf]), List.filter_eq_self.2]
      intro b hb
      rcases List.mem_cons.1 hb with rfl | hb
      · simp [ha]
      · simpa using List.filter_eq_nil_iff.1 hyoung b hb

end StreamLib.Scan

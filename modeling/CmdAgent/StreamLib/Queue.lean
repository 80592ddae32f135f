import CmdAgent.StreamLib.Runs
import Mathlib.Data.List.Infix
/-!
# Queues

A queue is put into at the back and taken from at the front, several at once. An
implementation refines it if the labels of its runs are runs of the queue.
-/
open StreamLib.Runs

namespace StreamLib.Queue

variable {β : Type}

/-- What is done to a queue. -/
inductive QueueOp (β : Type) where
  | put (bs : List β)
  /-- These were at the front. -/
  | take (bs : List β)
  | clear

/-- The queue after an operation, `none` where what is taken is not at the front. -/
def queueStep [DecidableEq β] (q : List β) : QueueOp β → Option (List β)
  | .put bs => some (q ++ bs)
  | .take bs => if bs <+: q then some (q.drop bs.length) else none
  | .clear => some []

/-- What the operation puts at the back. -/
def QueueOp.puts : QueueOp β → List β
  | .put bs => bs
  | .take _ | .clear => []

/-- What the operation takes from the front. -/
def QueueOp.takes : QueueOp β → List β
  | .take bs => bs
  | .put _ | .clear => []

section
variable [DecidableEq β]

theorem queueStep_take (bs q : List β) : queueStep (bs ++ q) (.take bs) = some q := by
  rw [queueStep, if_pos (List.prefix_append bs q), List.drop_left]

theorem queueStep_conserved {q q' : List β} {op : QueueOp β} (h : queueStep q op = some q')
    (hclear : op ≠ .clear) : q ++ op.puts = op.takes ++ q' := by
  cases op with
  | put bs =>
    cases h
    rfl
  | take bs =>
    by_cases hprefix : bs <+: q
    · simp only [queueStep, if_pos hprefix, Option.some.injEq] at h
      rw [← h, QueueOp.puts, List.append_nil, QueueOp.takes]
      exact (List.prefix_iff_eq_append.1 hprefix).symm
    · simp only [queueStep, if_neg hprefix] at h
      cases h
  | clear => exact absurd rfl hclear

/-- Nothing is lost, doubled or put in another order. -/
theorem queue_conserved {q q' : List β} {ops : List (QueueOp β)} (h : exec queueStep q ops = some q')
    (hclear : .clear ∉ ops) : q ++ ops.flatMap QueueOp.puts = ops.flatMap QueueOp.takes ++ q' := by
  induction ops generalizing q with
  | nil =>
    cases h
    rw [List.flatMap_nil, List.flatMap_nil, List.append_nil]
    rfl
  | cons op ops ih =>
    obtain ⟨q₁, hfirst, hrest⟩ := exec_cons_eq_some.1 h
    rw [List.mem_cons, not_or] at hclear
    rw [List.flatMap_cons, List.flatMap_cons, ← List.append_assoc,
      queueStep_conserved hfirst (Ne.symm hclear.1), List.append_assoc, ih hrest hclear.2,
      List.append_assoc]

end

end StreamLib.Queue

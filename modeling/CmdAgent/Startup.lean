import Mathlib.Data.List.Range
import Mathlib.Tactic.Common
/-!
# `cmdagent_tasks_startup`

The tasks are started in order, and a failure is to stop those that run. The index is an
`unsigned long`, so the loop that stops them has no end: below 0 it goes on at `2 ^ 64 - 1`.
-/

namespace CmdAgent

/-! ## The functions -/

/-- What the calls in `task_startup` return. -/
structure ThreadCalls where
  attrInit : Int
  setstacksize : Int
  getstacksize : Int
  setdetachstate : Int
  create : Int
  deriving DecidableEq

/-- `task_startup` -/
def taskStartup (calls : ThreadCalls) : Int :=
  if calls.attrInit ≠ 0 then -1
  else if calls.setstacksize ≠ 0 then -1
  else if calls.getstacksize ≠ 0 then -1
  else if calls.setdetachstate ≠ 0 then -1
  else if calls.create ≠ 0 then -1
  else 0

/-- The functions of a task, which are pointers. -/
structure TaskFuncs where
  /-- With what the calls of `task_startup` return. -/
  startup : Option ThreadCalls
  /-- `stop` is not `NULL`. -/
  stop : Bool

/-- Where the function is after some rounds of its loops, and on which tasks it has called
`stop`. -/
inductive StartupEnd
  | running (stopped : List Nat)
  /-- It reads `task[i]`, and there is no such task. -/
  | outside (i : UInt64) (stopped : List Nat)
  | returned (retval : Int) (stopped : List Nat)
  deriving DecidableEq

/-- The loop behind `err1`, for some rounds. -/
def unwind (task : List TaskFuncs) (retval : Int) : Nat → UInt64 → List Nat → StartupEnd
  | 0, _, stopped => .running stopped
  | n + 1, i, stopped =>
    if i ≥ 0 then
      match task[i.toNat]? with
      | none => .outside i stopped
      | some t => unwind task retval n (i - 1) (if t.stop then stopped ++ [i.toNat] else stopped)
    else .returned retval stopped

/-- The loop that starts the tasks. -/
def startupFrom (task : List TaskFuncs) (devNum : UInt32) : Nat → UInt64 → StartupEnd
  | 0, _ => .running []
  | n + 1, i =>
    if i < (devNum + 1).toUInt64 then
      match task[i.toNat]? with
      | none => .outside i []
      | some t =>
        match t.startup with
        | none => startupFrom task devNum n (i + 1)
        | some calls =>
          if taskStartup calls < 0 then unwind task (taskStartup calls) n i [] else startupFrom task devNum n (i + 1)
    else .returned 0 []

/-- `cmdagent_tasks_startup`, for some rounds. -/
def cmdagentTasksStartup (task : List TaskFuncs) (devNum : UInt32) (n : Nat) : StartupEnd := startupFrom task devNum n 0

/-! ## Rolling back -/

/-- The task is there, and starts or has no `startup`. -/
def Starts (task : List TaskFuncs) (i : Nat) : Prop :=
  ∃ t ∈ task[i]?, ∀ calls ∈ t.startup, ¬ taskStartup calls < 0

/-- The first task that does not start. -/
structure FailsAt (task : List TaskFuncs) (devNum : UInt32) (k : Nat) : Prop where
  lt : k < (devNum + 1).toNat
  before : ∀ i < k, Starts task i
  fails : ∃ t ∈ task[k]?, ∃ calls ∈ t.startup, taskStartup calls < 0

/-- It returns a negative value, and `stop` has been called once on each task that was
started and on no other. -/
def RollsBack (task : List TaskFuncs) (devNum : UInt32) (k : Nat) : Prop :=
  ∃ n retval stopped, cmdagentTasksStartup task devNum n = .returned retval stopped ∧ retval < 0 ∧
    stopped.Perm ((List.range k).filter fun i => (task[i]?).any fun t => t.startup.isSome)

variable {task : List TaskFuncs} {devNum : UInt32} {k n : Nat}

/-- The test `i >= 0` always holds. -/
theorem unwind_ne_returned (task : List TaskFuncs) (retval : Int) (n : Nat) (i : UInt64) (stopped : List Nat) (v : Int)
    (s : List Nat) : unwind task retval n i stopped ≠ .returned v s := by
  induction n generalizing i stopped with
  | zero => exact nofun
  | succ n ih =>
    rw [unwind, if_pos UInt64.zero_le]
    split
    · exact nofun
    · exact ih _ _

theorem FailsAt.index_lt (h : FailsAt task devNum k) {i : UInt64} (hi : i.toNat ≤ k) : i < (devNum + 1).toUInt64 := by
  rw [UInt64.lt_iff_toNat_lt, UInt32.toNat_toUInt64]
  exact Nat.lt_of_le_of_lt hi h.lt

theorem FailsAt.succ_toNat (h : FailsAt task devNum k) {i : UInt64} (hi : i.toNat < k) :
    (i + 1).toNat = i.toNat + 1 := by
  have hlt := h.lt
  have hdev := (devNum + 1).toNat_lt
  rw [UInt64.toNat_add, UInt64.toNat_one]
  omega

/-- The tasks in front are started one after the other, and then the first is stopped that
was not. -/
theorem FailsAt.startupFrom_eq (h : FailsAt task devNum k) (n : Nat) {i : UInt64} (hi : i.toNat ≤ k) :
    ∃ retval j, j.toNat = k ∧ startupFrom task devNum (n + (k - i.toNat) + 1) i = unwind task retval n j [] := by
  obtain ⟨d, hd⟩ := Nat.exists_eq_add_of_le hi
  induction d generalizing i with
  | zero =>
    obtain rfl : k = i.toNat := hd
    obtain ⟨t, ht, calls, hcalls, hneg⟩ := h.fails
    refine ⟨taskStartup calls, i, rfl, ?_⟩
    rw [Nat.sub_self, startupFrom, if_pos (h.index_lt hi), ht]
    dsimp only
    rw [hcalls]
    exact if_pos hneg
  | succ d ih =>
    have hlt : i.toNat < k := by omega
    obtain ⟨t, ht, hstarts⟩ := h.before i.toNat hlt
    have hsucc := h.succ_toNat hlt
    obtain ⟨retval, j, hj, heq⟩ := @ih (i + 1) (by omega) (by omega)
    refine ⟨retval, j, hj, ?_⟩
    rw [show n + (k - (i + 1).toNat) + 1 = n + (k - i.toNat) by omega] at heq
    rw [← heq, startupFrom, if_pos (h.index_lt hi), ht]
    dsimp only
    cases hcalls : t.startup with
    | none => rfl
    | some calls => exact if_neg (hstarts calls hcalls)

/-- What has returned stays so, however many rounds more there are. -/
theorem startupFrom_mono {n : Nat} {i : UInt64} {v : Int} {s : List Nat}
    (hend : startupFrom task devNum n i = .returned v s) (m : Nat) :
    startupFrom task devNum (n + m) i = .returned v s := by
  induction n generalizing i with
  | zero => cases hend
  | succ n ih =>
    rw [show n + 1 + m = n + m + 1 by omega]
    rw [startupFrom] at hend ⊢
    split at hend
    · rename_i hi
      rw [if_pos hi]
      cases ht : task[i.toNat]? with
      | none =>
        rw [ht] at hend
        cases hend
      | some t =>
        rw [ht] at hend
        dsimp only at hend ⊢
        cases hcalls : t.startup with
        | none =>
          rw [hcalls] at hend
          exact ih hend
        | some calls =>
          rw [hcalls] at hend
          dsimp only at hend ⊢
          split at hend
          · exact absurd hend (unwind_ne_returned _ _ _ _ _ _ _)
          · rename_i hneg
            rw [if_neg hneg]
            exact ih hend
    · rename_i hi
      rw [if_neg hi]
      exact hend

/-- Once a task does not start, the function is in the loop that never returns. -/
theorem FailsAt.ne_returned (h : FailsAt task devNum k) (n : Nat) (v : Int) (s : List Nat) :
    cmdagentTasksStartup task devNum n ≠ .returned v s := by
  intro hend
  obtain ⟨retval, j, -, heq⟩ := h.startupFrom_eq n (i := 0) (Nat.zero_le k)
  have hmore := startupFrom_mono hend (k + 1)
  exact unwind_ne_returned task retval n j [] v s (heq.symm.trans hmore)

/-- Whichever task does not start, the function does not return. -/
theorem tasks_startup_never (task : List TaskFuncs) (devNum : UInt32) (k : Nat) (h : FailsAt task devNum k) :
    ¬ RollsBack task devNum k := by
  rintro ⟨n, retval, stopped, hend, -⟩
  exact h.ne_returned n retval stopped hend

/-- It stops them down to the first and goes on to `task[2 ^ 64 - 1]`. -/
theorem unwind_outside (hstop : ∀ t ∈ task, t.stop = true) (hlen : task.length < UInt64.size) (retval : Int) (n : Nat)
    (i : UInt64) (hi : i.toNat < task.length) (stopped : List Nat) :
    unwind task retval (n + i.toNat + 2) i stopped =
      .outside (0 - 1) (stopped ++ (List.range (i.toNat + 1)).reverse) := by
  obtain ⟨d, hd⟩ : ∃ d, i.toNat = d := ⟨_, rfl⟩
  have hround : ∀ (m : Nat) (i : UInt64) (stopped : List Nat), i.toNat < task.length →
      unwind task retval (m + 1) i stopped = unwind task retval m (i - 1) (stopped ++ [i.toNat]) := by
    intro m i stopped hi
    rw [unwind, if_pos UInt64.zero_le, List.getElem?_eq_getElem hi]
    dsimp only
    rw [if_pos (hstop _ (List.getElem_mem hi))]
  induction d generalizing i stopped with
  | zero =>
    have h0 : i = 0 := UInt64.toNat_inj.1 hd
    subst h0
    rw [hround _ _ _ hi, unwind, if_pos UInt64.zero_le, List.getElem?_eq_none]
    · rfl
    · exact Nat.le_of_lt_succ (Nat.lt_of_lt_of_le hlen (by decide))
  | succ d ih =>
    have hpred : (i - 1).toNat = d := by
      rw [UInt64.toNat_sub_of_le]
      · rw [hd]
        rfl
      · rw [UInt64.le_iff_toNat_le, hd]
        exact Nat.succ_le_succ (Nat.zero_le d)
    rw [hd] at hi ⊢
    rw [hround _ _ _ (by rw [hd]; exact hi)]
    have hrest := ih (i - 1) (by omega) (stopped ++ [i.toNat]) hpred
    rw [hpred] at hrest
    rw [show n + (d + 1) + 1 = n + d + 2 by omega, hrest, hd, List.range_succ (n := d + 1)]
    simp

/-- `stop` is called on each task from the one that did not start down, and then the
function reads outside the cluster. -/
theorem FailsAt.outside (h : FailsAt task devNum k) (hlen : task.length = (devNum + 1).toNat)
    (hstop : ∀ t ∈ task, t.stop = true) (n : Nat) :
    cmdagentTasksStartup task devNum (n + 2 * k + 3) = .outside (0 - 1) (List.range (k + 1)).reverse := by
  obtain ⟨retval, j, hj, heq⟩ := h.startupFrom_eq (n + k + 2) (i := 0) (Nat.zero_le k)
  have hlt := h.lt
  have hdev := (devNum + 1).toNat_lt
  unfold cmdagentTasksStartup
  rw [show n + 2 * k + 3 = n + k + 2 + (k - (0 : UInt64).toNat) + 1 by simp; omega, heq]
  have hsize : task.length < UInt64.size := by
    rw [hlen]
    exact Nat.lt_trans hdev (by decide)
  have hout := unwind_outside hstop hsize retval n j (by omega) []
  rw [hj] at hout
  exact hout

/-- A task whose thread starts, and one for whose thread there are no resources. -/
def started : TaskFuncs := ⟨some ⟨0, 0, 0, 0, 0⟩, true⟩
def unstarted : TaskFuncs := ⟨some ⟨0, 0, 0, 0, 11⟩, true⟩

theorem failsAt_two : FailsAt [started, started, unstarted] 2 2 where
  lt := by decide
  before i hi := by
    have hcases : i = 0 ∨ i = 1 := by omega
    rcases hcases with rfl | rfl
    · exact ⟨started, rfl, by decide⟩
    · exact ⟨started, rfl, by decide⟩
  fails := ⟨unstarted, rfl, _, rfl, by decide⟩

theorem tasks_startup_never_two : ¬ RollsBack [started, started, unstarted] 2 2 :=
  tasks_startup_never _ 2 2 failsAt_two

/-- The service task alone, whose thread does not start. -/
theorem tasks_startup_alone : FailsAt [unstarted] 0 0 ∧ ¬ RollsBack [unstarted] 0 0 ∧
    cmdagentTasksStartup [unstarted] 0 3 = .outside (0 - 1) [0] := by
  have h : FailsAt [unstarted] 0 0 := ⟨by decide, nofun, unstarted, rfl, _, rfl, by decide⟩
  refine ⟨h, ?_, h.outside rfl (by decide) 0⟩
  rintro ⟨n, retval, stopped, hend, -⟩
  exact h.ne_returned n retval stopped hend

end CmdAgent

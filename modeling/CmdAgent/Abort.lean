import CmdAgent.StreamLib.Runs
import CmdAgent.Task
/-!
# Stopping a task

One thread runs `task_process`, another `task_stop`. Each `chgstat` is a step of its
own, and so is each look at `flags`. What a state function does is left open but for
its calls of `chgstat`, with `TASK_PREP` or `TASK_RUNNING`, at any point.
-/
open StreamLib.Runs

namespace CmdAgent

/-! ## The two threads -/

/-- Where the thread is in `task_process`. -/
inductive Worker where
  | start
  /-- Before the test of the loop. -/
  | loop
  /-- After it, before `statmach` is read. -/
  | passed
  | selected (statmach : UInt32)
  /-- In a state function. -/
  | inside
  | left
  deriving DecidableEq

/-- Where the other thread is in `task_stop`. -/
inductive Stopper where
  | idle
  | joining
  | joined
  | stopped
  deriving DecidableEq

structure Stopping where
  task : TaskInfo
  worker : Worker
  stopper : Stopper
  deriving DecidableEq

def Stopping.init (task : TaskInfo) : Stopping := ⟨task, .start, .idle⟩

inductive StopEv where
  /-- `chgstat(TASK_PREP)` -/
  | begin
  /-- `IS_TASK_ABORT`, in the loop -/
  | test
  | select
  /-- `statmach_func[statmach]` is called. -/
  | dispatch
  /-- `statmach_func[statmach]` is `NULL`. -/
  | skip
  /-- `IS_TASK_RUNNING`, in a state function -/
  | isRunning
  /-- `chgstat`, in a state function -/
  | chgstat (newstate : UInt32)
  | ret
  /-- `chgstat(TASK_ABORT)` -/
  | abort
  | join
  /-- `chgstat(TASK_QUIT)` -/
  | quit
  deriving DecidableEq

namespace Stopping

def chgstat (s : Stopping) (newstate : UInt32) : Stopping := { s with task := taskChangestate s.task newstate }

/-- `none` where the thread is not at that point. `statmachFunc` says which entries of
`statmach_func` are set. -/
def step (statmachFunc : UInt32 → Bool) (s : Stopping) : StopEv → Option Stopping
  | .begin => if s.worker = .start then some { s.chgstat taskPrep with worker := .loop } else none
  | .test =>
    if s.worker = .loop then some { s with worker := if isTaskAbort s.task then .left else .passed } else none
  | .select => if s.worker = .passed then some { s with worker := .selected (s.task.flags &&& taskMask) } else none
  | .dispatch =>
    match s.worker with
    | .selected statmach => if statmachFunc statmach then some { s with worker := .inside } else none
    | _ => none
  | .skip =>
    match s.worker with
    | .selected statmach => if statmachFunc statmach then none else some { s with worker := .loop }
    | _ => none
  | .isRunning => if s.worker = .inside then some s else none
  | .chgstat newstate =>
    if s.worker = .inside ∧ (newstate = taskPrep ∨ newstate = taskRunning) then some (s.chgstat newstate) else none
  | .ret => if s.worker = .inside then some { s with worker := .loop } else none
  | .abort => if s.stopper = .idle then some { s.chgstat taskAbort with stopper := .joining } else none
  | .join => if s.stopper = .joining ∧ s.worker = .left then some { s with stopper := .joined } else none
  | .quit => if s.stopper = .joined then some { s.chgstat taskQuit with stopper := .stopped } else none

end Stopping

/-! ## Since the abort -/

/-- What has happened since the abort, the abort included. -/
def sinceAbort (evs : List StopEv) : List StopEv := evs.dropWhile fun ev => ev ≠ .abort

theorem sinceAbort_snoc (evs : List StopEv) (ev : StopEv) :
    sinceAbort (evs ++ [ev]) =
      if .abort ∈ evs then sinceAbort evs ++ [ev] else if ev = .abort then [ev] else [] := by
  induction evs with
  | nil => by_cases he : ev = .abort <;> simp [sinceAbort, he]
  | cons first evs ih =>
    unfold sinceAbort at ih ⊢
    rw [List.cons_append]
    by_cases hf : first = .abort
    · simp [hf]
    · rw [List.dropWhile_cons_of_pos (by simpa using hf), ih, List.dropWhile_cons_of_pos (by simpa using hf)]
      simp [Ne.symm hf]

/-- Where the stop is after a step. -/
def Stopper.next (stopper : Stopper) : StopEv → Stopper
  | .abort => .joining
  | .join => .joined
  | .quit => .stopped
  | _ => stopper

/-- The state functions that will be called whatever the state. -/
def Worker.committed : Worker → Nat
  | .passed | .selected _ => 1
  | _ => 0

namespace Stopping

/-- How far the stop is, with the number of state functions called since the abort. -/
inductive Progress (s : Stopping) : Nat → Prop
  | running : s.stopper = .idle → Progress s 0
  | aborted {n : Nat} : s.stopper = .joining → isTaskAbort s.task = true → n + s.worker.committed ≤ 1 → Progress s n
  | joined {n : Nat} : s.stopper = .joined → isTaskAbort s.task = true → s.worker = .left → n ≤ 1 → Progress s n
  | stopped {n : Nat} : s.stopper = .stopped → s.task.flags = taskQuit → s.worker = .left → n ≤ 1 → Progress s n

/-- The state functions a step calls. -/
def called (ev : StopEv) : Nat := if ev = .dispatch then 1 else 0

variable {statmachFunc : UInt32 → Bool} {s t : Stopping} {ev : StopEv}

/-- Before the stop only its first step concerns the other thread. -/
theorem step_idle (hidle : s.stopper = .idle) (h : step statmachFunc s ev = some t) :
    if ev = .abort then t.stopper = .joining ∧ isTaskAbort t.task = true ∧ t.worker = s.worker
    else t.stopper = .idle := by
  cases ev with
  | abort =>
    simp only [step, hidle, if_true, Option.some.injEq] at h
    subst h
    exact ⟨rfl, isTaskAbort_changestate s.task, rfl⟩
  | join => simp [step, hidle] at h
  | quit => simp [step, hidle] at h
  | dispatch | skip =>
    cases hw : s.worker <;> simp [step, hw] at h
    obtain ⟨-, rfl⟩ := h
    exact hidle
  | _ =>
    simp only [step, Option.ite_none_right_eq_some, Option.some.injEq] at h
    obtain ⟨-, rfl⟩ := h
    exact hidle

/-- After the abort the state does not change, and a state function is called only by
a thread that had passed the test. -/
theorem step_aborted (hjoin : s.stopper = .joining) (habort : isTaskAbort s.task = true)
    (h : step statmachFunc s ev = some t) :
    t.task = s.task ∧ called ev + t.worker.committed ≤ s.worker.committed ∧
      (t.stopper = .joining ∨ t.stopper = .joined ∧ t.worker = .left) := by
  have hprep : taskChangestate s.task taskPrep = s.task := changestate_abort habort (by decide)
  have hrunning : taskChangestate s.task taskRunning = s.task := changestate_abort habort (by decide)
  cases ev with
  | begin =>
    simp only [step, chgstat, hprep, Option.ite_none_right_eq_some, Option.some.injEq] at h
    obtain ⟨-, rfl⟩ := h
    exact ⟨rfl, Nat.zero_le _, .inl hjoin⟩
  | test =>
    simp only [step, habort, if_true, Option.ite_none_right_eq_some, Option.some.injEq] at h
    obtain ⟨-, rfl⟩ := h
    exact ⟨rfl, Nat.zero_le _, .inl hjoin⟩
  | select =>
    simp only [step, Option.ite_none_right_eq_some, Option.some.injEq] at h
    obtain ⟨hw, rfl⟩ := h
    rw [hw]
    exact ⟨rfl, Nat.le_refl 1, .inl hjoin⟩
  | dispatch =>
    cases hw : s.worker <;> simp [step, hw] at h
    obtain ⟨-, rfl⟩ := h
    exact ⟨rfl, Nat.le_refl 1, .inl hjoin⟩
  | skip =>
    cases hw : s.worker <;> simp [step, hw] at h
    obtain ⟨-, rfl⟩ := h
    exact ⟨rfl, Nat.zero_le _, .inl hjoin⟩
  | isRunning =>
    simp only [step, Option.ite_none_right_eq_some, Option.some.injEq] at h
    obtain ⟨hw, rfl⟩ := h
    rw [hw]
    exact ⟨rfl, Nat.le_refl 0, .inl hjoin⟩
  | chgstat newstate =>
    simp only [step, Option.ite_none_right_eq_some, Option.some.injEq] at h
    obtain ⟨⟨hw, hnew⟩, rfl⟩ := h
    have hsame : s.chgstat newstate = s := by
      rcases hnew with rfl | rfl
      · rw [chgstat, hprep]
      · rw [chgstat, hrunning]
    rw [hsame, hw]
    exact ⟨rfl, Nat.le_refl 0, .inl hjoin⟩
  | ret =>
    simp only [step, Option.ite_none_right_eq_some, Option.some.injEq] at h
    obtain ⟨-, rfl⟩ := h
    exact ⟨rfl, Nat.zero_le _, .inl hjoin⟩
  | abort => simp [step, hjoin] at h
  | join =>
    simp only [step, Option.ite_none_right_eq_some, Option.some.injEq] at h
    obtain ⟨⟨-, hleft⟩, rfl⟩ := h
    rw [hleft]
    exact ⟨rfl, Nat.le_refl 0, .inr ⟨rfl, rfl⟩⟩
  | quit => simp [step, hjoin] at h

/-- A thread that has left its loop does nothing more. -/
theorem step_left (hleft : s.worker = .left) (hbegun : s.stopper ≠ .idle) (hjoin : s.stopper ≠ .joining)
    (h : step statmachFunc s ev = some t) : ev = .quit ∧ s.stopper = .joined := by
  cases ev <;> simp [step, hleft, hbegun, hjoin] at h ⊢
  exact h.1

theorem Progress.step {n : Nat} (hs : s.Progress n) (h : step statmachFunc s ev = some t) :
    t.Progress (if s.stopper = .idle then 0 else n + called ev) := by
  cases hs with
  | running hidle =>
    have hstep := step_idle hidle h
    rw [if_pos hidle]
    by_cases he : ev = .abort
    · rw [if_pos he] at hstep
      obtain ⟨hjoin, habort, -⟩ := hstep
      apply Progress.aborted hjoin habort
      rw [Nat.zero_add]
      cases t.worker <;> simp [Worker.committed]
    · rw [if_neg he] at hstep
      exact .running hstep
  | aborted hjoin habort hn =>
    obtain ⟨htask, hcalled, hjoining | ⟨hjoined, hleft⟩⟩ := step_aborted hjoin habort h
    · rw [if_neg (by simp [hjoin])]
      apply Progress.aborted hjoining (htask ▸ habort)
      omega
    · rw [if_neg (by simp [hjoin])]
      apply Progress.joined hjoined (htask ▸ habort) hleft
      omega
  | joined hjoined habort hleft hn =>
    obtain ⟨rfl, -⟩ := step_left hleft (by simp [hjoined]) (by simp [hjoined]) h
    simp only [Stopping.step, hjoined, if_true, Option.some.injEq] at h
    subst h
    rw [if_neg (by simp [hjoined])]
    exact .stopped rfl (flags_quit s.task) hleft hn
  | stopped hstopped hquit hleft hn =>
    obtain ⟨-, hjoined⟩ := step_left hleft (by simp [hstopped]) (by simp [hstopped]) h
    cases hstopped.symm.trans hjoined

theorem stopper_step (h : step statmachFunc s ev = some t) : t.stopper = s.stopper.next ev := by
  cases ev with
  | dispatch | skip =>
    cases hw : s.worker <;> simp [step, hw] at h
    obtain ⟨-, rfl⟩ := h
    rfl
  | _ =>
    simp only [step, Option.ite_none_right_eq_some, Option.some.injEq] at h
    obtain ⟨-, rfl⟩ := h
    rfl

theorem begun_step (hbegun : s.stopper ≠ .idle) (h : step statmachFunc s ev = some t) : t.stopper ≠ .idle := by
  rw [stopper_step h]
  cases ev <;> simp [Stopper.next, hbegun]

theorem stopped_step (h : step statmachFunc s ev = some t) :
    t.stopper = .stopped ↔ s.stopper = .stopped ∨ ev = .quit := by
  rw [stopper_step h]
  cases ev with
  | abort =>
    have hidle : s.stopper = .idle := by
      by_contra hne
      simp [step, hne] at h
    simp [Stopper.next, hidle]
  | join =>
    simp only [step, Option.ite_none_right_eq_some] at h
    simp [Stopper.next, h.1.1]
  | _ => simp [Stopper.next]

/-- The state goes with what has happened. -/
structure History (evs : List StopEv) (s : Stopping) : Prop where
  begun : .abort ∈ evs ↔ s.stopper ≠ .idle
  stopped : .quit ∈ evs ↔ s.stopper = .stopped
  progress : s.Progress ((sinceAbort evs).count .dispatch)

theorem history_init (task : TaskInfo) : History [] (init task) := ⟨by simp [init], by simp [init], .running rfl⟩

theorem History.step {evs : List StopEv} (hs : History evs s) (h : Stopping.step statmachFunc s ev = some t) :
    History (evs ++ [ev]) t := by
  have hprogress := hs.progress.step h
  constructor
  case begun =>
    rw [List.mem_append, List.mem_singleton, hs.begun]
    by_cases hidle : s.stopper = .idle
    · have hstep := step_idle hidle h
      by_cases he : ev = .abort
      · rw [if_pos he] at hstep
        simp [he, hstep.1]
      · rw [if_neg he] at hstep
        simp [hidle, hstep, Ne.symm he]
    · simp [hidle, begun_step hidle h]
  case stopped =>
    rw [List.mem_append, List.mem_singleton, hs.stopped, stopped_step h]
    exact or_congr_right eq_comm
  case progress =>
    rw [sinceAbort_snoc]
    by_cases hidle : s.stopper = .idle
    · rw [if_pos hidle] at hprogress
      rw [if_neg (by simp [hs.begun, hidle])]
      by_cases he : ev = .abort
      · simpa [he] using hprogress
      · simpa [he] using hprogress
    · rw [if_neg hidle] at hprogress
      rw [if_pos (hs.begun.2 hidle), List.count_append, List.count_singleton]
      simpa [called] using hprogress

end Stopping

/-! ## Stops -/

/-- From the abort on the state is `TASK_ABORT` until the thread has left its loop, at
most one state function is called, the thread has left its loop when `TASK_QUIT` is
written, and the state stays `TASK_QUIT`. -/
theorem abort_wins (statmachFunc : UInt32 → Bool) (task : TaskInfo) (evs : List StopEv) (s : Stopping)
    (hrun : exec (Stopping.step statmachFunc) (Stopping.init task) evs = some s) :
    (.abort ∈ evs → s.worker ≠ .left → isTaskAbort s.task = true) ∧ (sinceAbort evs).count .dispatch ≤ 1 ∧
      (.quit ∈ evs → s.worker = .left ∧ s.task.flags &&& taskMask = taskQuit) := by
  have hs : Stopping.History evs s :=
    history_of_exec (fun _ _ _ _ h hstep => h.step hstep) (Stopping.history_init task) hrun
  have hprogress := hs.progress
  rw [hs.begun, hs.stopped]
  generalize (sinceAbort evs).count .dispatch = n at hprogress
  cases hprogress with
  | running hidle => simp [hidle]
  | aborted hjoin habort hn => simp [hjoin, habort, Nat.le_of_add_right_le hn]
  | joined hjoined habort hleft hn => simp [hjoined, habort, hn]
  | stopped hstopped hquit hleft hn => simp [hleft, hquit, hn, show taskQuit &&& taskMask = taskQuit by decide]

/-- The thread has passed the test when the abort comes, and its state function finds
that the task does not run. -/
theorem abort_wins_late : ∃ s : Stopping,
    exec (Stopping.step fun _ => true) (Stopping.init ⟨taskIdle, false⟩)
        [.begin, .test, .abort, .select, .dispatch, .isRunning, .chgstat taskPrep, .ret, .test, .join, .quit] = some s ∧
      s.worker = .left ∧ s.task.flags &&& taskMask = taskQuit := by
  obtain ⟨s, hrun⟩ := Option.isSome_iff_exists.1 (by decide +kernel : (exec (Stopping.step fun _ => true)
    (Stopping.init ⟨taskIdle, false⟩) [.begin, .test, .abort, .select, .dispatch, .isRunning, .chgstat taskPrep, .ret,
      .test, .join, .quit]).isSome)
  exact ⟨s, hrun, (abort_wins _ _ _ s hrun).2.2 (by decide)⟩

end CmdAgent

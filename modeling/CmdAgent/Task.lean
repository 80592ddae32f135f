import Mathlib.Tactic.Common
/-!
# `task.c`: the state of a task and its condition variable

Each section under `task->mutex` or `STATMACH_WLOCK` is one step. The threads that
wait on `task->cond` are kept with the threads.
-/

namespace CmdAgent

/-! ## Flags -/

/-- `TASK_IDLE`: the thread has not started. -/
def taskIdle : UInt32 := 0x0
/-- `TASK_PREP`: the process gets ready. -/
def taskPrep : UInt32 := 0x1
/-- `TASK_RUNNING`: the process does its work. -/
def taskRunning : UInt32 := 0x2
/-- `TASK_ABORT`: the thread is to leave its loop. -/
def taskAbort : UInt32 := 0x3
/-- `TASK_QUIT`: the one state that can follow an abort. -/
def taskQuit : UInt32 := 0x4
/-- `TASK_MASK`: the bits that hold the state. -/
def taskMask : UInt32 := 0xf

/-- `struct task_info`: the state, and that a wakeup has come before its wait. -/
structure TaskInfo where
  flags : UInt32
  wakeupEarly : Bool
  deriving DecidableEq

/-- `IS_TASK_ABORT` -/
def isTaskAbort (task : TaskInfo) : Bool := task.flags &&& taskMask == taskAbort

/-- `IS_TASK_RUNNING` -/
def isTaskRunning (task : TaskInfo) : Bool := task.flags &&& taskMask == taskRunning

/-! ## Operations -/

/-- `task_changestate`: an abort is not undone. -/
def taskChangestate (task : TaskInfo) (newstate : UInt32) : TaskInfo :=
  if !isTaskAbort task then { task with flags := newstate }
  else if newstate = taskQuit then { task with flags := taskQuit }
  else task

/-- Once aborted, a task can only quit. -/
theorem changestate_abort {task : TaskInfo} (h : isTaskAbort task = true) {newstate : UInt32} (hq : newstate ≠ taskQuit) :
    taskChangestate task newstate = task := by simp [taskChangestate, h, hq]

theorem isTaskAbort_changestate (task : TaskInfo) : isTaskAbort (taskChangestate task taskAbort) = true := by
  unfold taskChangestate
  cases h : isTaskAbort task with
  | true => simp [h, show taskAbort ≠ taskQuit by decide]
  | false => simp [isTaskAbort, show taskAbort &&& taskMask = taskAbort by decide]

theorem flags_quit (task : TaskInfo) : (taskChangestate task taskQuit).flags = taskQuit := by
  unfold taskChangestate
  cases isTaskAbort task <;> simp

/-- `task_wakeup` but for the broadcast. -/
def taskWakeup (task : TaskInfo) : TaskInfo := { task with wakeupEarly := true }

/-- `task_wakeupclear`: a wakeup that has come is forgotten. -/
def taskWakeupclear (task : TaskInfo) : TaskInfo := { task with wakeupEarly := false }

end CmdAgent

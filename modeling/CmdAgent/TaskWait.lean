import CmdAgent.Cmdset
import CmdAgent.Task
import CmdAgent.Timeout
import CmdAgent.StreamLib.Condvar
/-!
# Waiting on the condition variable of a task

`task_wait` and `TASK_WAIT_COND` block on `task->cond` for a second at a time. Any number
of threads may do so while others call `task_wakeup`, `task_wakeupclear` and
`task_changestate`. Here is what a wake-up reaches, and how long a wait can last.
-/
open StreamLib.Runs StreamLib.Condvar

namespace CmdAgent

/-- What `clock_gettime` reads. -/
structure ClockTime where
  ts : Timespec
  normal : ts.Normal
  deriving DecidableEq

/-- `ts.tv_sec ++` -/
def ClockTime.next (t : ClockTime) : ClockTime := ⟨{ t.ts with tvSec := t.ts.tvSec + 1 }, t.normal⟩

/-- Where a thread waits. -/
inductive TaskWaitFn
  /-- `task_wait` -/
  | taskWait
  /-- The `TASK_WAIT_COND` of a command that has read `ts_start`. -/
  | waitCond (tsStart : ClockTime)

/-- The test of the loop, but for `retval`. -/
def TaskWaitFn.again (fn : TaskWaitFn) (now : ClockTime) (task : TaskInfo) : Bool :=
  match fn with
  | .taskWait => !isTaskAbort task && !task.wakeupEarly
  | .waitCond tsStart => !isTaskAbort task && l0001SecondElapsed now.ts tsStart.ts ≤ l0006NetcmdCommandTimeout

/-- What other threads do to the task. -/
inductive TaskAct
  | wakeup
  | wakeupclear
  | chgstat (newstate : UInt32)
  deriving DecidableEq

/-- A task whose condition variable the threads wait on. -/
def taskMonitor {ι : Type} (fn : ι → TaskWaitFn) : Monitor TaskInfo ι TaskAct ClockTime where
  ns t := t.ts.ns
  period := 1000000000
  next := ClockTime.next
  ns_next t := by
    change (t.ts.tvSec + 1) * 1000000000 + t.ts.tvNsec = t.ts.tvSec * 1000000000 + t.ts.tvNsec + 1000000000
    omega
  ready i now :=
    match fn i with
    | .taskWait => true
    | .waitCond tsStart => tsStart.ts.ns ≤ now.ts.ns
  ready_mono i t u hle h := by
    split at h
    · rfl
    · exact decide_eq_true (Int.le_trans (of_decide_eq_true h) hle)
  again i := (fn i).again
  leave i task :=
    match fn i with
    | .taskWait => taskWakeupclear task
    | .waitCond _ => task
  act
    | .wakeup, task => taskWakeup task
    | .wakeupclear, task => taskWakeupclear task
    | .chgstat newstate, task => taskChangestate task newstate
  broadcasts
    | .wakeup => true
    | _ => false

/-- Nobody waits yet. -/
def noWaiters {ι : Type} (task : TaskInfo) (now : ClockTime) : State TaskInfo ι ClockTime :=
  ⟨task, now, fun _ => .out, []⟩

section
variable {ι : Type} [DecidableEq ι] {fn : ι → TaskWaitFn} {s t : State TaskInfo ι ClockTime}
  {ev : WaitEv ι TaskAct ClockTime} {evs : List (WaitEv ι TaskAct ClockTime)} {i : ι}

/-! ## Wake-ups -/

/-- While `wakeup_early` is set, nobody is blocked in `task_wait`. -/
def EarlyUnblocked (fn : ι → TaskWaitFn) (s : State TaskInfo ι ClockTime) : Prop :=
  ∀ i ts, fn i = .taskWait → s.phase i = .blocked ts → s.shared.wakeupEarly = false

theorem taskChangestate_early (task : TaskInfo) (newstate : UInt32) :
    (taskChangestate task newstate).wakeupEarly = task.wakeupEarly := by
  unfold taskChangestate
  split
  · rfl
  split
  · rfl
  · rfl

theorem again_taskWait {now : ClockTime} {task : TaskInfo} (h : TaskWaitFn.taskWait.again now task = true) :
    task.wakeupEarly = false := by
  have hand := Bool.and_eq_true_iff.1 h
  simpa using hand.2

omit [DecidableEq ι] in
/-- Who leaves clears the flag or leaves it as it is. -/
theorem leave_early (fn : ι → TaskWaitFn) (i : ι) {task : TaskInfo} (h : task.wakeupEarly = false) :
    ((taskMonitor fn).leave i task).wakeupEarly = false := by
  dsimp only [taskMonitor]
  split
  · rfl
  · exact h

theorem EarlyUnblocked.setPhase {phase : WaitPhase ClockTime} (h : EarlyUnblocked fn s)
    (hphase : ∀ ts, fn i = .taskWait → phase = .blocked ts → s.shared.wakeupEarly = false) :
    EarlyUnblocked fn (s.setPhase i phase) := by
  intro j ts hfn hj
  by_cases he : j = i
  · subst he
    rw [setPhase_same] at hj
    exact hphase ts hfn hj
  · rw [setPhase_of_ne s phase he] at hj
    exact h j ts hfn hj

theorem EarlyUnblocked.leaves (h : EarlyUnblocked fn s) (i : ι) : EarlyUnblocked fn (leaves (taskMonitor fn) s i) := by
  intro j ts hfn hj
  by_cases he : j = i
  · subst he
    rw [leaves_same] at hj
    cases hj
  · rw [leaves_of_ne s he] at hj
    exact leave_early fn i (h j ts hfn hj)

theorem EarlyUnblocked.step (h : EarlyUnblocked fn s) (hst : step (taskMonitor fn) s ev = some t) :
    EarlyUnblocked fn t := by
  cases steps_of hst with
  | block i _ _ hagain =>
    refine h.setPhase fun _ hfn _ => ?_
    change (fn i).again s.now s.shared = true at hagain
    rw [hfn] at hagain
    exact again_taskWait hagain
  | through i => exact h.leaves i
  | timeout => exact h.setPhase (by rintro _ _ ⟨⟩)
  | spurious => exact h.setPhase (by rintro _ _ ⟨⟩)
  | again i _ _ hagain =>
    refine h.setPhase fun _ hfn _ => ?_
    change (fn i).again s.now s.shared = true at hagain
    rw [hfn] at hagain
    exact again_taskWait hagain
  | leave i => exact h.leaves i
  | act e =>
    intro j ts hfn hj
    cases e with
    | wakeup =>
      change (s.phase j).signal = _ at hj
      cases hp : s.phase j <;> rw [hp] at hj <;> cases hj
    | wakeupclear => rfl
    | chgstat newstate => exact (taskChangestate_early _ _).trans (h j ts hfn hj)
  | pass => exact h

/-- No wake-up is lost. -/
structure WakeupsReach (fn : ι → TaskWaitFn) (s : State TaskInfo ι ClockTime) : Prop where
  /-- Nobody is blocked in `task_wait` while `wakeup_early` is set. -/
  early : EarlyUnblocked fn s
  /-- A `task_wakeup` lets everyone out who is blocked, whatever comes before it runs. -/
  woken : ∀ i ts t evs u, s.phase i = .blocked ts → step (taskMonitor fn) s (.act .wakeup) = some t →
    exec (step (taskMonitor fn)) t evs = some u → .resume i ∉ evs →
      ∃ v, step (taskMonitor fn) u (.resume i) = some v ∧ v.phase i = .out

/-- With any number of threads in `task_wait` and `TASK_WAIT_COND`, and any order of what
is done to the task. -/
theorem task_wakeup_delivered (fn : ι → TaskWaitFn) (task : TaskInfo) (now : ClockTime)
    (evs : List (WaitEv ι TaskAct ClockTime)) (s : State TaskInfo ι ClockTime)
    (hrun : exec (step (taskMonitor fn)) (noWaiters task now) evs = some s) : WakeupsReach fn s := by
  constructor
  · have hnone : EarlyUnblocked fn (noWaiters task now) := by rintro _ _ _ ⟨⟩
    exact exec_inv_all (fun _ _ _ hs hst => EarlyUnblocked.step hs hst) hnone hrun
  · intro i ts t evs u hblocked hwakeup hrun hnot
    have hsignalled := signalled_of_broadcast hwakeup rfl hblocked
    exact ⟨_, resume_signalled (signalled_run hrun hsignalled hnot), leaves_same u i⟩

/-- One waits, the task is woken, and another comes. -/
def wokenAndAnother : List (WaitEv Bool TaskAct ClockTime) :=
  [.enter true, .act .wakeup, .act .wakeupclear, .enter false]

theorem task_wakeup_delivered_two : ∃ s : State TaskInfo Bool ClockTime,
    exec (step (taskMonitor fun _ => .taskWait)) (noWaiters ⟨taskIdle, false⟩ ⟨⟨5, 0⟩, by decide⟩) wokenAndAnother =
        some s ∧ WakeupsReach (fun _ => .taskWait) s := by
  obtain ⟨s, hrun⟩ : ∃ s : State TaskInfo Bool ClockTime, exec (step (taskMonitor fun _ => .taskWait))
      (noWaiters ⟨taskIdle, false⟩ ⟨⟨5, 0⟩, by decide⟩) wokenAndAnother = some s := ⟨_, rfl⟩
  exact ⟨s, hrun, task_wakeup_delivered _ _ _ _ s hrun⟩

/-! ## How long a wait lasts -/

/-- The seconds since `ts_start`, up to 136 years. -/
theorem lt_of_secondElapsed_le {now before : ClockTime} (hle : before.ts.ns ≤ now.ts.ns)
    (hfar : now.ts.ns - before.ts.ns < 4294967295 * 1000000000) {n : Nat}
    (h : l0001SecondElapsed now.ts before.ts ≤ n) : now.ts.ns - before.ts.ns < (n + 1) * 1000000000 := by
  obtain ⟨hn0, hn1⟩ := now.normal
  obtain ⟨hb0, hb1⟩ := before.normal
  have husec : ∃ usec : Nat, l0001SecondElapsed now.ts before.ts = usec / 1000000 % 4294967296 ∧
      (usec : Int) = (now.ts.tvSec - before.ts.tvSec) * 1000000 + now.ts.tvNsec / 1000 - before.ts.tvNsec / 1000 := by
    unfold Timespec.ns at *
    refine ⟨_, rfl, ?_⟩
    simp only [Int.tdiv_eq_ediv_of_nonneg hn0, Int.tdiv_eq_ediv_of_nonneg hb0]
    split
    · rw [cast_u64, cast_u64]
      omega
    · rw [cast_u64, cast_u64]
      omega
  obtain ⟨usec, helapsed, husec⟩ := husec
  rw [helapsed] at h
  unfold Timespec.ns at *
  omega

/-- When the wait of `i` is over. -/
structure Ends (fn : ι → TaskWaitFn) (s : State TaskInfo ι ClockTime) (i : ι) : Prop where
  /-- It is never blocked for more than a second. -/
  deadline : ∀ ts, s.phase i = .blocked ts → ts.ts.ns ≤ s.now.ts.ns + 1000000000
  /-- Once the task is aborted, it leaves when it runs. -/
  aborted : isTaskAbort s.shared = true → ∀ t, step (taskMonitor fn) s (.resume i) = some t → t.phase i = .out
  /-- A command is not blocked 12 seconds after `ts_start`. -/
  limit : ∀ tsStart ts, fn i = .waitCond tsStart → s.now.ts.ns - tsStart.ts.ns < 4294967295 * 1000000000 →
    s.phase i = .blocked ts → ts.ts.ns < tsStart.ts.ns + 12 * 1000000000
  /-- It leaves when it runs 11 seconds after `ts_start` or later. -/
  expired : ∀ tsStart, fn i = .waitCond tsStart → s.now.ts.ns - tsStart.ts.ns < 4294967295 * 1000000000 →
    tsStart.ts.ns + 11 * 1000000000 ≤ s.now.ts.ns → ∀ t, step (taskMonitor fn) s (.resume i) = some t → t.phase i = .out

omit [DecidableEq ι] in
theorem tested_noWaiters (fn : ι → TaskWaitFn) (task : TaskInfo) (now : ClockTime) :
    Tested (taskMonitor fn) (noWaiters task now) := by
  constructor
  · rintro _ _ ⟨⟩
  · rintro _ _ ⟨⟩
  · intro i hi
    exact absurd rfl hi

/-- The condition of a command that is tested late enough does not hold. -/
theorem again_waitCond {tsStart now : ClockTime} {task : TaskInfo}
    (h : (TaskWaitFn.waitCond tsStart).again now task = true) (hle : tsStart.ts.ns ≤ now.ts.ns)
    (hfar : now.ts.ns - tsStart.ts.ns < 4294967295 * 1000000000) :
    now.ts.ns < tsStart.ts.ns + 11 * 1000000000 := by
  have hand := Bool.and_eq_true_iff.1 h
  have hlt := lt_of_secondElapsed_le hle hfar (of_decide_eq_true hand.2)
  unfold l0006NetcmdCommandTimeout at hlt
  omega

theorem again_of_aborted (fn : TaskWaitFn) {now : ClockTime} {task : TaskInfo} (h : isTaskAbort task = true) :
    fn.again now task = false := by
  cases fn with
  | taskWait => simp [TaskWaitFn.again, h]
  | waitCond tsStart => simp [TaskWaitFn.again, h]

/-- In every state of every run, whoever waits is to leave in a moment. -/
theorem task_waits_end (fn : ι → TaskWaitFn) (task : TaskInfo) (now : ClockTime)
    (evs : List (WaitEv ι TaskAct ClockTime)) (s : State TaskInfo ι ClockTime)
    (hrun : exec (step (taskMonitor fn)) (noWaiters task now) evs = some s) (i : ι) : Ends fn s i := by
  have htested := (tested_noWaiters fn task now).run hrun
  have hready : ∀ tsStart, fn i = .waitCond tsStart → ∀ t : ClockTime, (taskMonitor fn).ready i t = true →
      tsStart.ts.ns ≤ t.ts.ns := by
    intro tsStart hfn t hr
    dsimp only [taskMonitor] at hr
    rw [hfn] at hr
    exact of_decide_eq_true hr
  constructor
  · intro ts hblocked
    obtain ⟨t, x, -, -, hle, hts⟩ := htested.blocked i ts hblocked
    exact Int.le_trans hts (Int.add_le_add_right hle _)
  · intro habort t hst
    exact resume_of_not_again (again_of_aborted (fn i) habort) hst
  · intro tsStart ts hfn hfar hblocked
    obtain ⟨t, x, hr, hagain, hle, hts⟩ := htested.blocked i ts hblocked
    change (fn i).again t x = true at hagain
    rw [hfn] at hagain
    change t.ts.ns ≤ s.now.ts.ns at hle
    have hlt := again_waitCond hagain (hready tsStart hfn t hr) (by omega)
    change ts.ts.ns ≤ t.ts.ns + 1000000000 at hts
    omega
  · intro tsStart hfn hfar hlate t hst
    refine resume_of_not_again (Bool.eq_false_iff.2 fun hagain => ?_) hst
    change (fn i).again s.now s.shared = true at hagain
    rw [hfn] at hagain
    have hlt := again_waitCond hagain (by omega) hfar
    omega

/-- A command that waits since second 5. -/
theorem task_waits_end_command : ∃ s : State TaskInfo Unit ClockTime,
    exec (step (taskMonitor fun _ => .waitCond ⟨⟨5, 0⟩, by decide⟩)) (noWaiters ⟨taskIdle, false⟩ ⟨⟨5, 0⟩, by decide⟩)
        [.enter (), .pass ⟨⟨6, 0⟩, by decide⟩, .timeout (), .resume ()] = some s ∧
      Ends (fun _ => .waitCond ⟨⟨5, 0⟩, by decide⟩) s () := by
  obtain ⟨s, hrun⟩ : ∃ s : State TaskInfo Unit ClockTime,
      exec (step (taskMonitor fun _ => .waitCond ⟨⟨5, 0⟩, by decide⟩))
        (noWaiters ⟨taskIdle, false⟩ ⟨⟨5, 0⟩, by decide⟩)
        [.enter (), .pass ⟨⟨6, 0⟩, by decide⟩, .timeout (), .resume ()] = some s := ⟨_, rfl⟩
  exact ⟨s, hrun, task_waits_end _ _ _ _ s hrun ()⟩

end

/-! ## One waiter -/

/-- A wait that has not been left because of an abort. -/
def notAborted (left : Unit × TaskInfo) : Bool := !isTaskAbort left.2

/-- What lets a waiter out. -/
def letsOut : WaitEv Unit TaskAct ClockTime → Bool
  | .act .wakeup => true
  | .spurious _ => true
  | _ => false

/-- A wake-up is still to be noticed. -/
def pendingWakeup (s : State TaskInfo Unit ClockTime) : Bool :=
  s.shared.wakeupEarly || match s.phase () with
    | .woken _ signalled => signalled
    | _ => false

/-- The waits that ended and the one that is bound to end. -/
def endedWaits (s : State TaskInfo Unit ClockTime) : Nat := s.left.countP notAborted + (pendingWakeup s).toNat

section
variable {s t : State TaskInfo Unit ClockTime} {ev : WaitEv Unit TaskAct ClockTime}
  {evs : List (WaitEv Unit TaskAct ClockTime)}

/-- Who leaves has been aborted, or takes the wake-up with it. -/
theorem ended_leaves (h : isTaskAbort s.shared = true ∨ pendingWakeup s = true) :
    endedWaits (leaves (taskMonitor fun _ => .taskWait) s ()) ≤ endedWaits s := by
  have hcount : endedWaits (leaves (taskMonitor fun _ => .taskWait) s ()) =
      s.left.countP notAborted + (notAborted ((), s.shared)).toNat := by
    have hpending : pendingWakeup (leaves (taskMonitor fun _ => .taskWait) s ()) = false := by
      rw [pendingWakeup, leaves_same]
      rfl
    rw [endedWaits, hpending, leaves, List.countP_append, List.countP_singleton]
    cases notAborted ((), s.shared) <;> rfl
  rw [hcount, endedWaits]
  rcases h with habort | hpending
  · simp [notAborted, habort]
  · rw [hpending]
    exact Nat.add_le_add_left (Bool.toNat_le _) _

theorem ended_le (hleft : t.left = s.left) (hpending : pendingWakeup t = true → pendingWakeup s = true) :
    endedWaits t ≤ endedWaits s := by
  rw [endedWaits, endedWaits, hleft]
  refine Nat.add_le_add_left ?_ _
  cases hp : pendingWakeup t with
  | false => exact Nat.zero_le _
  | true => rw [hpending hp]

theorem ended_succ (hleft : t.left = s.left) : endedWaits t ≤ endedWaits s + 1 := by
  have ht := Bool.toNat_le (pendingWakeup t)
  rw [endedWaits, endedWaits, hleft]
  omega

/-- What the waiter finds when it does not block. -/
theorem through_taskWait (now : ClockTime) {task : TaskInfo} (h : TaskWaitFn.taskWait.again now task = false) :
    isTaskAbort task = true ∨ task.wakeupEarly = true := by
  rw [TaskWaitFn.again, Bool.and_eq_false_iff] at h
  simpa using h

theorem ended_step (hst : step (taskMonitor fun _ => .taskWait) s ev = some t) :
    endedWaits t ≤ endedWaits s + (letsOut ev).toNat := by
  cases steps_of hst with
  | block =>
    refine ended_le rfl fun hp => ?_
    rw [pendingWakeup, setPhase_same, Bool.or_false] at hp
    rw [pendingWakeup, Bool.or_eq_true]
    exact .inl hp
  | through _ _ _ hagain =>
    refine ended_leaves ((through_taskWait s.now hagain).imp_right fun hearly => ?_)
    rw [pendingWakeup, Bool.or_eq_true]
    exact .inl hearly
  | timeout =>
    refine ended_le rfl fun hp => ?_
    rw [pendingWakeup, setPhase_same, Bool.or_false] at hp
    rw [pendingWakeup, Bool.or_eq_true]
    exact .inl hp
  | spurious => exact ended_succ rfl
  | again =>
    refine ended_le rfl fun hp => ?_
    rw [pendingWakeup, setPhase_same, Bool.or_false] at hp
    rw [pendingWakeup, Bool.or_eq_true]
    exact .inl hp
  | leave _ _ signalled hwoken hor =>
    rcases hor with hsig | hagain
    · refine ended_leaves (.inr ?_)
      rw [pendingWakeup, Bool.or_eq_true, show s.phase () = .woken _ signalled from hwoken]
      exact .inr hsig
    · refine ended_leaves ((through_taskWait s.now hagain).imp_right fun hearly => ?_)
      rw [pendingWakeup, Bool.or_eq_true]
      exact .inl hearly
  | act e =>
    cases e with
    | wakeup => exact ended_succ rfl
    | wakeupclear =>
      refine ended_le rfl fun hp => ?_
      rw [pendingWakeup, Bool.or_eq_true] at hp ⊢
      exact .inr (hp.resolve_left Bool.false_ne_true)
    | chgstat newstate =>
      refine ended_le rfl fun hp => ?_
      rw [pendingWakeup, Bool.or_eq_true] at hp ⊢
      exact hp.imp_left fun hearly => (taskChangestate_early s.shared newstate).symm.trans hearly
  | pass => exact ended_le rfl id

/-- `task_wait` returns at most once for each wake-up: wake-ups that come while one is
still to be noticed count as one, and a `task_wakeupclear` may take one away. -/
theorem task_wait_balance (task : TaskInfo) (now : ClockTime) (evs : List (WaitEv Unit TaskAct ClockTime))
    (s : State TaskInfo Unit ClockTime)
    (hrun : exec (step (taskMonitor fun _ => .taskWait)) (noWaiters task now) evs = some s) :
    s.left.countP notAborted ≤ evs.countP letsOut + task.wakeupEarly.toNat := by
  have hended : ∀ {evs : List (WaitEv Unit TaskAct ClockTime)} {s t : State TaskInfo Unit ClockTime},
      exec (step (taskMonitor fun _ => .taskWait)) s evs = some t → endedWaits t ≤ endedWaits s + evs.countP letsOut := by
    intro evs
    induction evs with
    | nil =>
      intro s t hrun
      cases hrun
      exact Nat.le_refl _
    | cons ev evs ih =>
      intro s t hrun
      obtain ⟨u, hst, hrun⟩ := exec_cons_eq_some.1 hrun
      have hu := ended_step hst
      have ht := ih hrun
      rw [List.countP_cons]
      have hcost : (letsOut ev).toNat = if letsOut ev = true then 1 else 0 := by cases letsOut ev <;> rfl
      omega
  have hstart : endedWaits (noWaiters task now) = task.wakeupEarly.toNat := by
    simp [endedWaits, pendingWakeup, noWaiters]
  have hrun := hended hrun
  rw [hstart] at hrun
  have hle : s.left.countP notAborted ≤ endedWaits s := Nat.le_add_right _ _
  omega

/-- Woken twice while it waits, it returns once. -/
theorem task_wait_balance_two : ∃ s : State TaskInfo Unit ClockTime,
    exec (step (taskMonitor fun _ => .taskWait)) (noWaiters ⟨taskIdle, false⟩ ⟨⟨5, 0⟩, by decide⟩)
        [.enter (), .act .wakeup, .act .wakeup, .resume (), .enter ()] = some s ∧ s.left.countP notAborted ≤ 2 := by
  obtain ⟨s, hrun⟩ : ∃ s : State TaskInfo Unit ClockTime,
      exec (step (taskMonitor fun _ => .taskWait)) (noWaiters ⟨taskIdle, false⟩ ⟨⟨5, 0⟩, by decide⟩)
        [.enter (), .act .wakeup, .act .wakeup, .resume (), .enter ()] = some s := ⟨_, rfl⟩
  exact ⟨s, hrun, task_wait_balance _ _ _ s hrun⟩

end
end CmdAgent

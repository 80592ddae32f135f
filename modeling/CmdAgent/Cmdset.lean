import CmdAgent.Command
import CmdAgent.Task
/-!
# `cmdset.c`: commands that wait for their acknowledgement

Every function formats a command, registers it with its own `retval` as `outret`,
waits in `TASK_WAIT_COND` and looks at `retval`. `Cmdset` is what one function puts
into this frame. `Host` has the calls of these functions in any number of threads,
the tasks they wait on and the event loop; one step is one section under a lock or
one statement on `retval`.
-/
open StreamLib.Mem

namespace CmdAgent

/-! ## The functions -/

/-- Conversion to `uint8_t`. -/
def u8 (z : Int) : UInt8 := UInt8.ofNat (z % 2 ^ 8).toNat

/-- What a function does when it has looked at `retval`. -/
inductive After where
  /-- `return v`, with `pkt` stored for the caller. -/
  | value (v : Int) (pkt : Option (List UInt8))
  /-- `retval` is set or left, a beep may follow, then `return retval`. -/
  | retval (store : Option Int) (beep : Option (Int × Int))

structure Cmdset where
  /-- The arguments pass the checks in front. -/
  valid : Bool
  cmd : UInt8
  func : UInt8 × UInt8
  /-- What follows the header. -/
  body : List UInt8
  actioncb : Actioncb
  init : Int
  /-- For a command that is not sent. -/
  unsent : After
  /-- From the header sent, `retval` and what the callback has stored. -/
  after : List UInt8 → Int → Option (List UInt8) → After

/-- The functions that return -1 or 0. -/
def afterValue (_netcmd : List UInt8) (retval : Int) (_out : Option (List UInt8)) : After :=
  if retval ≠ l0006NetcomAckSuccess then .value (-1) none else .value 0 none

/-- The functions that beep and return `retval`. -/
def afterBeep (msec repeats : Int) (_netcmd : List UInt8) (retval : Int) (_out : Option (List UInt8)) : After :=
  if retval ≠ l0006NetcomAckSuccess then .retval (some (-1)) none else .retval none (some (msec, repeats))

/-- The body of a configuration command in the stack memory `c`. -/
def confBody (c : Nat → UInt8) (flag sz : UInt8) (config : List UInt8) : List UInt8 :=
  slice (store (store c 0 [flag, sz]) 2 config) 0 56

/-- `config` has `sz` bytes. -/
def l0006CmdsetSaveSensorconfig (chnlIndex nodeIndex : Int) (config : List UInt8) (c : Nat → UInt8) : Cmdset where
  valid := true
  cmd := l0006NetcmdSaveconf
  func := (u8 chnlIndex, u8 nodeIndex)
  body := confBody c l0006NetcmdSaveconfFlagWrite (UInt8.ofNat config.length) config
  actioncb := .exGeneral 0
  init := 0
  unsent := .value (-1) none
  after := afterValue

/-- `valid` is whether `config` and `rdsz` are not `NULL` and there is memory. -/
def l0006CmdsetLoadSensorconfig (chnlIndex nodeIndex : Int) (valid : Bool) (rdsz : UInt8) (c : Nat → UInt8) :
    Cmdset where
  valid := valid
  cmd := l0006NetcmdSaveconf
  func := (u8 chnlIndex, u8 nodeIndex)
  body := confBody c l0006NetcmdSaveconfFlagRead rdsz []
  actioncb := .exGeneral 64
  init := 0
  unsent := .value (-1) none
  after := afterValue

/-- It returns nothing. -/
def l0006CmdsetBeep (msec repeats : Int) : Cmdset where
  valid := true
  cmd := l0006NetcmdBuzz
  func := (u8 msec, u8 repeats)
  body := []
  actioncb := .general
  init := 0
  unsent := .value 0 none
  after := fun _ _ _ => .value 0 none

def l0006NetcmdWindowsizeDefault : UInt8 := 4

def l0006CmdsetSetwindowsize (chnlBmp : UInt8) : Cmdset where
  valid := true
  cmd := l0006NetcmdWinsize
  func := (l0006NetcmdWindowsizeDefault, chnlBmp)
  body := []
  actioncb := .general
  init := 0
  unsent := .value (-1) none
  after := afterValue

def l0006NetcmdDevstatFunc1Query : UInt8 := 0
def l0006NetcmdDevstatFunc1Set : UInt8 := 1
def l0006NetcmdDevstatFunc2Genmode : UInt8 := 0
def l0006NetcmdDevstatFunc2Addrmode : UInt8 := 1

def l0006CmdsetSetaddressmode : Cmdset where
  valid := true
  cmd := l0006NetcmdDevstat
  func := (l0006NetcmdDevstatFunc1Set, l0006NetcmdDevstatFunc2Addrmode)
  body := []
  actioncb := .general
  init := 0
  unsent := .value (-1) none
  after := afterBeep 50 5

def l0006CmdsetSetnormmode : Cmdset where
  valid := true
  cmd := l0006NetcmdDevstat
  func := (l0006NetcmdDevstatFunc1Set, l0006NetcmdDevstatFunc2Genmode)
  body := []
  actioncb := .general
  init := 0
  unsent := .value (-1) none
  after := afterBeep 255 5

/-- `pkt` is whether the caller wants the packet. The result is 0 whatever `retval` is. -/
def l0006CmdsetQuerymode (pkt : Bool) : Cmdset where
  valid := true
  cmd := l0006NetcmdDevstat
  func := (l0006NetcmdDevstatFunc1Query, 0)
  body := []
  actioncb := .general
  init := 0
  unsent := .value (-1) none
  after := fun netcmd retval _ =>
    if retval ≠ l0006NetcomAckSuccess then .value 0 none else .value 0 (if pkt then some netcmd else none)

def l0006NetcmdRecoverCboardAddr : UInt8 := 0xFE

def l0006CmdsetRecovercboard (chnlIndex : Nat) : Cmdset where
  valid := true
  cmd := l0006NetcmdRecover
  func := (UInt8.ofNat (1 <<< chnlIndex), l0006NetcmdRecoverCboardAddr)
  body := []
  actioncb := .general
  init := 0
  unsent := .value (-1) none
  after := afterBeep 255 10

def l0006NetcmdVersionHboard : UInt8 := 0
def l0006NetcmdVersionCboard : UInt8 := 1

/-- `retval` starts with -1 here. -/
def l0006CmdsetHardwareversion (chnlIndex nodeIndex : Int) : Cmdset where
  valid := chnlIndex = -1 ∨ ¬ (chnlIndex ≥ 8 ∨ chnlIndex < 0 ∨ nodeIndex ≥ 16 ∨ nodeIndex < 0)
  cmd := l0006NetcmdVersion
  func :=
    if chnlIndex = -1 then (l0006NetcmdVersionHboard, 0)
    else (l0006NetcmdVersionCboard, u8 chnlIndex <<< 4 ||| u8 nodeIndex)
  body := []
  actioncb := .general2
  init := -1
  unsent := .retval none none
  after := fun _ retval out =>
    if retval ≠ l0006NetcomAckSuccess then .retval (some (-1)) none
    else match out with
      | some pkt => .retval (some (pkt.getD 4 0).toNat) none
      | none => .retval none none

/-- A function with its arguments. -/
inductive CmdsetFn where
  | saveSensorconfig (chnlIndex nodeIndex : Int) (config : List UInt8) (c : Nat → UInt8)
  | loadSensorconfig (chnlIndex nodeIndex : Int) (valid : Bool) (rdsz : UInt8) (c : Nat → UInt8)
  | beep (msec repeats : Int)
  | setwindowsize (chnlBmp : UInt8)
  | setaddressmode
  | setnormmode
  | querymode (pkt : Bool)
  | recovercboard (chnlIndex : Nat)
  | hardwareversion (chnlIndex nodeIndex : Int)

def CmdsetFn.cmdset : CmdsetFn → Cmdset
  | .saveSensorconfig chnlIndex nodeIndex config c => l0006CmdsetSaveSensorconfig chnlIndex nodeIndex config c
  | .loadSensorconfig chnlIndex nodeIndex valid rdsz c =>
    l0006CmdsetLoadSensorconfig chnlIndex nodeIndex valid rdsz c
  | .beep msec repeats => l0006CmdsetBeep msec repeats
  | .setwindowsize chnlBmp => l0006CmdsetSetwindowsize chnlBmp
  | .setaddressmode => l0006CmdsetSetaddressmode
  | .setnormmode => l0006CmdsetSetnormmode
  | .querymode pkt => l0006CmdsetQuerymode pkt
  | .recovercboard chnlIndex => l0006CmdsetRecovercboard chnlIndex
  | .hardwareversion chnlIndex nodeIndex => l0006CmdsetHardwareversion chnlIndex nodeIndex

/-! ## The system -/

/-- What a call does next. -/
inductive Pc where
  | format
  | wakeupclear
  | write
  /-- Lock the mutex and test the condition of `TASK_WAIT_COND`. -/
  | wait
  /-- In `pthread_cond_timedwait`; `signalled` is whether a broadcast has come. -/
  | waiting (signalled : Bool)
  | check
  | beeping (child : Nat)
  | ret
  | returned (v : Int)
  deriving DecidableEq

/-- A call with its local variables. -/
structure Call where
  fn : CmdsetFn
  waitTask : Nat
  pc : Pc
  seqno : UInt8
  tsStart : Timespec
  retval : Int
  /-- What `out[1]` points to. -/
  out : Option (List UInt8)

/-- A run of the callback of the command of the call `outret`. -/
structure ActionRun where
  outret : Nat
  /-- `none` if `timedout` is set. -/
  packet : Option (List UInt8)
  deriving DecidableEq

structure Host where
  nc : Netcom CmdAction
  task : Nat → TaskInfo
  calls : List Call
  /-- What was added to the output of `bev`. -/
  sent : List (List UInt8)
  runs : List ActionRun
  /-- The calls that have looked at `retval` after their wait. -/
  checked : List Nat

/-- Nothing is sent yet and there is no connection. -/
def Host.init : Host where
  nc := netcomAllocateBuffer
  task := fun _ => ⟨taskIdle, false⟩
  calls := []
  sent := []
  runs := []
  checked := []

inductive HostEv where
  /-- A thread calls a function with the task `wait`. -/
  | call (fn : CmdsetFn) (waitTask : Nat)
  /-- The next step of a call, with the time. `ok` is whether `evbuffer_add` has
  memory, or `pthread_cond_timedwait` returns 0. -/
  | run (id : Nat) (now : Timespec) (ok : Bool)
  /-- `netcom_readcb` looks up the command of a packet. `alloc` is whether there is
  memory for a copy. -/
  | ack (packet : List UInt8) (alloc : Bool)
  /-- `netcom_timeoutcb` looks at the first entry. -/
  | expire (now : Timespec)
  /-- Something else wakes a task. -/
  | wakeup (task : Nat)
  | chgstat (task : Nat) (newstate : UInt32)
  /-- The connection comes up or goes down. -/
  | link (connected : Bool) (bev : Option Nat)

/-! ### The event loop -/

/-- The broadcast of `task_wakeup`. -/
def Call.signal (task : Nat) (call : Call) : Call :=
  match call.pc with
  | .waiting _ => if call.waitTask = task then { call with pc := .waiting true } else call
  | _ => call

def Host.wakeup (host : Host) (task : Nat) : Host :=
  { host with
    task := Function.update host.task task (taskWakeup (host.task task))
    calls := host.calls.map (Call.signal task) }

/-- The call of `actioncb` with the packet, or with `timedout`. -/
def Host.act (host : Host) (action : CmdAction) (packet : Option (List UInt8)) (alloc : Bool) : Host :=
  let acted := action.actioncb.call alloc action.cmd packet
  let host := { host with
    calls := host.calls.modify action.outret fun call =>
      { call with retval := acted.outret, out := acted.out.or call.out }
    runs := host.runs ++ [⟨action.outret, packet⟩] }
  if acted.wakeup then host.wakeup action.wait else host

/-! ### The calls -/

/-- The header of the command of a call. -/
def Call.header (call : Call) : List UInt8 :=
  l0006NetcmdFormat call.fn.cmdset.cmd call.seqno call.fn.cmdset.func.1 call.fn.cmdset.func.2

/-- `call` after the branch `after`; `child` is the call a beep would get. -/
def Call.follow (call : Call) (child : Nat) : After → Call
  | .value v pkt => { call with pc := .returned v, out := pkt.or call.out }
  | .retval store beep =>
    { call with
      retval := store.getD call.retval
      pc := match beep with
        | none => .ret
        | some _ => .beeping child }

def newCall (fn : CmdsetFn) (waitTask : Nat) : Call where
  fn := fn
  waitTask := waitTask
  pc := .format
  seqno := 0
  tsStart := ⟨0, 0⟩
  retval := fn.cmdset.init
  out := none

/-- The call of `l0006_cmdset_beep` in the branch `after`. -/
def beepCalls (waitTask : Nat) : After → List Call
  | .retval _ (some (msec, repeats)) => [newCall (.beep msec repeats) waitTask]
  | _ => []

def l0006NetcmdCommandTimeout : Nat := 10

/-- The condition of `TASK_WAIT_COND` in all the functions. -/
def Host.waitCond (host : Host) (call : Call) (now : Timespec) : Bool :=
  !isTaskAbort (host.task call.waitTask) && l0001SecondElapsed now call.tsStart ≤ l0006NetcmdCommandTimeout

def Host.runCall (host : Host) (id : Nat) (call : Call) (now : Timespec) (ok : Bool) : Option Host :=
  let set (call : Call) : List Call := host.calls.set id call
  match call.pc with
  | .format =>
    -- The number is drawn before the time is taken.
    if call.fn.cmdset.valid then
      let (seqno, nc) := l0006NetcomGetseqno host.nc
      some { host with nc := nc, calls := set { call with seqno := seqno, tsStart := now, pc := .wakeupclear } }
    else some { host with calls := set (call.follow 0 call.fn.cmdset.unsent) }
  | .wakeupclear =>
    some { host with
      task := Function.update host.task call.waitTask (taskWakeupclear (host.task call.waitTask))
      calls := set { call with pc := .write } }
  | .write =>
    -- `outret` points to the `retval` of this call.
    let netcmd := call.header ++ call.fn.cmdset.body
    let action := ⟨⟨call.fn.cmdset.actioncb, call.waitTask, call.fn.cmdset.cmd, id⟩, call.seqno⟩
    let (retval, nc) := l0006NetcmdWrite host.nc netcmd.length action true now ok
    if retval < 0 then some { host with nc := nc, calls := set (call.follow 0 call.fn.cmdset.unsent) }
    else some { host with nc := nc, calls := set { call with pc := .wait }, sent := host.sent ++ [netcmd] }
  | .wait =>
    some { host with
      calls := set { call with pc := if host.waitCond call now then .waiting false else .check } }
  | .waiting signalled =>
    if ok then
      if signalled then some { host with calls := set { call with pc := .check } } else none
    -- Another second has gone by.
    else some { host with calls := set { call with pc := .wait } }
  | .check =>
    let after := call.fn.cmdset.after call.header call.retval call.out
    some { host with
      calls := set (call.follow host.calls.length after) ++ beepCalls call.waitTask after
      checked := host.checked ++ [id] }
  | .beeping child =>
    match host.calls[child]? with
    | some ⟨_, _, .returned _, _, _, _, _⟩ => some { host with calls := set { call with pc := .ret } }
    | _ => none
  | .ret => some { host with calls := set { call with pc := .returned call.retval } }
  | .returned _ => none

/-- `none` where an event cannot happen. -/
def Host.step (host : Host) : HostEv → Option Host
  | .call fn waitTask => some { host with calls := host.calls ++ [newCall fn waitTask] }
  | .run id now ok =>
    match host.calls[id]? with
    | none => none
    | some call => host.runCall id call now ok
  | .ack packet alloc =>
    if CommandFrame packet then
      let nc := netcomLookup host.nc (seqnoOf packet) packet
      match host.nc.used.find? (fun ncwrbuf => ncwrbuf.action.seqno == seqnoOf packet) with
      | none => some { host with nc := nc }
      | some ncwrbuf => some ({ host with nc := nc }.act ncwrbuf.action.cb (some packet) alloc)
    else none
  | .expire now =>
    match netcomExpired host.nc now with
    | none => some host
    | some ncwrbuf => some ({ host with nc := netcomExpire host.nc ncwrbuf }.act ncwrbuf.action.cb none false)
  | .wakeup task => some (host.wakeup task)
  | .chgstat task newstate =>
    some { host with task := Function.update host.task task (taskChangestate (host.task task) newstate) }
  | .link connected bev => some { host with nc := { host.nc with connected := connected, bev := bev } }

/-! ### What a step can do -/

/-- What a turn of the call `id` can do, section by section. -/
inductive Turn (host : Host) (id : Nat) (call : Call) (now : Timespec) : Host → Prop
  | formats : call.pc = .format →
      Turn host id call now { host with
        nc := (l0006NetcomGetseqno host.nc).2
        calls := host.calls.set id
          { call with seqno := (l0006NetcomGetseqno host.nc).1, tsStart := now, pc := .wakeupclear } }
  /-- The arguments or the write fail, and nothing is sent. -/
  | gives (nc : Netcom CmdAction) : call.pc = .format ∨ call.pc = .write → nc.used = host.nc.used →
      host.nc.SameBuffer nc →
      Turn host id call now { host with nc := nc, calls := host.calls.set id (call.follow 0 call.fn.cmdset.unsent) }
  | clears : call.pc = .wakeupclear →
      Turn host id call now { host with
        task := Function.update host.task call.waitTask (taskWakeupclear (host.task call.waitTask))
        calls := host.calls.set id { call with pc := .write } }
  /-- The command goes out and waits behind the others. -/
  | sends (nc : Netcom CmdAction) (slot : Nat) : call.pc = .write →
      nc.used = host.nc.used ++
        [⟨slot, now, ⟨⟨call.fn.cmdset.actioncb, call.waitTask, call.fn.cmdset.cmd, id⟩, call.seqno⟩⟩] →
      host.nc.SameBuffer nc →
      Turn host id call now { host with
        nc := nc
        calls := host.calls.set id { call with pc := .wait }
        sent := host.sent ++ [call.header ++ call.fn.cmdset.body] }
  | tests : call.pc = .wait →
      Turn host id call now { host with
        calls := host.calls.set id { call with pc := if host.waitCond call now then .waiting false else .check } }
  | wakes : call.pc = .waiting true →
      Turn host id call now { host with calls := host.calls.set id { call with pc := .check } }
  | restarts (signalled : Bool) : call.pc = .waiting signalled →
      Turn host id call now { host with calls := host.calls.set id { call with pc := .wait } }
  | looks (after : After) : call.pc = .check → after = call.fn.cmdset.after call.header call.retval call.out →
      Turn host id call now { host with
        calls := host.calls.set id (call.follow host.calls.length after) ++ beepCalls call.waitTask after
        checked := host.checked ++ [id] }
  | rests (child : Nat) : call.pc = .beeping child →
      (∃ beep v, host.calls[child]? = some beep ∧ beep.pc = .returned v) →
      Turn host id call now { host with calls := host.calls.set id { call with pc := .ret } }
  | returns : call.pc = .ret →
      Turn host id call now { host with calls := host.calls.set id { call with pc := .returned call.retval } }

theorem runCall_turn {host host' : Host} {id : Nat} {call : Call} {now : Timespec} {ok : Bool}
    (hstep : host.runCall id call now ok = some host') : Turn host id call now host' := by
  cases hpc : call.pc with
  | format =>
    simp only [Host.runCall, hpc] at hstep
    split at hstep
    · cases hstep
      exact .formats hpc
    · cases hstep
      exact .gives host.nc (.inl hpc) rfl rfl
  | wakeupclear =>
    simp only [Host.runCall, hpc] at hstep
    cases hstep
    exact .clears hpc
  | write =>
    simp only [Host.runCall, hpc] at hstep
    have hcases := netcmdWrite_cases host.nc (call.header ++ call.fn.cmdset.body).length
      ⟨⟨call.fn.cmdset.actioncb, call.waitTask, call.fn.cmdset.cmd, id⟩, call.seqno⟩ now ok
    have hbuffer := netcmdWrite_buffer host.nc (call.header ++ call.fn.cmdset.body).length
      ⟨⟨call.fn.cmdset.actioncb, call.waitTask, call.fn.cmdset.cmd, id⟩, call.seqno⟩ now ok
    generalize l0006NetcmdWrite host.nc (call.header ++ call.fn.cmdset.body).length
      ⟨⟨call.fn.cmdset.actioncb, call.waitTask, call.fn.cmdset.cmd, id⟩, call.seqno⟩ true now ok = r
      at hstep hcases hbuffer
    obtain ⟨retval, nc⟩ := r
    rcases hcases with ⟨rfl, hused⟩ | ⟨rfl, slot, hused⟩
    · cases hstep
      exact .gives nc (.inr hpc) hused hbuffer
    · cases hstep
      exact .sends nc slot hpc hused hbuffer
  | wait =>
    simp only [Host.runCall, hpc] at hstep
    cases hstep
    exact .tests hpc
  | waiting signalled =>
    simp only [Host.runCall, hpc] at hstep
    split at hstep
    · split at hstep <;> cases hstep
      rename_i hsignalled
      exact .wakes (hsignalled ▸ hpc)
    · cases hstep
      exact .restarts signalled hpc
  | check =>
    simp only [Host.runCall, hpc] at hstep
    cases hstep
    exact .looks _ hpc rfl
  | beeping child =>
    simp only [Host.runCall, hpc] at hstep
    split at hstep <;> cases hstep
    rename_i hchild
    exact .rests child hpc ⟨_, _, hchild, rfl⟩
  | ret =>
    simp only [Host.runCall, hpc] at hstep
    cases hstep
    exact .returns hpc
  | returned v =>
    simp only [Host.runCall, hpc] at hstep
    cases hstep

theorem beepCalls_new (waitTask : Nat) (after : After) :
    ∀ c ∈ beepCalls waitTask after, ∃ fn waitTask, c = newCall fn waitTask := by
  intro c hmem
  unfold beepCalls at hmem
  split at hmem
  · exact ⟨_, _, List.mem_singleton.1 hmem⟩
  · cases hmem

theorem step_run {host host' : Host} {id : Nat} {now : Timespec} {ok : Bool}
    (hstep : host.step (.run id now ok) = some host') :
    ∃ call, host.calls[id]? = some call ∧ host.runCall id call now ok = some host' := by
  simp only [Host.step] at hstep
  split at hstep
  · cases hstep
  · exact ⟨_, ‹_›, hstep⟩

theorem step_turn {host host' : Host} {id : Nat} {call : Call} {now : Timespec} {ok : Bool}
    (hstep : host.step (.run id now ok) = some host') (hc : host.calls[id]? = some call) :
    Turn host id call now host' := by
  obtain ⟨caller, hcaller, hrun⟩ := step_run hstep
  cases hc.symm.trans hcaller
  exact runCall_turn hrun

/-- The entry whose callback an event calls, with the packet, `none` for a time-out. -/
def Host.completion (host : Host) : HostEv → Option (NetcomWrbuf CmdAction × Option (List UInt8))
  | .ack packet _ =>
    if CommandFrame packet then
      (host.nc.used.find? fun ncwrbuf => ncwrbuf.action.seqno == seqnoOf packet).map
        fun ncwrbuf => (ncwrbuf, some packet)
    else none
  | .expire now => (netcomExpired host.nc now).map fun ncwrbuf => (ncwrbuf, none)
  | _ => none

/-- The memory for a copy of the packet. -/
def HostEv.alloc : HostEv → Bool
  | .ack _ alloc => alloc
  | _ => false

/-- A completion takes its entry out of the used list and calls its callback; a packet has
the number of the command. -/
theorem step_completion {host : Host} {ev : HostEv} {ncwrbuf : NetcomWrbuf CmdAction} {packet : Option (List UInt8)}
    (h : host.completion ev = some (ncwrbuf, packet)) : ∃ (nc : Netcom CmdAction) (l₁ l₂ : List (NetcomWrbuf CmdAction)),
      host.nc.used = l₁ ++ ncwrbuf :: l₂ ∧ nc.used = l₁ ++ l₂ ∧ nc.unused = host.nc.unused ++ [ncwrbuf] ∧
      (∀ pkt, packet = some pkt → seqnoOf pkt = ncwrbuf.action.seqno) ∧
      host.step ev = some ({ host with nc := nc }.act ncwrbuf.action.cb packet ev.alloc) := by
  cases ev with
  | ack pkt alloc =>
    simp only [Host.completion] at h
    split at h
    · rename_i hframe
      obtain ⟨found, hfind, heq⟩ := Option.map_eq_some_iff.1 h
      cases heq
      obtain ⟨hseq, l₁, l₂, hused, hused'⟩ := lookup_used hfind pkt
      refine ⟨netcomLookup host.nc (seqnoOf pkt) pkt, l₁, l₂, hused, hused', ?_, ?_, ?_⟩
      · rw [netcomLookup, hfind]
      · rintro _ ⟨⟩
        exact hseq.symm
      · simp only [Host.step, if_pos hframe, hfind]
        rfl
    · cases h
  | expire now =>
    obtain ⟨found, hexp, heq⟩ := Option.map_eq_some_iff.1 h
    cases heq
    obtain ⟨l, hused⟩ := expired_used hexp
    refine ⟨netcomExpire host.nc ncwrbuf, [], l, hused, by rw [netcomExpire, hused]; rfl, rfl, nofun, ?_⟩
    simp only [Host.step, hexp]
    rfl
  | call | run | wakeup | chgstat | link => cases h

/-- What a step can do. -/
inductive HostStep (host : Host) : HostEv → Host → Prop
  | called (fn : CmdsetFn) (waitTask : Nat) :
      HostStep host (.call fn waitTask) { host with calls := host.calls ++ [newCall fn waitTask] }
  | turned {host' : Host} (id : Nat) (call : Call) (now : Timespec) (ok : Bool) : host.calls[id]? = some call →
      Turn host id call now host' → HostStep host (.run id now ok) host'
  /-- The callback of a command is called. -/
  | acts {ev : HostEv} (nc : Netcom CmdAction) (l₁ l₂ : List (NetcomWrbuf CmdAction)) (ncwrbuf : NetcomWrbuf CmdAction)
      (packet : Option (List UInt8)) : host.completion ev = some (ncwrbuf, packet) →
      host.nc.used = l₁ ++ ncwrbuf :: l₂ → nc.used = l₁ ++ l₂ →
      (∀ pkt, packet = some pkt → seqnoOf pkt = ncwrbuf.action.seqno) →
      HostStep host ev ({ host with nc := nc }.act ncwrbuf.action.cb packet ev.alloc)
  | signals (task : Nat) : HostStep host (.wakeup task) (host.wakeup task)
  /-- A packet that no command waits for, a scan that finds none too old, and what else
  leaves the calls and their commands alone. -/
  | keeps {ev : HostEv} (nc : Netcom CmdAction) (task : Nat → TaskInfo) : (∀ id now ok, ev ≠ .run id now ok) →
      nc.used = host.nc.used → HostStep host ev { host with nc := nc, task := task }

theorem step_cases {host host' : Host} {ev : HostEv} (hstep : host.step ev = some host') : HostStep host ev host' := by
  cases hcomp : host.completion ev with
  | some c =>
    obtain ⟨ncwrbuf, packet⟩ := c
    obtain ⟨nc, l₁, l₂, hused, hused', -, hseq, hacts⟩ := step_completion hcomp
    cases hstep.symm.trans hacts
    exact .acts nc l₁ l₂ ncwrbuf packet hcomp hused hused' hseq
  | none =>
    cases ev with
    | call fn waitTask =>
      cases hstep
      exact .called fn waitTask
    | run id now ok =>
      obtain ⟨call, hc, hrun⟩ := step_run hstep
      exact .turned id call now ok hc (runCall_turn hrun)
    | ack packet alloc =>
      simp only [Host.completion] at hcomp
      simp only [Host.step] at hstep
      split at hstep
      · rename_i hframe
        rw [if_pos hframe, Option.map_eq_none_iff] at hcomp
        rw [hcomp] at hstep
        cases hstep
        refine .keeps _ host.task nofun ?_
        simp only [netcomLookup, hcomp]
      · cases hstep
    | expire now =>
      have hexp := Option.map_eq_none_iff.1 hcomp
      simp only [Host.step, hexp] at hstep
      cases hstep
      exact .keeps host.nc host.task nofun rfl
    | wakeup task =>
      cases hstep
      exact .signals task
    | chgstat task newstate =>
      cases hstep
      exact .keeps host.nc _ nofun rfl
    | link connected bev =>
      cases hstep
      exact .keeps { host.nc with connected := connected, bev := bev } host.task nofun rfl

end CmdAgent

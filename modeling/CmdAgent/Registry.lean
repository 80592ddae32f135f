import CmdAgent.Agent
import CmdAgent.StreamLib.Runs
/-!
# The device table

`cmdagent_register_device` writes the slot behind the last device, makes a task of
the cluster the device's, brings it up and only then counts the device. Here are the
table, the tasks it uses and the `devcom_proc`s, with each way in which a call may fail.
`cmdagentRegisterDevice` and `cmdagentSendtoDevice` are what this amounts to for the
devices that count.
-/
open StreamLib.Runs

namespace CmdAgent

/-! ## State -/

def cmdagentTaskDevice : Nat := 1

/-- The room for an address, the terminating zero included. -/
def ipaddrMax : Nat := 32

/-- `struct deventity_info`. `devproc` is a place in `procs`. -/
structure DevEntry where
  ipaddr : String
  usport : UInt16
  rackIndex : UInt32
  taskindex : Nat
  taskname : String
  devproc : Option Nat
  deriving DecidableEq

/-- `struct devcom_proc`, with the address in its `dev_net`. -/
structure DevcomProc where
  devIdx : Nat
  rackIndex : UInt32
  ipaddr : String
  usport : UInt16
  devNet : DevnetInfo
  deriving DecidableEq

/-- What `struct task_info` holds for a device. -/
structure DeviceTask where
  name : String
  initParam : Nat
  priv : Option Nat
  deriving DecidableEq

/-- `struct cmdagent_info`, with its cluster and all `devcom_proc`s that were made. -/
structure CmdagentInfo where
  devInfo : Nat → DevEntry
  devNum : Nat
  tasksNum : Nat
  task : Nat → DeviceTask
  procs : List DevcomProc
  /-- The tasks the calls have written to. -/
  touched : List Nat

/-- How far the task of a new device comes. -/
inductive TaskStart where
  /-- `task_initialize` fails before it calls `devcom_initialize`. -/
  | noTask
  /-- There is no memory for the `devcom_proc`. -/
  | noProc
  /-- `devnet_initialize` fails. -/
  | noNet
  /-- `startup` fails. -/
  | noThread
  | started
  deriving DecidableEq

/-! ## Starting up -/

/-- What `main` gets from `zmalloc`. -/
def CmdagentInfo.zero : CmdagentInfo where
  devInfo := fun _ => ⟨"", 0, 0, 0, "", none⟩
  devNum := 0
  tasksNum := 0
  task := fun _ => ⟨"", 0, none⟩
  procs := []
  touched := []

def cmdagnetInitconfig (agent : CmdagentInfo) : CmdagentInfo := { agent with devNum := 0 }

def taskclusterCreate (agent : CmdagentInfo) (tasksNum : Nat) : CmdagentInfo :=
  { agent with tasksNum := tasksNum, task := fun _ => ⟨"", 0, none⟩ }

/-- `main` up to the creation of the cluster. -/
def CmdagentInfo.startup : CmdagentInfo :=
  let agent := cmdagnetInitconfig .zero
  taskclusterCreate agent (agent.devNum + 1)

/-! ## Tasks -/

def CmdagentInfo.touch (agent : CmdagentInfo) (taskIndex : Nat) : CmdagentInfo :=
  { agent with touched := agent.touched ++ [taskIndex] }

def taskInstantiate2 (agent : CmdagentInfo) (taskIndex : Nat) (name : String) (initParam : Nat) : CmdagentInfo :=
  { agent.touch taskIndex with task := Function.update agent.task taskIndex ⟨name, initParam, none⟩ }

/-- The `devcom_proc` of the device `devIdx` is made. -/
def CmdagentInfo.newProc (agent : CmdagentInfo) (taskIndex devIdx : Nat) : CmdagentInfo :=
  let entry := agent.devInfo devIdx
  let devproc := agent.procs.length
  { agent with
    task := Function.update agent.task taskIndex { agent.task taskIndex with priv := some devproc }
    devInfo := Function.update agent.devInfo devIdx { entry with devproc := some devproc }
    procs := agent.procs ++ [⟨devIdx, entry.rackIndex, entry.ipaddr, entry.usport, devnetInitialize⟩] }

def devcomInitialize (agent : CmdagentInfo) (taskIndex : Nat) (start : TaskStart) : Int × CmdagentInfo :=
  let devIdx := (agent.task taskIndex).initParam
  if devIdx > agent.devNum then (-1, agent)
  else if start = .noProc then (-1, agent)
  else (if start = .noNet then -1 else 0, agent.newProc taskIndex devIdx)

def taskInitialize (agent : CmdagentInfo) (taskIndex : Nat) (start : TaskStart) : Int × CmdagentInfo :=
  let agent := agent.touch taskIndex
  if start = .noTask then (-1, agent) else devcomInitialize agent taskIndex start

def taskStart (agent : CmdagentInfo) (taskIndex : Nat) (start : TaskStart) : Int × CmdagentInfo :=
  (if start = .noThread then -1 else 0, agent.touch taskIndex)

/-! ## The calls -/

/-- The search for `szdevip` and `usport`. -/
def CmdagentInfo.find (agent : CmdagentInfo) (szdevip : String) (usport : UInt16) : Option Nat :=
  (List.range agent.devNum).find? fun idx =>
    szdevip = (agent.devInfo idx).ipaddr ∧ usport = (agent.devInfo idx).usport

/-- The slot behind the last device is written and its task instantiated. -/
def CmdagentInfo.fillSlot (agent : CmdagentInfo) (szdevip : String) (usport : UInt16) : CmdagentInfo :=
  let idx := agent.devNum
  let taskindex := cmdagentTaskDevice + idx
  let taskname := "device_" ++ toString idx
  let agent := { agent with
    devInfo := Function.update agent.devInfo idx { agent.devInfo idx with
      ipaddr := szdevip, usport := usport, taskname := taskname, taskindex := taskindex } }
  taskInstantiate2 agent taskindex taskname idx

/-- The task is initialized and started; then the device counts. -/
def CmdagentInfo.bringUp (agent : CmdagentInfo) (taskindex : Nat) (start : TaskStart) : Int × CmdagentInfo :=
  let r := taskInitialize agent taskindex start
  if r.1 < 0 then (-1, r.2)
  else
    let r := taskStart r.2 taskindex start
    if r.1 ≠ 0 then (-1, r.2) else (0, { r.2 with devNum := r.2.devNum + 1 })

/-- `cmdagent_register_device` -/
def CmdagentInfo.registerDevice (agent : CmdagentInfo) (szdevip : Option String) (usport : UInt16) (start : TaskStart) :
    Int × CmdagentInfo :=
  match szdevip with
  | none => (-1, agent)
  | some szdevip =>
    if usport = 0 then (-1, agent)
    else if (agent.find szdevip usport).isSome then (0, agent)
    else if agent.devNum ≥ cmdagentMaxDevNum then (-1, agent)
    else (agent.fillSlot szdevip usport).bringUp (cmdagentTaskDevice + agent.devNum) start

def CmdagentInfo.modifyProc (agent : CmdagentInfo) (devproc : Nat) (f : DevnetInfo → DevnetInfo) : CmdagentInfo :=
  { agent with procs := agent.procs.modify devproc fun proc => { proc with devNet := f proc.devNet } }

def devcomWrite (agent : CmdagentInfo) (devproc : Option Nat) (serid : Int) (data : List UInt8) (added : Bool) :
    CmdagentInfo :=
  match devproc with
  | none => agent
  | some devproc => agent.modifyProc devproc fun devnet => (devnetWrite devnet serid data added).2

/-- `cmdagent_sendto_device`. The result of `devcom_write` is not passed on. -/
def CmdagentInfo.sendtoDevice (agent : CmdagentInfo) (szdevip : Option String) (usport : UInt16) (serid : Int)
    (data : List UInt8) (added : Bool) : Int × CmdagentInfo :=
  match szdevip with
  | none => (-1, agent)
  | some szdevip =>
    if usport = 0 then (-1, agent)
    else match agent.find szdevip usport with
      | none => (-1, agent)
      | some idx => (0, devcomWrite agent (agent.devInfo idx).devproc serid data added)

inductive AgentEv where
  | registerDevice (szdevip : Option String) (usport : UInt16) (start : TaskStart)
  | sendtoDevice (szdevip : Option String) (usport : UInt16) (serid : Int) (data : List UInt8) (added : Bool)
  /-- The thread of a device changes its `dev_net`. -/
  | devNet (devproc : Nat) (devnet : DevnetInfo)

/-- `none` where an address does not fit into `ipaddr`. -/
def CmdagentInfo.step (agent : CmdagentInfo) : AgentEv → Option CmdagentInfo
  | .registerDevice szdevip usport start =>
    if ∀ ip ∈ szdevip, ip.utf8ByteSize < ipaddrMax then some (agent.registerDevice szdevip usport start).2 else none
  | .sendtoDevice szdevip usport serid data added => some (agent.sendtoDevice szdevip usport serid data added).2
  | .devNet devproc devnet => some (agent.modifyProc devproc fun _ => devnet)

/-! ## What the calls do -/

section
variable {agent : CmdagentInfo} {szdevip : Option String} {ip : String} {usport : UInt16} {idx : Nat}

/-- The device `idx` counts and is registered for `ip` and `usport`. -/
def CmdagentInfo.HasPair (agent : CmdagentInfo) (ip : String) (usport : UInt16) (idx : Nat) : Prop :=
  idx < agent.devNum ∧ (agent.devInfo idx).ipaddr = ip ∧ (agent.devInfo idx).usport = usport

theorem find_hasPair (h : agent.find ip usport = some idx) : agent.HasPair ip usport idx := by
  have hmatch := List.find?_some h
  rw [decide_eq_true_iff] at hmatch
  exact ⟨List.mem_range.1 (List.mem_of_find?_eq_some h), hmatch.1.symm, hmatch.2.symm⟩

theorem find_eq_none : agent.find ip usport = none ↔ ∀ idx, ¬ agent.HasPair ip usport idx := by
  unfold CmdagentInfo.find CmdagentInfo.HasPair
  rw [List.find?_eq_none]
  constructor
  · rintro h idx ⟨hlt, rfl, rfl⟩
    exact h idx (List.mem_range.2 hlt) (by simp)
  · intro h idx hmem hmatch
    rw [decide_eq_true_iff] at hmatch
    exact h idx ⟨List.mem_range.1 hmem, hmatch.1.symm, hmatch.2.symm⟩

theorem find_isSome {idx : Nat} (h : agent.HasPair ip usport idx) : (agent.find ip usport).isSome = true := by
  rw [Option.isSome_iff_ne_none]
  exact fun hnone => find_eq_none.1 hnone idx h

/-- Of the table at most the slot behind the last device has changed. -/
structure Grows (agent t : CmdagentInfo) : Prop where
  others : ∀ idx, idx ≠ agent.devNum → t.devInfo idx = agent.devInfo idx
  devNum : t.devNum = agent.devNum
  procs : agent.procs <+: t.procs
  touched : agent.touched <+: t.touched
  tasksNum : t.tasksNum = agent.tasksNum

theorem Grows.trans {t u : CmdagentInfo} (h : Grows agent t) (h' : Grows t u) : Grows agent u where
  others := fun idx hne => (h'.others idx (h.devNum ▸ hne)).trans (h.others idx hne)
  devNum := h'.devNum.trans h.devNum
  procs := h.procs.trans h'.procs
  touched := h.touched.trans h'.touched
  tasksNum := h'.tasksNum.trans h.tasksNum

theorem grows_touch (agent : CmdagentInfo) (taskIndex : Nat) : Grows agent (agent.touch taskIndex) :=
  ⟨fun _ _ => rfl, rfl, List.prefix_refl _, List.prefix_append _ _, rfl⟩

/-- The slot is that of a device at `ip` and `usport`, with a `devcom_proc` of its own. -/
structure NewEntry (agent : CmdagentInfo) (ip : String) (usport : UInt16) (t : CmdagentInfo) : Prop where
  entry : t.devInfo agent.devNum = { agent.devInfo agent.devNum with
    ipaddr := ip
    usport := usport
    taskindex := cmdagentTaskDevice + agent.devNum
    taskname := "device_" ++ toString agent.devNum
    devproc := some agent.procs.length }
  procs : t.procs = agent.procs ++
    [⟨agent.devNum, (agent.devInfo agent.devNum).rackIndex, ip, usport, devnetInitialize⟩]

theorem fillSlot_spec (agent : CmdagentInfo) (ip : String) (usport : UInt16) :
    Grows agent (agent.fillSlot ip usport) ∧
      cmdagentTaskDevice + agent.devNum ∈ (agent.fillSlot ip usport).touched ∧
      ((agent.fillSlot ip usport).task (cmdagentTaskDevice + agent.devNum)).initParam = agent.devNum := by
  refine ⟨⟨?_, rfl, List.prefix_refl _, List.prefix_append _ _, rfl⟩, ?_, ?_⟩
  · intro idx hne
    simp only [CmdagentInfo.fillSlot, taskInstantiate2, CmdagentInfo.touch, Function.update_of_ne hne]
  · exact List.mem_append_right _ (List.mem_singleton_self _)
  · simp only [CmdagentInfo.fillSlot, taskInstantiate2, Function.update_self]

theorem grows_newProc (agent : CmdagentInfo) (taskIndex : Nat) : Grows agent (agent.newProc taskIndex agent.devNum) := by
  refine ⟨?_, rfl, List.prefix_append _ _, List.prefix_refl _, rfl⟩
  intro idx hne
  simp only [CmdagentInfo.newProc, Function.update_of_ne hne]

/-- Bringing up a task changes only the slot that is not counted yet, until it is. -/
theorem bringUp_spec {taskindex : Nat} (hparam : (agent.task taskindex).initParam = agent.devNum) (start : TaskStart) :
    (start ≠ .started ∧ ∃ t, agent.bringUp taskindex start = (-1, t) ∧ Grows agent t) ∨
      start = .started ∧ ∃ t, agent.bringUp taskindex start = (0, { t with devNum := t.devNum + 1 }) ∧ Grows agent t ∧
        t.devInfo agent.devNum = { agent.devInfo agent.devNum with devproc := some agent.procs.length } ∧
        t.procs = agent.procs ++ [⟨agent.devNum, (agent.devInfo agent.devNum).rackIndex,
          (agent.devInfo agent.devNum).ipaddr, (agent.devInfo agent.devNum).usport, devnetInitialize⟩] := by
  have htouch := grows_touch agent taskindex
  have hproc := htouch.trans (grows_newProc (agent.touch taskindex) taskindex)
  have hthread := hproc.trans (grows_touch _ taskindex)
  have hparam' : ((agent.touch taskindex).task taskindex).initParam = (agent.touch taskindex).devNum := hparam
  cases start with
  | noTask => exact .inl ⟨by decide, _, rfl, htouch⟩
  | noProc =>
    refine .inl ⟨by decide, agent.touch taskindex, ?_, htouch⟩
    simp [CmdagentInfo.bringUp, taskInitialize, devcomInitialize, hparam']
  | noNet =>
    refine .inl ⟨by decide, _, ?_, hproc⟩
    simp [CmdagentInfo.bringUp, taskInitialize, devcomInitialize, hparam']
  | noThread =>
    refine .inl ⟨by decide, _, ?_, hthread⟩
    simp [CmdagentInfo.bringUp, taskInitialize, devcomInitialize, taskStart, hparam']
  | started =>
    refine .inr ⟨rfl, _, ?_, hthread, ?_, ?_⟩
    · simp [CmdagentInfo.bringUp, taskInitialize, devcomInitialize, taskStart, hparam']
    · simp only [CmdagentInfo.newProc, CmdagentInfo.touch, Function.update_self]
    · rfl

/-- What `cmdagent_register_device` does, and its result. -/
inductive Registering (agent : CmdagentInfo) (szdevip : Option String) (usport : UInt16) (start : TaskStart) :
    Int × CmdagentInfo → Prop
  | refused : szdevip = none ∨ usport = 0 → Registering agent szdevip usport start (-1, agent)
  | known (ip : String) (idx : Nat) : szdevip = some ip → usport ≠ 0 → agent.HasPair ip usport idx →
      Registering agent szdevip usport start (0, agent)
  | full (ip : String) : szdevip = some ip → usport ≠ 0 → (∀ idx, ¬ agent.HasPair ip usport idx) →
      cmdagentMaxDevNum ≤ agent.devNum → Registering agent szdevip usport start (-1, agent)
  | failed (ip : String) (t : CmdagentInfo) : szdevip = some ip → usport ≠ 0 →
      (∀ idx, ¬ agent.HasPair ip usport idx) → agent.devNum < cmdagentMaxDevNum → start ≠ .started → Grows agent t →
      cmdagentTaskDevice + agent.devNum ∈ t.touched → Registering agent szdevip usport start (-1, t)
  | added (ip : String) (t : CmdagentInfo) : szdevip = some ip → usport ≠ 0 →
      (∀ idx, ¬ agent.HasPair ip usport idx) → agent.devNum < cmdagentMaxDevNum → start = .started → Grows agent t →
      cmdagentTaskDevice + agent.devNum ∈ t.touched → NewEntry agent ip usport t →
      Registering agent szdevip usport start (0, { t with devNum := t.devNum + 1 })

theorem registering_of (agent : CmdagentInfo) (szdevip : Option String) (usport : UInt16) (start : TaskStart) :
    Registering agent szdevip usport start (agent.registerDevice szdevip usport start) := by
  unfold CmdagentInfo.registerDevice
  cases szdevip with
  | none => exact .refused (.inl rfl)
  | some ip =>
    dsimp only
    by_cases hport : usport = 0
    · rw [if_pos hport]
      exact .refused (.inr hport)
    rw [if_neg hport]
    cases hfind : agent.find ip usport with
    | some idx => exact .known ip idx rfl hport (find_hasPair hfind)
    | none =>
      have hnew := find_eq_none.1 hfind
      rw [Option.isSome_none, if_neg Bool.false_ne_true]
      by_cases hfull : agent.devNum ≥ cmdagentMaxDevNum
      · rw [if_pos hfull]
        exact .full ip rfl hport hnew hfull
      rw [if_neg hfull]
      have hroom := Nat.not_le.1 hfull
      obtain ⟨hfill, htask, hparam⟩ := fillSlot_spec agent ip usport
      have hup := bringUp_spec (hparam.trans hfill.devNum.symm) start
      rcases hup with ⟨hstart, t, ht, hgrows⟩ | ⟨hstart, t, ht, hgrows, hentry, hprocs⟩
      · rw [ht]
        exact .failed ip t rfl hport hnew hroom hstart (hfill.trans hgrows) (hgrows.touched.subset htask)
      · rw [ht]
        refine .added ip t rfl hport hnew hroom hstart (hfill.trans hgrows) (hgrows.touched.subset htask) ⟨?_, ?_⟩
        · simpa only [CmdagentInfo.fillSlot, taskInstantiate2, CmdagentInfo.touch, Function.update_self] using hentry
        · simpa only [CmdagentInfo.fillSlot, taskInstantiate2, CmdagentInfo.touch, Function.update_self] using hprocs

theorem registering_step {szdevip : Option String} {usport : UInt16} {start : TaskStart} {t : CmdagentInfo}
    (hstep : agent.step (.registerDevice szdevip usport start) = some t) :
    ∃ result, Registering agent szdevip usport start (result, t) := by
  simp only [CmdagentInfo.step] at hstep
  split at hstep <;> cases hstep
  exact ⟨_, registering_of agent szdevip usport start⟩

end

/-! ## What every call keeps -/

/-- The entry `idx` has its task index, and a `devcom_proc` made for it. -/
structure CmdagentInfo.Owns (agent : CmdagentInfo) (idx : Nat) : Prop where
  taskindex : (agent.devInfo idx).taskindex = cmdagentTaskDevice + idx
  port : (agent.devInfo idx).usport ≠ 0
  devproc : ∃ devproc proc, (agent.devInfo idx).devproc = some devproc ∧ agent.procs[devproc]? = some proc ∧
    proc.devIdx = idx ∧ proc.ipaddr = (agent.devInfo idx).ipaddr ∧ proc.usport = (agent.devInfo idx).usport

structure CmdagentInfo.Inv (agent : CmdagentInfo) : Prop where
  bound : agent.devNum ≤ cmdagentMaxDevNum
  distinct : ∀ ip usport idx idx', agent.HasPair ip usport idx → agent.HasPair ip usport idx' → idx = idx'
  owns : ∀ idx < agent.devNum, agent.Owns idx

theorem CmdagentInfo.startup_inv : CmdagentInfo.startup.Inv where
  bound := Nat.zero_le _
  distinct := by rintro ip usport idx idx' ⟨h, -⟩; cases h
  owns := by intro idx h; cases h

/-- The devices of `agent` are there later, as they were. -/
structure Later (agent t : CmdagentInfo) : Prop where
  devNum : agent.devNum ≤ t.devNum
  devInfo : ∀ idx < agent.devNum, t.devInfo idx = agent.devInfo idx

section
variable {agent t : CmdagentInfo} {ip : String} {usport : UInt16}

theorem Later.refl (agent : CmdagentInfo) : Later agent agent := ⟨Nat.le_refl _, fun _ _ => rfl⟩

theorem later_modifyProc (agent : CmdagentInfo) (devproc : Nat) (f : DevnetInfo → DevnetInfo) :
    Later agent (agent.modifyProc devproc f) := ⟨Nat.le_refl _, fun _ _ => rfl⟩

theorem Later.trans {u : CmdagentInfo} (h : Later agent t) (h' : Later t u) : Later agent u where
  devNum := Nat.le_trans h.devNum h'.devNum
  devInfo := fun idx hlt => (h'.devInfo idx (Nat.lt_of_lt_of_le hlt h.devNum)).trans (h.devInfo idx hlt)

theorem Later.hasPair (h : Later agent t) {idx : Nat} (hlt : idx < agent.devNum) :
    t.HasPair ip usport idx ↔ agent.HasPair ip usport idx := by
  unfold CmdagentInfo.HasPair
  rw [h.devInfo idx hlt, iff_true_intro hlt, iff_true_intro (Nat.lt_of_lt_of_le hlt h.devNum)]

theorem Grows.later (h : Grows agent t) : Later agent t where
  devNum := Nat.le_of_eq h.devNum.symm
  devInfo := fun idx hlt => h.others idx (Nat.ne_of_lt hlt)

theorem Later.counted {u : CmdagentInfo} (h : Later agent u) : Later agent { u with devNum := u.devNum + 1 } :=
  ⟨Nat.le_succ_of_le h.devNum, h.devInfo⟩

theorem CmdagentInfo.Owns.grows {idx : Nat} (h : agent.Owns idx) (hentry : t.devInfo idx = agent.devInfo idx)
    (hprocs : agent.procs <+: t.procs) : t.Owns idx := by
  obtain ⟨htask, hport, devproc, proc, hdev, hproc, hrest⟩ := h
  obtain ⟨more, hmore⟩ := hprocs
  refine ⟨hentry ▸ htask, hentry ▸ hport, devproc, proc, hentry ▸ hdev, ?_, hentry ▸ hrest⟩
  rw [← hmore, List.getElem?_append_left (List.getElem?_eq_some_iff.1 hproc).1]
  exact hproc

theorem CmdagentInfo.Inv.grows (h : agent.Inv) (hg : Grows agent t) : t.Inv where
  bound := hg.devNum ▸ h.bound
  distinct := by
    intro ip usport idx idx' hp hp'
    have hlt := hg.devNum ▸ hp.1
    have hlt' := hg.devNum ▸ hp'.1
    exact h.distinct ip usport idx idx' ((hg.later.hasPair hlt).1 hp) ((hg.later.hasPair hlt').1 hp')
  owns := by
    intro idx hlt
    rw [hg.devNum] at hlt
    exact (h.owns idx hlt).grows (hg.later.devInfo idx hlt) hg.procs

theorem CmdagentInfo.Inv.added (h : agent.Inv) (hport : usport ≠ 0) (hnew : ∀ idx, ¬ agent.HasPair ip usport idx)
    (hroom : agent.devNum < cmdagentMaxDevNum) (hg : Grows agent t) (hentry : NewEntry agent ip usport t) :
    ({ t with devNum := t.devNum + 1 } : CmdagentInfo).Inv := by
  have hlater : Later agent { t with devNum := t.devNum + 1 } := hg.later.counted
  have hlast : ∀ idx, idx < t.devNum + 1 → idx < agent.devNum ∨ idx = agent.devNum := by
    intro idx hlt
    rw [hg.devNum] at hlt
    exact Nat.lt_succ_iff_lt_or_eq.1 hlt
  have hpair : ∀ ip' usport', ({ t with devNum := t.devNum + 1 } : CmdagentInfo).HasPair ip' usport' agent.devNum →
      ip' = ip ∧ usport' = usport := by
    rintro ip' usport' ⟨-, hi, hu⟩
    dsimp only at hi hu
    rw [hentry.entry] at hi hu
    exact ⟨hi.symm, hu.symm⟩
  refine ⟨?_, ?_, ?_⟩
  · dsimp only
    rw [hg.devNum]
    exact hroom
  · intro ip' usport' idx idx' hp hp'
    rcases hlast idx hp.1 with hlt | rfl
    · have hold := (hlater.hasPair hlt).1 hp
      rcases hlast idx' hp'.1 with hlt' | rfl
      · exact h.distinct ip' usport' idx idx' hold ((hlater.hasPair hlt').1 hp')
      · obtain ⟨rfl, rfl⟩ := hpair _ _ hp'
        exact absurd hold (hnew idx)
    · rcases hlast idx' hp'.1 with hlt' | rfl
      · obtain ⟨rfl, rfl⟩ := hpair _ _ hp
        exact absurd ((hlater.hasPair hlt').1 hp') (hnew idx')
      · rfl
  · intro idx hlt
    rcases hlast idx hlt with hold | rfl
    · exact (h.owns idx hold).grows (hlater.devInfo idx hold) hg.procs
    · refine ⟨by dsimp only; rw [hentry.entry], by dsimp only; rw [hentry.entry]; exact hport, agent.procs.length, ?_⟩
      dsimp only
      rw [hentry.entry, hentry.procs]
      exact ⟨_, rfl, List.getElem?_concat_length, rfl, rfl, rfl⟩

theorem CmdagentInfo.Inv.modifyProc (h : agent.Inv) (devproc : Nat) (f : DevnetInfo → DevnetInfo) :
    (agent.modifyProc devproc f).Inv := by
  refine ⟨h.bound, h.distinct, fun idx hlt => ?_⟩
  obtain ⟨htask, hport, d, proc, hdev, hproc, hidx, hip, hus⟩ := h.owns idx hlt
  refine ⟨htask, hport, d, if devproc = d then { proc with devNet := f proc.devNet } else proc, hdev, ?_, ?_⟩
  · rw [CmdagentInfo.modifyProc, List.getElem?_modify, hproc]
    rfl
  · split <;> exact ⟨hidx, hip, hus⟩

/-- One step. -/
theorem CmdagentInfo.Inv.step {ev : AgentEv} (h : agent.Inv) (hstep : agent.step ev = some t) : t.Inv ∧ Later agent t := by
  cases ev with
  | registerDevice szdevip usport start =>
    obtain ⟨result, hr⟩ := registering_step hstep
    cases hr with
    | refused | known | full => exact ⟨h, .refl agent⟩
    | failed _ u _ _ _ _ _ hg => exact ⟨h.grows hg, hg.later⟩
    | added _ u _ hport hnew hroom _ hg _ hentry => exact ⟨h.added hport hnew hroom hg hentry, hg.later.counted⟩
  | sendtoDevice szdevip usport serid data added =>
    cases hstep
    unfold CmdagentInfo.sendtoDevice
    split
    · exact ⟨h, .refl agent⟩
    split
    · exact ⟨h, .refl agent⟩
    split
    · exact ⟨h, .refl agent⟩
    · rename_i idx _
      unfold devcomWrite
      split
      · exact ⟨h, .refl agent⟩
      · dsimp only
        exact ⟨h.modifyProc _ fun devnet => (devnetWrite devnet serid data added).2, later_modifyProc _ _ _⟩
  | devNet devproc devnet =>
    cases hstep
    exact ⟨h.modifyProc devproc fun _ => devnet, later_modifyProc agent devproc fun _ => devnet⟩

/-! ## The calls keep to the table -/

/-- A call for a registered pair returns 0 and changes nothing; a call that fails changes
neither the devices nor their number; one that returns 0 leaves the pair registered. -/
structure RegisterOk (agent : CmdagentInfo) (szdevip : Option String) (usport : UInt16) (r : Int × CmdagentInfo) : Prop where
  known : ∀ ip idx, szdevip = some ip → agent.HasPair ip usport idx → r = (0, agent)
  failing : r.1 < 0 → r.2.devNum = agent.devNum ∧ ∀ idx < agent.devNum, r.2.devInfo idx = agent.devInfo idx
  registered : r.1 = 0 → ∃ ip idx, szdevip = some ip ∧ r.2.HasPair ip usport idx

/-- Data for a registered pair reach the `devcom_proc` made for its entry; others are
refused. -/
structure SendtoOk (agent : CmdagentInfo) (szdevip : Option String) (usport : UInt16) (serid : Int) (data : List UInt8)
    (added : Bool) (r : Int × CmdagentInfo) : Prop where
  known : ∀ ip idx, szdevip = some ip → agent.HasPair ip usport idx →
    ∃ devproc proc, (agent.devInfo idx).devproc = some devproc ∧ agent.procs[devproc]? = some proc ∧
      proc.devIdx = idx ∧ proc.ipaddr = ip ∧ proc.usport = usport ∧
      r = (0, agent.modifyProc devproc fun devnet => (devnetWrite devnet serid data added).2)
  unknown : (∀ ip idx, szdevip = some ip → ¬ agent.HasPair ip usport idx) → r = (-1, agent)

theorem CmdagentInfo.Inv.registerOk (h : agent.Inv) (szdevip : Option String) (usport : UInt16) (start : TaskStart) :
    RegisterOk agent szdevip usport (agent.registerDevice szdevip usport start) := by
  have hr := registering_of agent szdevip usport start
  generalize agent.registerDevice szdevip usport start = r at hr
  cases hr with
  | refused href =>
    refine ⟨?_, fun _ => ⟨rfl, fun _ _ => rfl⟩, fun h0 => absurd h0 (by simp)⟩
    rintro ip idx rfl ⟨hlt, -, hus⟩
    rcases href with hnull | hport
    · cases hnull
    · exact absurd (hus.trans hport) (h.owns idx hlt).port
  | known ip idx hip _ hpair =>
    exact ⟨fun _ _ _ _ => rfl, fun _ => ⟨rfl, fun _ _ => rfl⟩, fun _ => ⟨ip, idx, hip, hpair⟩⟩
  | full ip hip _ hnew _ =>
    refine ⟨?_, fun _ => ⟨rfl, fun _ _ => rfl⟩, fun h0 => absurd h0 (by simp)⟩
    rintro ip' idx rfl hpair
    cases hip
    exact absurd hpair (hnew idx)
  | failed ip t hip _ hnew _ _ hg _ =>
    refine ⟨?_, fun _ => ⟨hg.devNum, hg.later.devInfo⟩, fun h0 => absurd h0 (by simp)⟩
    rintro ip' idx rfl hpair
    cases hip
    exact absurd hpair (hnew idx)
  | added ip t hip _ hnew _ _ hg _ hentry =>
    refine ⟨?_, fun hlt => absurd hlt (by simp), fun _ => ⟨ip, agent.devNum, hip, ?_⟩⟩
    · rintro ip' idx rfl hpair
      cases hip
      exact absurd hpair (hnew idx)
    · refine ⟨by dsimp only; rw [hg.devNum]; exact Nat.lt_succ_self _, ?_, ?_⟩
      · dsimp only
        rw [hentry.entry]
      · dsimp only
        rw [hentry.entry]

theorem CmdagentInfo.Inv.sendtoOk (h : agent.Inv) (szdevip : Option String) (usport : UInt16) (serid : Int)
    (data : List UInt8) (added : Bool) :
    SendtoOk agent szdevip usport serid data added (agent.sendtoDevice szdevip usport serid data added) := by
  constructor
  · rintro ip idx rfl hpair
    obtain ⟨-, hport, devproc, proc, hdev, hproc, hidx, hip, hus⟩ := h.owns idx hpair.1
    have hne : usport ≠ 0 := hpair.2.2 ▸ hport
    refine ⟨devproc, proc, hdev, hproc, hidx, hip.trans hpair.2.1, hus.trans hpair.2.2, ?_⟩
    unfold CmdagentInfo.sendtoDevice
    dsimp only
    rw [if_neg hne]
    cases hfind : agent.find ip usport with
    | none => exact absurd hpair (find_eq_none.1 hfind idx)
    | some idx' =>
      cases h.distinct ip usport idx idx' hpair (find_hasPair hfind)
      simp only [devcomWrite, hdev]
  · intro hnone
    unfold CmdagentInfo.sendtoDevice
    cases szdevip with
    | none => rfl
    | some ip =>
      dsimp only
      split
      · rfl
      · rw [find_eq_none.2 fun idx => hnone ip idx rfl]

end

/-- In every run of registrations, with any failures in between, the table keeps within
its size, its pairs are distinct, each entry has its task index and stays what it is,
and every further call keeps to it. -/
theorem registry_kept (evs more : List AgentEv) (agent later : CmdagentInfo)
    (hrun : exec CmdagentInfo.step .startup evs = some agent) (hmore : exec CmdagentInfo.step agent more = some later) :
    agent.devNum ≤ cmdagentMaxDevNum ∧
      (∀ ip usport idx idx', agent.HasPair ip usport idx → agent.HasPair ip usport idx' → idx = idx') ∧
      (∀ idx < agent.devNum, (agent.devInfo idx).taskindex = cmdagentTaskDevice + idx) ∧
      (agent.devNum ≤ later.devNum ∧ ∀ idx < agent.devNum, later.devInfo idx = agent.devInfo idx) ∧
      (∀ szdevip usport start, RegisterOk agent szdevip usport (agent.registerDevice szdevip usport start)) ∧
      ∀ szdevip usport serid data added,
        SendtoOk agent szdevip usport serid data added (agent.sendtoDevice szdevip usport serid data added) := by
  have hinv : agent.Inv := exec_inv_all (fun _ _ _ h hst => (h.step hst).1) CmdagentInfo.startup_inv hrun
  have hlater : later.Inv ∧ Later agent later := by
    refine exec_inv_all (I := fun t : CmdagentInfo => t.Inv ∧ Later agent t) ?_ ⟨hinv, .refl agent⟩ hmore
    rintro s ev t ⟨hs, hl⟩ hst
    exact ⟨(hs.step hst).1, hl.trans (hs.step hst).2⟩
  exact ⟨hinv.bound, hinv.distinct, fun idx hlt => (hinv.owns idx hlt).taskindex, ⟨hlater.2.devNum, hlater.2.devInfo⟩,
    hinv.registerOk, hinv.sendtoOk⟩

/-- A device whose task fails to start at first, and a second one. -/
def registeredTwo : List AgentEv :=
  [.registerDevice (some "127.0.0.1") 7777 .noNet, .registerDevice (some "127.0.0.1") 7777 .started,
    .registerDevice (some "127.0.0.1") 7778 .noThread]

theorem registry_kept_two : ∃ agent later, exec CmdagentInfo.step .startup registeredTwo = some agent ∧
    exec CmdagentInfo.step agent [.registerDevice (some "127.0.0.1") 7778 .started] = some later ∧
      agent.devNum = 1 ∧ later.devNum = 2 ∧ later.devInfo 0 = agent.devInfo 0 := by
  obtain ⟨agent, hrun, hnext⟩ := (Option.any_eq_true _ _).1 (by decide +kernel :
    ((exec CmdagentInfo.step .startup registeredTwo).any fun agent =>
      (exec CmdagentInfo.step agent [.registerDevice (some "127.0.0.1") 7778 .started]).any fun later =>
        agent.devNum = 1 ∧ later.devNum = 2) = true)
  obtain ⟨later, hmore, hnums⟩ := (Option.any_eq_true _ _).1 hnext
  obtain ⟨hone, htwo⟩ := of_decide_eq_true hnums
  obtain ⟨-, -, -, ⟨-, hsame⟩, -⟩ := registry_kept registeredTwo _ agent later hrun hmore
  exact ⟨agent, later, hrun, hmore, hone, htwo, hsame 0 (by rw [hone]; exact Nat.one_pos)⟩

/-! ## The tasks of the cluster -/

/-- The call is refused before it looks at the table. -/
def AgentEv.Refused : AgentEv → Prop
  | .registerDevice szdevip usport _ => szdevip = none ∨ usport = 0
  | _ => True

theorem not_refused {ip : String} {szdevip : Option String} {usport : UInt16} {start : TaskStart}
    (hip : szdevip = some ip) (hport : usport ≠ 0) : ¬ AgentEv.Refused (.registerDevice szdevip usport start) := by
  rintro (hnull | hzero)
  · rw [hip] at hnull
    cases hnull
  · exact hport hzero

/-- The calls have written to the tasks of the cluster only. -/
def CmdagentInfo.TasksAllocated (agent : CmdagentInfo) : Prop := ∀ taskindex ∈ agent.touched, taskindex < agent.tasksNum

section
variable {agent t : CmdagentInfo} {ev : AgentEv}

theorem sendto_same (agent : CmdagentInfo) (szdevip : Option String) (usport : UInt16) (serid : Int) (data : List UInt8)
    (added : Bool) : (agent.sendtoDevice szdevip usport serid data added).2.touched = agent.touched ∧
      (agent.sendtoDevice szdevip usport serid data added).2.tasksNum = agent.tasksNum ∧
      (agent.sendtoDevice szdevip usport serid data added).2.devNum = agent.devNum := by
  unfold CmdagentInfo.sendtoDevice
  split
  · exact ⟨rfl, rfl, rfl⟩
  split
  · exact ⟨rfl, rfl, rfl⟩
  split
  · exact ⟨rfl, rfl, rfl⟩
  · unfold devcomWrite
    split <;> exact ⟨rfl, rfl, rfl⟩

/-- A refused call touches no task; another one, with no device there yet, the task
behind the service's. -/
theorem touched_step (hstep : agent.step ev = some t) :
    agent.touched <+: t.touched ∧ t.tasksNum = agent.tasksNum ∧
      (ev.Refused → t.touched = agent.touched ∧ t.devNum = agent.devNum) ∧
      (¬ ev.Refused → agent.devNum = 0 → cmdagentTaskDevice ∈ t.touched) := by
  cases ev with
  | registerDevice szdevip usport start =>
    obtain ⟨result, hr⟩ := registering_step hstep
    cases hr with
    | refused href => exact ⟨List.prefix_refl _, rfl, fun _ => ⟨rfl, rfl⟩, fun hno => absurd href hno⟩
    | known ip idx hip hport hpair =>
      refine ⟨List.prefix_refl _, rfl, fun _ => ⟨rfl, rfl⟩, fun _ h0 => ?_⟩
      have hlt := hpair.1
      rw [h0] at hlt
      cases hlt
    | full ip hip hport _ hfull =>
      refine ⟨List.prefix_refl _, rfl, fun _ => ⟨rfl, rfl⟩, fun _ h0 => ?_⟩
      rw [h0] at hfull
      cases hfull
    | failed ip u hip hport _ _ _ hg htask =>
      have hno : ¬ AgentEv.Refused (.registerDevice szdevip usport start) := not_refused hip hport
      exact ⟨hg.touched, hg.tasksNum, fun href => absurd href hno, fun _ h0 => by rwa [h0] at htask⟩
    | added ip u hip hport _ _ _ hg htask _ =>
      have hno : ¬ AgentEv.Refused (.registerDevice szdevip usport start) := not_refused hip hport
      exact ⟨hg.touched, hg.tasksNum, fun href => absurd href hno, fun _ h0 => by rwa [h0] at htask⟩
  | sendtoDevice szdevip usport serid data added =>
    cases hstep
    obtain ⟨htouched, htasks, hnum⟩ := sendto_same agent szdevip usport serid data added
    rw [htouched]
    exact ⟨List.prefix_refl _, htasks, fun _ => ⟨rfl, hnum⟩, fun hno => absurd trivial hno⟩
  | devNet devproc devnet =>
    cases hstep
    exact ⟨List.prefix_refl _, rfl, fun _ => ⟨rfl, rfl⟩, fun hno => absurd trivial hno⟩

/-- What is touched stays touched. -/
theorem touched_run {evs : List AgentEv} (hrun : exec CmdagentInfo.step agent evs = some t) :
    agent.touched <+: t.touched ∧ t.tasksNum = agent.tasksNum := by
  refine exec_inv_all (I := fun u : CmdagentInfo => agent.touched <+: u.touched ∧ u.tasksNum = agent.tasksNum) ?_
    ⟨List.prefix_refl _, rfl⟩ hrun
  rintro s ev u ⟨htouched, htasks⟩ hst
  obtain ⟨hmore, hsame, -⟩ := touched_step hst
  exact ⟨htouched.trans hmore, hsame.trans htasks⟩

end

/-- From the start of `main` the calls write to tasks of the cluster only if and only if
every one of them is refused at once: the cluster has the task of the service alone. -/
theorem tasks_allocated_iff (evs : List AgentEv) (agent : CmdagentInfo)
    (hrun : exec CmdagentInfo.step .startup evs = some agent) : agent.TasksAllocated ↔ ∀ ev ∈ evs, AgentEv.Refused ev := by
  have hall : ∀ start : CmdagentInfo, start.devNum = 0 → start.touched = [] → start.tasksNum = 1 →
      exec CmdagentInfo.step start evs = some agent → (agent.TasksAllocated ↔ ∀ ev ∈ evs, AgentEv.Refused ev) := by
    clear hrun
    induction evs with
    | nil =>
      intro start _ htouched _ hrun
      cases hrun
      refine iff_of_true ?_ fun ev hmem => absurd hmem List.not_mem_nil
      intro taskindex hmem
      rw [htouched] at hmem
      cases hmem
    | cons ev evs ih =>
      intro start hnum htouched htasks hrun
      obtain ⟨t, ht, hrest⟩ := exec_cons_eq_some.1 hrun
      obtain ⟨-, hsame, hrefused, htask⟩ := touched_step ht
      rw [List.forall_mem_cons]
      by_cases href : ev.Refused
      · obtain ⟨htouched', hnum'⟩ := hrefused href
        rw [and_iff_right href]
        exact ih t (hnum'.trans hnum) (htouched'.trans htouched) (hsame.trans htasks) hrest
      · -- The first call that is not refused takes task 1.
        obtain ⟨hkept, hlast⟩ := touched_run hrest
        refine iff_of_false (fun halloc => ?_) fun h => href h.1
        have hlt := halloc _ (hkept.subset (htask href hnum))
        rw [hlast, hsame, htasks] at hlt
        exact absurd hlt (Nat.lt_irrefl 1)
  exact hall _ rfl rfl rfl hrun

theorem tasks_allocated_refused : ∃ agent, exec CmdagentInfo.step .startup
    [.registerDevice none 7777 .started, .registerDevice (some "127.0.0.1") 0 .started] = some agent ∧
      agent.TasksAllocated := by
  obtain ⟨agent, hrun⟩ := Option.isSome_iff_exists.1 (by decide +kernel : (exec CmdagentInfo.step .startup
    [.registerDevice none 7777 .started, .registerDevice (some "127.0.0.1") 0 .started]).isSome)
  refine ⟨agent, hrun, (tasks_allocated_iff _ agent hrun).2 ?_⟩
  simp [AgentEv.Refused]

/-- One device, and the task behind the last one. -/
theorem task_not_allocated : ∃ agent, exec CmdagentInfo.step .startup
    [.registerDevice (some "127.0.0.1") 7777 .started] = some agent ∧
      agent.tasksNum = 1 ∧ 1 ∈ agent.touched ∧ ¬ agent.TasksAllocated := by
  obtain ⟨agent, hrun, hend⟩ := (Option.any_eq_true _ _).1 (by decide +kernel : ((exec CmdagentInfo.step .startup
    [.registerDevice (some "127.0.0.1") 7777 .started]).any fun agent => agent.tasksNum = 1 ∧ 1 ∈ agent.touched) = true)
  obtain ⟨htasks, htouched⟩ := of_decide_eq_true hend
  refine ⟨agent, hrun, htasks, htouched, fun halloc => ?_⟩
  have hlt := halloc 1 htouched
  rw [htasks] at hlt
  exact absurd hlt (Nat.lt_irrefl 1)

/-! ## The devices that count -/

/-- The `dev_net` of the entry `idx`. -/
def CmdagentInfo.devNet (agent : CmdagentInfo) (idx : Nat) : DevnetInfo :=
  match (agent.devInfo idx).devproc with
  | none => devnetInitialize
  | some devproc => (agent.procs[devproc]?).elim devnetInitialize DevcomProc.devNet

def CmdagentInfo.devices (agent : CmdagentInfo) : DevInfo :=
  (List.range agent.devNum).map fun idx => ⟨(agent.devInfo idx).ipaddr, (agent.devInfo idx).usport, agent.devNet idx⟩

section
variable {agent t : CmdagentInfo}

theorem find_devices (agent : CmdagentInfo) (ip : String) (usport : UInt16) :
    cmdagentFind agent.devices ip usport = agent.find ip usport := by
  have hsearch : ∀ (p : Nat → Bool) (n : Nat), (List.range n).findIdx? p = (List.range n).find? p := by
    intro p n
    induction n with
    | zero => rfl
    | succ n ih =>
      rw [List.range_succ, List.findIdx?_append, List.find?_append, ih, List.length_range]
      cases (List.range n).find? p with
      | some idx => rfl
      | none => by_cases hn : p n = true <;> simp [hn]
  unfold cmdagentFind CmdagentInfo.devices CmdagentInfo.find
  rw [List.findIdx?_map]
  exact hsearch _ _

theorem length_devices (agent : CmdagentInfo) : agent.devices.length = agent.devNum := by
  rw [CmdagentInfo.devices, List.length_map, List.length_range]

/-- What an entry looks like does not change with more `devcom_proc`s. -/
theorem devices_grows (h : agent.Inv) (hg : Grows agent t) : t.devices = agent.devices := by
  unfold CmdagentInfo.devices
  rw [hg.devNum]
  refine List.map_congr_left fun idx hmem => ?_
  have hlt := List.mem_range.1 hmem
  have hentry := hg.later.devInfo idx hlt
  obtain ⟨-, -, devproc, proc, hdev, hproc, -⟩ := h.owns idx hlt
  obtain ⟨more, hmore⟩ := hg.procs
  have hproc' : t.procs[devproc]? = some proc := by
    rw [← hmore, List.getElem?_append_left (List.getElem?_eq_some_iff.1 hproc).1]
    exact hproc
  simp only [CmdagentInfo.devNet, hentry, hdev, hproc, hproc']

theorem devices_added {ip : String} {usport : UInt16} (h : agent.Inv) (hg : Grows agent t)
    (hentry : NewEntry agent ip usport t) :
    ({ t with devNum := t.devNum + 1 } : CmdagentInfo).devices = agent.devices ++ [⟨ip, usport, devnetInitialize⟩] := by
  rw [← devices_grows h hg]
  unfold CmdagentInfo.devices
  dsimp only
  rw [List.range_succ, List.map_append, List.map_singleton, hg.devNum]
  simp [CmdagentInfo.devNet, hentry.entry, hentry.procs]

/-- The table keeps the devices `cmdagentRegisterDevice` keeps. -/
theorem registerDevice_devices (h : agent.Inv) (ip : String) (usport : UInt16) (start : TaskStart) :
    ((agent.registerDevice (some ip) usport start).1, (agent.registerDevice (some ip) usport start).2.devices) =
      cmdagentRegisterDevice agent.devices ip usport (start = .started) := by
  unfold cmdagentRegisterDevice
  rw [find_devices, length_devices]
  have hfind : (∀ idx, ¬ agent.HasPair ip usport idx) → agent.find ip usport = none := find_eq_none.2
  have hr := registering_of agent (some ip) usport start
  generalize agent.registerDevice (some ip) usport start = r at hr
  cases hr with
  | refused href =>
    have hport : usport = 0 := href.resolve_left (by simp)
    rw [if_pos hport]
  | known ip idx hip hport hpair =>
    cases hip
    rw [if_neg hport, if_pos (find_isSome hpair)]
  | full ip hip hport hnew hfull =>
    cases hip
    rw [if_neg hport, hfind hnew, if_neg (by simp), if_pos hfull]
  | failed ip u hip hport hnew hroom hstart hg _ =>
    cases hip
    rw [if_neg hport, hfind hnew, if_neg (by simp), if_neg (Nat.not_le.2 hroom), if_neg (by simpa using hstart),
      devices_grows h hg]
  | added ip u hip hport hnew hroom hstart hg _ hentry =>
    cases hip
    rw [if_neg hport, hfind hnew, if_neg (by simp), if_neg (Nat.not_le.2 hroom), if_pos (by simpa using hstart),
      devices_added h hg hentry]

/-- Only the entry the `devcom_proc` was made for sees its `dev_net` change. -/
theorem devices_modifyProc (h : agent.Inv) {idx devproc : Nat} (hlt : idx < agent.devNum)
    (hdev : (agent.devInfo idx).devproc = some devproc) (f : DevnetInfo → DevnetInfo) :
    (agent.modifyProc devproc f).devices = modifyDevNet agent.devices idx f := by
  obtain ⟨-, -, d, proc, hd, hproc, hidx, -⟩ := h.owns idx hlt
  cases hdev.symm.trans hd
  refine List.ext_getElem? fun i => ?_
  unfold CmdagentInfo.devices modifyDevNet
  rw [List.getElem?_modify, List.getElem?_map, List.getElem?_map]
  by_cases hi : i < agent.devNum
  · obtain ⟨-, -, d', proc', hd', hproc', hidx', -⟩ := h.owns i hi
    rw [List.getElem?_range (show i < (agent.modifyProc devproc f).devNum from hi), List.getElem?_range hi]
    by_cases he : idx = i
    · subst he
      simp [CmdagentInfo.devNet, CmdagentInfo.modifyProc, hdev, hproc]
    · have hne : devproc ≠ d' := by
        rintro rfl
        cases hproc.symm.trans hproc'
        exact he (hidx.symm.trans hidx')
      simp [CmdagentInfo.devNet, CmdagentInfo.modifyProc, hd', hne, he]
  · have hend : (List.range agent.devNum)[i]? = none := by simpa using hi
    rw [show (List.range (agent.modifyProc devproc f).devNum)[i]? = none from hend, hend]
    rfl

/-- What is sent reaches the device `cmdagentSendtoDevice` sends it to. -/
theorem sendtoDevice_devices (h : agent.Inv) (ip : String) (usport : UInt16) (serid : Int) (data : List UInt8)
    (added : Bool) :
    ((agent.sendtoDevice (some ip) usport serid data added).1,
        (agent.sendtoDevice (some ip) usport serid data added).2.devices) =
      cmdagentSendtoDevice agent.devices ip usport serid data added := by
  unfold CmdagentInfo.sendtoDevice cmdagentSendtoDevice
  rw [find_devices]
  dsimp only
  by_cases hport : usport = 0
  · rw [if_pos hport, if_pos hport]
  rw [if_neg hport, if_neg hport]
  cases hfind : agent.find ip usport with
  | none => rfl
  | some idx =>
    have hlt := (find_hasPair hfind).1
    obtain ⟨-, -, devproc, -, hdev, -⟩ := h.owns idx hlt
    simp only [devcomWrite, hdev, devices_modifyProc h hlt hdev]

end

end CmdAgent

import CmdAgent.Registry
/-!
# What `cmdagent_sendto_device` reports

The result of `devnet_write` says whether the data was queued. `cmdagent_sendto_device`
gets it through `devcom_write` and returns 0 all the same.
-/
open StreamLib.Runs

namespace CmdAgent

/-! ## `devnet_write` -/

section
variable (devnet : DevnetInfo) (serid : Int) (data : List UInt8) (added : Bool)

theorem devnetWrite_output : (devnetWrite devnet serid data added).2.output =
    if devnetIsconnected devnet ∧ added then devnet.output ++ [(serid, data)] else devnet.output := by
  unfold devnetWrite
  cases devnetIsconnected devnet <;> cases added <;> simp

end

/-! ## `cmdagent_sendto_device` -/

namespace CmdagentInfo

/-- The device the call is for. -/
def target (agent : CmdagentInfo) (szdevip : Option String) (usport : UInt16) : Option Nat :=
  szdevip.bind fun ip => if usport = 0 then none else agent.find ip usport

/-- The `devcom_proc` of a device. -/
def procOf (agent : CmdagentInfo) (idx : Nat) : Option DevcomProc :=
  (agent.devInfo idx).devproc.bind fun devproc => agent.procs[devproc]?

/-- In `t` the chunk is behind the output of the connected bufferevent of the device. -/
def Queued (agent : CmdagentInfo) (szdevip : Option String) (usport : UInt16) (serid : Int) (data : List UInt8)
    (t : CmdagentInfo) : Prop :=
  ∃ idx ∈ agent.target szdevip usport, ∃ proc ∈ agent.procOf idx, devnetIsconnected proc.devNet ∧
    (t.procOf idx).map (fun proc => proc.devNet.output) = some (proc.devNet.output ++ [(serid, data)])

/-- What a call reports by its result: 0 for a chunk that was queued; else a negative value,
and no `nserid` has changed. -/
structure Reports (agent : CmdagentInfo) (szdevip : Option String) (usport : UInt16) (serid : Int) (data : List UInt8)
    (r : Int × CmdagentInfo) : Prop where
  queued : r.1 = 0 → agent.Queued szdevip usport serid data r.2
  refused : ¬ agent.Queued szdevip usport serid data r.2 → r.1 < 0 ∧
    r.2.procs.map (fun proc => proc.devNet.nserid) = agent.procs.map fun proc => proc.devNet.nserid

/-- Unless the device is unknown, its link is up and `evbuffer_add` succeeds. -/
def Deliverable (agent : CmdagentInfo) (szdevip : Option String) (usport : UInt16) (added : Bool) : Prop :=
  ∀ idx ∈ agent.target szdevip usport, ∃ proc ∈ agent.procOf idx, devnetIsconnected proc.devNet ∧ added

variable (agent : CmdagentInfo) (szdevip : Option String) (usport : UInt16) (serid : Int) (data : List UInt8)
  (added : Bool)

theorem sendtoDevice_eq : agent.sendtoDevice szdevip usport serid data added =
    match agent.target szdevip usport with
    | none => (-1, agent)
    | some idx => (0, devcomWrite agent (agent.devInfo idx).devproc serid data added) := by
  unfold sendtoDevice target
  cases szdevip with
  | none => rfl
  | some ip =>
    by_cases hport : usport = 0
    · simp [hport]
    · rw [Option.bind_some, if_neg hport]
      refine (if_neg hport).trans ?_
      rfl

theorem devcomWrite_procOf {idx : Nat} {proc : DevcomProc} (h : agent.procOf idx = some proc) :
    (devcomWrite agent (agent.devInfo idx).devproc serid data added).procOf idx =
      some { proc with devNet := (devnetWrite proc.devNet serid data added).2 } := by
  obtain ⟨devproc, hdev, hproc⟩ := Option.bind_eq_some_iff.1 h
  unfold devcomWrite procOf
  rw [hdev]
  dsimp only [modifyProc]
  rw [hdev, Option.bind_some, List.getElem?_modify, hproc]
  simp

theorem queued_iff {idx : Nat} (htarget : agent.target szdevip usport = some idx) :
    agent.Queued szdevip usport serid data (devcomWrite agent (agent.devInfo idx).devproc serid data added) ↔
      ∃ proc ∈ agent.procOf idx, devnetIsconnected proc.devNet ∧ added := by
  unfold Queued
  rw [htarget]
  constructor
  · rintro ⟨idx', ⟨⟩, proc, hproc, hconn, hout⟩
    rw [devcomWrite_procOf agent serid data added hproc, Option.map_some, devnetWrite_output] at hout
    refine ⟨proc, hproc, hconn, ?_⟩
    by_contra hadd
    rw [if_neg fun h => hadd h.2] at hout
    simpa using congrArg List.length (Option.some.inj hout)
  · rintro ⟨proc, hproc, hconn, hadd⟩
    refine ⟨idx, rfl, proc, hproc, hconn, ?_⟩
    rw [devcomWrite_procOf agent serid data added hproc, Option.map_some, devnetWrite_output, if_pos ⟨hconn, hadd⟩]

/-- For no device of the agent the call changes nothing and says so. -/
theorem reports_unknown (htarget : agent.target szdevip usport = none) :
    agent.Reports szdevip usport serid data (agent.sendtoDevice szdevip usport serid data added) := by
  rw [sendtoDevice_eq, htarget]
  exact ⟨fun h0 => absurd h0 (show (-1 : Int) ≠ 0 by decide), fun _ => ⟨show (-1 : Int) < 0 by decide, rfl⟩⟩

/-- For a device of the agent it says 0 whatever `devnet_write` does. -/
theorem reports_known {idx : Nat} (htarget : agent.target szdevip usport = some idx) :
    agent.Reports szdevip usport serid data (agent.sendtoDevice szdevip usport serid data added) ↔
      ∃ proc ∈ agent.procOf idx, devnetIsconnected proc.devNet ∧ added := by
  rw [sendtoDevice_eq, htarget, ← queued_iff agent szdevip usport serid data added htarget]
  exact ⟨fun h => h.queued rfl, fun hq => ⟨fun _ => hq, fun hno => absurd hq hno⟩⟩

/-- A call reports what it has done exactly if the device is unknown or the chunk is queued. -/
theorem sendtoDevice_reports_iff :
    agent.Reports szdevip usport serid data (agent.sendtoDevice szdevip usport serid data added) ↔
      agent.Deliverable szdevip usport added := by
  unfold Deliverable
  cases htarget : agent.target szdevip usport with
  | none => exact ⟨fun _ _ hidx => (Option.not_mem_none _ hidx).elim, fun _ => reports_unknown _ _ _ _ _ _ htarget⟩
  | some idx =>
    rw [reports_known agent szdevip usport serid data added htarget]
    constructor
    · intro hproc idx' hidx
      cases hidx
      exact hproc
    · exact fun h => h idx rfl

/-- A device whose link is not up yet, and one whose output takes nothing: each time 0, and
the second time `nserid` is another. -/
theorem sendtoDevice_unreported :
    let agent := (startup.registerDevice (some "127.0.0.1") 7777 .started).2
    let up := agent.modifyProc 0 fun devnet => devnetConnected (devnetConnect devnet)
    let r := agent.sendtoDevice (some "127.0.0.1") 7777 5 [1, 2] true
    let r' := up.sendtoDevice (some "127.0.0.1") 7777 5 [1, 2] false
    r.1 = 0 ∧ ¬ agent.Reports (some "127.0.0.1") 7777 5 [1, 2] r ∧
      r'.1 = 0 ∧ r'.2.procs.map (fun proc => proc.devNet.nserid) = [5] ∧
      ¬ up.Reports (some "127.0.0.1") 7777 5 [1, 2] r' := by
  intro agent up r r'
  have htarget : agent.target (some "127.0.0.1") 7777 = some 0 := by decide +kernel
  have htarget' : up.target (some "127.0.0.1") 7777 = some 0 := by decide +kernel
  have hdown : ∀ proc ∈ agent.procOf 0, devnetIsconnected proc.devNet = false := by decide +kernel
  refine ⟨by decide +kernel, fun h => ?_, by decide +kernel, by decide +kernel, fun h => ?_⟩
  · obtain ⟨proc, hproc, hconn, -⟩ := (reports_known _ _ _ _ _ _ htarget).1 h
    rw [hdown proc hproc] at hconn
    cases hconn
  · obtain ⟨-, -, -, hadd⟩ := (reports_known _ _ _ _ _ _ htarget').1 h
    cases hadd

end CmdagentInfo

end CmdAgent

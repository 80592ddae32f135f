import CmdAgent.Acked
import CmdAgent.Wakeup
/-!
# Completions and the waiting sender

The entry of a command goes back to `wrbuf_unused_list` whatever its callback does. On
an acknowledgement of another command, or a request, the callback sets the result and
returns without `wakeup`, so the sender is not told.
-/
open StreamLib.Runs

namespace CmdAgent

/-! ## Results of the callbacks -/

def Completed (outret : Int) : Prop :=
  outret = l0006NetcomAckSuccess ∨ outret = l0006NetcomAckFail ∨ outret = l0006NetcomAckTimeout

instance (outret : Int) : Decidable (Completed outret) := inferInstanceAs (Decidable (_ ∨ _ ∨ _))

theorem action_completed {onAck : List UInt8 → Int × Option (List UInt8)} (hack : ∀ pkt, Completed (onAck pkt).1)
    (cmd : UInt8) (packet : Option (List UInt8)) : Completed (netcmdAction onAck cmd packet).outret := by
  unfold netcmdAction
  cases packet with
  | none => exact .inr (.inr rfl)
  | some pkt =>
    dsimp only
    split
    · exact hack pkt
    · exact .inr (.inl rfl)

theorem call_completed (actioncb : Actioncb) (alloc : Bool) (cmd : UInt8) (packet : Option (List UInt8)) :
    Completed (actioncb.call alloc cmd packet).outret := by
  cases actioncb with
  | general => exact action_completed (fun _ => .inl rfl) cmd packet
  | general2 => exact action_completed (fun _ => .inl rfl) cmd packet
  | exGeneral sz =>
    refine action_completed (fun pkt => ?_) cmd packet
    split
    · dsimp only
      split
      · split
        · exact .inl rfl
        · split
          · exact .inl rfl
          · exact .inr (.inl rfl)
      · exact .inr (.inl rfl)
    · exact .inl rfl

/-! ## Completions -/

/-- The sender is told: its entry is free again, its result is set and the callback has
executed `wakeup`, so the task remembers it and no call is left blocked on the task. -/
structure Told (host host' : Host) (ncwrbuf : NetcomWrbuf CmdAction) (acted : Acted) : Prop where
  unused : host'.nc.unused = host.nc.unused ++ [ncwrbuf]
  result : ∃ call, host'.calls[ncwrbuf.action.cb.outret]? = some call ∧ call.retval = acted.outret ∧
    Completed call.retval
  wakeup : acted.wakeup = true
  early : (host'.task ncwrbuf.action.cb.wait).wakeupEarly = true
  free : ∀ (id : Nat) (call : Call), host'.calls[id]? = some call → call.waitTask = ncwrbuf.action.cb.wait →
    call.pc ≠ .waiting false

/-- If the event completes a command, the sender is told. -/
def Host.Tells (host : Host) (ev : HostEv) : Prop :=
  ∀ c ∈ host.completion ev, ∃ host', host.step ev = some host' ∧
    Told host host' c.1 (c.1.action.cb.actioncb.call ev.alloc c.1.action.cb.cmd c.2)

/-- If the event completes a command, it is a time-out or has the acknowledgement of the command. -/
def Host.Expected (host : Host) (ev : HostEv) : Prop :=
  ∀ c ∈ host.completion ev, wakes c.1.action.cb.cmd c.2 = true

instance (host : Host) (ev : HostEv) : Decidable (host.Expected ev) :=
  inferInstanceAs (Decidable (∀ c ∈ host.completion ev, wakes c.1.action.cb.cmd c.2 = true))

/-- A broadcast leaves no call of the task blocked. -/
theorem signal_pc (call : Call) : (call.signal call.waitTask).pc ≠ .waiting false := by
  unfold Call.signal
  split
  · simp
  · rename_i hne
    exact hne false

/-- A broadcast changes at most what a waiting call does next. -/
theorem signal_eq (task : Nat) (call : Call) :
    ∃ pc : Pc, pc.stage = call.pc.stage ∧ call.signal task = { call with pc := pc } := by
  unfold Call.signal
  split
  · rename_i hpc
    split
    · exact ⟨.waiting true, by rw [hpc]; rfl, rfl⟩
    · exact ⟨call.pc, rfl, rfl⟩
  · exact ⟨call.pc, rfl, rfl⟩

theorem act_told {host : Host} {ncwrbuf : NetcomWrbuf CmdAction} {packet : Option (List UInt8)} {alloc : Bool}
    {nc : Netcom CmdAction} (hunused : nc.unused = host.nc.unused ++ [ncwrbuf]) (howned : Owned host.calls ncwrbuf)
    (hwakes : wakes ncwrbuf.action.cb.cmd packet = true) :
    Told host ({ host with nc := nc }.act ncwrbuf.action.cb packet alloc) ncwrbuf
      (ncwrbuf.action.cb.actioncb.call alloc ncwrbuf.action.cb.cmd packet) := by
  obtain ⟨call, hc, -, -⟩ := howned
  have hwakeup := call_wakeup ncwrbuf.action.cb.actioncb alloc ncwrbuf.action.cb.cmd packet
  rw [hwakes] at hwakeup
  have hact : { host with nc := nc }.act ncwrbuf.action.cb packet alloc =
      Host.wakeup { host with
        nc := nc
        calls := host.calls.modify ncwrbuf.action.cb.outret fun call => { call with
          retval := (ncwrbuf.action.cb.actioncb.call alloc ncwrbuf.action.cb.cmd packet).outret
          out := (ncwrbuf.action.cb.actioncb.call alloc ncwrbuf.action.cb.cmd packet).out.or call.out }
        runs := host.runs ++ [⟨ncwrbuf.action.cb.outret, packet⟩] } ncwrbuf.action.cb.wait := by
    simp only [Host.act, hwakeup, if_true]
  rw [hact]
  constructor
  case unused => exact hunused
  case result =>
    refine ⟨_, by simp only [Host.wakeup, List.getElem?_map, List.getElem?_modify, hc, if_true]; rfl, ?_⟩
    obtain ⟨pc, -, heq⟩ := signal_eq ncwrbuf.action.cb.wait _
    rw [heq]
    exact ⟨rfl, call_completed _ _ _ _⟩
  case wakeup => exact hwakeup
  case early => simp [Host.wakeup, taskWakeup]
  case free =>
    intro id call' hc' hwait
    simp only [Host.wakeup, List.getElem?_map] at hc'
    obtain ⟨call₀, -, rfl⟩ := Option.map_eq_some_iff.1 hc'
    obtain ⟨pc, -, heq⟩ := signal_eq ncwrbuf.action.cb.wait call₀
    rw [heq] at hwait
    rw [← hwait]
    exact signal_pc call₀

/-- With its command's call behind every entry, a completion tells the sender exactly
if it is a time-out or the acknowledgement. -/
theorem tells_iff {host : Host} (howns : host.Owns) (ev : HostEv) : host.Tells ev ↔ host.Expected ev := by
  constructor
  · rintro htells ⟨ncwrbuf, packet⟩ hmem
    obtain ⟨host', -, htold⟩ := htells _ hmem
    rw [← call_wakeup]
    exact htold.wakeup
  · rintro hexp ⟨ncwrbuf, packet⟩ hmem
    obtain ⟨nc, l₁, l₂, hused, -, hunused, -, hstep⟩ := step_completion hmem
    have hwaits : ncwrbuf ∈ host.nc.used := by
      rw [hused]
      exact List.mem_append_right _ List.mem_cons_self
    exact ⟨_, hstep, act_told hunused (howns ncwrbuf hwaits) (hexp _ hmem)⟩

theorem Host.init_owns : Host.init.Owns := by
  intro ncwrbuf hmem
  cases hmem

/-- Whatever command it is for, a callback sets one of the three results, and wakes the
task exactly if it is called for a time-out or for the acknowledgement of its command. So
in a run every completion tells the sender, if and only if none is by another packet. -/
theorem completions_wake_iff (actioncb : Actioncb) (alloc : Bool) (cmd : UInt8) (packet : Option (List UInt8))
    (evs : List HostEv) :
    (Completed (actioncb.call alloc cmd packet).outret ∧
      ((actioncb.call alloc cmd packet).wakeup = true ↔
        ∀ pkt ∈ packet, (cmdOf pkt).toNat = l0006NetcmdGetackcmd cmd)) ∧
    (Along Host.step Host.Tells Host.init evs ↔ Along Host.step Host.Expected Host.init evs) := by
  refine ⟨⟨call_completed _ _ _ _, ?_⟩, ?_, ?_⟩
  · rw [call_wakeup]
    cases packet with
    | none => simp [wakes]
    | some pkt => simp [wakes]
  · exact along_inv (fun _ _ _ hs _ hst => hs.step hst) (fun _ ev hs => (tells_iff hs ev).1) Host.init_owns
  · exact along_inv (fun _ _ _ hs _ hst => hs.step hst) (fun _ ev hs => (tells_iff hs ev).2) Host.init_owns

/-- `l0006_cmdset_setwindowsize` waits, and a BLINKACK has the number of its command. -/
def otherAckRun : List HostEv :=
  .link true (some 0) :: .call (.setwindowsize 1) 0 :: List.replicate 4 (.run 0 ⟨0, 0⟩ true) ++
    [.ack (l0006NetcmdFormat l0006NetcmdBlinkack 0 0 0) true]

/-- Its command is not pending any more, it has failed, and it stays blocked. -/
theorem completion_untold : ¬ Along Host.step Host.Tells Host.init otherAckRun ∧
    ∃ host call, exec Host.step Host.init otherAckRun = some host ∧ host.nc.used = [] ∧ host.calls[0]? = some call ∧
      call.retval = l0006NetcomAckFail ∧ call.pc = .waiting false := by
  constructor
  · intro htells
    have hexp : Along Host.step Host.Expected Host.init otherAckRun :=
      along_inv (fun _ _ _ hs _ hst => hs.step hst) (fun _ ev hs => (tells_iff hs ev).1) Host.init_owns htells
    exact absurd hexp (by decide +kernel)
  · have hend : (exec Host.step Host.init otherAckRun).any fun host => host.nc.used.isEmpty &&
        (host.calls[0]?).any fun call => call.retval = l0006NetcomAckFail ∧ call.pc = .waiting false := by
      decide +kernel
    obtain ⟨host, hrun, hhost⟩ := (Option.any_eq_true _ _).1 hend
    obtain ⟨hused, hcalls⟩ := Bool.and_eq_true_iff.1 hhost
    obtain ⟨call, hcall, hdone⟩ := (Option.any_eq_true _ _).1 hcalls
    obtain ⟨hret, hpc⟩ := of_decide_eq_true hdone
    exact ⟨host, call, hrun, List.isEmpty_iff.1 hused, hcall, hret, hpc⟩

end CmdAgent

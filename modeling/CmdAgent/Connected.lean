import CmdAgent.NetcomInfo
import CmdAgent.StreamLib.Runs
/-!
# The `CONNECTED` flag

Only `netcom_eventcb` writes the flag, while three other functions change the
bufferevent. `reports` keeps what each bufferevent has reported. The flag describes the
present one exactly as long as none of the three is called while it is set.
-/
open StreamLib.Lifetime StreamLib.Runs

namespace CmdAgent

variable {α : Type}

/-! ## The system -/

structure NetcomLine (α : Type) where
  info : NetcomInfo α
  reports : Nat → List UInt16

inductive LineEv (α : Type) where
  | connect (made started : Bool)
  | connect2 (made started : Bool)
  | disconnect
  /-- An event of the present bufferevent. -/
  | event (events : UInt16)
  | write (ncaction : NetcomAction α) (ack : Bool) (ts : Timespec) (added : Bool)

namespace NetcomLine

/-- After `l0006_netcom_initialize`. -/
def init [Inhabited α] : NetcomLine α where
  info := (NetcomInfo.zeroed.l0006NetcomInitialize ⟨0, 0, true, true, true, true, true, true⟩).2
  reports := fun _ => []

/-- `none` where there is no bufferevent to report something. -/
def step (line : NetcomLine α) : LineEv α → Option (NetcomLine α)
  | .connect made started => some { line with info := (line.info.l0006NetcomConnect made started).2 }
  | .connect2 made started => some { line with info := (line.info.l0006NetcomConnect2 made started).2 }
  | .disconnect => some { line with info := line.info.l0006NetcomDisconnect }
  | .event events => line.info.nc.bev.map fun bev =>
    { info := { line.info with nc := netcomEventcb line.info.nc events }
      reports := Function.update line.reports bev (line.reports bev ++ [events]) }
  | .write ncaction ack ts added =>
    some { line with info := { line.info with nc := (l0006NetcomWrite line.info.nc ncaction ack ts added).2 } }

/-- The present bufferevent is connected. -/
def Up (line : NetcomLine α) : Prop := ∃ bev, line.info.nc.bev = some bev ∧ Established (line.reports bev)

/-- The flag is set only if the present bufferevent is connected. -/
def Describes (line : NetcomLine α) : Prop := line.info.nc.connected = true → line.Up

/-- Data is queued only if the present bufferevent is connected. -/
def WritesUp (line : NetcomLine α) : LineEv α → Prop
  | .write ncaction ack ts added => (l0006NetcomWrite line.info.nc ncaction ack ts added).1 = 0 → line.Up
  | _ => True

/-- The bufferevent is not changed while the flag is set. -/
def Unlinked (line : NetcomLine α) : LineEv α → Prop
  | .connect .. | .connect2 .. | .disconnect => line.info.nc.connected = false
  | _ => True

instance (line : NetcomLine α) : (ev : LineEv α) → Decidable (line.Unlinked ev)
  | .connect .. | .connect2 .. | .disconnect => inferInstanceAs (Decidable (line.info.nc.connected = false))
  | .event _ | .write .. => .isTrue trivial

end NetcomLine

/-! ## What the functions change -/

@[simp] theorem next_useAt (heap : Heap) (ptr : Option Nat) : (heap.useAt ptr).next = heap.next := by cases ptr <;> rfl

@[simp] theorem next_freeAt (heap : Heap) (ptr : Option Nat) : (heap.freeAt ptr).next = heap.next := by cases ptr <;> rfl

/-- Only the bufferevent is changed, and what it is changed to is new. -/
structure Relinks (info info' : NetcomInfo α) : Prop where
  nc : ∃ bev, info'.nc = { info.nc with bev := bev }
  le : info.heap.next ≤ info'.heap.next
  new : ∀ bev ∈ info'.nc.bev, info.heap.next ≤ bev ∧ bev < info'.heap.next

theorem relinks_new (info : NetcomInfo α) (made : Bool) : Relinks info (info.dropBev.newBev made) := by
  unfold NetcomInfo.newBev NetcomInfo.dropBev NetcomInfo.freeBev Heap.make
  cases made with
  | false => exact ⟨⟨none, rfl⟩, by simp, by simp⟩
  | true => exact ⟨⟨_, rfl⟩, by simp [Heap.new], by simp [Heap.new]⟩

theorem Relinks.pass {info info' : NetcomInfo α} (h : Relinks info info') : Relinks info info'.passBev := by
  have hnext : info'.passBev.heap.next = info'.heap.next := next_useAt _ _
  exact ⟨h.nc, hnext ▸ h.le, hnext ▸ h.new⟩

theorem Relinks.free {info info' : NetcomInfo α} (h : Relinks info info') : Relinks info info'.freeBev := by
  have hnext : info'.freeBev.heap.next = info'.heap.next := next_freeAt _ _
  exact ⟨h.nc, hnext ▸ h.le, hnext ▸ h.new⟩

theorem Relinks.drop {info info' : NetcomInfo α} (h : Relinks info info') : Relinks info info'.dropBev := by
  obtain ⟨⟨bev, hnc⟩, hle, -⟩ := h.free
  have hnc : info'.nc = { info.nc with bev := bev } := hnc
  exact ⟨⟨none, by rw [NetcomInfo.dropBev, hnc]⟩, hle, by simp [NetcomInfo.dropBev]⟩

theorem relinks_connect (info : NetcomInfo α) (made started : Bool) :
    Relinks info (info.l0006NetcomConnect made started).2 := by
  have hnew := relinks_new info made
  unfold NetcomInfo.l0006NetcomConnect
  dsimp only
  split
  · exact hnew
  · split
    · exact hnew.pass.pass.pass
    · exact hnew.pass.pass.pass.free.drop

theorem relinks_connect2 (info : NetcomInfo α) (made started : Bool) :
    Relinks info (info.l0006NetcomConnect2 made started).2 := by
  have hnew := relinks_new info made
  unfold NetcomInfo.l0006NetcomConnect2
  dsimp only
  split
  · exact hnew
  · split
    · exact hnew.pass.pass.pass
    · exact hnew.pass.drop

theorem relinks_disconnect (info : NetcomInfo α) : Relinks info info.l0006NetcomDisconnect :=
  ⟨⟨none, rfl⟩, by simp [NetcomInfo.l0006NetcomDisconnect, NetcomInfo.dropBev, NetcomInfo.freeBev], by
    simp [NetcomInfo.l0006NetcomDisconnect, NetcomInfo.dropBev]⟩

/-- A write changes neither the flag nor the bufferevent, and queues nothing without
both. -/
theorem write_frame (nc : Netcom α) (ncaction : NetcomAction α) (ack : Bool) (ts : Timespec) (added : Bool) :
    (l0006NetcomWrite nc ncaction ack ts added).2.connected = nc.connected ∧
      (l0006NetcomWrite nc ncaction ack ts added).2.bev = nc.bev ∧
        ((l0006NetcomWrite nc ncaction ack ts added).1 = 0 → nc.connected = true) := by
  unfold l0006NetcomWrite
  split
  · split
    · cases added <;> cases ack <;> simp_all
    · simp_all
  · simp_all

theorem eventcb_frame (nc : Netcom α) (events : UInt16) :
    (netcomEventcb nc events).bev = nc.bev ∧
      (netcomEventcb nc events).connected =
        (reportsConnected events || nc.connected && !reportsBroken events) := by
  unfold netcomEventcb reportsConnected reportsBroken
  by_cases hup : events &&& bevEventConnected = 0
  · by_cases hdown : events &&& (bevEventError ||| bevEventEof) = 0
    · simp [hup, hdown]
    · simp [hup, hdown]
  · simp [hup]

/-! ## Steps -/

namespace NetcomLine
variable {line line' : NetcomLine α}

/-- Only bufferevents that have been made report something. -/
structure Reported (line : NetcomLine α) : Prop where
  made : ∀ bev ∈ line.info.nc.bev, bev < line.info.heap.next
  fresh : ∀ bev, line.info.heap.next ≤ bev → line.reports bev = []

theorem Reported.relink (h : line.Reported) {info : NetcomInfo α} (hr : Relinks line.info info) :
    ({ line with info := info } : NetcomLine α).Reported :=
  ⟨fun bev hbev => (hr.new bev hbev).2, fun bev hbev => h.fresh bev (Nat.le_trans hr.le hbev)⟩

theorem Reported.step (s : NetcomLine α) (ev : LineEv α) (t : NetcomLine α) (h : s.Reported)
    (hst : s.step ev = some t) : t.Reported := by
  cases ev with
  | connect made started => cases hst; exact h.relink (relinks_connect _ made started)
  | connect2 made started => cases hst; exact h.relink (relinks_connect2 _ made started)
  | disconnect => cases hst; exact h.relink (relinks_disconnect _)
  | event events =>
    obtain ⟨bev, hbev, rfl⟩ := Option.map_eq_some_iff.1 hst
    constructor
    · intro b hb
      rw [(eventcb_frame _ events).1] at hb
      exact h.made b hb
    · intro b hb
      have hne : b ≠ bev := fun he => Nat.lt_irrefl _ (Nat.lt_of_lt_of_le (h.made bev hbev) (he ▸ hb))
      exact (Function.update_of_ne hne _ _).trans (h.fresh b hb)
  | write ncaction ack ts added =>
    cases hst
    refine ⟨fun b hb => h.made b ?_, h.fresh⟩
    rwa [← (write_frame s.info.nc ncaction ack ts added).2.1]

/-- A new bufferevent has not reported anything yet. -/
theorem describes_relink (h : line.Reported) {info : NetcomInfo α} (hr : Relinks line.info info) :
    ({ line with info := info } : NetcomLine α).Describes ↔ line.info.nc.connected = false := by
  obtain ⟨bev, hnc⟩ := hr.nc
  have hdown : ¬ ({ line with info := info } : NetcomLine α).Up := by
    rintro ⟨b, hb, hup⟩
    have hfresh : line.reports b = [] := h.fresh b (hr.new b hb).1
    exact not_established_nil (hfresh ▸ hup)
  have hflag : info.nc.connected = line.info.nc.connected := by rw [hnc]
  unfold Describes
  rw [← Bool.not_eq_true, ← hflag]
  exact ⟨fun h hc => hdown (h hc), fun h hc => absurd hc h⟩

theorem describes_step (s : NetcomLine α) (ev : LineEv α) (t : NetcomLine α) (h : s.Reported) (hs : s.Describes)
    (hst : s.step ev = some t) : t.Describes ↔ s.Unlinked ev := by
  cases ev with
  | connect made started => cases hst; exact describes_relink h (relinks_connect _ made started)
  | connect2 made started => cases hst; exact describes_relink h (relinks_connect2 _ made started)
  | disconnect => cases hst; exact describes_relink h (relinks_disconnect _)
  | event events =>
    obtain ⟨bev, hbev, rfl⟩ := Option.map_eq_some_iff.1 hst
    obtain ⟨hsame, hflag⟩ := eventcb_frame s.info.nc events
    refine iff_of_true (fun hup => ⟨bev, hsame.trans hbev, ?_⟩) trivial
    rw [hflag, Bool.or_eq_true, Bool.and_eq_true, Bool.not_eq_true'] at hup
    have hreports : Function.update s.reports bev (s.reports bev ++ [events]) bev = s.reports bev ++ [events] :=
      Function.update_self _ _ _
    apply hreports.symm ▸ (established_snoc (s.reports bev) events).2
    rcases hup with hup | ⟨hold, hdown⟩
    · exact .inl hup
    · obtain ⟨b, hb, hest⟩ := hs hold
      cases hbev.symm.trans hb
      exact .inr ⟨hest, hdown⟩
  | write ncaction ack ts added =>
    cases hst
    obtain ⟨hflag, hbev, -⟩ := write_frame s.info.nc ncaction ack ts added
    refine iff_of_true (fun hup => ?_) trivial
    obtain ⟨b, hb, hest⟩ := hs (hflag ▸ hup)
    exact ⟨b, hbev.trans hb, hest⟩

theorem writesUp_of_describes (h : line.Describes) (ev : LineEv α) : line.WritesUp ev := by
  cases ev with
  | write ncaction ack ts added => exact fun hq => h ((write_frame _ ncaction ack ts added).2.2 hq)
  | _ => trivial

end NetcomLine

/-! ## Runs -/

/-- The flag describes the present connection, and data is queued on it only, exactly
in the runs that neither connect nor disconnect while the flag is set. -/
theorem netcom_connected_iff [Inhabited α] (evs : List (LineEv α)) (line : NetcomLine α)
    (hrun : exec NetcomLine.step NetcomLine.init evs = some line) :
    (Throughout NetcomLine.step NetcomLine.Describes NetcomLine.init evs ∧
        Along NetcomLine.step NetcomLine.WritesUp NetcomLine.init evs) ↔
      Along NetcomLine.step NetcomLine.Unlinked NetcomLine.init evs := by
  have hreported : (NetcomLine.init : NetcomLine α).Reported := ⟨nofun, fun _ _ => rfl⟩
  have hinit : (NetcomLine.init : NetcomLine α).Describes := nofun
  have hiff := throughout_iff_along NetcomLine.Reported.step NetcomLine.describes_step hreported hinit hrun
  constructor
  · rintro ⟨hflag, -⟩
    exact hiff.1 hflag
  · intro hok
    refine ⟨hiff.2 hok, ?_⟩
    apply along_inv (I := fun s => s.Reported ∧ s.Describes) _ _ ⟨hreported, hinit⟩ hok
    · rintro s ev t ⟨hr, hd⟩ hclear hst
      exact ⟨hr.step s ev t hst, (NetcomLine.describes_step s ev t hr hd hst).2 hclear⟩
    · rintro s ev ⟨-, hd⟩ -
      exact NetcomLine.writesUp_of_describes hd ev

/-- A connection breaks before the next is made. -/
theorem netcom_connected_reconnect :
    Throughout NetcomLine.step NetcomLine.Describes (NetcomLine.init : NetcomLine Unit)
      [.connect true true, .event bevEventConnected, .write ⟨(), 0⟩ true ⟨0, 0⟩ true, .event bevEventEof,
        .connect2 true true, .event bevEventConnected] := by
  obtain ⟨line, hrun⟩ := Option.isSome_iff_exists.1 (by decide +kernel :
    (exec NetcomLine.step (NetcomLine.init : NetcomLine Unit)
      [.connect true true, .event bevEventConnected, .write ⟨(), 0⟩ true ⟨0, 0⟩ true, .event bevEventEof,
        .connect2 true true, .event bevEventConnected]).isSome)
  exact ((netcom_connected_iff _ line hrun).2 (by decide +kernel)).1

/-- After a new connect the flag is still set for the connection it replaces, and a
command is queued before there is a connection. -/
theorem netcom_connected_stale : ∃ line : NetcomLine Unit,
    exec NetcomLine.step NetcomLine.init [.connect true true, .event bevEventConnected, .connect true true] = some line ∧
      ¬ line.Describes ∧ ¬ line.WritesUp (.write ⟨(), 0⟩ true ⟨0, 0⟩ true) := by
  have hdown : ∀ line : NetcomLine Unit, exec NetcomLine.step NetcomLine.init
      [.connect true true, .event bevEventConnected, .connect true true] = some line → ¬ line.Up := by
    rintro _ ⟨⟩ ⟨bev, hbev, hup⟩
    cases hbev
    exact not_established_nil hup
  obtain ⟨line, hrun⟩ := Option.isSome_iff_exists.1 (by decide +kernel : (exec NetcomLine.step
    (NetcomLine.init : NetcomLine Unit) [.connect true true, .event bevEventConnected, .connect true true]).isSome)
  refine ⟨line, hrun, fun h => hdown line hrun (h ?_), fun h => hdown line hrun (h ?_)⟩
  · cases hrun
    rfl
  · cases hrun
    rfl

end CmdAgent

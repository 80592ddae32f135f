import CmdAgent.HostWire
/-!
# Acknowledgements out of a stream

What the receiver cuts out of the bytes depends on the read buffer only, not on the commands
that threads write and the timeouts that come in between. So the acknowledgements a host sees
over a stream of frames are the command frames of the stream, however the stream is cut into
reads and whatever happens between and during the reads.
-/
open StreamLib.Mem StreamLib.Loop StreamLib.Runs

namespace CmdAgent

variable {α : Type} {env : Env}

/-! ## The read buffer alone -/

/-- The same bytes are pending, after the same frames. The commands and their slots may
differ, with them what a search has found, and how far the consumer is. -/
structure SameRing (nc nc' : Netcom α) : Prop where
  rx : nc'.rx = nc.rx
  blob : nc'.blob = nc.blob
  rd1Off : nc'.rd1Off = nc.rd1Off
  wrOff : nc'.wrOff = nc.wrOff
  errorflag : nc'.errorflag = nc.errorflag
  tods : nc'.tods = nc.tods
  frames : nc'.log.map NetcomEv.frame = nc.log.map NetcomEv.frame

/-- The same branch with the same read buffer. -/
inductive SameOutcome : Outcome (Netcom α) → Outcome (Netcom α) → Prop
  | brk {nc nc' : Netcom α} : SameRing nc nc' → SameOutcome (.brk nc) (.brk nc')
  | cont {nc nc' : Netcom α} : SameRing nc nc' → SameOutcome (.cont nc) (.cont nc')

namespace SameRing
variable {nc nc' : Netcom α}

theorem refl (nc : Netcom α) : SameRing nc nc := ⟨rfl, rfl, rfl, rfl, rfl, rfl, rfl⟩

theorem trans {t : Netcom α} (h : SameRing nc t) (h' : SameRing t nc') : SameRing nc nc' where
  rx := h'.rx.trans h.rx
  blob := h'.blob.trans h.blob
  rd1Off := h'.rd1Off.trans h.rd1Off
  wrOff := h'.wrOff.trans h.wrOff
  errorflag := h'.errorflag.trans h.errorflag
  tods := h'.tods.trans h.tods
  frames := h'.frames.trans h.frames

theorem pending_eq (h : SameRing nc nc') : nc'.pending = nc.pending := by
  unfold Netcom.pending
  rw [h.blob, h.rd1Off, h.wrOff]

/-- A search, and what it finds, is not seen in the read buffer. -/
theorem lookup (h : SameRing nc nc') (seqno : UInt8) (packet : List UInt8) :
    SameRing (netcomLookup nc seqno packet) (netcomLookup nc' seqno packet) := by
  have hframes : (netcomLookup nc' seqno packet).log.map NetcomEv.frame =
      (netcomLookup nc seqno packet).log.map NetcomEv.frame := by
    rw [lookup_log, lookup_log, List.map_append, List.map_append, h.frames]
    rfl
  unfold netcomLookup at hframes ⊢
  split <;> split <;> exact ⟨h.rx, h.blob, h.rd1Off, h.wrOff, h.errorflag, h.tods, by simp_all⟩

theorem remove (h : SameRing nc nc') (n : Nat) : SameRing (netcomRemove nc n) (netcomRemove nc' n) := by
  unfold netcomRemove
  exact ⟨h.rx, by rw [h.blob, h.rd1Off, h.wrOff], h.rd1Off, by rw [h.wrOff], h.errorflag, h.tods,
    h.frames⟩

theorem logged (h : SameRing nc nc') {ev ev' : NetcomEv α} (hev : ev'.frame = ev.frame) :
    SameRing { nc with log := nc.log ++ [ev] } { nc' with log := nc'.log ++ [ev'] } :=
  ⟨h.rx, h.blob, h.rd1Off, h.wrOff, h.errorflag, h.tods, by
    rw [List.map_append, List.map_append, h.frames, List.map_singleton, List.map_singleton, hev]⟩

theorem resync (h : SameRing nc nc') : SameOutcome (netcomResync nc) (netcomResync nc') := by
  unfold netcomResync netcomFindHeader
  rw [h.blob, h.rd1Off, h.wrOff]
  generalize findHeaderLoop nc.blob nc.wrOff (nc.wrOff - (nc.rd1Off + netcmdGetpacketheaderlength))
    (nc.rd1Off + netcmdGetpacketheaderlength) = r
  obtain ⟨rd1Off, headFound⟩ := r
  have hdiscard : SameRing (netcomDiscard nc rd1Off) (netcomDiscard nc' rd1Off) :=
    ⟨h.rx, by simp only [netcomDiscard, h.blob, h.rd1Off, h.wrOff], h.rd1Off,
      by simp only [netcomDiscard, h.rd1Off, h.wrOff], h.errorflag, h.tods,
      by simp only [netcomDiscard, List.map_append, h.frames]; rfl⟩
  cases headFound with
  | true => exact .cont hdiscard
  | false => exact .brk hdiscard

/-- One round. -/
theorem iter (h : SameRing nc nc') : SameOutcome (netcomIter env nc) (netcomIter env nc') := by
  have happend : ∀ packet tv, (nc'.log ++ [NetcomEv.append packet tv]).map NetcomEv.frame =
      (nc.log ++ [NetcomEv.append packet tv]).map NetcomEv.frame :=
    fun packet tv => (h.logged (rfl : (NetcomEv.append packet tv : NetcomEv α).frame = _)).frames
  have hdrop : ∀ packet, (nc'.log ++ [NetcomEv.drop packet]).map NetcomEv.frame =
      (nc.log ++ [NetcomEv.drop packet]).map NetcomEv.frame :=
    fun packet => (h.logged (rfl : (NetcomEv.drop packet : NetcomEv α).frame = _)).frames
  unfold netcomIter
  rw [h.wrOff, h.rd1Off, h.blob, h.rx, h.tods]
  dsimp only
  split
  · exact .brk h
  split
  swap
  · exact .brk h
  split
  swap
  · exact h.resync
  split
  · split
    · exact h.resync
    split
    swap
    · exact .brk h
    split
    · split
      · exact .cont ⟨rfl, rfl, rfl, rfl, h.errorflag, rfl, happend _ _⟩
      · exact h.resync
    · refine .cont (SameRing.remove ?_ _)
      exact ⟨rfl, rfl, rfl, rfl, h.errorflag, rfl, hdrop _⟩
  · split
    · split
      · exact .cont ((h.lookup _ _).remove _)
      · exact .brk h
    · exact .cont (h.remove _)

end SameRing

theorem SameRing.receive {nc nc' : Netcom α} (h : SameRing nc nc') (chunk : List UInt8) :
    SameRing (netcomReceive nc chunk) (netcomReceive nc' chunk) := by
  unfold netcomReceive
  exact ⟨h.rx, by rw [h.blob, h.wrOff], h.rd1Off, by rw [h.wrOff], h.errorflag, h.tods, h.frames⟩

theorem Netcom.SameBuffer.sameRing {nc t : Netcom α} (h : nc.SameBuffer t) : SameRing nc t := by
  unfold Netcom.SameBuffer at h
  rw [h]
  exact ⟨rfl, rfl, rfl, rfl, rfl, rfl, rfl⟩

theorem Netcom.SameBuffer.offsets {nc t : Netcom α} (h : nc.SameBuffer t) :
    t.rd2Off = nc.rd2Off ∧ t.rd1Off = nc.rd1Off := by
  unfold Netcom.SameBuffer at h
  rw [h]
  exact ⟨rfl, rfl⟩

/-! ## A stream between other things -/

/-- What the event has read. -/
def WireEv.chunk? : WireEv → Option (List UInt8)
  | .readcb chunk => some chunk
  | _ => none

/-- RX stays as it is, and the consumer stays behind the receiver. -/
def HostWire.Calm (w : HostWire) : WireEv → Prop
  | .start | .stop => False
  | .consume rd2Off => Consumes w.host.nc rd2Off
  | _ => True

instance (w : HostWire) : (ev : WireEv) → Decidable (w.Calm ev)
  | .start | .stop => .isFalse id
  | .consume rd2Off => inferInstanceAs (Decidable (Consumes w.host.nc rd2Off))
  | .host _ | .readcb _ | .round _ | .timeoutcb _ | .scan => .isTrue trivial

/-- Where the receiver is that does nothing but read the `chunks`: it has read them, or it is
in the loop after the last of them. -/
inductive Cutting (env : Env) (nc : Netcom α) (b : Bool) : EventLoop → List (List UInt8) → Netcom α → Prop
  | done {loop : EventLoop} {chunks : List (List UInt8)} {t : Netcom α} : loop ≠ .reading →
      exec (netcomReadcb env) nc chunks = some t → Aligned b t → Cutting env nc b loop chunks t
  | within {chunks : List (List UInt8)} {chunk : List UInt8} {t u : Netcom α} :
      exec (netcomReadcb env) nc chunks = some t → netcomReadcb env t chunk = netcomLoop env u → Aligned b u →
      Cutting env nc b .reading (chunks ++ [chunk]) u

theorem Cutting.finished {nc t : Netcom α} {b : Bool} {loop : EventLoop} {chunks : List (List UInt8)}
    (h : Cutting env nc b loop chunks t) (hloop : loop ≠ .reading) : exec (netcomReadcb env) nc chunks = some t := by
  cases h with
  | done hne hexec hal => exact hexec
  | within => exact absurd rfl hloop

/-- The receiver of `w` is where the one is that only reads. -/
structure HostWire.Cuts (env : Env) (nc : Netcom CmdAction) (b : Bool) (chunks : List (List UInt8)) (w : HostWire) :
    Prop where
  receiver : ∃ t, Cutting env nc b w.loop chunks t ∧ SameRing t w.host.nc
  rd2Off : w.host.nc.rd2Off ≤ w.host.nc.rd1Off

theorem consumes_of_le {nc : Netcom α} {rd2Off : Nat} (h : Consumes nc rd2Off) (hle : nc.rd2Off ≤ nc.rd1Off) :
    rd2Off ≤ nc.rd1Off := by
  unfold Consumes at h
  rw [if_pos hle] at h
  exact h.2

theorem cuts_round {nc : Netcom CmdAction} {b : Bool} {chunks : List (List UInt8)} {host : Host} (alloc : Bool)
    (h : HostWire.Cuts env nc b chunks ⟨host, .reading⟩) :
    (∀ t, netcomIter env host.nc = .cont t → HostWire.Cuts env nc b chunks ⟨host.acts t alloc, .reading⟩) ∧
      ∀ t, netcomIter env host.nc = .brk t → HostWire.Cuts env nc b chunks ⟨{ host with nc := t }, .idle⟩ := by
  obtain ⟨⟨u, hcutting, hring⟩, hrd2⟩ := h
  have houtcome : SameOutcome (netcomIter env u) (netcomIter env host.nc) := hring.iter
  have hround : Round env u (netcomIter env u) := round_of rfl
  cases hcutting with
  | done hloop => exact absurd rfl hloop
  | within hexec hread hal =>
    have hle : host.nc.rd1Off ≤ host.nc.wrOff := by
      rw [hring.rd1Off, hring.wrOff]
      exact hal.le
    generalize ho : netcomIter env u = o at houtcome hround
    generalize ho' : netcomIter env host.nc = o' at houtcome
    have hkeeps := (round_of ho').keeps hle
    have hrd2' : o'.state.rd2Off ≤ o'.state.rd1Off := by
      rw [hkeeps.rd2Off]
      exact Nat.le_trans hrd2 hkeeps.lo
    have hal' : Aligned b o.state := (hround.keeps hal.le).aligned hal
    cases houtcome with
    | brk hring' =>
      refine ⟨by rintro t ⟨⟩, ?_⟩
      rintro t ⟨⟩
      refine ⟨⟨_, .done (by simp) ?_ hal', hring'⟩, hrd2'⟩
      rw [exec_append, hexec]
      exact exec_cons [] (hread.trans (loop_brk ho))
    | cont hring' =>
      refine ⟨?_, by rintro t ⟨⟩⟩
      rintro t ⟨⟩
      refine ⟨⟨_, .within hexec (hread.trans (loop_cont hal.le ho)) hal', ?_⟩, ?_⟩
      · rw [acts_nc]
        exact hring'
      · rw [acts_nc]
        exact hrd2'

/-- Whatever the event is, the receiver stays where one is that only reads. -/
theorem cuts_step {nc : Netcom CmdAction} {b : Bool} {chunks : List (List UInt8)} {w w' : HostWire} {ev : WireEv}
    (h : w.Cuts env nc b chunks) (hcalm : w.Calm ev)
    (hplain : ∀ chunk ∈ ev.chunk?, ∀ t, exec (netcomReadcb env) nc chunks = some t → Plain t chunk)
    (hstep : w.step env ev = some w') : w'.Cuts env nc b (chunks ++ ev.chunk?.toList) := by
  obtain ⟨host, loop⟩ := w
  -- The loop is not entered or left, and the read buffer stays as it is.
  have hsame : ∀ host' loop', (loop' = .reading ↔ loop = .reading) → SameRing host.nc host'.nc →
      host'.nc.rd2Off ≤ host'.nc.rd1Off → HostWire.Cuts env nc b (chunks ++ []) ⟨host', loop'⟩ := by
    intro host' loop' hloop hring' hrd2'
    obtain ⟨⟨u, hcutting, hring⟩, -⟩ := h
    rw [List.append_nil]
    refine ⟨⟨u, ?_, hring.trans hring'⟩, hrd2'⟩
    cases hcutting with
    | done hne hexec hal => exact .done (fun he => hne (hloop.1 he)) hexec hal
    | within hexec hread hal =>
      obtain rfl := hloop.2 rfl
      exact .within hexec hread hal
  cases ev with
  | host ev =>
    simp only [HostWire.step] at hstep
    split at hstep
    · rename_i henters
      obtain ⟨t, ht, rfl⟩ := Option.map_eq_some_iff.1 hstep
      have hbuffer := step_buffer henters ht
      refine hsame t loop Iff.rfl hbuffer.sameRing ?_
      rw [hbuffer.offsets.1, hbuffer.offsets.2]
      exact h.rd2Off
    · cases hstep
  | readcb chunk =>
    simp only [HostWire.step] at hstep
    split at hstep
    · obtain ⟨⟨u, hcutting, hring⟩, hrd2⟩ := h
      cases hcutting with
      | done hne hexec hal =>
        have hc : Plain u chunk := hplain chunk rfl u hexec
        have hle : host.nc.rd2Off ≤ host.nc.wrOff := by
          rw [hring.wrOff]
          exact Nat.le_trans hrd2 (hring.rd1Off ▸ hal.le)
        have hroom : netcomMakeRoom host.nc = .room host.nc _ :=
          makeRoom_of_le (hring.errorflag.trans hal.errorflag) hle (hring.wrOff ▸ hc.1)
        rw [hroom] at hstep
        cases hstep
        exact ⟨⟨_, .within hexec (readcb_plain env hal hc) (hal.receive chunk), hring.receive chunk⟩, hrd2⟩
    · cases hstep
  | round alloc =>
    simp only [HostWire.step] at hstep
    split at hstep
    · obtain ⟨hcont, hbrk⟩ := cuts_round alloc h
      change HostWire.Cuts env nc b (chunks ++ []) w'
      rw [List.append_nil]
      split at hstep
      · cases hstep
        exact hcont _ ‹_›
      · cases hstep
        exact hbrk _ ‹_›
    · cases hstep
  | timeoutcb now =>
    simp only [HostWire.step] at hstep
    split at hstep <;> cases hstep
    exact hsame host _ (by simp) (.refl _) h.rd2Off
  | scan =>
    simp only [HostWire.step] at hstep
    split at hstep
    · split at hstep
      · cases hstep
        exact hsame host _ (by simp) (.refl _) h.rd2Off
      · cases hstep
        refine hsame _ _ Iff.rfl ?_ ?_
        · rw [act_nc]
          exact ⟨rfl, rfl, rfl, rfl, rfl, rfl, rfl⟩
        · rw [act_nc]
          exact h.rd2Off
    · cases hstep
  | start => exact hcalm.elim
  | stop => exact hcalm.elim
  | consume rd2Off =>
    cases hstep
    have hle : rd2Off ≤ host.nc.rd1Off := consumes_of_le (show Consumes host.nc rd2Off from hcalm) h.rd2Off
    exact hsame _ _ Iff.rfl ⟨rfl, rfl, rfl, rfl, rfl, rfl, rfl⟩ hle

theorem cuts_run {nc : Netcom CmdAction} {b : Bool} {chunks : List (List UInt8)} {w w' : HostWire} {evs : List WireEv}
    (h : w.Cuts env nc b chunks) (hcalm : Along (HostWire.step env) HostWire.Calm w evs)
    (hplain : Along (netcomReadcb env) Plain nc (chunks ++ evs.filterMap WireEv.chunk?))
    (hrun : exec (HostWire.step env) w evs = some w') :
    w'.Cuts env nc b (chunks ++ evs.filterMap WireEv.chunk?) := by
  induction evs generalizing w chunks with
  | nil =>
    cases hrun
    rwa [List.filterMap_nil, List.append_nil]
  | cons ev evs ih =>
    obtain ⟨t, ht, hrest⟩ := exec_cons_eq_some.1 hrun
    obtain ⟨hcalm₁, hcalm₂⟩ := (along_cons evs ht).1 hcalm
    have hcons : chunks ++ (ev :: evs).filterMap WireEv.chunk? =
        chunks ++ ev.chunk?.toList ++ evs.filterMap WireEv.chunk? := by
      rw [List.append_assoc, List.filterMap_cons]
      cases ev.chunk? <;> rfl
    rw [hcons] at hplain ⊢
    refine ih (cuts_step h hcalm₁ (fun chunk hchunk u hu => ?_) ht) hcalm₂ hplain hrest
    obtain ⟨hfirst, -⟩ := (along_append nc _ _).1 hplain
    obtain ⟨-, hlast⟩ := (along_append nc chunks ev.chunk?.toList).1 hfirst
    have hall := hlast u hu
    rw [Option.mem_def.1 hchunk] at hall
    exact along_singleton.1 hall

/-! ## The acknowledgements -/

theorem lookups_frames (nc : Netcom α) :
    nc.lookups = (nc.log.map NetcomEv.frame).filterMap fun frame => frame.bind Frame.lookup? := by
  rw [List.filterMap_map]
  refine congrArg (fun f => nc.log.filterMap f) (funext fun ev => ?_)
  cases ev <;> rfl

theorem frameOf_lookup (rx : Bool) {f : List UInt8} (hf : WellFormed f) :
    (frameOf rx f).lookup? = if CommandFrame f then some (seqnoOf f, f) else none := by
  unfold frameOf
  rcases hf with hf | hf
  · rw [if_neg hf.2.1, if_pos hf]
    rfl
  · have hnot : ¬ CommandFrame f := fun h => h.2.1 hf.2.1
    rw [if_pos hf.2.1, if_neg hnot]
    split <;> rfl

/-- With nothing pending at the start, however a stream of well-formed frames is cut into reads
that neither drop nor rewind, and whatever the threads, the timeouts and the consumer do between
and during the reads, with RX left as it is: the host goes through a run of `Host` in which the
acknowledgements are the command frames of the stream, each once and in order. -/
theorem acks_of_stream (env : Env) (evs evs' : List WireEv) (w w' : HostWire) (fs : List (List UInt8))
    (part : List UInt8) (hrun : exec (HostWire.step env) HostWire.init evs = some w) (hidle : w.loop ≠ .reading)
    (hq : Quiet w.host.nc) (hrun' : exec (HostWire.step env) w evs' = some w') (hidle' : w'.loop ≠ .reading)
    (hcalm : Along (HostWire.step env) HostWire.Calm w evs')
    (hplain : Along (netcomReadcb env) Plain w.host.nc (evs'.filterMap WireEv.chunk?))
    (hfs : ∀ f ∈ fs, WellFormed f) (hpart : Incomplete part)
    (hcat : (evs'.filterMap WireEv.chunk?).flatten = fs.flatten ++ part) :
    ∃ hevs hevs' host host', exec Host.step Host.init hevs = some host ∧ w.host.Agrees host ∧
      exec Host.step host hevs' = some host' ∧ w'.host.Agrees host' ∧
      hevs'.filterMap HostEv.acked? = (fs.filter fun f => CommandFrame f).map (fun f => (seqnoOf f, f)) ∧
      w'.host.nc.pending = part := by
  obtain ⟨hevs, host, hexec, hagrees, -⟩ := wire_refines_host env evs w hrun
  obtain ⟨hevs', host', hmatched⟩ := run_refines hrun' hagrees
  obtain ⟨t, nevs, ht, hlog, hframes, -, hpend⟩ :=
    readcb_reassembles env w.host.nc fs (evs'.filterMap WireEv.chunk?) part hq hfs hpart hcat hplain
  have hcuts : w.Cuts env w.host.nc w.host.nc.rx [] :=
    ⟨⟨w.host.nc, .done hidle rfl hq.aligned, .refl _⟩, hq.rd2Off⟩
  obtain ⟨⟨u, hcutting, hring⟩, -⟩ := cuts_run hcuts hcalm hplain hrun'
  -- The loop has been left, so the receiver is where one is that has only read.
  obtain rfl : u = t := Option.some.inj ((hcutting.finished hidle').symm.trans ht)
  refine ⟨hevs, hevs', host, host', hexec, hagrees, hmatched.run, hmatched.agrees, ?_, hring.pending_eq.trans hpend⟩
  have hlookups : w'.host.nc.lookups = w.host.nc.lookups ++ fs.filterMap fun f => (frameOf w.host.nc.rx f).lookup? := by
    rw [lookups_frames, hring.frames, hlog, List.map_append, hframes, List.filterMap_append, ← lookups_frames,
      List.filterMap_map]
    rfl
  have heq := List.append_cancel_left (hmatched.lookups.symm.trans hlookups)
  rw [heq, ← List.filterMap_eq_map, ← List.filterMap_eq_filter, List.filterMap_filterMap]
  refine List.filterMap_congr fun f hf => ?_
  rw [frameOf_lookup _ (hfs f hf)]
  by_cases hc : CommandFrame f <;> simp [Option.guard, hc]

theorem acks_of_stream_windowsize : ∃ w w', exec (HostWire.step .still) HostWire.init windowsizeSent = some w ∧
    exec (HostWire.step .still) w windowsizeAcked = some w' ∧
    ∃ hevs hevs' host host', exec Host.step Host.init hevs = some host ∧ w.host.Agrees host ∧
      exec Host.step host hevs' = some host' ∧ w'.host.Agrees host' ∧
      hevs'.filterMap HostEv.acked? = ([l0006NetcmdFormat l0006NetcmdWinsizeack 0 4 1].filter fun f =>
        CommandFrame f).map (fun f => (seqnoOf f, f)) ∧
      w'.host.nc.pending = [] := by
  have hsome : ∃ w ∈ exec (HostWire.step .still) HostWire.init windowsizeSent, w.loop ≠ .reading ∧
      (w.host.nc.rd1Off = w.host.nc.wrOff ∧ w.host.nc.rd2Off ≤ w.host.nc.rd1Off ∧ w.host.nc.errorflag = false) ∧
      Along (HostWire.step .still) HostWire.Calm w windowsizeAcked ∧
      Along (netcomReadcb .still) Plain w.host.nc (windowsizeAcked.filterMap WireEv.chunk?) ∧
      ∃ w' ∈ exec (HostWire.step .still) w windowsizeAcked, w'.loop ≠ .reading := by decide +kernel
  obtain ⟨w, hrun, hidle, ⟨hpending, hrd2, herror⟩, hcalm, hplain, w', hrun', hidle'⟩ := hsome
  have hframe : WellFormed (l0006NetcmdFormat l0006NetcmdWinsizeack 0 4 1) := by decide +kernel
  refine ⟨w, w', hrun, hrun', acks_of_stream .still _ _ w w' _ [] hrun hidle ⟨hpending, hrd2, herror⟩ hrun' hidle' hcalm
    hplain (fun f hf => ?_) ⟨_, by decide, hframe⟩ (by decide +kernel)⟩
  rw [List.mem_singleton.1 hf]
  exact hframe

end CmdAgent

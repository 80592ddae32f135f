import CmdAgent.Published
import CmdAgent.StreamLib.Queue
/-!
# The receive buffer as a queue

To its consumer `struct l0006_netcom_rdbuf` is a queue of bytes: a callback puts in the
stream packets it accepts, stamped, and the consumer takes out what it moves `rd2_off`
over. The rewind, what is dropped and what is resynchronised do not show.
-/
open StreamLib.Mem StreamLib.Loop StreamLib.Runs StreamLib.Queue

namespace CmdAgent

variable {α : Type} {env : Env} {nc : Netcom α}

/-! ## The queue -/

/-- What is published and not consumed, in the order in which the consumer comes to it. -/
def Netcom.queued (nc : Netcom α) : List UInt8 :=
  if nc.rd2Off ≤ nc.rd1Off then slice nc.blob nc.rd2Off (nc.rd1Off - nc.rd2Off)
  else slice nc.blob nc.rd2Off (nc.rd1End - nc.rd2Off) ++ nc.published

/-- What the consumer moves over; on its way back to 0 that is nothing. -/
def Netcom.consumed (nc : Netcom α) (rd2Off : Nat) : List UInt8 := slice nc.blob nc.rd2Off (rd2Off - nc.rd2Off)

/-- What a step from `nc` to `t` does to the queue. -/
def queueOp (nc : Netcom α) (i : RdInput) (t : Netcom α) : QueueOp UInt8 :=
  match i with
  | .readcb _ => .put ((t.log.drop nc.log.length).flatMap NetcomEv.stored)
  | .start => .put []
  | .stop => .clear
  | .consume rd2Off => .take (nc.consumed rd2Off)

theorem queued_of_le (nc : Netcom α) (h : nc.rd2Off ≤ nc.rd1Off) : nc.queued = nc.published.drop nc.rd2Off := by
  rw [Netcom.queued, if_pos h, Netcom.published, drop_slice _ h, Nat.zero_add]

theorem queued_of_lt (nc : Netcom α) (h : nc.rd1Off < nc.rd2Off) :
    nc.queued = slice nc.blob nc.rd2Off (nc.rd1End - nc.rd2Off) ++ nc.published := by
  rw [Netcom.queued, if_neg (Nat.not_le.2 h)]

/-! ## What the packet loop publishes -/

/-- No stream packet was accepted that is too short for its time. -/
def StampFits (nc : Netcom α) : Prop := ∀ f ∈ nc.accepted, 16 ≤ f.1.length

theorem StampFits.of_log {t : Netcom α} {evs : List (NetcomEv α)} (h : StampFits t) (hlog : t.log = nc.log ++ evs) :
    StampFits nc := by
  intro f hf
  apply h
  rw [Netcom.accepted, hlog, List.filterMap_append]
  exact List.mem_append_left _ hf

/-- From `nc` to `t` the packets accepted were published, and nothing from `wr_off` on
has changed. -/
structure Publishes (nc t : Netcom α) : Prop where
  published : ∃ evs, t.log = nc.log ++ evs ∧ t.published = nc.published ++ evs.flatMap NetcomEv.stored
  behind : ∀ i, nc.wrOff ≤ i → t.blob i = nc.blob i

theorem Publishes.refl (nc : Netcom α) : Publishes nc nc := ⟨⟨[], by simp⟩, fun _ _ => rfl⟩

theorem Publishes.trans {t u : Netcom α} (h : Publishes nc t) (h' : Publishes t u) (hw : t.wrOff ≤ nc.wrOff) :
    Publishes nc u := by
  obtain ⟨evs, hlog, hpub⟩ := h.published
  obtain ⟨evs', hlog', hpub'⟩ := h'.published
  refine ⟨⟨evs ++ evs', ?_, ?_⟩, fun i hi => (h'.behind i (Nat.le_trans hw hi)).trans (h.behind i hi)⟩
  · rw [hlog', hlog, List.append_assoc]
  · rw [hpub', hpub, List.flatMap_append, List.append_assoc]

theorem publishes_discard {p : Nat} (h : nc.rd1Off ≤ p) (h' : p ≤ nc.wrOff) : Publishes nc (netcomDiscard nc p) := by
  refine ⟨⟨_, rfl, ?_⟩, fun i hi => move_after _ (by omega)⟩
  simp only [List.flatMap_singleton, NetcomEv.stored, List.append_nil]
  exact slice_move_before _ _ _ (Nat.le_of_eq (Nat.zero_add _))

theorem publishes_resync (h : nc.rd1Off + 8 ≤ nc.wrOff) : Publishes nc (netcomResync nc).state := by
  obtain ⟨p, hp, hp', -, hr⟩ := resync_cases h
  generalize netcomResync nc = o at hr ⊢
  cases hr with
  | found | notFound => exact publishes_discard (by omega) hp'

theorem publishes_remove {n : Nat} (h : nc.rd1Off + n ≤ nc.wrOff) : Publishes nc (netcomRemove nc n) := by
  refine ⟨⟨[], (List.append_nil _).symm, ?_⟩, fun i hi => move_after _ (by omega)⟩
  rw [published_remove]
  exact (List.append_nil _).symm

/-- An entry in the log that publishes nothing. -/
theorem publishes_log {t : Netcom α} {ev : NetcomEv α} (hlog : t.log = nc.log ++ [ev]) (hb : t.blob = nc.blob)
    (h1 : t.rd1Off = nc.rd1Off) (hev : ev.stored = []) : Publishes nc t := by
  refine ⟨⟨[ev], hlog, ?_⟩, fun i _ => congrFun hb i⟩
  rw [List.flatMap_singleton, hev, List.append_nil, Netcom.published, hb, h1, Netcom.published]

theorem Round.publishes {o : Outcome (Netcom α)} (hr : Round env nc o) (h16 : StampFits o.state) :
    Publishes nc o.state := by
  have hlen := length_pending nc
  cases hr with
  | short | incomplete | partialCommand | zeroStream => exact .refl nc
  | badHeader h8 | tooLong h8 | badCrc h8 => exact publishes_resync (by omega)
  | append blob h8 hv hc hpos hmax hn hrx hr =>
    have hmem : (nc.pending.take (lengthOf nc.pending), env.gettimeofday nc.tods) ∈
        Netcom.accepted (Outcome.state (.cont { nc with
          blob := blob
          rd1Off := nc.rd1Off + lengthOf nc.pending
          tods := nc.tods + 1
          log := nc.log ++ [.append (nc.pending.take (lengthOf nc.pending)) (env.gettimeofday nc.tods)] })) := by
      simp [Netcom.accepted, Outcome.state, List.filterMap_append, NetcomEv.accepted]
    have hlong : 16 ≤ lengthOf nc.pending := by
      have hstamp := h16 _ hmem
      rwa [List.length_take, Nat.min_eq_left hn] at hstamp
    cases readpacket_some hr
    obtain ⟨evs, hlog, -, hpub⟩ := handles_append (env.gettimeofday nc.tods) hlong hn (nc.tods + 1)
    refine ⟨⟨evs, hlog, hpub⟩, fun i hi => store_after _ ?_⟩
    rw [Timeval.length_bytes]
    omega
  | drop h8 _ _ _ _ hn =>
    have hlogged : Publishes nc { nc with log := nc.log ++ [.drop (nc.pending.take (lengthOf nc.pending))] } :=
      publishes_log rfl rfl rfl rfl
    exact hlogged.trans (publishes_remove (by simp only; omega)) (Nat.le_refl _)
  | command h8 _ _ hn =>
    obtain ⟨hit, un, us, he⟩ := lookup_frame nc (seqnoOf nc.pending) (nc.pending.take (commandLength nc.pending))
    rw [he]
    have hlogged : Publishes nc { nc with
        unused := un
        used := us
        log := nc.log ++ [.lookup (seqnoOf nc.pending) (nc.pending.take (commandLength nc.pending)) hit] } :=
      publishes_log rfl rfl rfl rfl
    exact hlogged.trans (publishes_remove (by simp only; omega)) (Nat.le_refl _)

theorem loop_publishes {t : Netcom α} (hle : nc.rd1Off ≤ nc.wrOff) (ht : netcomLoop env nc = some t)
    (h16 : StampFits t) : Publishes nc t := by
  have hround : ∀ {s : Netcom α} {o : Outcome (Netcom α)}, Round env s o →
      Keeps nc s ∧ (StampFits s → Publishes nc s) → Keeps nc o.state ∧ (StampFits o.state → Publishes nc o.state) := by
    rintro s o hr ⟨hk, hs⟩
    have hone := hr.keeps hk.le
    refine ⟨hk.trans hone, fun h16 => ?_⟩
    obtain ⟨evs, hlog⟩ := hone.log
    exact (hs (h16.of_log hlog)).trans (hr.publishes h16) hk.hi
  have hall : Keeps nc t ∧ (StampFits t → Publishes nc t) :=
    run_inv (fun s u hs hb => hround (round_of hb) hs) (fun s u hs hb => hround (round_of hb) hs)
      ⟨.refl hle, fun _ => .refl nc⟩ ht
  exact hall.2 h16

/-! ## One step -/

theorem queued_rewind (h : RingInv nc) (hw : nc.wrOff > netcomRdbufferForcerewindOffset)
    (hspace : circSpace nc.wrOff nc.rd2Off netcomRdbufferSize >
      nc.wrOff - nc.rd1Off + netcomRdbufferForcerewindSize) : (netcomRewind nc).queued = nc.queued := by
  obtain ⟨h2, hlt⟩ := rewind_room h hw hspace
  have hempty : (netcomRewind nc).published = [] := rfl
  have hahead : (netcomRewind nc).rd1Off < (netcomRewind nc).rd2Off := Nat.lt_of_le_of_lt (Nat.zero_le _) hlt
  -- What is moved ends in front of `rd2_off`.
  have hsame : slice (netcomRewind nc).blob nc.rd2Off (nc.rd1Off - nc.rd2Off) =
      slice nc.blob nc.rd2Off (nc.rd1Off - nc.rd2Off) :=
    slice_congr fun i hi _ => move_after _ (by omega)
  rw [queued_of_lt _ hahead, hempty, List.append_nil, Netcom.queued, if_pos h2]
  exact hsame

theorem queued_receive {chunk : List UInt8} (h : RingInv nc)
    (hf : chunk.length ≤ circSpaceToEnd nc.wrOff nc.rd2Off netcomRdbufferSize)
    (hs : nc.wrOff < nc.rd2Off → nc.rd2Off ≤ nc.wrOff + 2 ^ 20 → nc.wrOff + chunk.length < nc.rd2Off) :
    (netcomReceive nc chunk).queued = nc.queued := by
  have hle := h.le
  have hpub : (netcomReceive nc chunk).published = nc.published :=
    slice_store_before _ _ (by rw [Nat.zero_add]; exact hle)
  rcases h.phase with ⟨h2, -⟩ | ⟨h2, -, -⟩
  · rw [queued_of_le nc h2, queued_of_le (netcomReceive nc chunk) h2, hpub]
    rfl
  · have hlt := read_lt h hf hs h2
    have hahead : nc.rd1Off < nc.rd2Off := by omega
    rw [queued_of_lt nc hahead, queued_of_lt (netcomReceive nc chunk) hahead, hpub]
    congr 1
    exact slice_store_after _ _ (Nat.le_of_lt hlt)

/-- What the packet loop publishes comes in at the back. -/
theorem Publishes.queued {t : Netcom α} (h : Publishes nc t) (hk : Keeps nc t) (hphase : Phase nc) :
    t.queued = nc.queued ++ (t.log.drop nc.log.length).flatMap NetcomEv.stored := by
  obtain ⟨evs, hlog, hpub⟩ := h.published
  have hnew : t.log.drop nc.log.length = evs := by rw [hlog, List.drop_left]
  rw [hnew]
  rcases hphase with ⟨h2, -⟩ | ⟨h2, -, -⟩
  · have h2' : t.rd2Off ≤ t.rd1Off := hk.rd2Off.trans_le (Nat.le_trans h2 hk.lo)
    have hlen : nc.rd2Off ≤ nc.published.length := by rw [Netcom.published, length_slice]; exact h2
    rw [queued_of_le nc h2, queued_of_le t h2', hpub, hk.rd2Off, List.drop_append_of_le_length hlen]
  · have hle := hk.le
    have hlo := hk.lo
    have hhi := hk.hi
    have hahead : nc.rd1Off < nc.rd2Off := by omega
    have hahead' : t.rd1Off < t.rd2Off := by rw [hk.rd2Off]; omega
    have hsame : slice t.blob nc.rd2Off (nc.rd1End - nc.rd2Off) = slice nc.blob nc.rd2Off (nc.rd1End - nc.rd2Off) :=
      slice_congr fun i hi _ => h.behind i (by omega)
    rw [queued_of_lt nc hahead, queued_of_lt t hahead', hk.rd2Off, hk.rd1End, hsame, hpub, List.append_assoc]

/-- The receiver in every state of a run. -/
structure RingQueue (nc : Netcom α) : Prop where
  ring : RingInv nc
  errorflag : nc.errorflag = false

/-- The log grows by what the queue is given. -/
def Records (nc : Netcom α) (i : RdInput) (t : Netcom α) : Prop :=
  ∃ evs, t.log = nc.log ++ evs ∧ (queueOp nc i t).puts = evs.flatMap NetcomEv.stored

theorem records_same {i : RdInput} {t : Netcom α} (hlog : t.log = nc.log) (hputs : (queueOp nc i t).puts = []) :
    Records nc i t := ⟨[], by rw [hlog, List.append_nil], hputs⟩

theorem rdStep_records {i : RdInput} {t : Netcom α} (h : RingInv nc) (ht : rdStep env nc i = some t) :
    Records nc i t := by
  cases i with
  | start | stop | consume =>
    cases ht
    exact records_same rfl rfl
  | readcb chunk =>
    have hgrow : ∃ evs, t.log = nc.log ++ evs := by
      have hready := ready_of nc
      unfold rdStep netcomReadcb at ht
      cases hr : netcomMakeRoom nc with
      | returned nc' =>
        rw [hr] at ht hready
        cases ht
        cases hready with
        | reset | drop => exact ⟨[], (List.append_nil _).symm⟩
      | room nc' spaceToEnd =>
        obtain ⟨h', -⟩ := ready_room h hr
        rw [hr] at hready
        simp only [hr] at ht
        have hle : (netcomReceive nc' chunk).rd1Off ≤ (netcomReceive nc' chunk).wrOff :=
          Nat.le_trans h'.le (Nat.le_add_right _ _)
        cases hready with
        | here | rewind => exact (loop_keeps hle ht).1.log
    obtain ⟨evs, hlog⟩ := hgrow
    refine ⟨evs, hlog, ?_⟩
    rw [queueOp, QueueOp.puts, hlog, List.drop_left]

/-- What a callback publishes comes in at the back, whatever it does to make room. -/
theorem readcb_queue {chunk : List UInt8} {t : Netcom α} (h : RingQueue nc) (hi : Legal nc (.readcb chunk))
    (hs : StaysBehind nc (.readcb chunk)) (ht : netcomReadcb env nc chunk = some t) (h16 : StampFits t) :
    t.errorflag = false ∧ t.queued = nc.queued ++ (t.log.drop nc.log.length).flatMap NetcomEv.stored := by
  have hready := ready_of nc
  unfold netcomReadcb at ht
  unfold Legal Fits at hi
  unfold StaysBehind at hs
  -- One argument for both states from which a callback reads.
  have hread : ∀ {nc' : Netcom α}, RingInv nc' → nc'.errorflag = false → nc'.log = nc.log → nc'.queued = nc.queued →
      chunk.length ≤ circSpaceToEnd nc'.wrOff nc'.rd2Off netcomRdbufferSize →
      (nc'.wrOff < nc'.rd2Off → nc'.rd2Off ≤ nc'.wrOff + 2 ^ 20 → nc'.wrOff + chunk.length < nc'.rd2Off) →
      netcomLoop env (netcomReceive nc' chunk) = some t →
      t.errorflag = false ∧ t.queued = nc.queued ++ (t.log.drop nc.log.length).flatMap NetcomEv.stored := by
    intro nc' h' he hlog hqueued hf hs ht
    have hle : (netcomReceive nc' chunk).rd1Off ≤ (netcomReceive nc' chunk).wrOff :=
      Nat.le_trans h'.le (Nat.le_add_right _ _)
    have hk := (loop_keeps hle ht).1
    have hback := (loop_publishes hle ht h16).queued hk (receive_phase h' hf hs).2
    rw [queued_receive h' hf hs, hqueued] at hback
    refine ⟨hk.errorflag.trans he, ?_⟩
    rw [hback, ← hlog]
    rfl
  cases hr : netcomMakeRoom nc with
  | returned nc' =>
    rw [hr] at ht hready
    cases ht
    cases hready with
    | reset he =>
      rw [h.errorflag] at he
      cases he
    | drop =>
      refine ⟨h.errorflag, ?_⟩
      rw [netcomDrop, List.drop_length, List.flatMap_nil, List.append_nil]
      rfl
  | room nc' spaceToEnd =>
    obtain ⟨h', hspace⟩ := ready_room h.ring hr
    simp only [hr] at hi hs ht
    rw [hr] at hready
    rw [hspace] at hi
    cases hready with
    | here => exact hread h.ring h.errorflag rfl rfl hi hs ht
    | rewind hw hsp => exact hread h' h.errorflag rfl (queued_rewind h.ring hw hsp) hi hs ht

/-- The consumer takes what is at the front. -/
theorem consume_queue {rd2Off : Nat} (hc : Consumes nc rd2Off) :
    nc.queued = nc.consumed rd2Off ++ Netcom.queued { nc with rd2Off := rd2Off } := by
  unfold Consumes at hc
  by_cases h2 : nc.rd2Off ≤ nc.rd1Off
  · rw [if_pos h2] at hc
    obtain ⟨hlo, hhi⟩ := hc
    have hsum : nc.rd1Off - nc.rd2Off = (rd2Off - nc.rd2Off) + (nc.rd1Off - rd2Off) := by omega
    have hnext : nc.rd2Off + (rd2Off - nc.rd2Off) = rd2Off := by omega
    rw [Netcom.queued, if_pos h2, hsum, slice_add, hnext, Netcom.queued, if_pos hhi, Netcom.consumed]
  · rw [if_neg h2] at hc
    have hahead := Nat.not_le.1 h2
    rcases hc with ⟨hlo, hhi⟩ | ⟨hend, rfl⟩
    · have hsum : nc.rd1End - nc.rd2Off = (rd2Off - nc.rd2Off) + (nc.rd1End - rd2Off) := by omega
      have hnext : nc.rd2Off + (rd2Off - nc.rd2Off) = rd2Off := by omega
      have hstill : nc.rd1Off < rd2Off := Nat.lt_of_lt_of_le hahead hlo
      rw [queued_of_lt nc hahead, hsum, slice_add, hnext, queued_of_lt { nc with rd2Off := rd2Off } hstill,
        Netcom.consumed, List.append_assoc]
      rfl
    · -- At `rd1_end` the consumer goes back to the start of the blob.
      have hback : Netcom.queued { nc with rd2Off := 0 } = nc.published :=
        queued_of_le { nc with rd2Off := 0 } (Nat.zero_le _)
      have hnothing : nc.consumed 0 = [] := by rw [Netcom.consumed, Nat.zero_sub]; rfl
      rw [hback, hnothing, queued_of_lt nc hahead, hend, Nat.sub_self]
      rfl

/-- What a step does to the queue is what its label says. -/
theorem rdStep_queue (s : Netcom α) (i : RdInput) (t : Netcom α) (h : RingQueue s)
    (hi : (Legal s i ∧ StaysBehind s i) ∧ ∀ t, rdStep env s i = some t → StampFits t)
    (ht : rdStep env s i = some t) : RingQueue t ∧ queueStep s.queued (queueOp s i t) = some t.queued := by
  have hring := rdStep_inv s i t h.ring hi.1 ht
  cases i with
  | readcb chunk =>
    obtain ⟨he, hqueued⟩ := readcb_queue h hi.1.1 hi.1.2 ht (hi.2 t ht)
    exact ⟨⟨hring, he⟩, congrArg some hqueued.symm⟩
  | start =>
    cases ht
    exact ⟨⟨hring, h.errorflag⟩, congrArg some (List.append_nil _)⟩
  | stop =>
    cases ht
    have hempty : (l0006NetcomStop s).queued = [] := by
      rw [queued_of_le (l0006NetcomStop s) (Nat.le_refl _)]
      exact List.drop_of_length_le (length_slice _ _ _).le
    exact ⟨⟨hring, h.errorflag⟩, congrArg some hempty.symm⟩
  | consume rd2Off =>
    cases ht
    refine ⟨⟨hring, h.errorflag⟩, ?_⟩
    rw [consume_queue hi.1.1]
    exact queueStep_take _ _

/-! ## Runs -/

/-- The log after a run has what the queue was given. -/
theorem records_run {s t : Netcom α} {is : List RdInput} (h : RingInv s)
    (hok : Along (rdStep env) (fun nc i => Legal nc i ∧ StaysBehind nc i) s is)
    (he : exec (rdStep env) s is = some t) :
    ∃ evs, t.log = s.log ++ evs ∧
      (labels (rdStep env) queueOp s is).flatMap QueueOp.puts = evs.flatMap NetcomEv.stored := by
  induction is generalizing s with
  | nil =>
    cases he
    exact ⟨[], (List.append_nil _).symm, rfl⟩
  | cons i is ih =>
    obtain ⟨u, hu, he⟩ := exec_cons_eq_some.1 he
    obtain ⟨evs, hlog, hputs⟩ := rdStep_records h hu
    obtain ⟨evs', hlog', hputs'⟩ := ih (rdStep_inv s i u h hok.1 hu) (hok.2 u hu) he
    refine ⟨evs ++ evs', ?_, ?_⟩
    · rw [hlog', hlog, List.append_assoc]
    · rw [labels_cons is hu, List.flatMap_cons, hputs, hputs', List.flatMap_append]

theorem queueOp_ne_clear {s t : Netcom α} {i : RdInput} (h : i ≠ .stop) : queueOp s i t ≠ .clear := by
  cases i with
  | stop => exact absurd rfl h
  | readcb | start | consume =>
    intro heq
    cases heq

/-- The queue a run leaves, from any state on. -/
theorem exec_queue {s t : Netcom α} {is : List RdInput} (h : RingQueue s)
    (hrun : OkRun (rdStep env) (fun nc i => Legal nc i ∧ StaysBehind nc i) s is t) (h16 : StampFits t) :
    exec queueStep s.queued (labels (rdStep env) queueOp s is) = some t.queued := by
  have hback : ∀ (s : Netcom α) (i : RdInput) (t : Netcom α), RingInv s → rdStep env s i = some t →
      StampFits t → StampFits s := by
    intro s i t h ht hfits
    obtain ⟨evs, hlog, -⟩ := rdStep_records h ht
    exact hfits.of_log hlog
  have hfits := (along_of_end rdStep_inv hback h.ring hrun.along hrun.exec h16).2
  exact exec_labels rdStep_queue h (hrun.along.and hfits) hrun.exec

/-- What was queued and what has been stored since is consumed or queued. -/
theorem queue_balance {s t : Netcom α} {is : List RdInput} (h : RingQueue s)
    (hrun : OkRun (rdStep env) (fun nc i => Legal nc i ∧ StaysBehind nc i) s is t) (h16 : StampFits t)
    (hstop : .stop ∉ is) :
    ∃ evs, t.log = s.log ++ evs ∧
      (labels (rdStep env) queueOp s is).flatMap QueueOp.takes ++ t.queued =
        s.queued ++ evs.flatMap NetcomEv.stored := by
  have hclear : .clear ∉ labels (rdStep env) queueOp s is := by
    intro hmem
    obtain ⟨s', t', i, hi, heq⟩ := mem_labels hmem
    exact queueOp_ne_clear (ne_of_mem_of_not_mem hi hstop) heq.symm
  obtain ⟨evs, hlog, hputs⟩ := records_run h.ring hrun.along hrun.exec
  have hconserved := queue_conserved (exec_queue h hrun h16) hclear
  rw [hputs] at hconserved
  exact ⟨evs, hlog, hconserved.symm⟩

/-- In every run whose reads end in front of `rd2_off`, and in which no packet too short for
its time is accepted, the receive buffer is a queue: what a callback stores comes in at the
back, in the order of the log, what the consumer moves over is at the front, and `stop`
empties it. Until then every byte stored has been consumed or is queued. -/
theorem ring_refines_queue [Inhabited α] (env : Env) (blob : Nat → UInt8) {is : List RdInput} {nc : Netcom α}
    (hrun : OkRun (rdStep env) (fun nc i => Legal nc i ∧ StaysBehind nc i)
      { (netcomAllocateBuffer : Netcom α) with blob := blob } is nc)
    (h16 : StampFits nc) :
    exec queueStep [] (labels (rdStep env) queueOp { (netcomAllocateBuffer : Netcom α) with blob := blob } is) =
        some nc.queued ∧
      (.stop ∉ is →
        (labels (rdStep env) queueOp { (netcomAllocateBuffer : Netcom α) with blob := blob } is).flatMap
          QueueOp.takes ++ nc.queued = nc.log.flatMap NetcomEv.stored) := by
  have hinit : RingQueue { (netcomAllocateBuffer : Netcom α) with blob := blob } := ⟨allocateBuffer_inv blob, rfl⟩
  refine ⟨exec_queue hinit hrun h16, fun hstop => ?_⟩
  obtain ⟨evs, hlog, hbalance⟩ := queue_balance hinit hrun h16 hstop
  rw [hlog]
  exact hbalance

/-- A packet is received and the consumer takes the first 12 bytes of it. -/
theorem ring_refines_queue_addata :
    ∃ nc, exec (rdStep .still) (netcomAllocateBuffer : Netcom Unit)
        [.start, .readcb addata20, .consume 12, .readcb buzzack] = some nc ∧
      exec queueStep [] (labels (rdStep .still) queueOp (netcomAllocateBuffer : Netcom Unit)
        [.start, .readcb addata20, .consume 12, .readcb buzzack]) = some nc.queued ∧
      (labels (rdStep .still) queueOp (netcomAllocateBuffer : Netcom Unit)
        [.start, .readcb addata20, .consume 12, .readcb buzzack]).flatMap QueueOp.takes ++ nc.queued =
          nc.log.flatMap NetcomEv.stored := by
  have hall : (exec (rdStep .still) (netcomAllocateBuffer : Netcom Unit)
      [.start, .readcb addata20, .consume 12, .readcb buzzack]).any
        (fun nc => decide (∀ f ∈ nc.accepted, 16 ≤ f.1.length)) = true := by decide +kernel
  obtain ⟨nc, hexec, hfits⟩ := (Option.any_eq_true _ _).1 hall
  have hstamp : StampFits nc := (of_decide_eq_true hfits : ∀ f ∈ nc.accepted, 16 ≤ f.1.length)
  have halong : Along (rdStep .still) (fun nc i => Legal nc i ∧ StaysBehind nc i)
      (netcomAllocateBuffer : Netcom Unit) [.start, .readcb addata20, .consume 12, .readcb buzzack] := by
    decide +kernel
  obtain ⟨hqueue, hconserved⟩ :=
    ring_refines_queue .still (fun _ => 0) ⟨hexec, halong⟩ hstamp
  refine ⟨nc, hexec, hqueue, hconserved ?_⟩
  simp

end CmdAgent

import CmdAgent.Resync
import CmdAgent.RingBuffer
/-!
# What the consumer sees

The bytes between `rd2_off` and `rd1_off` are stream packets that
`netcmd_readpacket` accepted, one after the other, as long as `netcom_readcb`
neither drops nor rewinds. A packet of fewer than 12 bytes must not be given to
`netcmd_readpacket`: the size of its payload wraps around, and `crc16` runs over
4 GB. `ShortFrame` says where that happens.
-/
open StreamLib.Mem StreamLib.Loop StreamLib.Runs

namespace CmdAgent

variable {α : Type} {env : Env} {nc : Netcom α}

/-! ## Walking over packets -/

/-- At `p` stands the header of a stream packet that `netcmd_readpacket` accepted at
`p` as `packet`, with the time `tv`. -/
structure FrameAt (env : Env) (blob : Nat → UInt8) (p : Nat) (packet : List UInt8) (tv : Timeval) : Prop where
  valid : netcmdIsvalidpacketheader (slice blob p 8) = true
  cmd : cmdOf (slice blob p 8) = l0006NetcmdAddata
  lo : 12 ≤ lengthOf (slice blob p 8)
  hi : lengthOf (slice blob p 8) ≤ l0006StreamMaxSize
  header : packet.take 8 = slice blob p 8
  length : packet.length = lengthOf (slice blob p 8)
  accepted : ∃ blob', slice blob' p packet.length = packet ∧ (netcmdReadpacket env.below blob' p tv).isSome

/-- Going by the `f.length` of each header leads from one offset to the other, over
the packets in the list. -/
def Walk (env : Env) (blob : Nat → UInt8) : Nat → List (List UInt8 × Timeval) → Nat → Prop
  | p, [], q => p = q
  | p, (packet, tv) :: fs, q =>
    FrameAt env blob p packet tv ∧ Walk env blob (p + lengthOf (slice blob p 8)) fs q

theorem FrameAt.congr {blob blob' : Nat → UInt8} {p : Nat} {packet : List UInt8} {tv : Timeval}
    (h : FrameAt env blob p packet tv) (hb : slice blob' p 8 = slice blob p 8) : FrameAt env blob' p packet tv := by
  obtain ⟨h1, h2, h3, h4, h5, h6, h7⟩ := h
  constructor <;> simpa only [hb]

theorem Walk.le {blob : Nat → UInt8} {p q : Nat} {fs : List (List UInt8 × Timeval)} (h : Walk env blob p fs q) :
    p ≤ q := by
  induction fs generalizing p with
  | nil => exact Nat.le_of_eq h
  | cons f fs ih => exact Nat.le_trans (Nat.le_add_right _ _) (ih h.2)

/-- A walk only looks at what it goes over. -/
theorem Walk.congr {blob blob' : Nat → UInt8} {p q : Nat} {fs : List (List UInt8 × Timeval)}
    (h : Walk env blob p fs q) (hb : ∀ i < q, blob' i = blob i) : Walk env blob' p fs q := by
  induction fs generalizing p with
  | nil => exact h
  | cons f fs ih =>
    obtain ⟨hf, hrest⟩ := h
    have hle := hrest.le
    have hlo := hf.lo
    have hs : slice blob' p 8 = slice blob p 8 := slice_congr fun i _ hi => hb i (by omega)
    refine ⟨hf.congr hs, ?_⟩
    rw [hs]
    exact ih hrest

theorem walk_append {blob : Nat → UInt8} {p q : Nat} {fs gs : List (List UInt8 × Timeval)} :
    Walk env blob p (fs ++ gs) q ↔ ∃ m, Walk env blob p fs m ∧ Walk env blob m gs q := by
  induction fs generalizing p with
  | nil => exact ⟨fun h => ⟨p, rfl, h⟩, fun ⟨m, hm, h⟩ => hm ▸ h⟩
  | cons f fs ih =>
    constructor
    · rintro ⟨hf, hrest⟩
      obtain ⟨m, hm, hgs⟩ := ih.1 hrest
      exact ⟨m, ⟨hf, hm⟩, hgs⟩
    · rintro ⟨m, ⟨hf, hm⟩, hgs⟩
      exact ⟨hf, ih.2 ⟨m, hm, hgs⟩⟩

theorem Walk.snoc {blob : Nat → UInt8} {p q : Nat} {fs : List (List UInt8 × Timeval)} {packet : List UInt8}
    {tv : Timeval} (h : Walk env blob p fs q) (hf : FrameAt env blob q packet tv) :
    Walk env blob p (fs ++ [(packet, tv)]) (q + lengthOf (slice blob q 8)) :=
  walk_append.2 ⟨q, h, hf, rfl⟩

/-- Moving over whole frames, by the headers in the blob. -/
abbrev WholeFrames (blob : Nat → UInt8) : Nat → Nat → Prop :=
  Relation.ReflTransGen (fun p q => q = p + lengthOf (slice blob p 8))

theorem WholeFrames.le {blob : Nat → UInt8} {p q : Nat} (h : WholeFrames blob p q) : p ≤ q := by
  induction h with
  | refl => exact Nat.le_refl p
  | tail _ hb ih =>
    rw [hb]
    exact Nat.le_trans ih (Nat.le_add_right _ _)

/-- Whoever moves over whole frames gets from packet to packet. -/
theorem Walk.split {blob : Nat → UInt8} {p q r : Nat} {fs : List (List UInt8 × Timeval)}
    (h : Walk env blob p fs q) (hr : WholeFrames blob p r) (hle : r ≤ q) :
    ∃ as bs, fs = as ++ bs ∧ Walk env blob p as r ∧ Walk env blob r bs q := by
  induction hr using Relation.ReflTransGen.head_induction_on generalizing fs with
  | refl => exact ⟨[], fs, rfl, rfl, h⟩
  | @head p p' hp hrest ih =>
    cases fs with
    | nil =>
      -- There is no packet left, so the frames moved over are empty.
      cases h
      have hqr : q ≤ r := WholeFrames.le (.head hp hrest)
      cases Nat.le_antisymm hle hqr
      exact ⟨[], [], rfl, rfl, rfl⟩
    | cons f fs =>
      obtain ⟨hf, hwalk⟩ := h
      rw [← hp] at hwalk
      obtain ⟨as, bs, rfl, ha, hb⟩ := ih hwalk
      rw [hp] at ha
      exact ⟨f :: as, bs, rfl, ⟨hf, ha⟩, hb⟩

/-! ## The invariant -/

/-- The stream packet an event accepts. -/
def NetcomEv.accepted : NetcomEv α → Option (List UInt8 × Timeval)
  | .append packet tv => some (packet, tv)
  | _ => none

/-- The stream packets accepted so far. -/
def Netcom.accepted (nc : Netcom α) : List (List UInt8 × Timeval) := nc.log.filterMap NetcomEv.accepted

/-- The packets accepted so far fill the blob up to `rd1_off`, and `rd2_off` stands
between two of them. -/
def Published (env : Env) (nc : Netcom α) : Prop :=
  ∃ consumed unread, nc.accepted = consumed ++ unread ∧ Walk env nc.blob 0 consumed nc.rd2Off ∧
    Walk env nc.blob nc.rd2Off unread nc.rd1Off

/-- A stream packet that declares fewer than 12 bytes and is given to
`netcmd_readpacket`. -/
def ShortFrame (nc : Netcom α) : Prop :=
  8 ≤ nc.pending.length ∧ netcmdIsvalidpacketheader nc.pending = true ∧ cmdOf nc.pending = l0006NetcmdAddata ∧
    nc.rx = true ∧ 0 < lengthOf nc.pending ∧ lengthOf nc.pending ≤ nc.pending.length ∧ lengthOf nc.pending < 12

instance (nc : Netcom α) : Decidable (ShortFrame nc) := inferInstanceAs (Decidable (_ ∧ _))

/-- What a round accepts. -/
inductive Accepts (env : Env) (nc : Netcom α) (t : Netcom α) : Prop
  | nothing : t.accepted = nc.accepted → t.rd1Off = nc.rd1Off → Accepts env nc t
  | packet (packet : List UInt8) (tv : Timeval) : t.accepted = nc.accepted ++ [(packet, tv)] →
      FrameAt env t.blob nc.rd1Off packet tv → t.rd1Off = nc.rd1Off + lengthOf (slice t.blob nc.rd1Off 8) →
      Accepts env nc t

theorem accepted_resync (h : nc.rd1Off + 8 ≤ nc.wrOff) :
    (netcomResync nc).state.accepted = nc.accepted ∧ (netcomResync nc).state.rd1Off = nc.rd1Off := by
  obtain ⟨p, -, -, -, hr⟩ := resync_cases h
  generalize netcomResync nc = o at hr ⊢
  have hd : (netcomDiscard nc p).accepted = nc.accepted := by
    simp [Netcom.accepted, netcomDiscard, List.filterMap_append, NetcomEv.accepted]
  cases hr with
  | found | notFound => exact ⟨hd, rfl⟩

/-- The header of the packet at `rd1_off`, before and after the time is stored. -/
theorem frameAt_append {blob : Nat → UInt8} {tv : Timeval} (h8 : 8 ≤ nc.pending.length)
    (hv : netcmdIsvalidpacketheader nc.pending = true) (hc : cmdOf nc.pending = l0006NetcmdAddata)
    (hlo : 12 ≤ lengthOf nc.pending) (hmax : lengthOf nc.pending ≤ l0006StreamMaxSize)
    (hn : lengthOf nc.pending ≤ nc.pending.length)
    (hr : netcmdReadpacket env.below nc.blob nc.rd1Off tv = some blob) :
    lengthOf (slice blob nc.rd1Off 8) = lengthOf nc.pending ∧
      FrameAt env blob nc.rd1Off (nc.pending.take (lengthOf nc.pending)) tv := by
  have hlen := length_pending nc
  have hslice : ∀ k ≤ nc.pending.length, nc.pending.take k = slice nc.blob nc.rd1Off k := fun k hk =>
    take_slice _ (by omega)
  have hhead : slice blob nc.rd1Off 8 = nc.pending.take 8 := by
    rw [readpacket_some hr, slice_store_before _ _ (Nat.le_refl _), hslice 8 h8]
  have hl : lengthOf (slice blob nc.rd1Off 8) = lengthOf nc.pending := by
    rw [hhead, lengthOf, ofBytes_take h8, lengthOf]
  refine ⟨hl, ?_⟩
  constructor
  · rw [hhead, isvalid_take h8]
    exact hv
  · rw [hhead, cmdOf, ofBytes_take h8]
    exact hc
  · rw [hl]
    exact hlo
  · rw [hl]
    exact hmax
  · rw [hhead, List.take_take, Nat.min_eq_left (by omega)]
  · rw [hl, List.length_take, Nat.min_eq_left hn]
  · refine ⟨nc.blob, ?_, by rw [hr]; rfl⟩
    rw [List.length_take, Nat.min_eq_left hn, hslice _ hn]

theorem Round.accepts {o : Outcome (Netcom α)} (h : Round env nc o) (hs : ¬ ShortFrame nc) :
    Accepts env nc o.state := by
  have hlen := length_pending nc
  cases h with
  | short | incomplete | partialCommand | zeroStream => exact .nothing rfl rfl
  | badHeader h8 | tooLong h8 | badCrc h8 =>
    have hhead : nc.rd1Off + 8 ≤ nc.wrOff := by omega
    obtain ⟨ha, h1⟩ := accepted_resync hhead
    exact .nothing ha h1
  | append blob h8 hv hc hpos hmax hn hrx hr =>
    have hlo : 12 ≤ lengthOf nc.pending := Nat.le_of_not_lt fun hlt => hs ⟨h8, hv, hc, hrx, hpos, hn, hlt⟩
    obtain ⟨hl, hf⟩ := frameAt_append h8 hv hc hlo hmax hn hr
    refine .packet _ _ ?_ hf ?_
    · simp [Netcom.accepted, Outcome.state, List.filterMap_append, NetcomEv.accepted]
    · simp only [Outcome.state, hl]
  | drop => exact .nothing (by simp [Netcom.accepted, Outcome.state, netcomRemove, NetcomEv.accepted]) rfl
  | command =>
    obtain ⟨hit, un, us, he⟩ := lookup_frame nc (seqnoOf nc.pending) (nc.pending.take (commandLength nc.pending))
    rw [he]
    exact .nothing (by simp [Netcom.accepted, Outcome.state, netcomRemove, NetcomEv.accepted]) rfl

/-- What holds in every state of a run. -/
structure Tidy (env : Env) (nc : Netcom α) : Prop where
  le : nc.rd1Off ≤ nc.wrOff
  errorflag : nc.errorflag = false
  published : Published env nc

/-- `rd1_off` does not move back, and nothing in front of it changes. -/
def Extends (nc t : Netcom α) : Prop := nc.rd1Off ≤ t.rd1Off ∧ ∀ i < nc.rd1Off, t.blob i = nc.blob i

theorem Extends.refl (nc : Netcom α) : Extends nc nc := ⟨Nat.le_refl _, fun _ _ => rfl⟩

theorem Extends.trans {t u : Netcom α} (h : Extends nc t) (h' : Extends t u) : Extends nc u :=
  ⟨Nat.le_trans h.1 h'.1, fun i hi => (h'.2 i (Nat.lt_of_lt_of_le hi h.1)).trans (h.2 i hi)⟩

theorem Keeps.extends {t : Netcom α} (hk : Keeps nc t) : Extends nc t := ⟨hk.lo, hk.blob⟩

theorem Tidy.receive (h : Tidy env nc) (chunk : List UInt8) :
    Tidy env (netcomReceive nc chunk) ∧ Extends nc (netcomReceive nc chunk) := by
  have hb : ∀ i < nc.rd1Off, (netcomReceive nc chunk).blob i = nc.blob i := fun i hi =>
    store_before _ (Nat.lt_of_lt_of_le hi h.le)
  obtain ⟨consumed, unread, ha, hc, hu⟩ := h.published
  have hle := hu.le
  refine ⟨⟨Nat.le_trans h.le (Nat.le_add_right _ _), h.errorflag, consumed, unread, ha, ?_, ?_⟩, Nat.le_refl _, hb⟩
  · exact hc.congr fun i hi => hb i (Nat.lt_of_lt_of_le hi hle)
  · exact hu.congr hb

/-- A round that is given no short frame keeps the packets in order. -/
theorem Round.tidy {o : Outcome (Netcom α)} (hr : Round env nc o) (h : Tidy env nc) (hs : ¬ ShortFrame nc) :
    Tidy env o.state := by
  have hk := hr.keeps h.le
  obtain ⟨consumed, unread, ha, hc, hu⟩ := h.published
  have hle := hu.le
  have hc' : Walk env o.state.blob 0 consumed o.state.rd2Off := by
    rw [hk.rd2Off]
    exact hc.congr fun i hi => hk.blob i (Nat.lt_of_lt_of_le hi hle)
  have hu' : Walk env o.state.blob o.state.rd2Off unread nc.rd1Off := by
    rw [hk.rd2Off]
    exact hu.congr hk.blob
  refine ⟨hk.le, hk.errorflag.trans h.errorflag, ?_⟩
  cases hr.accepts hs with
  | nothing ha' h1 => exact ⟨consumed, unread, ha'.trans ha, hc', h1 ▸ hu'⟩
  | packet packet tv ha' hf h1 =>
    refine ⟨consumed, unread ++ [(packet, tv)], ?_, hc', ?_⟩
    · rw [ha', ha, List.append_assoc]
    · rw [h1]
      exact hu'.snoc hf

/-! ## Runs -/

/-- `t` is the state at the head of a round of the packet loop in this step. -/
def AtRound (env : Env) (nc : Netcom α) : RdInput → Netcom α → Prop
  | .readcb chunk, t =>
    ∃ nc' spaceToEnd, netcomMakeRoom nc = .room nc' spaceToEnd ∧ Reaches (netcomIter env) (netcomReceive nc' chunk) t
  | .start, _ | .stop, _ | .consume _, _ => False

/-- A callback neither drops nor rewinds; the consumer moves over whole frames and
stops at `rd1_off`. -/
def Steady (nc : Netcom α) : RdInput → Prop
  | .readcb chunk =>
    Fits nc chunk ∧ circSpace nc.wrOff nc.rd2Off netcomRdbufferSize ≠ 0 ∧
      nc.wrOff ≤ netcomRdbufferForcerewindOffset
  | .consume rd2Off => WholeFrames nc.blob nc.rd2Off rd2Off ∧ rd2Off ≤ nc.rd1Off
  | .start | .stop => True

/-- Also, no round of the packet loop is given a short frame. -/
def Orderly (env : Env) (nc : Netcom α) (i : RdInput) : Prop :=
  Steady nc i ∧ ∀ t, AtRound env nc i t → ¬ ShortFrame t

/-- A callback returns from one of its rounds. -/
theorem readcb_round {chunk : List UInt8} {t : Netcom α} (he : nc.errorflag = false) (hi : Steady nc (.readcb chunk))
    (ht : rdStep env nc (.readcb chunk) = some t) :
    ∃ u, AtRound env nc (.readcb chunk) u ∧ Round env u (.brk t) := by
  have hhere := makeRoom_here he hi.2.1 hi.2.2
  unfold rdStep netcomReadcb at ht
  rw [hhere] at ht
  obtain ⟨u, hu, hb⟩ := reaches_of_run ht
  exact ⟨u, ⟨nc, _, hhere, hu⟩, round_of hb⟩

theorem atRound_tidy {i : RdInput} {t : Netcom α} (h : Tidy env nc) (hi : Orderly env nc i) (ht : AtRound env nc i t) :
    Tidy env t ∧ Extends nc t := by
  cases i with
  | start | stop | consume => cases ht
  | readcb chunk =>
    obtain ⟨⟨-, hs, hw⟩, hshort⟩ := hi
    obtain ⟨nc', spaceToEnd, hroom, hreach⟩ := ht
    have hhere := makeRoom_here h.errorflag hs hw
    have hns : ∀ u, Reaches (netcomIter env) (netcomReceive nc chunk) u → ¬ ShortFrame u := fun u hu =>
      hshort u ⟨nc, _, hhere, hu⟩
    cases hhere.symm.trans hroom
    obtain ⟨hrecv, hext⟩ := h.receive chunk
    induction hreach with
    | refl => exact ⟨hrecv, hext⟩
    | tail hu hb ih =>
      have hround := round_of hb
      exact ⟨hround.tidy ih.1 (hns _ hu), ih.2.trans (hround.keeps ih.1.le).extends⟩

theorem rdStep_tidy {i : RdInput} {t : Netcom α} (h : Tidy env nc) (hi : Orderly env nc i)
    (ht : rdStep env nc i = some t) : Tidy env t ∧ Extends nc t := by
  obtain ⟨consumed, unread, ha, hc, hu⟩ := h.published
  cases i with
  | start =>
    cases ht
    exact ⟨⟨h.le, h.errorflag, h.published⟩, .refl nc⟩
  | stop =>
    cases ht
    refine ⟨⟨h.le, h.errorflag, consumed ++ unread, [], ?_, walk_append.2 ⟨_, hc, hu⟩, rfl⟩, .refl nc⟩
    rw [List.append_nil]
    exact ha
  | consume rd2Off =>
    cases ht
    obtain ⟨as, bs, rfl, has, hbs⟩ := hu.split hi.1.1 hi.1.2
    refine ⟨⟨h.le, h.errorflag, consumed ++ as, bs, ?_, walk_append.2 ⟨_, hc, has⟩, hbs⟩, .refl nc⟩
    rw [List.append_assoc]
    exact ha
  | readcb chunk =>
    obtain ⟨u, hu, hround⟩ := readcb_round h.errorflag hi.1 ht
    obtain ⟨htidy, hext⟩ := atRound_tidy h hi hu
    exact ⟨hround.tidy htidy (hi.2 u hu), hext.trans (hround.keeps htidy.le).extends⟩

theorem allocateBuffer_tidy [Inhabited α] (env : Env) (blob : Nat → UInt8) :
    Tidy env { (netcomAllocateBuffer : Netcom α) with blob := blob } :=
  ⟨Nat.le_refl 0, rfl, [], [], rfl, rfl, rfl⟩

/-- In every state of a run without a drop or a rewind, going from `rd2_off` by the
declared lengths leads to `rd1_off` over accepted stream packets, and nothing in
front of `rd1_off` changes later. -/
theorem published_frames [Inhabited α] (env : Env) (blob : Nat → UInt8) (is : List RdInput)
    (hrun : Along (rdStep env) (Orderly env) { (netcomAllocateBuffer : Netcom α) with blob := blob } is) :
    (∀ t, Visits (rdStep env) (AtRound env) { (netcomAllocateBuffer : Netcom α) with blob := blob } is t →
      Published env t) ∧
    ∀ pre post s t, is = pre ++ post →
      exec (rdStep env) { (netcomAllocateBuffer : Netcom α) with blob := blob } pre = some s →
      Visits (rdStep env) (AtRound env) s post t → ∀ i < s.rd1Off, t.blob i = s.blob i := by
  have hinit := allocateBuffer_tidy (α := α) env blob
  have hstep : ∀ (s : Netcom α) (i : RdInput) (t : Netcom α), Tidy env s → Orderly env s i →
      rdStep env s i = some t → Tidy env t := fun s i t hs hi ht => (rdStep_tidy hs hi ht).1
  constructor
  · intro t ht
    exact (visits_inv hstep (fun s i t hs hi ht => (atRound_tidy hs hi ht).1) hinit hrun ht).published
  · rintro pre post s t rfl hs ht
    obtain ⟨hpre, hpost⟩ := (along_append _ pre post).1 hrun
    have hst : Tidy env t ∧ Extends s t := by
      refine visits_inv (I := fun t => Tidy env t ∧ Extends s t) ?_ ?_
        ⟨exec_inv hstep hinit hpre hs, .refl s⟩ (hpost s hs) ht
      · rintro u i v ⟨hu, hsu⟩ hi hv
        obtain ⟨hv, huv⟩ := rdStep_tidy hu hi hv
        exact ⟨hv, hsu.trans huv⟩
      · rintro u i v ⟨hu, hsu⟩ hi hv
        obtain ⟨hv, huv⟩ := atRound_tidy hu hi hv
        exact ⟨hv, hsu.trans huv⟩
    exact hst.2.2

/-- A stream packet with garbage in front and an acknowledgement behind it. -/
def garbled : List UInt8 := [1, 2, 3, 4, 5, 6, 7, 8] ++ addata20 ++ buzzack

/-- The consumer reads the one stream packet there is, and RX is cleared. -/
theorem published_frames_addata :
    (∀ t, Visits (rdStep .still) (AtRound .still) (netcomAllocateBuffer : Netcom Unit)
      [.start, .readcb garbled, .consume 20, .stop] t → Published .still t) ∧
    ∀ pre post s t, [.start, .readcb garbled, .consume 20, .stop] = pre ++ post →
      exec (rdStep .still) (netcomAllocateBuffer : Netcom Unit) pre = some s →
      Visits (rdStep .still) (AtRound .still) s post t → ∀ i < s.rd1Off, t.blob i = s.blob i := by
  refine published_frames .still (fun _ => 0) _ ⟨⟨trivial, fun t ht => ht.elim⟩, ?_⟩
  rintro s ⟨⟩
  refine ⟨⟨⟨by decide +kernel, by decide +kernel, by decide⟩, ?_⟩, ?_⟩
  · rintro t ⟨nc', spaceToEnd, hroom, ht⟩
    cases (makeRoom_here rfl (by decide +kernel) (by decide)).symm.trans hroom
    have hruns : (run (netcomIter .still) 40
        (netcomReceive (l0006NetcomStart (netcomAllocateBuffer : Netcom Unit)) garbled)).isSome := by decide +kernel
    have hheads : ∀ u ∈ heads (netcomIter .still) 40
        (netcomReceive (l0006NetcomStart (netcomAllocateBuffer : Netcom Unit)) garbled), ¬ ShortFrame u := by
      decide +kernel
    exact reaches_of_heads (P := fun u => ¬ ShortFrame u) hruns hheads ht
  · intro t ht
    have hall : (rdStep .still (l0006NetcomStart (netcomAllocateBuffer : Netcom Unit)) (.readcb garbled)).all
        (fun t => decide (t.rd1Off = 20 ∧ t.rd2Off = 0 ∧ lengthOf (slice t.blob 0 8) = 20)) = true := by
      decide +kernel
    obtain ⟨h1, h2, hl⟩ := of_decide_eq_true ((Option.all_eq_true _ _).1 hall t ht)
    have hwhole : WholeFrames t.blob t.rd2Off 20 := .single (by rw [h2, hl])
    refine ⟨⟨⟨hwhole, Nat.le_of_eq h1.symm⟩, fun u hu => hu.elim⟩, fun u _ => ?_⟩
    exact ⟨⟨trivial, fun v hv => hv.elim⟩, fun v _ => trivial⟩

/-! ## Short frames and the stream -/

/-- No header anywhere in the stream is that of a stream packet of fewer than 16 bytes, which
has no room for its time. -/
def RoomForStamps (stream : List UInt8) : Prop :=
  ∀ k < stream.length, 8 ≤ (stream.drop k).length → netcmdIsvalidpacketheader (stream.drop k) = true →
    cmdOf (stream.drop k) = l0006NetcmdAddata → 16 ≤ lengthOf (stream.drop k)

instance (stream : List UInt8) : Decidable (RoomForStamps stream) :=
  inferInstanceAs (Decidable (∀ k < stream.length, _ → _ → _ → _))

/-- What is pending is the end of what has come in of `stream`. -/
structure Fed (stream taken : List UInt8) (nc : Netcom α) : Prop where
  ends : nc.pending <:+ taken
  comes : taken <+: stream

section
variable {stream taken : List UInt8}

/-- The header of a stream packet that is pending is one of the stream's. -/
theorem Fed.long (h : Fed stream taken nc) (hroom : RoomForStamps stream) (h8 : 8 ≤ nc.pending.length)
    (hv : netcmdIsvalidpacketheader nc.pending = true) (hc : cmdOf nc.pending = l0006NetcmdAddata) :
    16 ≤ lengthOf nc.pending := by
  obtain ⟨pre, hpre⟩ := h.ends
  obtain ⟨rest, hrest⟩ := h.comes
  have hstream : stream = pre ++ (nc.pending ++ rest) := by rw [← hrest, ← hpre, List.append_assoc]
  have hdrop : stream.drop pre.length = nc.pending ++ rest := by rw [hstream, List.drop_left]
  have hlong := hroom pre.length
  rw [hdrop, isvalid_append rest h8, cmdOf_append rest h8, lengthOf_append rest h8] at hlong
  refine hlong ?_ ?_ hv hc
  · rw [hstream, List.length_append, List.length_append]
    omega
  · rw [List.length_append]
    exact Nat.le_trans h8 (Nat.le_add_right _ _)

theorem Fed.not_short (h : Fed stream taken nc) (hroom : RoomForStamps stream) : ¬ ShortFrame nc := by
  rintro ⟨h8, hv, hc, -, -, -, hlt⟩
  have hlong := h.long hroom h8 hv hc
  omega

theorem Fed.drop (h : Fed stream taken nc) {t : Netcom α} {n : Nat} (hp : t.pending = nc.pending.drop n) :
    Fed stream taken t :=
  ⟨by rw [hp]; exact (List.drop_suffix n _).trans h.ends, h.comes⟩

theorem fed_resync (h : Fed stream taken nc) (h8 : 8 ≤ nc.pending.length) :
    Fed stream taken (netcomResync nc).state := by
  obtain ⟨p, -, hp, -, hs⟩ := search_of h8
  generalize netcomResync nc = o at hs ⊢
  cases hs with
  | found | notFound => exact h.drop (pending_discard hp)

/-- A round takes bytes from the front; a time is stored in the packet it is for. -/
theorem Round.fed {o : Outcome (Netcom α)} (hr : Round env nc o) (h : Fed stream taken nc)
    (hroom : RoomForStamps stream) : Fed stream taken o.state := by
  cases hr with
  | short | incomplete | partialCommand | zeroStream => exact h
  | badHeader h8 | tooLong h8 | badCrc h8 => exact fed_resync h h8
  | append blob h8 hv hc hpos hmax hn hrx hread =>
    have hlong := h.long hroom h8 hv hc
    cases readpacket_some hread
    exact h.drop (pending_store (by simpa using hlong) hn)
  | drop _ _ _ _ _ hn => exact h.drop (pending_remove hn)
  | command _ _ _ hn => exact h.drop (pending_command _ _ hn)

theorem Fed.receive (h : Fed stream taken nc) (hle : nc.rd1Off ≤ nc.wrOff) {chunk : List UInt8}
    (hcomes : taken ++ chunk <+: stream) : Fed stream (taken ++ chunk) (netcomReceive nc chunk) := by
  refine ⟨?_, hcomes⟩
  obtain ⟨pre, hpre⟩ := h.ends
  rw [pending_receive chunk hle, ← hpre, List.append_assoc]
  exact List.suffix_append _ _

/-- What the rounds of a steady read find. -/
theorem atRound_fed {i : RdInput} {t : Netcom α} (hroom : RoomForStamps stream) (h : Tidy env nc)
    (hfed : Fed stream taken nc) (hi : Steady nc i) (hcomes : taken ++ i.bytes <+: stream) (ht : AtRound env nc i t) :
    Tidy env t ∧ Fed stream (taken ++ i.bytes) t := by
  cases i with
  | start | stop | consume => cases ht
  | readcb chunk =>
    obtain ⟨nc', spaceToEnd, hmake, hreach⟩ := ht
    cases (makeRoom_here h.errorflag hi.2.1 hi.2.2).symm.trans hmake
    refine reaches_inv (I := fun u => Tidy env u ∧ Fed stream (taken ++ chunk) u) ?_ hreach
      ⟨(h.receive chunk).1, hfed.receive h.le hcomes⟩
    rintro s u ⟨hs, hfeds⟩ hb
    have hround := round_of hb
    exact ⟨hround.tidy hs (hfeds.not_short hroom), hround.fed hfeds hroom⟩

theorem rdStep_fed {i : RdInput} {t : Netcom α} (hroom : RoomForStamps stream) (h : Tidy env nc)
    (hfed : Fed stream taken nc) (hi : Steady nc i) (hcomes : taken ++ i.bytes <+: stream)
    (ht : rdStep env nc i = some t) :
    Tidy env t ∧ Fed stream (taken ++ i.bytes) t := by
  have horderly : Orderly env nc i :=
    ⟨hi, fun u hu => (atRound_fed hroom h hfed hi hcomes hu).2.not_short hroom⟩
  refine ⟨(rdStep_tidy h horderly ht).1, ?_⟩
  cases i with
  | start | stop | consume =>
    cases ht
    exact ⟨by rw [RdInput.bytes, List.append_nil]; exact hfed.ends, hcomes⟩
  | readcb chunk =>
    obtain ⟨u, hu, hround⟩ := readcb_round h.errorflag hi ht
    exact hround.fed (atRound_fed hroom h hfed hi hcomes hu).2 hroom

theorem visits_fed {is : List RdInput} {t : Netcom α} (hroom : RoomForStamps stream) (h : Tidy env nc)
    (hfed : Fed stream taken nc) (hrun : Along (rdStep env) Steady nc is)
    (hcomes : taken ++ is.flatMap RdInput.bytes <+: stream) (ht : Visits (rdStep env) (AtRound env) nc is t) :
    Tidy env t ∧ ∃ taken, Fed stream taken t := by
  induction is generalizing nc taken with
  | nil =>
    cases ht
    exact ⟨h, taken, hfed⟩
  | cons i is ih =>
    rw [List.flatMap_cons, ← List.append_assoc] at hcomes
    have hnow : taken ++ i.bytes <+: stream := (List.prefix_append _ _).trans hcomes
    rcases ht with rfl | ht | ⟨u, hu, ht⟩
    · exact ⟨h, taken, hfed⟩
    · obtain ⟨htidy, hfed'⟩ := atRound_fed hroom h hfed hrun.1 hnow ht
      exact ⟨htidy, _, hfed'⟩
    · obtain ⟨htidy, hfed'⟩ := rdStep_fed hroom h hfed hrun.1 hnow hu
      exact ih htidy hfed' (hrun.2 u hu) hcomes ht

end

/-- The garbage comes with a part of the packet, then the rest of it and the acknowledgement,
and the consumer reads the packet. -/
def cutGarbled : List RdInput :=
  [.start, .readcb (garbled.take 15), .readcb (garbled.drop 15), .consume 20]

end CmdAgent

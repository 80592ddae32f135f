import CmdAgent.StreamLib.Framing
import CmdAgent.PacketLoop
/-!
# Reassembly of frames

`netcmdFramer` says what the bytes themselves say about the frame at their
front. The packet loop drains it: while no front is bad, `netcom_readcb` handles
one frame after the other, whatever chunks they arrive in.
-/
open StreamLib.Mem StreamLib.Loop StreamLib.Runs StreamLib.Framing

namespace CmdAgent

variable {α : Type} {env : Env} {nc : Netcom α}

/-! ## Frames in a stream -/

/-- What the receiver does with a frame. -/
inductive Frame where
  | lookup (seqno : UInt8) (packet : List UInt8)
  | append (packet : List UInt8)
  | drop (packet : List UInt8)
  deriving DecidableEq

/-- With RX set, a stream packet that fails its checksum or has no room for the
timestamp is bad. -/
def netcmdNext (rx : Bool) (p : List UInt8) : Verdict Frame :=
  if p.length < 8 then .more
  else if netcmdIsvalidpacketheader p = false then .bad
  else if cmdOf p = l0006NetcmdAddata then
    if lengthOf p = 0 ∨ l0006StreamMaxSize < lengthOf p ∨ (rx = true ∧ lengthOf p < 16) then .bad
    else if p.length < lengthOf p then .more
    else if rx = true then
      if streamCrc p = true then .unit (lengthOf p) (.append (p.take (lengthOf p))) else .bad
    else .unit (lengthOf p) (.drop (p.take (lengthOf p)))
  else if p.length < commandLength p then .more
  else .unit (commandLength p) (.lookup (seqnoOf p) (p.take (commandLength p)))

theorem netcmdNext_pos {rx : Bool} {p : List UInt8} {n : Nat} {o : Frame} (h : netcmdNext rx p = .unit n o) :
    0 < n ∧ n ≤ p.length := by
  unfold netcmdNext at h
  split at h
  · cases h
  split at h
  · cases h
  split at h
  · split at h
    · cases h
    split at h
    · cases h
    have hn : n = lengthOf p := by
      split at h
      · split at h
        · injection h with h; exact h.symm
        · cases h
      · injection h with h; exact h.symm
    omega
  · split at h
    · cases h
    injection h with hn
    rcases commandLength_cases p with hc | hc <;> omega

theorem netcmdNext_append {rx : Bool} {p : List UInt8} (q : List UInt8) (h : netcmdNext rx p ≠ .more) :
    netcmdNext rx (p ++ q) = netcmdNext rx p := by
  by_cases h8 : p.length < 8
  · exact absurd (by rw [netcmdNext, if_pos h8]) h
  have h8' : 8 ≤ p.length := Nat.not_lt.1 h8
  have hle : p.length ≤ (p ++ q).length := by simp
  -- With 8 bytes there, all of the header is read from `p`; past it, only what `p` has in full.
  unfold netcmdNext at h ⊢
  rw [if_neg h8] at h
  rw [if_neg (by omega), if_neg h8, isvalid_append q h8', cmdOf_append q h8', lengthOf_append q h8',
    commandLength_append q h8', seqnoOf_append q h8']
  split
  · rfl
  rename_i hv
  rw [if_neg hv] at h
  by_cases hc : cmdOf p = l0006NetcmdAddata
  · rw [if_pos hc] at h ⊢
    rw [if_pos hc]
    split
    · rfl
    rename_i hbad
    rw [if_neg hbad] at h
    by_cases hmore : p.length < lengthOf p
    · exact absurd (if_pos hmore) h
    rw [if_neg (by omega), if_neg hmore, List.take_append_of_le_length (by omega)]
    by_cases hrx : rx = true
    · have h16 : ¬ lengthOf p < 16 := fun hlt => hbad (.inr (.inr ⟨hrx, hlt⟩))
      rw [streamCrc_append q (by omega) (by omega)]
    · rw [if_neg hrx, if_neg hrx]
  · rw [if_neg hc] at h ⊢
    rw [if_neg hc]
    by_cases hmore : p.length < commandLength p
    · exact absurd (if_pos hmore) h
    rw [if_neg (by omega), if_neg hmore, List.take_append_of_le_length (by omega)]

theorem isvalid_of_next {rx : Bool} {p : List UInt8} (h8 : 8 ≤ p.length) (h : netcmdNext rx p ≠ .bad) :
    netcmdIsvalidpacketheader p = true := by
  by_contra hv
  refine h ?_
  rw [netcmdNext, if_neg (by omega), if_pos (Bool.eq_false_iff.2 hv)]

/-- What becomes of a stream packet whose header is acceptable. -/
theorem netcmdNext_stream {rx : Bool} {p : List UInt8} (h8 : 8 ≤ p.length)
    (hv : netcmdIsvalidpacketheader p = true) (hc : cmdOf p = l0006NetcmdAddata) (hpos : 0 < lengthOf p)
    (hmax : lengthOf p ≤ l0006StreamMaxSize) (h16 : rx = true → 16 ≤ lengthOf p) :
    netcmdNext rx p =
      if p.length < lengthOf p then .more
      else if rx = true then
        if streamCrc p = true then .unit (lengthOf p) (.append (p.take (lengthOf p))) else .bad
      else .unit (lengthOf p) (.drop (p.take (lengthOf p))) := by
  have hgood : ¬ (lengthOf p = 0 ∨ l0006StreamMaxSize < lengthOf p ∨ (rx = true ∧ lengthOf p < 16)) := by
    rintro (h | h | ⟨hrx, h⟩)
    · omega
    · omega
    · have := h16 hrx
      omega
  rw [netcmdNext, if_neg (by omega), if_neg (by simp [hv]), if_pos hc, if_neg hgood]

/-- A stream packet with no room for the timestamp. -/
theorem netcmdNext_tight {p : List UInt8} (h8 : 8 ≤ p.length) (hv : netcmdIsvalidpacketheader p = true)
    (hc : cmdOf p = l0006NetcmdAddata) (h16 : lengthOf p < 16) : netcmdNext true p = .bad := by
  rw [netcmdNext, if_neg (by omega), if_neg (by simp [hv]), if_pos hc, if_pos (.inr (.inr ⟨rfl, h16⟩))]

theorem netcmdNext_command {rx : Bool} {p : List UInt8} (h8 : 8 ≤ p.length)
    (hv : netcmdIsvalidpacketheader p = true) (hc : cmdOf p ≠ l0006NetcmdAddata) :
    netcmdNext rx p = if p.length < commandLength p then .more
      else .unit (commandLength p) (.lookup (seqnoOf p) (p.take (commandLength p))) := by
  rw [netcmdNext, if_neg (by omega), if_neg (by simp [hv]), if_neg hc]

/-- The frames in a byte stream, by their own headers. -/
def netcmdFramer (rx : Bool) : Framer UInt8 Frame where
  next := netcmdNext rx
  unit_pos := netcmdNext_pos
  next_append := netcmdNext_append

/-! ## Handling a frame -/

/-- A stream packet with the time of its arrival over the start of its payload. -/
def stamp (packet : List UInt8) (tv : Timeval) : List UInt8 := packet.take 8 ++ tv.bytes ++ packet.drop 16

/-- The frame an event handles. -/
def NetcomEv.frame : NetcomEv α → Option Frame
  | .lookup seqno packet _ => some (.lookup seqno packet)
  | .append packet _ => some (.append packet)
  | .drop packet => some (.drop packet)
  | .discard _ => none

/-- What an event leaves published. -/
def NetcomEv.stored : NetcomEv α → List UInt8
  | .append packet tv => stamp packet tv
  | _ => []

/-- Between `nc` and `t` the frames `os` were handled, one after the other, and
nothing else happened to the log and the published bytes. -/
def Handles (nc : Netcom α) (os : List Frame) (t : Netcom α) : Prop :=
  ∃ evs, t.log = nc.log ++ evs ∧ evs.map NetcomEv.frame = os.map some ∧
    t.published = nc.published ++ evs.flatMap NetcomEv.stored

theorem Handles.refl (nc : Netcom α) : Handles nc [] nc := ⟨[], by simp, rfl, by simp⟩

theorem Handles.trans {t u : Netcom α} {os os' : List Frame} (h : Handles nc os t) (h' : Handles t os' u) :
    Handles nc (os ++ os') u := by
  obtain ⟨e, hl, hm, hp⟩ := h
  obtain ⟨e', hl', hm', hp'⟩ := h'
  refine ⟨e ++ e', ?_, ?_, ?_⟩
  · rw [hl', hl, List.append_assoc]
  · rw [List.map_append, List.map_append, hm, hm']
  · rw [hp', hp, List.flatMap_append, List.append_assoc]

theorem pending_remove {n : Nat} (h : n ≤ nc.pending.length) : (netcomRemove nc n).pending = nc.pending.drop n := by
  have hlen := length_pending nc
  have hn : nc.wrOff - n - nc.rd1Off = nc.wrOff - nc.rd1Off - n := by omega
  unfold Netcom.pending
  rw [drop_slice _ (by omega), ← slice_move nc.blob nc.rd1Off, ← hn]
  simp only [netcomRemove, hn]

theorem published_remove (n : Nat) : (netcomRemove nc n).published = nc.published :=
  slice_move_before _ _ _ (Nat.le_of_eq (Nat.zero_add _))

theorem pending_store {n : Nat} {bs : List UInt8} (hb : 8 + bs.length ≤ n) (h : n ≤ nc.pending.length) :
    slice (store nc.blob (nc.rd1Off + 8) bs) (nc.rd1Off + n) (nc.wrOff - (nc.rd1Off + n)) = nc.pending.drop n := by
  have hlen := length_pending nc
  unfold Netcom.pending
  rw [slice_store_after _ _ (by omega), drop_slice _ (by omega)]
  congr 1
  omega

theorem published_store {n : Nat} (tv : Timeval) (hb : 16 ≤ n) (h : n ≤ nc.pending.length) :
    slice (store nc.blob (nc.rd1Off + 8) tv.bytes) 0 (nc.rd1Off + n) = nc.published ++ stamp (nc.pending.take n) tv := by
  have hlen := length_pending nc
  obtain ⟨k, rfl⟩ := Nat.exists_eq_add_of_le hb
  have hcut : nc.rd1Off + (16 + k) = nc.rd1Off + 8 + tv.bytes.length + k := by simp; omega
  have h8 : (nc.pending.take (16 + k)).take 8 = slice nc.blob nc.rd1Off 8 := by
    rw [List.take_take, Nat.min_eq_left (by omega), Netcom.pending, take_slice _ (by omega)]
  have h16 : (nc.pending.take (16 + k)).drop 16 = slice nc.blob (nc.rd1Off + 16) k := by
    rw [Netcom.pending, take_slice _ (by omega), drop_slice _ (by omega)]
    congr 1
    omega
  rw [stamp, h8, h16, hcut, slice_add, slice_add, slice_add, Nat.zero_add, Nat.zero_add]
  rw [slice_store_before _ _ (by omega), slice_store_before _ _ (by omega), Nat.zero_add, slice_store_self,
    slice_store_after _ _ (Nat.le_refl _)]
  simp [Netcom.published]

/-- A round against what the framer says of the pending bytes. -/
inductive Simulates (nc : Netcom α) : Verdict Frame → Outcome (Netcom α) → Prop
  | more : Simulates nc .more (.brk nc)
  | unit {n : Nat} {f : Frame} {t : Netcom α} :
      t.pending = nc.pending.drop n → Handles nc [f] t → Simulates nc (.unit n f) (.cont t)
  | bad {o : Outcome (Netcom α)} :
      ((netcmdIsvalidpacketheader nc.pending = true → 16 ≤ lengthOf nc.pending) → o = netcomResync nc) →
        Simulates nc .bad o

theorem readpacket_pending (env : Env) (tv : Timeval) (h : 12 ≤ lengthOf nc.pending)
    (hn : lengthOf nc.pending ≤ nc.pending.length) :
    netcmdReadpacket env.below nc.blob nc.rd1Off tv =
      if streamCrc nc.pending then some (store nc.blob (nc.rd1Off + 8) tv.bytes) else none :=
  readpacket_eq env.below nc.blob tv h (hn.trans_eq (length_pending nc))

theorem handles_append {n : Nat} (tv : Timeval) (hb : 16 ≤ n) (h : n ≤ nc.pending.length) (tods : Nat) :
    Handles nc [.append (nc.pending.take n)]
      { nc with
        blob := store nc.blob (nc.rd1Off + 8) tv.bytes
        rd1Off := nc.rd1Off + n
        tods := tods
        log := nc.log ++ [.append (nc.pending.take n) tv] } := by
  refine ⟨[.append (nc.pending.take n) tv], rfl, rfl, ?_⟩
  rw [List.flatMap_singleton, NetcomEv.stored, Netcom.published]
  exact published_store tv hb h

theorem handles_command (n : Nat) (seqno : UInt8) (packet : List UInt8) :
    Handles nc [.lookup seqno packet] (netcomRemove (netcomLookup nc seqno packet) n) := by
  obtain ⟨hit, un, us, he⟩ := lookup_frame nc seqno packet
  refine ⟨[.lookup seqno packet hit], ?_, rfl, ?_⟩
  · rw [he, netcomRemove]
  · rw [he, published_remove]
    simp [NetcomEv.stored, Netcom.published]

theorem pending_command {n : Nat} (seqno : UInt8) (packet : List UInt8) (h : n ≤ nc.pending.length) :
    (netcomRemove (netcomLookup nc seqno packet) n).pending = nc.pending.drop n := by
  obtain ⟨hit, un, us, he⟩ := lookup_frame nc seqno packet
  rw [he, pending_remove (by simpa using h)]
  rfl

theorem Round.simulates {o : Outcome (Netcom α)} (h : Round env nc o) :
    Simulates nc (netcmdNext nc.rx nc.pending) o := by
  cases h with
  | short h => rw [netcmdNext, if_pos h]; exact .more
  | badHeader h8 hv =>
    rw [netcmdNext, if_neg (by omega), if_pos hv]
    exact .bad fun _ => rfl
  | tooLong h8 hv hc hl =>
    rw [netcmdNext, if_neg (by omega), if_neg (by simp [hv]), if_pos hc, if_pos (.inr (.inl hl))]
    exact .bad fun _ => rfl
  | zeroStream h8 hv hc hz =>
    rw [netcmdNext, if_neg (by omega), if_neg (by simp [hv]), if_pos hc, if_pos (.inl hz)]
    exact .bad fun h => absurd (h hv) (by omega)
  | incomplete h8 hv hc hpos hmax hlt =>
    by_cases h16 : nc.rx = true → 16 ≤ lengthOf nc.pending
    · rw [netcmdNext_stream h8 hv hc hpos hmax h16, if_pos hlt]
      exact .more
    · obtain ⟨hrx, hlt⟩ := Classical.not_imp.1 h16
      rw [hrx, netcmdNext_tight h8 hv hc (by omega)]
      exact .bad fun h => absurd (h hv) (by omega)
  | badCrc h8 hv hc hpos hmax hn hrx hr =>
    rw [hrx]
    by_cases h16 : 16 ≤ lengthOf nc.pending
    · rw [readpacket_pending env _ (by omega) hn] at hr
      have hck : ¬ streamCrc nc.pending = true := by
        intro hck
        rw [if_pos hck] at hr
        cases hr
      rw [netcmdNext_stream h8 hv hc hpos hmax (fun _ => h16), if_neg (by omega), if_pos rfl, if_neg hck]
      exact .bad fun _ => rfl
    · rw [netcmdNext_tight h8 hv hc (by omega)]
      exact .bad fun _ => rfl
  | append blob h8 hv hc hpos hmax hn hrx hr =>
    by_cases h16 : 16 ≤ lengthOf nc.pending
    · have hck : streamCrc nc.pending = true := by
        by_contra hck
        rw [readpacket_pending env _ (by omega) hn, if_neg hck] at hr
        cases hr
      rw [readpacket_some hr, hrx, netcmdNext_stream h8 hv hc hpos hmax (fun _ => h16), if_neg (by omega), if_pos rfl,
        if_pos hck]
      exact .unit (pending_store (by simpa using h16) hn) (handles_append _ h16 hn (nc.tods + 1))
    · rw [hrx, netcmdNext_tight h8 hv hc (by omega)]
      exact .bad fun h => absurd (h hv) (by omega)
  | drop h8 hv hc hpos hmax hn hrx =>
    rw [netcmdNext_stream h8 hv hc hpos hmax (by simp [hrx]), if_neg (by omega), if_neg (by simp [hrx])]
    refine .unit ?_ ⟨[.drop (nc.pending.take (lengthOf nc.pending))], rfl, rfl, ?_⟩
    · rw [pending_remove (by simpa using hn)]
      rfl
    · rw [published_remove]
      simp [NetcomEv.stored, Netcom.published]
  | partialCommand h8 hv hc hlt =>
    rw [netcmdNext_command h8 hv hc, if_pos hlt]
    exact .more
  | command h8 hv hc hn =>
    rw [netcmdNext_command h8 hv hc, if_neg (by omega)]
    exact .unit (pending_command _ _ hn) (handles_command _ _ _)

theorem loop_more (env : Env) (h : netcmdNext nc.rx nc.pending = .more) : netcomLoop env nc = some nc := by
  generalize ho : netcomIter env nc = o
  have hs := (round_of ho).simulates
  rw [h] at hs
  cases hs with
  | more => exact loop_brk ho

theorem iter_unit (env : Env) {n : Nat} {f : Frame} (h : netcmdNext nc.rx nc.pending = .unit n f) :
    ∃ t, netcomIter env nc = .cont t ∧ t.pending = nc.pending.drop n ∧ Handles nc [f] t := by
  generalize ho : netcomIter env nc = o
  have hs := (round_of ho).simulates
  rw [h] at hs
  cases hs with
  | unit hp hh => exact ⟨_, rfl, hp, hh⟩

/-- The loop drains the pending bytes. -/
theorem loop_drains (env : Env) {os : List Frame} {r : List UInt8} (h : Drains (netcmdFramer nc.rx) nc.pending os r)
    (hle : nc.rd1Off ≤ nc.wrOff) :
    ∃ t, netcomLoop env nc = some t ∧ t.pending = r ∧ Handles nc os t ∧ Keeps nc t := by
  generalize hp : nc.pending = p at h
  generalize hrx : nc.rx = rx at h
  -- One round for each frame; `Keeps` carries the offsets from round to round.
  induction h generalizing nc with
  | more hm =>
    subst hp hrx
    exact ⟨nc, loop_more env hm, rfl, .refl nc, .refl hle⟩
  | unit hu _ ih =>
    subst hp hrx
    obtain ⟨t, ht, hpend, hh⟩ := iter_unit env hu
    have hk : Keeps nc t := (round_of ht).keeps hle
    obtain ⟨u, hlu, hpu, hhu, hku⟩ := ih hk.le hpend hk.rx
    exact ⟨u, (loop_cont hle ht).trans hlu, hpu, hh.trans hhu, hk.trans hku⟩

/-! ## Whole runs -/

/-- A receiver with nothing pending. -/
structure Quiet (nc : Netcom α) : Prop where
  pending : nc.rd1Off = nc.wrOff
  rd2Off : nc.rd2Off ≤ nc.rd1Off
  errorflag : nc.errorflag = false

/-- A call made below the forced rewind, with no more bytes than it asks for. -/
def Plain (nc : Netcom α) (chunk : List UInt8) : Prop := nc.wrOff ≤ netcomRdbufferForcerewindOffset ∧ Fits nc chunk

/-- With neither a drop nor a rewind the read goes to `wr_off`. -/
theorem makeRoom_here (he : nc.errorflag = false) (hs : circSpace nc.wrOff nc.rd2Off netcomRdbufferSize ≠ 0)
    (hw : nc.wrOff ≤ netcomRdbufferForcerewindOffset) :
    netcomMakeRoom nc = .room nc (circSpaceToEnd nc.wrOff nc.rd2Off netcomRdbufferSize) := by
  unfold netcomMakeRoom
  rw [if_neg (by simp [he])]
  dsimp only
  rw [if_neg hs, if_neg (Nat.not_lt.2 hw)]

theorem makeRoom_of_le (he : nc.errorflag = false) (h2 : nc.rd2Off ≤ nc.wrOff)
    (hw : nc.wrOff ≤ netcomRdbufferForcerewindOffset) :
    netcomMakeRoom nc = .room nc (circSpaceToEnd nc.wrOff nc.rd2Off netcomRdbufferSize) :=
  makeRoom_here he (circSpace_ne_zero h2 hw) hw

theorem pending_receive (chunk : List UInt8) (hle : nc.rd1Off ≤ nc.wrOff) :
    (netcomReceive nc chunk).pending = nc.pending ++ chunk := by
  obtain ⟨k, hk⟩ := Nat.exists_eq_add_of_le hle
  have hn : nc.rd1Off + k + chunk.length - nc.rd1Off = k + chunk.length := by omega
  simp only [Netcom.pending, netcomReceive, hk, hn, Nat.add_sub_cancel_left]
  exact slice_store_append _ _ _ _

theorem published_receive (chunk : List UInt8) (hle : nc.rd1Off ≤ nc.wrOff) :
    (netcomReceive nc chunk).published = nc.published :=
  slice_store_before _ _ ((Nat.zero_add _).trans_le hle)

/-- A call that gets room drains what it then holds. -/
theorem room_drains (env : Env) {nc' : Netcom α} {spaceToEnd : Nat} {chunk : List UInt8} {os : List Frame}
    {r : List UInt8} (hr : netcomMakeRoom nc = .room nc' spaceToEnd) (hle : nc'.rd1Off ≤ nc'.wrOff)
    (h : Drains (netcmdFramer nc'.rx) (nc'.pending ++ chunk) os r) :
    ∃ t, netcomReadcb env nc chunk = some t ∧ t.pending = r ∧ Handles nc' os t ∧ Keeps (netcomReceive nc' chunk) t := by
  have hrecv : (netcomReceive nc' chunk).rd1Off ≤ (netcomReceive nc' chunk).wrOff :=
    Nat.le_trans hle (Nat.le_add_right _ _)
  rw [← pending_receive chunk hle] at h
  obtain ⟨t, ht, hp, ⟨evs, hl, hm, hpub⟩, hk⟩ := loop_drains env h hrecv
  refine ⟨t, ?_, hp, ⟨evs, hl, hm, ?_⟩, hk⟩
  · unfold netcomReadcb
    rw [hr]
    exact ht
  · rw [hpub, published_receive chunk hle]

instance (chunk : List UInt8) : Decidable (Plain nc chunk) := inferInstanceAs (Decidable (_ ∧ _))

/-- What every plain call keeps. -/
structure Aligned (b : Bool) (nc : Netcom α) : Prop where
  rx : nc.rx = b
  le : nc.rd1Off ≤ nc.wrOff
  rd2Off : nc.rd2Off ≤ nc.rd1Off
  errorflag : nc.errorflag = false

theorem Quiet.aligned (hq : Quiet nc) : Aligned nc.rx nc :=
  ⟨rfl, Nat.le_of_eq hq.pending, hq.rd2Off, hq.errorflag⟩

theorem Quiet.pending_eq (hq : Quiet nc) : nc.pending = [] :=
  List.eq_nil_of_length_eq_zero (by simp [hq.pending])

theorem Keeps.aligned {b : Bool} {t : Netcom α} (hk : Keeps nc t) (h : Aligned b nc) : Aligned b t := by
  refine ⟨hk.rx.trans h.rx, hk.le, ?_, hk.errorflag.trans h.errorflag⟩
  rw [hk.rd2Off]
  exact Nat.le_trans h.rd2Off hk.lo

theorem Aligned.receive {b : Bool} (h : Aligned b nc) (chunk : List UInt8) : Aligned b (netcomReceive nc chunk) :=
  ⟨h.rx, Nat.le_trans h.le (Nat.le_add_right _ _), h.rd2Off, h.errorflag⟩

/-- A plain call reads and then runs the loop. -/
theorem readcb_plain (env : Env) {b : Bool} {chunk : List UInt8} (h : Aligned b nc) (hc : Plain nc chunk) :
    netcomReadcb env nc chunk = netcomLoop env (netcomReceive nc chunk) := by
  unfold netcomReadcb
  rw [makeRoom_of_le h.errorflag (Nat.le_trans h.rd2Off h.le) hc.1]

/-- One call of `netcom_readcb` drains what it holds. -/
theorem readcb_drains (env : Env) {b : Bool} {chunk : List UInt8} {os : List Frame} {r : List UInt8} (hs : Aligned b nc)
    (hc : Plain nc chunk) (h : Drains (netcmdFramer b) (nc.pending ++ chunk) os r) :
    ∃ t, netcomReadcb env nc chunk = some t ∧ Aligned b t ∧ t.pending = r ∧ Handles nc os t := by
  have hroom := makeRoom_of_le hs.errorflag (Nat.le_trans hs.rd2Off hs.le) hc.1
  rw [← hs.rx] at h
  obtain ⟨t, ht, hp, hh, hk⟩ := room_drains env hroom hs.le h
  exact ⟨t, ht, hk.aligned (hs.receive chunk), hp, hh⟩

/-- Over clean input, `netcom_readcb` handles the frames of the whole stream,
however it is cut into reads. -/
theorem run_drains {b : Bool} {chunks : List (List UInt8)} {os : List Frame} {r : List UInt8}
    (hs : Aligned b nc) (hmore : netcmdNext b nc.pending = .more) (hrun : Along (netcomReadcb env) Plain nc chunks)
    (h : Drains (netcmdFramer b) (nc.pending ++ chunks.flatten) os r) :
    ∃ t, exec (netcomReadcb env) nc chunks = some t ∧ Aligned b t ∧ t.pending = r ∧ Handles nc os t := by
  let I (s : Netcom α) : Prop := Aligned b s ∧ netcmdNext b s.pending = .more
  have hrecv : ∀ s c os r, I s → Plain s c → Drains (netcmdFramer b) (s.pending ++ c) os r →
      ∃ t, netcomReadcb env s c = some t ∧ I t ∧ t.pending = r ∧ Handles s os t := by
    intro s c os r hI hc hd
    obtain ⟨t, ht, hal, hp, hh⟩ := readcb_drains env hI.1 hc hd
    exact ⟨t, ht, ⟨hal, hp ▸ hd.rest⟩, hp, hh⟩
  obtain ⟨t, ht, hI, hp, hh⟩ := exec_drains (fun s hI => hI.2) Handles.refl (fun s t u os os' => Handles.trans)
    hrecv ⟨hs, hmore⟩ hrun h
  exact ⟨t, ht, hI.1, hp, hh⟩

/-! ## Concatenations of frames -/

/-- What the receiver does with a well-formed frame. -/
def frameOf (rx : Bool) (f : List UInt8) : Frame :=
  if cmdOf f = l0006NetcmdAddata then if rx = true then .append f else .drop f else .lookup (seqnoOf f) f

theorem length_wellFormed {f : List UInt8} (h : WellFormed f) : 8 ≤ f.length := by
  rcases h with ⟨-, -, hl⟩ | ⟨-, -, hl, h20, -⟩
  · rcases commandLength_cases f with h | h <;> omega
  · omega

theorem next_wellFormed (rx : Bool) {f : List UInt8} (h : WellFormed f) :
    netcmdNext rx f = .unit f.length (frameOf rx f) := by
  have h8 := length_wellFormed h
  unfold frameOf
  rcases h with ⟨hv, hc, hl⟩ | ⟨hv, hc, hl, h20, hmax, hck⟩
  · rw [netcmdNext_command h8 hv hc, if_neg (by omega), if_neg hc, ← hl, List.take_length]
  · rw [netcmdNext_stream h8 hv hc (by omega) hmax (fun _ => by omega), if_neg (by omega), if_pos hc, if_pos hck,
      ← hl, List.take_length]
    split <;> rfl

/-- A proper part of a well-formed frame, from its start on. -/
def Incomplete (part : List UInt8) : Prop := ∃ q, q ≠ [] ∧ WellFormed (part ++ q)

theorem drains_frames (rx : Bool) {fs : List (List UInt8)} {part : List UInt8} (hfs : ∀ f ∈ fs, WellFormed f)
    (hpart : Incomplete part) : Drains (netcmdFramer rx) (fs.flatten ++ part) (fs.map (frameOf rx)) part := by
  obtain ⟨q, hq, hw⟩ := hpart
  have hmore : (netcmdFramer rx).next part = .more := Framer.next_prefix (next_wellFormed rx hw) hq
  have h := Drains.units id (frameOf rx) (fun f hf => next_wellFormed rx (hfs f hf)) (.more hmore)
  simpa using h

/-- A read that brings whole frames leaves nothing pending. -/
theorem readcb_frames (env : Env) {b : Bool} (fs : List (List UInt8)) (hs : Aligned b nc) (hp : nc.pending = [])
    (hc : Plain nc fs.flatten) (hfs : ∀ f ∈ fs, WellFormed f) :
    ∃ t, netcomReadcb env nc fs.flatten = some t ∧ Aligned b t ∧ t.pending = [] ∧
      Handles nc (fs.map (frameOf b)) t := by
  have hmore : (netcmdFramer b).next [] = .more := rfl
  have hd := Drains.units id (frameOf b) (fun f hf => next_wellFormed b (hfs f hf)) (.more hmore)
  rw [List.map_id, List.append_nil, List.append_nil] at hd
  refine readcb_drains env hs hc ?_
  rw [hp]
  exact hd

/-- However a stream of well-formed frames is cut into reads, each complete frame
is handled once and in order, and what is left pending is the incomplete last
one. -/
theorem readcb_reassembles (env : Env) (nc : Netcom α) (fs chunks : List (List UInt8)) (part : List UInt8)
    (hq : Quiet nc) (hfs : ∀ f ∈ fs, WellFormed f) (hpart : Incomplete part)
    (hcat : chunks.flatten = fs.flatten ++ part) (hrun : Along (netcomReadcb env) Plain nc chunks) :
    ∃ t evs, exec (netcomReadcb env) nc chunks = some t ∧ t.log = nc.log ++ evs ∧
      evs.map NetcomEv.frame = fs.map (fun f => some (frameOf nc.rx f)) ∧
      t.published = nc.published ++ evs.flatMap NetcomEv.stored ∧ t.pending = part := by
  have hd := drains_frames nc.rx hfs hpart
  rw [← hcat, ← List.nil_append chunks.flatten, ← hq.pending_eq] at hd
  have hmore : netcmdNext nc.rx nc.pending = .more := by rw [hq.pending_eq]; rfl
  obtain ⟨t, ht, -, hp, evs, hl, hm, hpub⟩ := run_drains hq.aligned hmore hrun hd
  refine ⟨t, evs, ht, hl, ?_, hpub, hp⟩
  rw [hm, List.map_map]
  rfl

/-- A BUZZACK packet. -/
def buzzack : List UInt8 := [0xEF, 0xBE, 0x80, 0, 0, 0, 0x95, 0x72]

/-- A stream packet of 20 bytes with a payload of zeros. -/
def addata20 : List UInt8 := [0xEF, 0xBE, 0x04, 0, 20, 0, 0xEB, 0xAA, 0, 0, 0, 0, 0, 0, 0, 0, 0, 0, 0, 0]

/-- Two frames and the start of a third, with both cuts inside a frame. -/
theorem readcb_reassembles_addata :
    ∃ t evs, exec (netcomReadcb .still) (l0006NetcomStart (netcomAllocateBuffer : Netcom Unit))
        [addata20.take 5, addata20.drop 5 ++ buzzack.take 3, buzzack.drop 3 ++ buzzack.take 7] = some t ∧
      t.log = [] ++ evs ∧
      evs.map NetcomEv.frame = [some (.append addata20), some (.lookup 0 buzzack)] ∧
      t.published = [] ++ evs.flatMap NetcomEv.stored ∧ t.pending = buzzack.take 7 := by
  refine readcb_reassembles .still (l0006NetcomStart netcomAllocateBuffer) [addata20, buzzack] _ (buzzack.take 7)
    ⟨rfl, Nat.le_refl _, rfl⟩ ?_ ⟨buzzack.drop 7, by decide, ?_⟩ rfl ?_
  · decide +kernel
  · decide +kernel
  · decide +kernel

/-- How many bytes a frame adds to the published ones. -/
def Frame.size : Frame → Nat
  | .append packet => packet.length
  | _ => 0

theorem length_stored {evs : List (NetcomEv α)} {os : List Frame} (h : evs.map NetcomEv.frame = os.map some)
    (hos : ∀ packet, Frame.append packet ∈ os → 16 ≤ packet.length) :
    (evs.flatMap NetcomEv.stored).length = (os.map Frame.size).sum := by
  induction evs generalizing os with
  | nil =>
    obtain rfl := List.map_eq_nil_iff.1 h.symm
    rfl
  | cons ev evs ih =>
    cases os with
    | nil => cases h
    | cons o os =>
      rw [List.map_cons, List.map_cons] at h
      injection h with hev h
      rw [List.flatMap_cons, List.length_append, ih h fun p hp => hos p (List.mem_cons_of_mem _ hp), List.map_cons,
        List.sum_cons]
      congr 1
      cases ev with
      | append packet tv =>
        cases hev
        have h16 := hos packet List.mem_cons_self
        simp only [NetcomEv.stored, stamp, Frame.size, List.length_append, List.length_take, List.length_drop,
          Timeval.length_bytes]
        omega
      | lookup | drop => cases hev; rfl
      | discard => cases hev

end CmdAgent

import CmdAgent.Reassembly
/-!
# The receive buffer as a ring

The producer is `netcom_readcb`, which rewinds to the start of the blob when it
comes near its end; the consumer moves `rd2_off` over what is published.
`NETCOM_RDBUFFER_SIZE` is not a power of two: while the buffer is rewound and at
most 1 MB is free, the space `circ_buf.h` computes reaches over `rd2_off`
(`le_circSpaceToEnd`). The runs here are those in which such a read is short
enough.
-/
open StreamLib.Mem StreamLib.Loop StreamLib.Runs StreamLib.Framing

namespace CmdAgent

variable {α : Type} {env : Env} {nc : Netcom α}

/-! ## Runs -/

/-- What can happen to the receiver. -/
inductive RdInput where
  | readcb (chunk : List UInt8)
  | start
  | stop
  /-- The consumer moves `rd2_off`. -/
  | consume (rd2Off : Nat)

def rdStep (env : Env) (nc : Netcom α) : RdInput → Option (Netcom α)
  | .readcb chunk => netcomReadcb env nc chunk
  | .start => some (l0006NetcomStart nc)
  | .stop => some (l0006NetcomStop nc)
  | .consume rd2Off => some { nc with rd2Off := rd2Off }

/-- What is published and not yet consumed. -/
def Unread (nc : Netcom α) (i : Nat) : Prop :=
  if nc.rd2Off ≤ nc.rd1Off then nc.rd2Off ≤ i ∧ i < nc.rd1Off
  else (nc.rd2Off ≤ i ∧ i < nc.rd1End) ∨ i < nc.rd1Off

/-- The consumer moves forward to `rd1_off`, after a rewind to `rd1_end` and from
there to 0. -/
def Consumes (nc : Netcom α) (rd2Off : Nat) : Prop :=
  if nc.rd2Off ≤ nc.rd1Off then nc.rd2Off ≤ rd2Off ∧ rd2Off ≤ nc.rd1Off
  else (nc.rd2Off ≤ rd2Off ∧ rd2Off ≤ nc.rd1End) ∨ (nc.rd2Off = nc.rd1End ∧ rd2Off = 0)

def Legal (nc : Netcom α) : RdInput → Prop
  | .readcb chunk => Fits nc chunk
  | .consume rd2Off => Consumes nc rd2Off
  | .start | .stop => True

/-- The bytes a read puts into the blob leave those alone that are unread. -/
def SparesUnread (nc : Netcom α) : RdInput → Prop
  | .readcb chunk =>
    match netcomMakeRoom nc with
    | .returned _ => True
    | .room nc' _ => ∀ i, nc'.wrOff ≤ i → i < nc'.wrOff + chunk.length → ¬ Unread nc' i
  | .consume _ | .start | .stop => True

/-- Where `rd2_off` is ahead of `wr_off` by no more than 1 MB, a read ends in front of
it. -/
def StaysBehind (nc : Netcom α) : RdInput → Prop
  | .readcb chunk =>
    match netcomMakeRoom nc with
    | .returned _ => True
    | .room nc' _ =>
      nc'.wrOff < nc'.rd2Off → nc'.rd2Off ≤ nc'.wrOff + 2 ^ 20 → nc'.wrOff + chunk.length < nc'.rd2Off
  | .consume _ | .start | .stop => True

instance (nc : Netcom α) (rd2Off : Nat) : Decidable (Consumes nc rd2Off) :=
  inferInstanceAs (Decidable (if nc.rd2Off ≤ nc.rd1Off then nc.rd2Off ≤ rd2Off ∧ rd2Off ≤ nc.rd1Off
    else (nc.rd2Off ≤ rd2Off ∧ rd2Off ≤ nc.rd1End) ∨ (nc.rd2Off = nc.rd1End ∧ rd2Off = 0)))

instance (nc : Netcom α) : (i : RdInput) → Decidable (Legal nc i)
  | .readcb chunk => inferInstanceAs (Decidable (Fits nc chunk))
  | .consume rd2Off => inferInstanceAs (Decidable (Consumes nc rd2Off))
  | .start | .stop => .isTrue trivial

instance (nc : Netcom α) : (i : RdInput) → Decidable (StaysBehind nc i)
  | .readcb chunk =>
    match h : netcomMakeRoom nc with
    | .returned _ => .isTrue (by simp [StaysBehind, h])
    | .room nc' _ =>
      decidable_of_iff (nc'.wrOff < nc'.rd2Off → nc'.rd2Off ≤ nc'.wrOff + 2 ^ 20 →
        nc'.wrOff + chunk.length < nc'.rd2Off) (by simp [StaysBehind, h])
  | .consume _ | .start | .stop => .isTrue trivial

/-! ## The invariant -/

/-- Either the unread bytes lie between `rd2_off` and `rd1_off`, or the buffer is
rewound and `wr_off` is behind `rd2_off`. -/
def Phase (nc : Netcom α) : Prop :=
  (nc.rd2Off ≤ nc.rd1Off ∧ nc.wrOff < netcomRdbufferSize + nc.rd2Off) ∨
    (nc.wrOff < nc.rd2Off ∧ nc.rd2Off ≤ nc.rd1End ∧ nc.rd1End ≤ netcomRdbufferSize)

structure RingInv (nc : Netcom α) : Prop where
  le : nc.rd1Off ≤ nc.wrOff
  hi : nc.wrOff ≤ netcomRdbufferSize
  pending : nc.wrOff - nc.rd1Off < l0006StreamMaxSize
  phase : Phase nc

theorem reset_inv (nc : Netcom α) : RingInv (netcomReset nc) where
  le := Nat.le_refl 0
  hi := Nat.zero_le _
  pending := Nat.zero_lt_succ _
  phase := .inl ⟨Nat.le_refl 0, Nat.zero_lt_succ _⟩

theorem drop_inv (h : RingInv nc) : RingInv (netcomDrop nc) where
  le := Nat.le_refl _
  hi := Nat.le_trans h.le h.hi
  pending := (Nat.sub_self nc.rd1Off).trans_lt (Nat.zero_lt_succ _)
  phase := by
    rcases h.phase with ⟨h2, hlt⟩ | ⟨h2, h3, h4⟩
    · exact .inl ⟨h2, Nat.lt_of_le_of_lt h.le hlt⟩
    · exact .inr ⟨Nat.lt_of_le_of_lt h.le h2, h3, h4⟩

/-- A rewind only happens with the unread bytes out of the way of what is moved. -/
theorem rewind_room (h : RingInv nc) (hw : nc.wrOff > netcomRdbufferForcerewindOffset)
    (hspace : circSpace nc.wrOff nc.rd2Off netcomRdbufferSize >
      nc.wrOff - nc.rd1Off + netcomRdbufferForcerewindSize) :
    nc.rd2Off ≤ nc.rd1Off ∧ nc.wrOff - nc.rd1Off < nc.rd2Off := by
  obtain ⟨hle, hhi, hpend, hphase⟩ := h
  simp only [Phase, netcomRdbufferSize, l0006StreamMaxSize, netcomRdbufferForcerewindOffset,
    netcomRdbufferForcerewindSize, circSpace, circCnt, land_mask] at hhi hpend hphase hw hspace
  -- In a rewound buffer there is never room enough: the mask drops bit 20 of the difference.
  rcases hphase with ⟨h2, hlt⟩ | ⟨h2, h3, h4⟩
  · omega
  · omega

theorem pending_rewind (nc : Netcom α) : (netcomRewind nc).pending = nc.pending := by
  simp only [Netcom.pending, netcomRewind, Nat.sub_zero]
  exact slice_move nc.blob 0 nc.rd1Off _

theorem rewind_inv (h : RingInv nc) (hw : nc.wrOff > netcomRdbufferForcerewindOffset)
    (hspace : circSpace nc.wrOff nc.rd2Off netcomRdbufferSize >
      nc.wrOff - nc.rd1Off + netcomRdbufferForcerewindSize) : RingInv (netcomRewind nc) := by
  obtain ⟨h2, hlt⟩ := rewind_room h hw hspace
  refine ⟨Nat.zero_le _, Nat.le_trans (Nat.sub_le _ _) h.hi, h.pending, .inr ⟨hlt, h2, Nat.le_trans h.le h.hi⟩⟩

/-- How `netcom_readcb` gets ready to read. -/
inductive Ready (nc : Netcom α) : Room α → Prop
  | reset : nc.errorflag = true → Ready nc (.returned (netcomReset nc))
  | drop : Ready nc (.returned (netcomDrop nc))
  | here : Ready nc (.room nc (circSpaceToEnd nc.wrOff nc.rd2Off netcomRdbufferSize))
  | rewind : nc.wrOff > netcomRdbufferForcerewindOffset →
      circSpace nc.wrOff nc.rd2Off netcomRdbufferSize > nc.wrOff - nc.rd1Off + netcomRdbufferForcerewindSize →
      Ready nc (.room (netcomRewind nc) (circSpaceToEnd (nc.wrOff - nc.rd1Off) nc.rd2Off netcomRdbufferSize))

theorem ready_of (nc : Netcom α) : Ready nc (netcomMakeRoom nc) := by
  unfold netcomMakeRoom
  by_cases he : nc.errorflag = true
  · rw [if_pos he]
    exact .reset he
  rw [if_neg he]
  dsimp only
  by_cases hs : circSpace nc.wrOff nc.rd2Off netcomRdbufferSize = 0
  · rw [if_pos hs]
    exact .drop
  rw [if_neg hs]
  by_cases hw : nc.wrOff > netcomRdbufferForcerewindOffset
  · rw [if_pos hw]
    by_cases hr : circSpace nc.wrOff nc.rd2Off netcomRdbufferSize >
        nc.wrOff - nc.rd1Off + netcomRdbufferForcerewindSize
    · rw [if_pos hr]
      exact .rewind hw hr
    · rw [if_neg hr]
      exact .drop
  · rw [if_neg hw]
    exact .here

/-- The state a read finds, with the space it is given. -/
theorem ready_room (h : RingInv nc) {nc' : Netcom α} {spaceToEnd : Nat}
    (hr : netcomMakeRoom nc = .room nc' spaceToEnd) :
    RingInv nc' ∧ spaceToEnd = circSpaceToEnd nc'.wrOff nc'.rd2Off netcomRdbufferSize := by
  have hready := ready_of nc
  rw [hr] at hready
  cases hready with
  | here => exact ⟨h, rfl⟩
  | rewind hw hs => exact ⟨rewind_inv h hw hs, rfl⟩

theorem ready_returned (h : RingInv nc) {nc' : Netcom α} (hr : netcomMakeRoom nc = .returned nc') : RingInv nc' := by
  have hready := ready_of nc
  rw [hr] at hready
  cases hready with
  | reset => exact reset_inv nc
  | drop => exact drop_inv h

/-! ## Steps -/

/-- Between `wr_off` and `rd2_off` a read fills less than what is free. -/
theorem read_lt {len : Nat} (h : RingInv nc)
    (hf : len ≤ circSpaceToEnd nc.wrOff nc.rd2Off netcomRdbufferSize)
    (hs : nc.wrOff < nc.rd2Off → nc.rd2Off ≤ nc.wrOff + 2 ^ 20 → nc.wrOff + len < nc.rd2Off)
    (hlt : nc.wrOff < nc.rd2Off) : nc.wrOff + len < nc.rd2Off := by
  by_cases hmb : nc.rd2Off ≤ nc.wrOff + 2 ^ 20
  · exact hs hlt hmb
  · have hle := h.le
    have hsize : nc.rd2Off ≤ netcomRdbufferSize := by
      rcases h.phase with ⟨h2, -⟩ | ⟨-, h3, h4⟩ <;> omega
    have hsp : circSpaceToEnd nc.wrOff nc.rd2Off netcomRdbufferSize < nc.rd2Off - nc.wrOff :=
      circSpaceToEnd_lt (Nat.not_le.1 hmb) hsize
    omega

/-- A read that fits and stays behind `rd2_off` spares the unread bytes. -/
theorem readcb_spares {chunk : List UInt8} (h : RingInv nc) (hf : Legal nc (.readcb chunk))
    (hs : StaysBehind nc (.readcb chunk)) :
    SparesUnread nc (.readcb chunk) := by
  unfold SparesUnread
  unfold Legal Fits at hf
  unfold StaysBehind at hs
  cases hr : netcomMakeRoom nc with
  | returned nc' => trivial
  | room nc' spaceToEnd =>
    obtain ⟨h', rfl⟩ := ready_room h hr
    simp only [hr] at hf hs ⊢
    intro i hi hi' hu
    unfold Unread at hu
    have hle := h'.le
    rcases h'.phase with ⟨h2, hlt⟩ | ⟨h2, h3, h4⟩
    · rw [if_pos h2] at hu
      omega
    · rw [if_neg (by omega)] at hu
      have := read_lt h' hf hs h2
      omega

/-- A read that does run over `rd2_off` overwrites the byte there, and the space it
is given allows it whenever no more than 1 MB is free. -/
theorem readcb_overwrites {nc' : Netcom α} {spaceToEnd : Nat} (h : RingInv nc)
    (hr : netcomMakeRoom nc = .room nc' spaceToEnd) (hlt : nc'.wrOff < nc'.rd2Off)
    (hmb : nc'.rd2Off ≤ nc'.wrOff + 2 ^ 20) (hend : nc'.rd2Off < nc'.rd1End) :
    nc'.rd2Off - nc'.wrOff ≤ spaceToEnd ∧
      ∀ chunk : List UInt8, nc'.rd2Off < nc'.wrOff + chunk.length → ¬ SparesUnread nc (.readcb chunk) := by
  obtain ⟨h', rfl⟩ := ready_room h hr
  have hle := h'.le
  have hsize : nc'.rd2Off ≤ netcomRdbufferSize := by
    rcases h'.phase with ⟨h2, -⟩ | ⟨-, h3, h4⟩ <;> omega
  refine ⟨le_circSpaceToEnd hlt hmb hsize, ?_⟩
  intro chunk hover hsp
  unfold SparesUnread at hsp
  simp only [hr] at hsp
  refine hsp nc'.rd2Off (Nat.le_of_lt hlt) hover ?_
  unfold Unread
  rw [if_neg (by omega)]
  exact .inl ⟨Nat.le_refl _, hend⟩

/-- Reading keeps the offsets in order; what is pending may grow. -/
theorem receive_phase {chunk : List UInt8} (h : RingInv nc)
    (hf : chunk.length ≤ circSpaceToEnd nc.wrOff nc.rd2Off netcomRdbufferSize)
    (hs : nc.wrOff < nc.rd2Off → nc.rd2Off ≤ nc.wrOff + 2 ^ 20 → nc.wrOff + chunk.length < nc.rd2Off) :
    (netcomReceive nc chunk).wrOff ≤ netcomRdbufferSize ∧ Phase (netcomReceive nc chunk) := by
  have hsp := circSpaceToEnd_le nc.rd2Off h.hi
  have hhi := h.hi
  have hin : nc.wrOff + chunk.length ≤ netcomRdbufferSize := by
    simp only [netcomRdbufferSize] at *
    omega
  refine ⟨hin, ?_⟩
  rcases h.phase with ⟨h2, hlt⟩ | ⟨h2, h3, h4⟩
  · refine .inl ⟨h2, ?_⟩
    by_cases h0 : nc.rd2Off = 0
    · -- Only here does the free byte at the end count.
      rw [h0] at hf hlt
      have hz : circSpaceToEnd nc.wrOff 0 0x300000 < 0x300000 - nc.wrOff := circSpaceToEnd_zero_lt (by simpa using hlt)
      simp only [netcomReceive, netcomRdbufferSize] at *
      omega
    · simp only [netcomReceive]
      omega
  · exact .inr ⟨read_lt h hf hs h2, h3, h4⟩

theorem Keeps.phase {t : Netcom α} (hk : Keeps nc t) (h : Phase nc) : Phase t := by
  obtain ⟨h2, hend, -, -, hlo, hle, hhi, -, -⟩ := hk
  unfold Phase at h ⊢
  rw [h2, hend]
  rcases h with ⟨h2, hlt⟩ | ⟨h2, h3, h4⟩
  · exact .inl ⟨Nat.le_trans h2 hlo, Nat.lt_of_le_of_lt hhi hlt⟩
  · exact .inr ⟨Nat.lt_of_le_of_lt hhi h2, h3, h4⟩

theorem readcb_inv {chunk : List UInt8} {t : Netcom α} (h : RingInv nc) (hf : Legal nc (.readcb chunk))
    (hs : StaysBehind nc (.readcb chunk)) (ht : netcomReadcb env nc chunk = some t) : RingInv t := by
  unfold netcomReadcb at ht
  unfold Legal Fits at hf
  unfold StaysBehind at hs
  cases hr : netcomMakeRoom nc with
  | returned nc' =>
    rw [hr] at ht
    cases ht
    exact ready_returned h hr
  | room nc' spaceToEnd =>
    obtain ⟨h', rfl⟩ := ready_room h hr
    simp only [hr] at hf hs ht
    obtain ⟨hhi, hphase⟩ := receive_phase h' hf hs
    have hle : (netcomReceive nc' chunk).rd1Off ≤ (netcomReceive nc' chunk).wrOff :=
      Nat.le_trans h'.le (Nat.le_add_right _ _)
    obtain ⟨hk, hpend⟩ := loop_keeps hle ht
    exact ⟨hk.le, Nat.le_trans hk.hi hhi, hpend, hk.phase hphase⟩

theorem stop_inv (h : RingInv nc) : RingInv (l0006NetcomStop nc) := by
  obtain ⟨hle, hhi, hpend, -⟩ := h
  refine ⟨hle, hhi, hpend, .inl ⟨Nat.le_refl _, ?_⟩⟩
  simp only [l0006NetcomStop, netcomRdbufferSize, l0006StreamMaxSize] at *
  omega

theorem consume_inv {rd2Off : Nat} (h : RingInv nc) (hl : Consumes nc rd2Off) :
    RingInv { nc with rd2Off := rd2Off } := by
  obtain ⟨hle, hhi, hpend, hphase⟩ := h
  refine ⟨hle, hhi, hpend, ?_⟩
  unfold Consumes at hl
  rcases hphase with ⟨h2, hlt⟩ | ⟨h2, h3, h4⟩
  · rw [if_pos h2] at hl
    exact .inl ⟨hl.2, by simp only; omega⟩
  · rw [if_neg (by omega)] at hl
    rcases hl with hl | ⟨hl, rfl⟩
    · exact .inr ⟨by simp only; omega, hl.2, h4⟩
    · exact .inl ⟨Nat.zero_le _, by simp only; omega⟩

/-- Every step that stays behind `rd2_off` keeps the invariant. -/
theorem rdStep_inv (s : Netcom α) (i : RdInput) (t : Netcom α) (h : RingInv s) (hi : Legal s i ∧ StaysBehind s i)
    (ht : rdStep env s i = some t) : RingInv t := by
  cases i with
  | readcb chunk => exact readcb_inv h hi.1 hi.2 ht
  | start => cases ht; exact ⟨h.le, h.hi, h.pending, h.phase⟩
  | stop => cases ht; exact stop_inv h
  | consume rd2Off => cases ht; exact consume_inv h hi.1

theorem allocateBuffer_inv [Inhabited α] (blob : Nat → UInt8) :
    RingInv { (netcomAllocateBuffer : Netcom α) with blob := blob } :=
  ⟨Nat.le_refl 0, Nat.zero_le _, Nat.zero_lt_succ _, .inl ⟨Nat.le_refl 0, Nat.zero_lt_succ _⟩⟩

/-! ## Runs up to the end of the blob -/

/-- A stream packet with a payload of zeros, whose checksum is 0. -/
def zeroPacket (header : List UInt8) : List UInt8 := header ++ List.replicate (lengthOf header - 8) 0

theorem length_zeroPacket {header : List UInt8} (h8 : header.length = 8) (h : 8 ≤ lengthOf header) :
    (zeroPacket header).length = lengthOf header := by
  rw [zeroPacket, List.length_append, List.length_replicate]
  omega

theorem streamCrc_zeroPacket {header : List UInt8} (h8 : header.length = 8) (h : 20 ≤ lengthOf header) :
    streamCrc (zeroPacket header) = true := by
  have hlen : lengthOf (zeroPacket header) = lengthOf header := lengthOf_append _ (Nat.le_of_eq h8.symm)
  have hget : ∀ i, 8 ≤ i → (zeroPacket header).getD i 0 = 0 := by
    intro i hi
    rw [zeroPacket, List.getD_append_right _ _ _ _ (by omega)]
    rw [List.getD_eq_getElem?_getD, List.getElem?_replicate]
    split <;> rfl
  have hpay : ((zeroPacket header).drop 8).take (lengthOf header - 12) = List.replicate (lengthOf header - 12) 0 := by
    rw [zeroPacket, List.drop_append_of_le_length (Nat.le_of_eq h8.symm), List.drop_of_length_le (Nat.le_of_eq h8),
      List.nil_append, List.take_replicate, Nat.min_eq_left (by omega)]
  rw [streamCrc, hlen, hpay, crc16_zeros, hget _ (by omega), hget _ (by omega)]
  decide

theorem wellFormed_zeroPacket {header : List UInt8} (h8 : header.length = 8)
    (hv : netcmdIsvalidpacketheader header = true) (hc : cmdOf header = l0006NetcmdAddata)
    (h20 : 20 ≤ lengthOf header) (hmax : lengthOf header ≤ l0006StreamMaxSize) : WellFormed (zeroPacket header) := by
  have hle : 8 ≤ header.length := Nat.le_of_eq h8.symm
  have hlen : lengthOf (zeroPacket header) = lengthOf header := lengthOf_append _ hle
  refine .inr ⟨?_, ?_, ?_, ?_, ?_, streamCrc_zeroPacket h8 h20⟩
  · exact (isvalid_append _ hle).trans hv
  · exact (cmdOf_append _ hle).trans hc
  · rw [hlen, length_zeroPacket h8 (by omega)]
  · rw [hlen]
    exact h20
  · rw [hlen]
    exact hmax

/-- The header of a stream packet of the maximal length. -/
def addataMaxHeader : List UInt8 := [0xEF, 0xBE, 0x04, 0, 0xD4, 0x26, 0x1B, 0xF8]

/-- 304 packets of the maximal length come close to the end of the blob. -/
def fullBlob : List UInt8 := (List.replicate 304 (zeroPacket addataMaxHeader)).flatten

theorem wellFormed_addataMax : WellFormed (zeroPacket addataMaxHeader) :=
  wellFormed_zeroPacket rfl (by decide +kernel) (by decide) (by decide) (by decide)

theorem length_addataMax : (zeroPacket addataMaxHeader).length = 9940 := length_zeroPacket rfl (by decide)

theorem frameOf_addataMax : frameOf true (zeroPacket addataMaxHeader) = .append (zeroPacket addataMaxHeader) := by
  have hc : cmdOf (zeroPacket addataMaxHeader) = l0006NetcmdAddata := (cmdOf_append _ (by decide)).trans (by decide)
  rw [frameOf, if_pos hc, if_pos rfl]

theorem sum_size_replicate (n : Nat) (packet : List UInt8) :
    ((List.replicate n (Frame.append packet)).map Frame.size).sum = n * packet.length := by
  rw [List.map_replicate, List.sum_replicate_nat, Frame.size]

theorem length_fullBlob : fullBlob.length = 3021760 := by
  rw [fullBlob, List.length_flatten, List.map_replicate, length_addataMax, List.sum_replicate_nat]

theorem plain_fullBlob : Plain (l0006NetcomStart (netcomAllocateBuffer : Netcom Unit)) fullBlob := by
  refine ⟨Nat.zero_le _, ?_⟩
  unfold Fits
  rw [makeRoom_of_le rfl (Nat.le_refl 0) (Nat.zero_le _)]
  simp only [length_fullBlob]
  decide

theorem receive_fullBlob :
    ∃ t, netcomReadcb .still (l0006NetcomStart (netcomAllocateBuffer : Netcom Unit)) fullBlob = some t ∧
      t.rd1Off = 3021760 ∧ t.wrOff = 3021760 ∧ t.rd2Off = 0 ∧ t.errorflag = false := by
  have hal : Aligned true (l0006NetcomStart (netcomAllocateBuffer : Netcom Unit)) :=
    ⟨rfl, Nat.le_refl 0, Nat.le_refl 0, rfl⟩
  obtain ⟨t, ht, hal', hp, evs, -, hm, hpub⟩ := readcb_frames .still (List.replicate 304 (zeroPacket addataMaxHeader))
    hal rfl plain_fullBlob (fun f hf => List.eq_of_mem_replicate hf ▸ wellFormed_addataMax)
  rw [List.map_replicate, frameOf_addataMax] at hm
  have hk := (loop_keeps (hal.receive fullBlob).le ((readcb_plain .still hal plain_fullBlob).symm.trans ht)).1
  have hrd1 : t.rd1Off = 3021760 := by
    have hlen := congrArg List.length hpub
    rw [List.length_append, length_stored hm, sum_size_replicate, length_addataMax, Netcom.published,
      length_slice] at hlen
    · exact hlen
    · intro packet hmem
      cases List.eq_of_mem_replicate hmem
      rw [length_addataMax]
      decide
  have hwr : t.wrOff - t.rd1Off = 0 := by rw [← length_pending, hp]; rfl
  have hle := hk.le
  exact ⟨t, ht, hrd1, by omega, hk.rd2Off, hal'.errorflag⟩

/-- The space computed after the rewind is much more than the 99399 bytes that are
free. -/
theorem makeRoom_rewound {nc : Netcom α} (he : nc.errorflag = false) (h1 : nc.rd1Off = 3021760)
    (hw : nc.wrOff = 3021760) (h2 : nc.rd2Off = 99400) :
    netcomMakeRoom nc = .room (netcomRewind nc) 2196551 := by
  have hs : circSpace 3021760 99400 netcomRdbufferSize = 223367 := by decide +kernel
  have he' : circSpaceToEnd 0 99400 netcomRdbufferSize = 2196551 := by decide +kernel
  unfold netcomMakeRoom
  rw [if_neg (by simp [he])]
  simp only [h1, hw, h2, hs, he', Nat.sub_self]
  rfl

/-- The run in which the consumer has read ten of the packets when the buffer is rewound,
step by step. -/
theorem rewound_run :
    ∃ t : Netcom Unit, netcomMakeRoom t = .room (netcomRewind t) 2196551 ∧
      t.rd1Off = 3021760 ∧ t.wrOff = 3021760 ∧ t.rd2Off = 99400 ∧
      ∀ (ok : Netcom Unit → RdInput → Prop) (chunk : List UInt8),
        Along (rdStep .still) ok netcomAllocateBuffer [.start, .readcb fullBlob, .consume 99400, .readcb chunk] ↔
          ok netcomAllocateBuffer .start ∧ ok (l0006NetcomStart netcomAllocateBuffer) (.readcb fullBlob) ∧
            ok { t with rd2Off := 0 } (.consume 99400) ∧ ok t (.readcb chunk) := by
  obtain ⟨s, hs, h1, hw, h2, he⟩ := receive_fullBlob
  have hback : { s with rd2Off := 0 } = s := by rw [← h2]
  refine ⟨{ s with rd2Off := 99400 }, makeRoom_rewound he h1 hw rfl, h1, hw, rfl, ?_⟩
  intro ok chunk
  have hstart : rdStep .still (netcomAllocateBuffer : Netcom Unit) .start =
      some (l0006NetcomStart netcomAllocateBuffer) := rfl
  have hread : rdStep .still (l0006NetcomStart (netcomAllocateBuffer : Netcom Unit)) (.readcb fullBlob) = some s := hs
  have hconsume : rdStep .still s (.consume 99400) = some { s with rd2Off := 99400 } := rfl
  rw [along_cons _ hstart, along_cons _ hread, along_cons _ hconsume, along_singleton]
  simp only [hback]

/-- The run is one the consumer's side allows, up to the last read. -/
theorem legal_consumed {t : Netcom Unit} (h1 : t.rd1Off = 3021760) :
    Legal { t with rd2Off := 0 } (.consume 99400) := by
  unfold Legal Consumes
  simp only [h1]
  rw [if_pos (by decide)]
  decide

/-! ## Whole runs -/

/-- No read overwrites unread bytes in a run whose reads end in front of `rd2_off`
whenever it is ahead of `wr_off` by no more than 1 MB. -/
theorem run_spares_unread [Inhabited α] (env : Env) (blob : Nat → UInt8) (is : List RdInput)
    (hrun : Along (rdStep env) (fun nc i => Legal nc i ∧ StaysBehind nc i)
      { (netcomAllocateBuffer : Netcom α) with blob := blob } is) :
    Along (rdStep env) SparesUnread { (netcomAllocateBuffer : Netcom α) with blob := blob } is := by
  refine along_inv rdStep_inv ?_ (allocateBuffer_inv blob) hrun
  intro s i hs hi
  cases i with
  | readcb chunk => exact readcb_spares hs hi.1 hi.2
  | start | stop | consume => trivial

/-- The read after the rewind ends in front of the packets the consumer has not read. -/
theorem run_spares_unread_addata :
    Along (rdStep .still) SparesUnread (netcomAllocateBuffer : Netcom Unit)
      [.start, .readcb fullBlob, .consume 99400, .readcb addata20] := by
  obtain ⟨t, hroom, h1, hw, h2, hrun⟩ := rewound_run
  refine run_spares_unread .still (fun _ => 0) _ ((hrun _ _).2 ⟨⟨trivial, trivial⟩, ⟨plain_fullBlob.2, ?_⟩,
    ⟨legal_consumed h1, trivial⟩, ?_, ?_⟩)
  · unfold StaysBehind
    rw [makeRoom_of_le rfl (Nat.le_refl 0) (Nat.zero_le _)]
    exact fun hlt => absurd hlt (Nat.not_lt_zero _)
  · unfold Legal Fits
    rw [hroom]
    exact (by decide : addata20.length ≤ 2196551)
  · unfold StaysBehind
    rw [hroom]
    simp only [netcomRewind, h1, hw, h2]
    decide

/-! ## A read that runs into unread bytes -/

def overwritingRead : List UInt8 := List.replicate 99401 0

theorem length_overwritingRead : overwritingRead.length = 99401 := List.length_replicate

/-- The consumer has read ten packets when the buffer is rewound. -/
def overwritingRun : List RdInput := [.start, .readcb fullBlob, .consume 99400, .readcb overwritingRead]

/-- A read right after a rewind overwrites bytes the consumer has not read. -/
theorem run_overwrites_unread :
    Along (rdStep .still) Legal (netcomAllocateBuffer : Netcom Unit) overwritingRun ∧
      ¬ Along (rdStep .still) SparesUnread (netcomAllocateBuffer : Netcom Unit) overwritingRun := by
  obtain ⟨t, hroom, h1, hw, h2, hrun⟩ := rewound_run
  rw [overwritingRun, hrun, hrun]
  constructor
  · refine ⟨trivial, plain_fullBlob.2, legal_consumed h1, ?_⟩
    unfold Legal Fits
    rw [hroom]
    simp only [length_overwritingRead]
    decide
  · rintro ⟨-, -, -, hsp⟩
    unfold SparesUnread at hsp
    simp only [hroom, length_overwritingRead] at hsp
    refine hsp 99400 ?_ ?_ ?_
    · simp only [netcomRewind, h1, hw]
      omega
    · simp only [netcomRewind, h1, hw]
      omega
    · unfold Unread
      rw [if_neg (by simp only [netcomRewind]; omega)]
      simp only [netcomRewind, h1, h2]
      omega

end CmdAgent

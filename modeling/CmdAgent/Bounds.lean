import CmdAgent.RingBuffer
/-!
# Accesses to the receive buffer

`netcom_readcb` once more, as far as it touches the blob: here every access is
checked against the size of the blob, and every difference of offsets against
wrapping around. No check fails in any run, so the checked code is the code
(`makeRoomChecked_eq`, `iterChecked_eq`).
-/
open StreamLib.Mem StreamLib.Loop StreamLib.Runs

namespace CmdAgent

variable {α : Type} {env : Env} {nc : Netcom α}

/-! ## Checks -/

/-- A difference of two `uint32_t`, unless it wraps around. -/
def diffChecked (a b : Nat) : Option Nat := if b ≤ a then some (a - b) else none

/-- `memmove` within the blob, unless one of its ranges leaves it. -/
def memmoveChecked (blob : Nat → UInt8) (dst src n : Nat) : Option (Nat → UInt8) :=
  if dst + n ≤ netcomRdbufferSize ∧ src + n ≤ netcomRdbufferSize then some (move blob dst src n) else none

/-- The packet of `length` bytes at `off`, unless its header leaves the blob. -/
def packetChecked (blob : Nat → UInt8) (off length : Nat) : Option (List UInt8) :=
  if off + netcmdGetpacketheaderlength ≤ netcomRdbufferSize then some (slice blob off length) else none

/-- `bufferevent_read` asked for `spaceToEnd` bytes at `wr_off`, unless they leave
the blob. -/
def readChecked (nc : Netcom α) (spaceToEnd : Nat) : Option (Room α) :=
  if nc.wrOff + spaceToEnd ≤ netcomRdbufferSize then some (.room nc spaceToEnd) else none

theorem diffChecked_of_le {a b : Nat} (h : b ≤ a) : diffChecked a b = some (a - b) := if_pos h

theorem memmoveChecked_of_le (blob : Nat → UInt8) {dst src n : Nat} (hd : dst + n ≤ netcomRdbufferSize)
    (hs : src + n ≤ netcomRdbufferSize) : memmoveChecked blob dst src n = some (move blob dst src n) :=
  if_pos ⟨hd, hs⟩

theorem packetChecked_of_le (blob : Nat → UInt8) {off : Nat} (length : Nat) (h : off + 8 ≤ netcomRdbufferSize) :
    packetChecked blob off length = some (slice blob off length) :=
  if_pos h

theorem readChecked_of_le {spaceToEnd : Nat} (h : nc.wrOff + spaceToEnd ≤ netcomRdbufferSize) :
    readChecked nc spaceToEnd = some (.room nc spaceToEnd) :=
  if_pos h

/-! ## The checked code -/

def netcomRewindChecked (nc : Netcom α) : Option (Netcom α) := do
  let length ← diffChecked nc.wrOff nc.rd1Off
  let blob ← memmoveChecked nc.blob 0 nc.rd1Off length
  let wrOff ← diffChecked nc.wrOff nc.rd1Off
  some { nc with blob := blob, wrOff := wrOff, rd1End := nc.rd1Off, rd1Off := 0 }

/-- `netcom_readcb` with `bufferevent_read`. -/
def netcomMakeRoomChecked (nc : Netcom α) : Option (Room α) :=
  if nc.errorflag then some (.returned (netcomReset nc))
  else
    let space := circSpace nc.wrOff nc.rd2Off netcomRdbufferSize
    let spaceToEnd := circSpaceToEnd nc.wrOff nc.rd2Off netcomRdbufferSize
    if space = 0 then some (.returned (netcomDrop nc))
    else if nc.wrOff > netcomRdbufferForcerewindOffset then do
      let length ← diffChecked nc.wrOff nc.rd1Off
      if space > length + netcomRdbufferForcerewindSize then do
        let nc' ← netcomRewindChecked nc
        readChecked nc' (circSpaceToEnd nc'.wrOff nc.rd2Off netcomRdbufferSize)
      else some (.returned (netcomDrop nc))
    else readChecked nc spaceToEnd

def findHeaderLoopChecked (blob : Nat → UInt8) (wrOff : Nat) : Nat → Nat → Option (Nat × Bool)
  | 0, rd1Off => some (rd1Off, false)
  | fuel + 1, rd1Off =>
    if rd1Off + netcmdGetpacketheaderlength < wrOff then do
      let packet ← packetChecked blob rd1Off netcmdGetpacketheaderlength
      if netcmdIsvalidpacketheader packet then some (rd1Off, true)
      else findHeaderLoopChecked blob wrOff fuel (rd1Off + 1)
    else some (rd1Off, false)

def netcomDiscardChecked (nc : Netcom α) (rd1Off : Nat) : Option (Netcom α) := do
  let length ← diffChecked nc.wrOff rd1Off
  let blob ← memmoveChecked nc.blob nc.rd1Off rd1Off length
  let skipped ← diffChecked rd1Off nc.rd1Off
  let wrOff ← diffChecked nc.wrOff skipped
  some { nc with blob := blob, wrOff := wrOff, log := nc.log ++ [.discard (slice nc.blob nc.rd1Off skipped)] }

def netcomResyncChecked (nc : Netcom α) : Option (Outcome (Netcom α)) := do
  let offset := netcmdGetpacketheaderlength
  let (rd1Off, headFound) ←
    findHeaderLoopChecked nc.blob nc.wrOff (nc.wrOff - (nc.rd1Off + offset)) (nc.rd1Off + offset)
  let nc' ← netcomDiscardChecked nc rd1Off
  some (if headFound then .cont nc' else .brk nc')

def netcomRemoveChecked (nc : Netcom α) (packetlength : Nat) : Option (Netcom α) := do
  let length ← diffChecked nc.wrOff nc.rd1Off
  let rest ← diffChecked length packetlength
  let blob ← memmoveChecked nc.blob nc.rd1Off (nc.rd1Off + packetlength) rest
  let wrOff ← diffChecked nc.wrOff packetlength
  some { nc with blob := blob, wrOff := wrOff }

def netcomIterChecked (env : Env) (nc : Netcom α) : Option (Outcome (Netcom α)) :=
  if nc.wrOff = nc.rd1Off then some (.brk nc) else do
  let length ← diffChecked nc.wrOff nc.rd1Off
  if length ≥ netcmdGetpacketheaderlength then do
    let packet ← packetChecked nc.blob nc.rd1Off length
    if netcmdIsvalidpacketheader packet then
      let packetlength := netcmdVerifystream packet
      if packetlength ≠ 0 then
        if packetlength = 0 ∨ packetlength > l0006StreamMaxSize then netcomResyncChecked nc
        else if packetlength ≤ length then
          if nc.rx then
            match netcmdReadpacket env.below nc.blob nc.rd1Off (env.gettimeofday nc.tods) with
            | some blob =>
              some (.cont { nc with
                blob := blob
                rd1Off := nc.rd1Off + packetlength
                tods := nc.tods + 1
                log := nc.log ++ [.append (packet.take packetlength) (env.gettimeofday nc.tods)] })
            | none => netcomResyncChecked nc
          else do
            let nc' ← netcomRemoveChecked { nc with log := nc.log ++ [.drop (packet.take packetlength)] } packetlength
            some (.cont nc')
        else some (.brk nc)
      else
        let (packetlength, seqno) := netcmdVerifycmdpacket packet
        if packetlength ≠ 0 then
          if packetlength ≤ length then do
            let nc' ← netcomRemoveChecked (netcomLookup nc seqno (packet.take packetlength)) packetlength
            some (.cont nc')
          else some (.brk nc)
        else do
          let nc' ← netcomRemoveChecked nc packetlength
          some (.cont nc')
    else netcomResyncChecked nc
  else some (.brk nc)

/-! ## Offsets in order -/

/-- The offsets of the producer are in order and in the blob. -/
structure OffsetsInOrder (nc : Netcom α) : Prop where
  le : nc.rd1Off ≤ nc.wrOff
  hi : nc.wrOff ≤ netcomRdbufferSize

theorem Keeps.offsets {t : Netcom α} (hk : Keeps nc t) (h : OffsetsInOrder nc) : OffsetsInOrder t :=
  ⟨hk.le, Nat.le_trans hk.hi h.hi⟩

theorem rewindChecked_eq (h : OffsetsInOrder nc) : netcomRewindChecked nc = some (netcomRewind nc) := by
  obtain ⟨hle, hhi⟩ := h
  unfold netcomRewindChecked
  rw [diffChecked_of_le hle]
  simp only [Option.bind_eq_bind, Option.bind_some]
  rw [memmoveChecked_of_le _ (by omega) (by omega)]
  rfl

theorem makeRoomChecked_eq (h : OffsetsInOrder nc) : netcomMakeRoomChecked nc = some (netcomMakeRoom nc) := by
  have hread : ∀ t : Netcom α, t.wrOff ≤ netcomRdbufferSize →
      readChecked t (circSpaceToEnd t.wrOff t.rd2Off netcomRdbufferSize) =
        some (.room t (circSpaceToEnd t.wrOff t.rd2Off netcomRdbufferSize)) := by
    intro t ht
    have := circSpaceToEnd_le t.rd2Off ht
    exact readChecked_of_le (by simp only [netcomRdbufferSize] at *; omega)
  unfold netcomMakeRoomChecked netcomMakeRoom
  by_cases he : nc.errorflag = true
  · rw [if_pos he, if_pos he]
  rw [if_neg he, if_neg he]
  dsimp only
  by_cases hs : circSpace nc.wrOff nc.rd2Off netcomRdbufferSize = 0
  · rw [if_pos hs, if_pos hs]
  rw [if_neg hs, if_neg hs]
  by_cases hw : nc.wrOff > netcomRdbufferForcerewindOffset
  · rw [if_pos hw, if_pos hw, diffChecked_of_le h.le, Option.bind_eq_bind, Option.bind_some]
    by_cases hr : circSpace nc.wrOff nc.rd2Off netcomRdbufferSize >
        nc.wrOff - nc.rd1Off + netcomRdbufferForcerewindSize
    · rw [if_pos hr, if_pos hr, rewindChecked_eq h, Option.bind_eq_bind, Option.bind_some]
      exact hread (netcomRewind nc) (Nat.le_trans (Nat.sub_le _ _) h.hi)
    · rw [if_neg hr, if_neg hr]
  · rw [if_neg hw, if_neg hw]
    exact hread nc h.hi

theorem findHeaderLoopChecked_eq (blob : Nat → UInt8) {wrOff : Nat} (h : wrOff ≤ netcomRdbufferSize)
    (fuel p : Nat) :
    findHeaderLoopChecked blob wrOff fuel p = some (findHeaderLoop blob wrOff fuel p) := by
  induction fuel generalizing p with
  | zero => rfl
  | succ fuel ih =>
    simp only [findHeaderLoopChecked, findHeaderLoop]
    split
    · rename_i hlt
      rw [packetChecked_of_le _ _ (by simp only [netcmdGetpacketheaderlength, l0006NetcmdHeaderSize] at hlt; omega)]
      simp only [Option.bind_eq_bind, Option.bind_some]
      split
      · rfl
      · exact ih (p + 1)
    · rfl

theorem discardChecked_eq {p : Nat} (h : OffsetsInOrder nc) (hp : nc.rd1Off ≤ p) (hp' : p ≤ nc.wrOff) :
    netcomDiscardChecked nc p = some (netcomDiscard nc p) := by
  obtain ⟨hle, hhi⟩ := h
  unfold netcomDiscardChecked
  rw [diffChecked_of_le hp', diffChecked_of_le hp]
  simp only [Option.bind_eq_bind, Option.bind_some]
  rw [memmoveChecked_of_le _ (by omega) (by omega), diffChecked_of_le (by omega)]
  rfl

theorem resyncChecked_eq (h : OffsetsInOrder nc) (h8 : nc.rd1Off + 8 ≤ nc.wrOff) :
    netcomResyncChecked nc = some (netcomResync nc) := by
  simp only [netcomResyncChecked, netcomResync, netcomFindHeader, netcmdGetpacketheaderlength, l0006NetcmdHeaderSize]
  rw [findHeaderLoopChecked_eq _ h.hi]
  cases hr : findHeaderLoop nc.blob nc.wrOff (nc.wrOff - (nc.rd1Off + 8)) (nc.rd1Off + 8) with
  | mk p b =>
    obtain ⟨h1, -, h3, h4⟩ := findHeaderLoop_spec (by omega) hr
    have hp : p ≤ nc.wrOff := by
      cases b with
      | true => have := h3 rfl; omega
      | false => have := h4 rfl; omega
    simp only [Option.bind_eq_bind, Option.bind_some]
    rw [discardChecked_eq h (by omega) hp]
    cases b <;> rfl

theorem removeChecked_eq {n : Nat} (h : OffsetsInOrder nc) (hn : nc.rd1Off + n ≤ nc.wrOff) :
    netcomRemoveChecked nc n = some (netcomRemove nc n) := by
  obtain ⟨hle, hhi⟩ := h
  unfold netcomRemoveChecked
  rw [diffChecked_of_le hle]
  simp only [Option.bind_eq_bind, Option.bind_some]
  rw [diffChecked_of_le (by omega), diffChecked_of_le (by omega)]
  simp only [Option.bind_some]
  rw [memmoveChecked_of_le _ (by omega) (by omega)]
  rfl

theorem iterChecked_eq (env : Env) (h : OffsetsInOrder nc) : netcomIterChecked env nc = some (netcomIter env nc) := by
  obtain ⟨hle, hhi⟩ := id h
  unfold netcomIterChecked netcomIter
  by_cases he : nc.wrOff = nc.rd1Off
  · rw [if_pos he, if_pos he]
  rw [if_neg he, if_neg he, diffChecked_of_le hle, Option.bind_eq_bind, Option.bind_some]
  dsimp only
  by_cases h8 : nc.wrOff - nc.rd1Off ≥ netcmdGetpacketheaderlength
  swap
  · rw [if_neg h8, if_neg h8]
  have hroom : nc.rd1Off + 8 ≤ nc.wrOff := by
    simp only [netcmdGetpacketheaderlength, l0006NetcmdHeaderSize] at h8
    omega
  rw [if_pos h8, if_pos h8, packetChecked_of_le _ _ (Nat.le_trans hroom hhi), Option.bind_eq_bind, Option.bind_some]
  generalize slice nc.blob nc.rd1Off (nc.wrOff - nc.rd1Off) = packet
  -- A packet is removed only if it has been received.
  have hremove : ∀ {t : Netcom α} {n : Nat}, t.rd1Off = nc.rd1Off → t.wrOff = nc.wrOff →
      n ≤ nc.wrOff - nc.rd1Off → netcomRemoveChecked t n = some (netcomRemove t n) := by
    intro t n h1 hw hn
    exact removeChecked_eq ⟨by omega, by omega⟩ (by omega)
  by_cases hv : netcmdIsvalidpacketheader packet = true
  swap
  · rw [if_neg hv, if_neg hv, resyncChecked_eq h hroom]
  rw [if_pos hv, if_pos hv]
  by_cases hs : netcmdVerifystream packet ≠ 0
  · rw [if_pos hs, if_pos hs]
    by_cases hmax : netcmdVerifystream packet = 0 ∨ netcmdVerifystream packet > l0006StreamMaxSize
    · rw [if_pos hmax, if_pos hmax, resyncChecked_eq h hroom]
    rw [if_neg hmax, if_neg hmax]
    by_cases hn : netcmdVerifystream packet ≤ nc.wrOff - nc.rd1Off
    swap
    · rw [if_neg hn, if_neg hn]
    rw [if_pos hn, if_pos hn]
    by_cases hrx : nc.rx = true
    · rw [if_pos hrx, if_pos hrx]
      cases netcmdReadpacket env.below nc.blob nc.rd1Off (env.gettimeofday nc.tods) with
      | none => exact resyncChecked_eq h hroom
      | some blob => rfl
    · have hd := hremove (t := { nc with log := nc.log ++ [.drop (packet.take (netcmdVerifystream packet))] })
        rfl rfl hn
      rw [if_neg hrx, if_neg hrx, hd]
      rfl
  · rw [if_neg hs, if_neg hs]
    by_cases hc : (netcmdVerifycmdpacket packet).1 ≠ 0
    · rw [if_pos hc, if_pos hc]
      by_cases hn : (netcmdVerifycmdpacket packet).1 ≤ nc.wrOff - nc.rd1Off
      · obtain ⟨hit, un, us, hl⟩ := lookup_frame nc (netcmdVerifycmdpacket packet).2
          (packet.take (netcmdVerifycmdpacket packet).1)
        rw [if_pos hn, if_pos hn, hremove (by rw [hl]) (by rw [hl]) hn]
        rfl
      · rw [if_neg hn, if_neg hn]
    · rw [if_neg hc, if_neg hc, hremove rfl rfl (by omega)]
      rfl

/-! ## Runs -/

/-- What can happen to the receiver, with the consumer reporting an error. -/
inductive NcInput where
  | rd (i : RdInput)
  /-- `errorflag` is set. -/
  | fault

def ncStep (env : Env) (nc : Netcom α) : NcInput → Option (Netcom α)
  | .rd i => rdStep env nc i
  | .fault => some { nc with errorflag := true }

/-- A read returns at most what it is asked for, and the consumer stays in the
blob. -/
def Possible (nc : Netcom α) : NcInput → Prop
  | .rd (.readcb chunk) => Fits nc chunk
  | .rd (.consume rd2Off) => rd2Off ≤ netcomRdbufferSize
  | .rd .start | .rd .stop | .fault => True

instance (nc : Netcom α) : (i : NcInput) → Decidable (Possible nc i)
  | .rd (.readcb chunk) => inferInstanceAs (Decidable (Fits nc chunk))
  | .rd (.consume rd2Off) => inferInstanceAs (Decidable (rd2Off ≤ netcomRdbufferSize))
  | .rd .start | .rd .stop | .fault => .isTrue trivial

/-- No check fails in the callback: neither before the packet loop nor in any of its
rounds, and every round finds the offsets in order. -/
def Sound (env : Env) (nc : Netcom α) : NcInput → Prop
  | .rd (.readcb chunk) =>
    netcomMakeRoomChecked nc = some (netcomMakeRoom nc) ∧
      ∀ nc' spaceToEnd, netcomMakeRoom nc = .room nc' spaceToEnd →
        ∀ s, Reaches (netcomIter env) (netcomReceive nc' chunk) s →
          OffsetsInOrder s ∧ netcomIterChecked env s = some (netcomIter env s)
  | .rd (.consume _) | .rd .start | .rd .stop | .fault => True

theorem offsets_room (h : OffsetsInOrder nc) {nc' : Netcom α} {spaceToEnd : Nat}
    (hr : netcomMakeRoom nc = .room nc' spaceToEnd) :
    OffsetsInOrder nc' ∧ spaceToEnd = circSpaceToEnd nc'.wrOff nc'.rd2Off netcomRdbufferSize := by
  have hready := ready_of nc
  rw [hr] at hready
  cases hready with
  | here => exact ⟨h, rfl⟩
  | rewind => exact ⟨⟨Nat.zero_le _, Nat.le_trans (Nat.sub_le _ _) h.hi⟩, rfl⟩

theorem offsets_returned (h : OffsetsInOrder nc) {nc' : Netcom α} (hr : netcomMakeRoom nc = .returned nc') :
    OffsetsInOrder nc' := by
  have hready := ready_of nc
  rw [hr] at hready
  cases hready with
  | reset => exact ⟨Nat.le_refl 0, Nat.zero_le _⟩
  | drop => exact ⟨Nat.le_refl _, Nat.le_trans h.le h.hi⟩

/-- A read that fits ends in the blob. -/
theorem offsets_receive {chunk : List UInt8} (h : OffsetsInOrder nc)
    (hf : chunk.length ≤ circSpaceToEnd nc.wrOff nc.rd2Off netcomRdbufferSize) :
    OffsetsInOrder (netcomReceive nc chunk) := by
  have hsp := circSpaceToEnd_le nc.rd2Off h.hi
  have hhi := h.hi
  refine ⟨Nat.le_trans h.le (Nat.le_add_right _ _), ?_⟩
  simp only [netcomReceive, netcomRdbufferSize] at *
  omega

theorem readcb_offsets {chunk : List UInt8} {t : Netcom α} (h : OffsetsInOrder nc) (hf : Fits nc chunk)
    (ht : netcomReadcb env nc chunk = some t) : OffsetsInOrder t := by
  unfold netcomReadcb at ht
  unfold Fits at hf
  cases hr : netcomMakeRoom nc with
  | returned nc' =>
    rw [hr] at ht
    cases ht
    exact offsets_returned h hr
  | room nc' spaceToEnd =>
    obtain ⟨h', rfl⟩ := offsets_room h hr
    simp only [hr] at hf ht
    have hrecv := offsets_receive h' hf
    exact (loop_keeps hrecv.le ht).1.offsets hrecv

/-- The offsets are in order, with less than a frame pending. -/
structure Leaves (nc : Netcom α) : Prop where
  offsets : OffsetsInOrder nc
  pending : nc.wrOff - nc.rd1Off < l0006StreamMaxSize

theorem readcb_leaves {chunk : List UInt8} {t : Netcom α} (h : Leaves nc) (hf : Fits nc chunk)
    (ht : netcomReadcb env nc chunk = some t) : Leaves t := by
  refine ⟨readcb_offsets h.offsets hf ht, ?_⟩
  unfold netcomReadcb at ht
  unfold Fits at hf
  cases hr : netcomMakeRoom nc with
  | returned nc' =>
    rw [hr] at ht
    cases ht
    have hready := ready_of nc
    rw [hr] at hready
    cases hready with
    | reset => exact Nat.zero_lt_succ _
    | drop => exact (Nat.sub_self nc.rd1Off).trans_lt (Nat.zero_lt_succ _)
  | room nc' spaceToEnd =>
    obtain ⟨h', rfl⟩ := offsets_room h.offsets hr
    simp only [hr] at hf ht
    exact (loop_keeps (offsets_receive h' hf).le ht).2

theorem readcb_sound {chunk : List UInt8} (h : OffsetsInOrder nc) (hf : Fits nc chunk) :
    Sound env nc (.rd (.readcb chunk)) := by
  refine ⟨makeRoomChecked_eq h, ?_⟩
  intro nc' spaceToEnd hr s hs
  obtain ⟨h', rfl⟩ := offsets_room h hr
  unfold Fits at hf
  simp only [hr] at hf
  have hin : OffsetsInOrder s := by
    refine reaches_inv (fun s t hs hst => ?_) hs (offsets_receive h' hf)
    exact ((round_of hst).keeps hs.le).offsets hs
  exact ⟨hin, iterChecked_eq env hin⟩

theorem ncStep_offsets (s : Netcom α) (i : NcInput) (t : Netcom α) (h : OffsetsInOrder s) (hi : Possible s i)
    (ht : ncStep env s i = some t) : OffsetsInOrder t := by
  cases i with
  | rd i =>
    cases i with
    | readcb chunk => exact readcb_offsets h hi ht
    | start | stop | consume => cases ht; exact ⟨h.le, h.hi⟩
  | fault => cases ht; exact ⟨h.le, h.hi⟩

theorem rdStep_leaves {i : RdInput} {t : Netcom α} (h : Leaves nc) (hf : ∀ chunk, i = .readcb chunk → Fits nc chunk)
    (ht : rdStep env nc i = some t) : Leaves t := by
  cases i with
  | readcb chunk => exact readcb_leaves h (hf chunk rfl) ht
  | start | stop | consume => cases ht; exact ⟨⟨h.offsets.le, h.offsets.hi⟩, h.pending⟩

theorem ncStep_leaves {i : NcInput} {t : Netcom α} (h : Leaves nc) (hi : Possible nc i) (ht : ncStep env nc i = some t) :
    Leaves t := by
  cases i with
  | rd i =>
    refine rdStep_leaves h ?_ ht
    rintro chunk rfl
    exact hi
  | fault => cases ht; exact ⟨⟨h.offsets.le, h.offsets.hi⟩, h.pending⟩

theorem ncStep_sound (s : Netcom α) (i : NcInput) (h : OffsetsInOrder s) (hi : Possible s i) : Sound env s i := by
  cases i with
  | rd i =>
    cases i with
    | readcb chunk => exact readcb_sound h hi
    | start | stop | consume => trivial
  | fault => trivial

/-- In every run the offsets stay in order, every access to the blob stays within
it, and no difference of offsets wraps around. -/
theorem offsets_stay_inside [Inhabited α] (env : Env) (blob : Nat → UInt8) (is : List NcInput)
    (hrun : Along (ncStep env) Possible { (netcomAllocateBuffer : Netcom α) with blob := blob } is) :
    Throughout (ncStep env) OffsetsInOrder { (netcomAllocateBuffer : Netcom α) with blob := blob } is ∧
      Along (ncStep env) (Sound env) { (netcomAllocateBuffer : Netcom α) with blob := blob } is := by
  have hinit : OffsetsInOrder { (netcomAllocateBuffer : Netcom α) with blob := blob } :=
    ⟨Nat.le_refl 0, Nat.zero_le _⟩
  exact ⟨throughout_inv ncStep_offsets hinit hrun, along_inv ncStep_offsets ncStep_sound hinit hrun⟩

/-- A stream packet with garbage behind it, an error, and a read after the reset. -/
theorem offsets_stay_inside_reset :
    Throughout (ncStep .still) OffsetsInOrder (netcomAllocateBuffer : Netcom Unit)
        [.rd .start, .rd (.readcb (addata20 ++ buzzack ++ buzzack.tail)), .rd (.consume 20), .fault,
          .rd (.readcb [1]), .rd (.readcb buzzack)] ∧
      Along (ncStep .still) (Sound .still) (netcomAllocateBuffer : Netcom Unit)
        [.rd .start, .rd (.readcb (addata20 ++ buzzack ++ buzzack.tail)), .rd (.consume 20), .fault,
          .rd (.readcb [1]), .rd (.readcb buzzack)] :=
  offsets_stay_inside .still (fun _ => 0) _ (by decide +kernel)

end CmdAgent

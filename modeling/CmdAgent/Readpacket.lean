import CmdAgent.Reassembly
/-!
# `netcmd_readpacket` and its frame

Before `netcmd_readpacket` is called `f.length` has been tested only from above and
against 0, and in it not at all. The payload is what is left of the frame between the
header and the 4 bytes of the trailer.
-/
open StreamLib.Mem StreamLib.Loop

namespace CmdAgent

variable {α : Type} {env : Env} {nc : Netcom α}

/-! ## The call -/

/-- A round of `netcom_readcb` calls `readpacket`. -/
structure CallsReadpacket (nc : Netcom α) : Prop where
  header : 8 ≤ nc.pending.length
  valid : netcmdIsvalidpacketheader nc.pending = true
  stream : cmdOf nc.pending = l0006NetcmdAddata
  pos : 0 < lengthOf nc.pending
  max : lengthOf nc.pending ≤ l0006StreamMaxSize
  whole : lengthOf nc.pending ≤ nc.pending.length
  rx : nc.rx = true

/-- What a round makes of the result. -/
theorem CallsReadpacket.iter (h : CallsReadpacket nc) :
    netcomIter env nc = match netcmdReadpacket env.below nc.blob nc.rd1Off (env.gettimeofday nc.tods) with
      | some blob => .cont { nc with
          blob := blob
          rd1Off := nc.rd1Off + lengthOf nc.pending
          tods := nc.tods + 1
          log := nc.log ++ [.append (nc.pending.take (lengthOf nc.pending)) (env.gettimeofday nc.tods)] }
      | none => netcomResync nc := by
  have hpos := h.pos
  generalize ho : netcomIter env nc = o
  cases round_of ho with
  | short hlt => exact absurd h.header (Nat.not_le.2 hlt)
  | badHeader _ hv => simp [h.valid] at hv
  | tooLong _ _ _ hl => exact absurd h.max (Nat.not_le.2 hl)
  | incomplete _ _ _ _ _ hlt => exact absurd h.whole (Nat.not_le.2 hlt)
  | badCrc _ _ _ _ _ _ _ hr => rw [hr]
  | append blob _ _ _ _ _ _ _ hr => rw [hr]
  | drop _ _ _ _ _ _ hrx => simp [h.rx] at hrx
  | partialCommand _ _ hc | command _ _ hc => exact absurd h.stream hc
  | zeroStream _ _ _ hz => omega

/-- A time `gettimeofday` can return. -/
def Timeval.Valid (tv : Timeval) : Prop := tv.tvUsec < 10 ^ 6

/-- The call stays inside the frame, whatever the time. -/
structure StaysInside (below : Nat → UInt8) (nc : Netcom α) : Prop where
  /-- What `crc16` reads. -/
  reads : ∀ i, nc.rd1Off + 8 ≤ i → i < nc.rd1Off + 8 + crcSize (lengthOf nc.pending) →
    i < nc.rd1Off + lengthOf nc.pending
  /-- The size is that of the payload. -/
  size : (crcSize (lengthOf nc.pending) : Int) = lengthOf nc.pending - l0006NetcmdHeaderSize - l0006StreamCrc16Size
  /-- Nothing but the payload changes. -/
  store : ∀ tv blob, tv.Valid → netcmdReadpacket below nc.blob nc.rd1Off tv = some blob →
    ∀ i, ¬ (nc.rd1Off + 8 ≤ i ∧ i + 4 < nc.rd1Off + lengthOf nc.pending) → blob i = nc.blob i

/-! ## The store -/

theorem stamp_at (blob : Nat → UInt8) (packet : Nat) (tv : Timeval) {k : Nat} (h : k < tv.bytes.length) :
    store blob (packet + 8) tv.bytes (packet + 8 + k) = tv.bytes.getD k 0 := by
  rw [store_inside h, List.getD_eq_getElem?_getD, List.getElem?_eq_getElem h, Option.getD_some]

theorem stamp_outside (blob : Nat → UInt8) {packet i : Nat} (tv : Timeval) (h : i < packet + 8 ∨ packet + 16 ≤ i) :
    store blob (packet + 8) tv.bytes i = blob i := by
  rcases h with h | h
  · exact store_before _ h
  · exact store_after _ (by rw [Timeval.length_bytes]; omega)

/-- Two times differ in the seventh byte. -/
theorem exists_stamp_ne (b : UInt8) : ∃ tv : Timeval, tv.Valid ∧ tv.bytes.getD 6 0 ≠ b := by
  by_cases hb : b = 0
  · exact ⟨⟨0, 2 ^ 16⟩, show 2 ^ 16 < 10 ^ 6 by decide, fun he => absurd (he.trans hb) (by decide)⟩
  · exact ⟨⟨0, 0⟩, show 0 < 10 ^ 6 by decide, fun he => hb he.symm⟩

/-- The last byte stored is 0. -/
theorem stamp_last {tv : Timeval} (h : tv.Valid) : tv.bytes.getD 7 0 = 0 := by
  unfold Timeval.Valid at h
  have hzero : tv.tvUsec / 2 ^ 24 = 0 := Nat.div_eq_of_lt (by omega)
  change UInt8.ofNat (tv.tvUsec / 2 ^ 24) = 0
  rw [hzero]
  rfl

theorem getD_pending {k : Nat} (h : k < nc.pending.length) : nc.pending.getD k 0 = nc.blob (nc.rd1Off + k) := by
  rw [length_pending] at h
  rw [Netcom.pending, List.getD_eq_getElem?_getD, getElem?_slice _ h, Option.getD_some]

theorem CallsReadpacket.read (h : CallsReadpacket nc) (below : Nat → UInt8) (h12 : 12 ≤ lengthOf nc.pending)
    (tv : Timeval) :
    netcmdReadpacket below nc.blob nc.rd1Off tv =
      if streamCrc nc.pending = true then some (store nc.blob (nc.rd1Off + 8) tv.bytes) else none :=
  readpacket_eq below nc.blob tv h12 (h.whole.trans_eq (length_pending nc))

/-- With the checksum right the store touches nothing but the payload if the payload has
8 bytes; with 7 it is the top byte of `tv_usec`, always 0, that falls on the trailer. -/
theorem store_iff (below : Nat → UInt8) (h : CallsReadpacket nc) (h12 : 12 ≤ lengthOf nc.pending)
    (hck : streamCrc nc.pending = true) :
    (∀ tv blob, tv.Valid → netcmdReadpacket below nc.blob nc.rd1Off tv = some blob →
        ∀ i, ¬ (nc.rd1Off + 8 ≤ i ∧ i + 4 < nc.rd1Off + lengthOf nc.pending) → blob i = nc.blob i) ↔
      20 ≤ lengthOf nc.pending ∨ lengthOf nc.pending = 19 ∧ nc.pending.getD 15 0 = 0 := by
  have hwhole := h.whole
  have hread : ∀ tv, netcmdReadpacket below nc.blob nc.rd1Off tv = some (store nc.blob (nc.rd1Off + 8) tv.bytes) := by
    intro tv
    rw [h.read below h12, if_pos hck]
  constructor
  · intro hstore
    by_contra hcond
    obtain ⟨hlt, h19⟩ := not_or.1 hcond
    by_cases h18 : lengthOf nc.pending ≤ 18
    · obtain ⟨tv, hv, hne⟩ := exists_stamp_ne (nc.blob (nc.rd1Off + 8 + 6))
      apply hne
      rw [← stamp_at nc.blob nc.rd1Off tv (by simp)]
      exact hstore tv _ hv (hread tv) _ (by omega)
    · refine h19 ⟨by omega, ?_⟩
      have hv : Timeval.Valid ⟨0, 0⟩ := show 0 < 10 ^ 6 by decide
      have hsame := hstore ⟨0, 0⟩ _ hv (hread _) (nc.rd1Off + 8 + 7) (by omega)
      rw [stamp_at _ _ _ (by simp), stamp_last hv] at hsame
      rw [getD_pending (by omega), hsame]
  · rintro hcond tv blob hv hsome i hi
    cases (hread tv).symm.trans hsome
    rcases hcond with h20 | ⟨h19, hzero⟩
    · exact stamp_outside _ tv (by omega)
    · by_cases hlast : i = nc.rd1Off + 8 + 7
      · rw [hlast, stamp_at _ _ _ (by simp), stamp_last hv, ← hzero, getD_pending (by omega)]
      · exact stamp_outside _ tv (by omega)

/-! ## The frame -/

/-- The call stays inside exactly the frames that have a payload, and if its checksum is
right one the time fits into. -/
theorem readpacket_inside_iff (below : Nat → UInt8) (nc : Netcom α) (h : CallsReadpacket nc) :
    StaysInside below nc ↔ 12 ≤ lengthOf nc.pending ∧ (streamCrc nc.pending = true →
      20 ≤ lengthOf nc.pending ∨ lengthOf nc.pending = 19 ∧ nc.pending.getD 15 0 = 0) := by
  constructor
  · intro hin
    have h12 : 12 ≤ lengthOf nc.pending := by
      have hsize := hin.size
      simp only [l0006NetcmdHeaderSize, l0006StreamCrc16Size] at hsize
      omega
    exact ⟨h12, fun hck => (store_iff below h h12 hck).1 hin.store⟩
  · rintro ⟨h12, hcond⟩
    have hsize := crcSize_of_le h12 (lengthOf_lt _)
    refine ⟨?_, ?_, ?_⟩
    · intro i _ hi
      omega
    · rw [hsize]
      simp only [l0006NetcmdHeaderSize, l0006StreamCrc16Size]
      omega
    · by_cases hck : streamCrc nc.pending = true
      · exact (store_iff below h h12 hck).2 (hcond hck)
      · -- Nothing is stored.
        intro tv blob _ hsome
        rw [h.read below h12, if_neg hck] at hsome
        cases hsome

/-- A receiver that has received the bytes. -/
def holding (bytes : List UInt8) : Netcom Unit := netcomReceive (l0006NetcomStart netcomAllocateBuffer) bytes

theorem readpacket_inside_addata : StaysInside Env.still.below (holding addata20) :=
  (readpacket_inside_iff _ _ ⟨by decide, by decide +kernel, by decide, by decide, by decide, by decide, rfl⟩).2
    ⟨by decide, fun _ => .inl (by decide)⟩

/-- A stream header that declares no more than itself. -/
def addata8 : List UInt8 := [0xEF, 0xBE, 0x04, 0, 8, 0, 0xF5, 0xEC]

/-- A stream packet with a payload of 4 zeros. -/
def addata16 : List UInt8 := [0xEF, 0xBE, 0x04, 0, 16, 0, 0x2F, 0x66, 0, 0, 0, 0, 0, 0, 0, 0]

/-- With the first `crc16` is asked to read 4 GB, with the second the time is stored over
the trailer. -/
theorem readpacket_outside :
    (CallsReadpacket (holding addata8) ∧ crcSize (lengthOf (holding addata8).pending) = 2 ^ 32 - 4 ∧
        ¬ StaysInside Env.still.below (holding addata8)) ∧
      CallsReadpacket (holding addata16) ∧ ¬ StaysInside Env.still.below (holding addata16) := by
  have h8 : lengthOf (holding addata8).pending = 8 := by decide +kernel
  have h16 : lengthOf (holding addata16).pending = 16 := by decide +kernel
  have hcalls : CallsReadpacket (holding addata16) :=
    ⟨by decide, by decide +kernel, by decide, by decide, by decide, by decide, rfl⟩
  refine ⟨⟨⟨by decide, by decide +kernel, by decide, by decide, by decide, by decide, rfl⟩, by rw [h8]; rfl, ?_⟩,
    hcalls, ?_⟩
  · intro hin
    have hsize := hin.size
    rw [h8] at hsize
    exact absurd hsize (by decide)
  · intro hin
    have hck : streamCrc (holding addata16).pending = true := by decide +kernel
    rcases (store_iff _ hcalls (by omega) hck).1 hin.store with hlong | ⟨h19, -⟩
    · omega
    · omega

end CmdAgent

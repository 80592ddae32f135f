import CmdAgent.Serclient
/-!
# The space a client's next read is offered

`serclt_recvdata` reads into what is left behind `wr_off`. Only a command sets the offsets
back; init packets are taken and keep their place. With nothing but init packets the space
is used up, and from then on each read is offered 0 bytes.
-/
open StreamLib.Mem StreamLib.Loop StreamLib.Runs StreamLib.Reads

namespace CmdAgent

/-- There is space for another byte. -/
def HasSpace (serclt : SercltInfo) : Prop := serclt.wrOff < sercltRdbufferSize

/-- The header `k` init packets behind `rd_off`. -/
def SercltInfo.packetAt (serclt : SercltInfo) (k : Nat) : AgentPacket :=
  .ofBytes (slice serclt.dataBlob (serclt.rdOff + agentPacketHeadLen * k) agentPacketHeadLen)

/-- In what is buffered, a header that is not an init packet's is in the place of one. -/
def CommandWaits (serclt : SercltInfo) : Prop :=
  ∃ k, serclt.rdOff + agentPacketHeadLen * k + cmdPacketHeadLen ≤ serclt.wrOff ∧
    (serclt.packetAt k).magic ≠ agentInitPacketHeadMagic

/-- The read does not take all the space, or with it there is a command. -/
def KeepsSpace (serclt : SercltInfo) (chunk : List UInt8) : Prop :=
  chunk.length < sercltRdbufferSize - serclt.wrOff ∨ CommandWaits (sercltReceive serclt chunk)

variable {serclt t : SercltInfo} {chunk : List UInt8}

theorem sercltInit_rdOff (h : serclt.rdOff + 9 < 2 ^ 32) : (sercltInit serclt).rdOff = serclt.rdOff + 9 :=
  Nat.mod_eq_of_lt h

/-- An init packet is taken, and the header that waits is one packet nearer. -/
theorem packetAt_init (h : serclt.rdOff + 9 < 2 ^ 32) (k : Nat) :
    (sercltInit serclt).packetAt k = serclt.packetAt (k + 1) := by
  unfold SercltInfo.packetAt
  rw [sercltInit_rdOff h]
  simp only [agentPacketHeadLen, Nat.mul_succ, Nat.add_assoc, Nat.add_comm 9]
  rfl

/-- With nothing buffered, the first header is that of the read. -/
theorem packetAt_receive (heq : serclt.rdOff = serclt.wrOff) (hlen : agentPacketHeadLen ≤ chunk.length) :
    (sercltReceive serclt chunk).packetAt 0 = .ofBytes (chunk.take agentPacketHeadLen) := by
  have hchunk : slice (sercltReceive serclt chunk).dataBlob serclt.rdOff chunk.length = chunk :=
    heq ▸ slice_store_self _ _ _
  calc (sercltReceive serclt chunk).packetAt 0
      = .ofBytes (slice (sercltReceive serclt chunk).dataBlob serclt.rdOff agentPacketHeadLen) := rfl
    _ = _ := by rw [← take_slice _ hlen, hchunk]

theorem CommandWaits.init (h : CommandWaits serclt) (hsize : serclt.wrOff ≤ sercltRdbufferSize) (hi : serclt.AtInit) :
    CommandWaits (sercltInit serclt) := by
  obtain ⟨k, hk, hmagic⟩ := h
  simp only [agentPacketHeadLen, cmdPacketHeadLen, sercltRdbufferSize] at hk hsize
  cases k with
  | zero => exact absurd hi hmagic
  | succ k =>
    have hlt : serclt.rdOff + 9 < 2 ^ 32 := by omega
    refine ⟨k, ?_, ?_⟩
    · rw [sercltInit_rdOff hlt]
      simp only [agentPacketHeadLen, cmdPacketHeadLen, sercltInit]
      omega
    · rw [packetAt_init hlt]
      exact hmagic

theorem CommandWaits.remainLen (h : CommandWaits serclt) (hsize : serclt.wrOff ≤ sercltRdbufferSize) :
    8 ≤ serclt.remainLen := by
  obtain ⟨k, hk, -⟩ := h
  simp only [agentPacketHeadLen, cmdPacketHeadLen, sercltRdbufferSize] at hk hsize
  unfold SercltInfo.remainLen
  omega

theorem remainLen_zero (hrd : serclt.rdOff = 0) (hwr : serclt.wrOff = 0) : serclt.remainLen = 0 := by
  rw [SercltInfo.remainLen, hrd, hwr]
  decide

/-- A command that waits is met, and the offsets are set back. -/
theorem recvdata_waits (h : CommandWaits (sercltReceive serclt chunk)) (hfit : SercltFits serclt chunk)
    (hspace : HasSpace serclt) (ht : sercltRecvdata serclt chunk = some t) : t.wrOff = 0 := by
  let I : SercltInfo → Prop := fun u =>
    (CommandWaits u ∧ u.wrOff ≤ sercltRdbufferSize) ∨ (u.rdOff = 0 ∧ u.wrOff = 0)
  have hstart : I (sercltReceive serclt chunk) := by
    refine .inl ⟨h, ?_⟩
    unfold SercltFits at hfit
    unfold HasSpace at hspace
    simp only [sercltReceive]
    omega
  refine run_inv (I := I) (Q := fun u => u.wrOff = 0) ?_ ?_ hstart ht
  · rintro u v (⟨hw, hsize⟩ | ⟨hrd, hwr⟩) huv
    · cases sercltRound_of huv with
      | init h8 hi => exact .inl ⟨hw.init hsize hi, hsize⟩
      | transmit => exact .inr ⟨rfl, rfl⟩
    · have hlen := remainLen_zero hrd hwr
      cases sercltRound_of huv with
      | init h8 => omega
      | transmit h8 => omega
  · rintro u v (⟨hw, hsize⟩ | ⟨hrd, hwr⟩) huv
    · have h8 := hw.remainLen hsize
      cases sercltRound_of huv with
      | short hshort => omega
      | refuse => rfl
    · cases sercltRound_of huv with
      | short => exact hwr
      | refuse => rfl

/-- Space that a read leaves stays. -/
theorem recvdata_leaves (h : HasSpace (sercltReceive serclt chunk)) (ht : sercltRecvdata serclt chunk = some t) :
    HasSpace t := by
  refine run_inv (I := HasSpace) (Q := HasSpace) ?_ ?_ h ht
  · intro u v hu huv
    cases sercltRound_of huv with
    | init => exact hu
    | transmit => exact Nat.succ_pos _
  · intro u v hu huv
    cases sercltRound_of huv with
    | short => exact hu
    | refuse => exact Nat.succ_pos _

theorem commandWaits_of_header (hoff : Offsets serclt) (h8 : 8 ≤ serclt.remainLen) (hi : ¬ serclt.AtInit) :
    CommandWaits serclt := by
  have hle := hoff.1
  rw [hoff.remainLen] at h8
  refine ⟨0, ?_, hi⟩
  simp only [agentPacketHeadLen, cmdPacketHeadLen]
  omega

/-- Without a command nothing is set back, as long as no init packet is cut at its ninth
byte. -/
theorem recvdata_full (h : ¬ CommandWaits (sercltReceive serclt chunk)) (hoff : Offsets (sercltReceive serclt chunk))
    (hcut : ((sercltReceive serclt chunk).wrOff - (sercltReceive serclt chunk).rdOff) % 9 ≠ 8)
    (ht : sercltRecvdata serclt chunk = some t) : t.wrOff = (sercltReceive serclt chunk).wrOff := by
  let I : SercltInfo → Prop := fun u =>
    u.wrOff = (sercltReceive serclt chunk).wrOff ∧ Offsets u ∧ ¬ CommandWaits u ∧ (u.wrOff - u.rdOff) % 9 ≠ 8
  refine run_inv (I := I) (Q := fun u => u.wrOff = (sercltReceive serclt chunk).wrOff) ?_ ?_ ⟨rfl, hoff, h, hcut⟩ ht
  · rintro u v ⟨hwr, hoff, hw, hcut⟩ huv
    have hwaits := commandWaits_of_header hoff
    cases sercltRound_of huv with
    | init h8 hi =>
      rw [hoff.remainLen] at h8
      obtain ⟨hle, hsize⟩ := hoff
      simp only [sercltRdbufferSize] at hsize
      have h9 : u.rdOff + 9 ≤ u.wrOff := by omega
      have hlt : u.rdOff + 9 < 2 ^ 32 := by omega
      refine ⟨hwr, Offsets.init ⟨hle, hsize⟩ h9, ?_, ?_⟩
      · rintro ⟨k, hk, hmagic⟩
        rw [sercltInit_rdOff hlt] at hk
        rw [packetAt_init hlt] at hmagic
        refine hw ⟨k + 1, ?_, hmagic⟩
        simp only [agentPacketHeadLen, cmdPacketHeadLen, sercltInit] at hk ⊢
        omega
      · rw [sercltInit_rdOff hlt]
        simp only [sercltInit]
        omega
    | transmit h8 hi => exact absurd (hwaits h8 hi) hw
  · rintro u v ⟨hwr, hoff, hw, -⟩ huv
    cases sercltRound_of huv with
    | short => exact hwr
    | refuse h8 hi => exact absurd (commandWaits_of_header hoff h8 hi) hw

theorem KeepsSpace.recvdata (h : KeepsSpace serclt chunk) (hspace : HasSpace serclt) (hfit : SercltFits serclt chunk)
    (ht : sercltRecvdata serclt chunk = some t) : HasSpace t := by
  rcases h with hlen | hwaits
  · refine recvdata_leaves ?_ ht
    simp only [HasSpace, sercltReceive]
    omega
  · unfold HasSpace
    rw [recvdata_waits hwaits hfit hspace ht]
    exact Nat.succ_pos _

/-- Whether a read leaves space, as long as it cuts no init packet at its ninth byte. -/
theorem recvdata_space_iff (hoff : Offsets serclt) (hspace : HasSpace serclt) (hfit : SercltFits serclt chunk)
    (hcut : (serclt.wrOff + chunk.length - serclt.rdOff) % 9 ≠ 8) (ht : sercltRecvdata serclt chunk = some t) :
    HasSpace t ↔ KeepsSpace serclt chunk := by
  refine ⟨fun h => ?_, fun h => h.recvdata hspace hfit ht⟩
  by_contra hkeep
  obtain ⟨hlen, hwaits⟩ := not_or.1 hkeep
  have hfull := recvdata_full hwaits (hoff.receive hfit) hcut ht
  unfold HasSpace at h
  simp only [sercltReceive] at hfull
  omega

/-! ## Init packets only -/

/-- An init packet that is read alone is taken and keeps its place. -/
theorem recvdata_initPacket (heq : serclt.rdOff = serclt.wrOff) (hsize : serclt.wrOff + 9 ≤ sercltRdbufferSize) :
    ∃ t, sercltRecvdata serclt initPacket = some t ∧ t.rdOff = serclt.rdOff + 9 ∧ t.wrOff = serclt.wrOff + 9 := by
  simp only [sercltRdbufferSize] at hsize
  have hoff : Offsets (sercltReceive serclt initPacket) := by
    simp only [Offsets, sercltReceive, sercltRdbufferSize, initPacket, List.length_cons, List.length_nil]
    omega
  have hwr : (sercltReceive serclt initPacket).wrOff = serclt.wrOff + 9 := rfl
  have hrd : (sercltReceive serclt initPacket).rdOff = serclt.rdOff := rfl
  generalize hs : sercltReceive serclt initPacket = s at hoff hwr hrd
  have hi : s.AtInit := by
    have hhead : s.agentHead = .ofBytes (initPacket.take agentPacketHeadLen) := hs ▸ packetAt_receive heq (by decide)
    unfold SercltInfo.AtInit
    rw [hhead]
    decide
  have h8 : 8 ≤ s.remainLen := by
    rw [hoff.remainLen]
    omega
  have hlt : s.rdOff + 9 < 2 ^ 32 := by omega
  have hshort : sercltIter (sercltInit s) = .brk (sercltInit s) := by
    have hoff' : Offsets (sercltInit s) := hoff.init (by omega)
    unfold sercltIter
    rw [if_neg]
    rw [hoff'.remainLen, sercltInit_rdOff hlt]
    simp only [cmdPacketHeadLen, sercltInit]
    omega
  refine ⟨sercltInit s, ?_, (sercltInit_rdOff hlt).trans (by rw [hrd]), hwr⟩
  unfold sercltRecvdata StreamLib.Reads.read
  rw [hs]
  refine run_mono (n := 2) ?_ (by decide)
  rw [run_cont 1 (iter_init h8 hi), run_brk 0 hshort]

/-- Fewer than 8 bytes wait for more. -/
theorem recvdata_few (chunk : List UInt8) (heq : serclt.rdOff = serclt.wrOff)
    (hsize : serclt.wrOff + chunk.length ≤ sercltRdbufferSize) (hfew : chunk.length < 8) :
    ∃ t, sercltRecvdata serclt chunk = some t ∧ t.wrOff = serclt.wrOff + chunk.length := by
  have hoff : Offsets (sercltReceive serclt chunk) := by
    simp only [Offsets, sercltReceive]
    exact ⟨heq ▸ Nat.le_add_right _ _, hsize⟩
  refine ⟨sercltReceive serclt chunk, ?_, rfl⟩
  unfold sercltRecvdata StreamLib.Reads.read
  refine run_mono (n := 1) (run_brk 0 ?_) (by decide)
  unfold sercltIter
  rw [if_neg]
  rw [hoff.remainLen]
  simp only [cmdPacketHeadLen, sercltReceive]
  omega

/-- As many init packets as there is space for, one a read, fill no more than they are. -/
theorem recvdata_initPackets (nsocket : Int) (dataBlob : Nat → UInt8) {n : Nat} (hn : 9 * n ≤ sercltRdbufferSize) :
    ∃ t, exec sercltRecvdata (sercltInitialize nsocket dataBlob) (List.replicate n initPacket) = some t ∧
      t.rdOff = 9 * n ∧ t.wrOff = 9 * n ∧
      Along sercltRecvdata (fun serclt chunk => serclt.wrOff + chunk.length ≤ 9 * n)
        (sercltInitialize nsocket dataBlob) (List.replicate n initPacket) := by
  induction n with
  | zero => exact ⟨_, rfl, rfl, rfl, trivial⟩
  | succ n ih =>
    obtain ⟨s, hs, hrd, hwr, hin⟩ := ih (by omega)
    obtain ⟨t, ht, hrd', hwr'⟩ := recvdata_initPacket (hrd.trans hwr.symm) (by rw [hwr]; omega)
    refine ⟨t, ?_, by omega, by omega, ?_⟩
    · rw [List.replicate_succ', exec_append, hs, Option.bind_some, exec_cons [] ht]
      rfl
    · rw [List.replicate_succ', along_append]
      refine ⟨hin.mono fun _ _ h => by omega, fun u hu => ?_⟩
      cases hs.symm.trans hu
      refine along_singleton.2 ?_
      rw [hwr]
      exact Nat.le_refl _

/-- After them, the one read that is left decides. -/
theorem along_initPackets {nsocket : Int} {dataBlob : Nat → UInt8} {n : Nat} {t : SercltInfo}
    {ok : SercltInfo → List UInt8 → Prop}
    (ht : exec sercltRecvdata (sercltInitialize nsocket dataBlob) (List.replicate n initPacket) = some t)
    (hin : Along sercltRecvdata ok (sercltInitialize nsocket dataBlob) (List.replicate n initPacket)) (h : ok t chunk) :
    Along sercltRecvdata ok (sercltInitialize nsocket dataBlob) (List.replicate n initPacket ++ [chunk]) := by
  refine (along_append _ _ _).2 ⟨hin, fun u hu => ?_⟩
  cases ht.symm.trans hu
  exact along_singleton.2 h

theorem prefix_initPackets (n : Nat) :
    (List.replicate n initPacket ++ [initPacket.take 5]).flatten <+: (List.replicate (n + 1) initPacket).flatten := by
  rw [List.replicate_succ', List.flatten_append, List.flatten_append]
  refine (List.prefix_append_right_inj _).2 ?_
  decide

/-! ## Whole runs -/

/-- A client can always be read again if no read takes all the space while nothing but init
packets is buffered. -/
theorem serclt_keeps_space (nsocket : Int) (dataBlob : Nat → UInt8) (chunks : List (List UInt8))
    (hfit : Along sercltRecvdata SercltFits (sercltInitialize nsocket dataBlob) chunks)
    (hkeep : Along sercltRecvdata KeepsSpace (sercltInitialize nsocket dataBlob) chunks) :
    Throughout sercltRecvdata HasSpace (sercltInitialize nsocket dataBlob) chunks := by
  refine throughout_inv ?_ (Nat.succ_pos _) (hfit.and hkeep)
  rintro s c t hspace ⟨hfit, hkeep⟩ ht
  exact hkeep.recvdata hspace hfit ht

/-- After 22754 init packets 14 bytes of space are left, and a read takes them all: a command
and six bytes of the next. -/
theorem serclt_keeps_space_command :
    Throughout sercltRecvdata HasSpace (sercltInitialize 5 fun _ => 0)
      (List.replicate 22754 initPacket ++ [[0xEF, 0xBE, 5, 0, 0, 0, 0x27, 0xE3, 0xEF, 0xBE, 5, 0, 0, 0]]) := by
  obtain ⟨t, ht, hrd, hwr, hin⟩ := recvdata_initPackets 5 (fun _ => 0) (n := 22754) (by decide)
  refine serclt_keeps_space 5 (fun _ => 0) _ (along_initPackets ht (hin.mono ?_) ?_)
    (along_initPackets ht (hin.mono ?_) (.inr ⟨0, ?_, ?_⟩))
  · intro u chunk h
    simp only [SercltFits, sercltRdbufferSize]
    omega
  · simp only [SercltFits, hwr, sercltRdbufferSize, List.length_cons, List.length_nil]
    omega
  · intro u chunk h
    refine .inl ?_
    simp only [sercltRdbufferSize]
    omega
  · simp only [sercltReceive, hrd, hwr, List.length_cons, List.length_nil, agentPacketHeadLen, cmdPacketHeadLen]
    omega
  · rw [packetAt_receive (hrd.trans hwr.symm) (by decide)]
    decide

/-- A client that sends 22756 init packets and nothing else is not read again: 22755 of them
and 5 bytes fill the space. -/
theorem serclt_space_used :
    let s := sercltInitialize 5 fun _ => 0
    let chunks := List.replicate 22755 initPacket ++ [initPacket.take 5]
    chunks.flatten <+: (List.replicate 22756 initPacket).flatten ∧ Along sercltRecvdata SercltFits s chunks ∧
      ∃ t, exec sercltRecvdata s chunks = some t ∧ ¬ HasSpace t ∧ ∀ chunk, SercltFits t chunk → chunk = [] := by
  obtain ⟨u, hu, hrd, hwr, hin⟩ := recvdata_initPackets 5 (fun _ => 0) (n := 22755) (by decide)
  obtain ⟨t, ht, hend⟩ := recvdata_few (initPacket.take 5) (hrd.trans hwr.symm) (by rw [hwr]; decide) (by decide)
  rw [hwr] at hend
  have hfull : t.wrOff = sercltRdbufferSize := hend
  refine ⟨prefix_initPackets 22755, along_initPackets hu (hin.mono ?_) ?_, t, ?_, ?_, ?_⟩
  · intro v chunk h
    simp only [SercltFits, sercltRdbufferSize]
    omega
  · rw [SercltFits, hwr]
    decide
  · rw [exec_append, hu, Option.bind_some, exec_cons [] ht]
    rfl
  · unfold HasSpace
    omega
  · intro chunk hc
    unfold SercltFits at hc
    rw [hfull, Nat.sub_self] at hc
    exact List.eq_nil_of_length_eq_zero (Nat.le_zero.1 hc)

end CmdAgent

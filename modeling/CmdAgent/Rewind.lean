import CmdAgent.Bounds
/-!
# The forced rewind

Near the end of the blob `netcom_readcb` moves what is pending to its start, if
`circ_buf.h` says that there is room. With `rd2_off` behind `rd1_off` the space is
computed right wherever it matters, but for one place: with `wr_off` at the very end and
`rd2_off` at 0 nothing is free, and the macro says 1 MB.
-/
open StreamLib.Mem StreamLib.Runs StreamLib.Framing

namespace CmdAgent

variable {α : Type} {env : Env} {nc : Netcom α}

/-! ## The move -/

/-- `netcom_readcb` goes into the branch that moves. -/
structure TakesRewind (nc : Netcom α) : Prop where
  errorflag : nc.errorflag = false
  wrOff : nc.wrOff > netcomRdbufferForcerewindOffset
  space : circSpace nc.wrOff nc.rd2Off netcomRdbufferSize > nc.wrOff - nc.rd1Off + netcomRdbufferForcerewindSize

/-- From `nc` to `nc'` the pending bytes have moved to the start, and what is published and
unread is as it was. -/
structure Rewound (nc nc' : Netcom α) : Prop where
  unread : ∀ i, Unread nc i → nc'.blob i = nc.blob i
  pending : slice nc'.blob 0 (nc.wrOff - nc.rd1Off) = nc.pending
  rd1End : nc'.rd1End = nc.rd1Off
  rd1Off : nc'.rd1Off = 0
  wrOff : nc'.wrOff = nc.wrOff - nc.rd1Off

/-- It goes on to read from a state in which nothing is lost. -/
def RewindPreserves (nc : Netcom α) : Prop :=
  ∃ nc' spaceToEnd, netcomMakeRoom nc = .room nc' spaceToEnd ∧ Rewound nc nc'

/-- The blob is full from its start to its end, and what is pending differs from what its
start has. -/
def Collides (nc : Netcom α) : Prop :=
  nc.rd2Off = 0 ∧ nc.wrOff = netcomRdbufferSize ∧ slice nc.blob 0 (nc.wrOff - nc.rd1Off) ≠ nc.pending

theorem makeRoom_rewind (h : TakesRewind nc) :
    netcomMakeRoom nc =
      .room (netcomRewind nc) (circSpaceToEnd (nc.wrOff - nc.rd1Off) nc.rd2Off netcomRdbufferSize) := by
  unfold netcomMakeRoom
  rw [if_neg (by simp [h.errorflag])]
  dsimp only
  rw [if_neg (Nat.ne_of_gt (Nat.lt_of_le_of_lt (Nat.zero_le _) h.space)), if_pos h.wrOff, if_pos h.space]

theorem rewindPreserves_iff (h : TakesRewind nc) :
    RewindPreserves nc ↔ ∀ i, Unread nc i → (netcomRewind nc).blob i = nc.blob i := by
  constructor
  · rintro ⟨nc', spaceToEnd, hr, hw⟩
    rw [makeRoom_rewind h] at hr
    cases hr
    exact hw.unread
  · intro hunread
    refine ⟨_, _, makeRoom_rewind h, hunread, ?_, rfl, rfl, rfl⟩
    exact slice_move nc.blob 0 nc.rd1Off _

/-- Where the rewind is taken, the pending bytes fit in front of `rd2_off`, or the blob is
full. -/
theorem pending_le_of_rewind (h : Leaves nc) (hrw : TakesRewind nc) :
    nc.wrOff - nc.rd1Off ≤ nc.rd2Off ∨ nc.rd2Off = 0 ∧ nc.wrOff = netcomRdbufferSize := by
  obtain ⟨⟨hle, hhi⟩, hpend⟩ := h
  obtain ⟨-, hw, hspace⟩ := hrw
  simp only [netcomRdbufferSize, l0006StreamMaxSize, netcomRdbufferForcerewindOffset, netcomRdbufferForcerewindSize,
    circSpace, circCnt, land_mask] at hhi hpend hw hspace ⊢
  omega

theorem rewind_unread_iff (h : Leaves nc) (h2 : nc.rd2Off ≤ nc.rd1Off) (hrw : TakesRewind nc) :
    (∀ i, Unread nc i → (netcomRewind nc).blob i = nc.blob i) ↔ ¬ Collides nc := by
  have hw := hrw.wrOff
  have hpend := h.pending
  simp only [netcomRdbufferForcerewindOffset, l0006StreamMaxSize] at hw hpend
  simp only [Unread, if_pos h2]
  constructor
  · rintro hunread ⟨h0, hfull, hne⟩
    -- All that is pending lands on unread bytes, so these were the same.
    apply hne
    have hsame : slice (netcomRewind nc).blob 0 (nc.wrOff - nc.rd1Off) = slice nc.blob 0 (nc.wrOff - nc.rd1Off) :=
      slice_congr fun i _ hi => hunread i ⟨by omega, by omega⟩
    exact hsame.symm.trans (slice_move nc.blob 0 nc.rd1Off _)
  · rintro hfree i ⟨hi, hi'⟩
    change move nc.blob 0 nc.rd1Off (nc.wrOff - nc.rd1Off) i = nc.blob i
    rcases pending_le_of_rewind h hrw with hle | ⟨h0, hfull⟩
    · exact move_after _ (by omega)
    · have hsame : slice nc.blob 0 (nc.wrOff - nc.rd1Off) = nc.pending :=
        Classical.not_not.1 fun hne => hfree ⟨h0, hfull, hne⟩
      by_cases hin : i < nc.wrOff - nc.rd1Off
      · have hbyte := congrArg (fun bytes => bytes[i]?) (hsame.trans (slice_move nc.blob 0 nc.rd1Off _).symm)
        simp only [getElem?_slice _ hin, Nat.zero_add, Option.some.injEq] at hbyte
        exact hbyte.symm
      · exact move_after _ (by omega)

/-- In every state of every run in which the rewind is taken with `rd2_off` behind
`rd1_off`, it preserves the data exactly if what it moves does not collide with what is
unread. -/
theorem rewind_preserves_iff [Inhabited α] (env : Env) (blob : Nat → UInt8) {is : List RdInput} {nc : Netcom α}
    (hrun : OkRun (rdStep env) Legal { (netcomAllocateBuffer : Netcom α) with blob := blob } is nc)
    (h2 : nc.rd2Off ≤ nc.rd1Off) (hrw : TakesRewind nc) : RewindPreserves nc ↔ ¬ Collides nc := by
  have hinit : Leaves { (netcomAllocateBuffer : Netcom α) with blob := blob } :=
    ⟨⟨Nat.le_refl 0, Nat.zero_le _⟩, Nat.zero_lt_succ _⟩
  have hleaves : Leaves nc := by
    refine exec_inv (fun s i t hs hi ht => ?_) hinit hrun.along hrun.exec
    refine rdStep_leaves hs ?_ ht
    rintro chunk rfl
    exact hi
  exact (rewindPreserves_iff hrw).trans (rewind_unread_iff hleaves h2 hrw)

/-- The consumer has read ten packets when the buffer is rewound. -/
theorem rewind_preserves_fullBlob :
    ∃ nc, exec (rdStep .still) (netcomAllocateBuffer : Netcom Unit) [.start, .readcb fullBlob, .consume 99400] = some nc ∧
      RewindPreserves nc := by
  obtain ⟨t, ht, h1, hw, h2, he⟩ := receive_fullBlob
  have hconsumes : Consumes t 99400 := by
    unfold Consumes
    rw [h1, h2, if_pos (by decide)]
    decide
  have hrun : OkRun (rdStep .still) Legal (netcomAllocateBuffer : Netcom Unit)
      [.start, .readcb fullBlob, .consume 99400] { t with rd2Off := 99400 } :=
    .cons trivial rfl (.cons plain_fullBlob.2 ht (.cons hconsumes rfl (.nil _)))
  have hspace : circSpace 3021760 99400 netcomRdbufferSize > 3021760 - 3021760 + netcomRdbufferForcerewindSize := by
    decide +kernel
  refine ⟨_, hrun.exec, (rewind_preserves_iff .still (fun _ => 0) hrun ?_ ⟨he, ?_, ?_⟩).2 ?_⟩
  · simp only [h1]
    decide
  · simp only [hw]
    decide
  · simpa only [h1, hw] using hspace
  · rintro ⟨h0, -⟩
    cases h0

/-! ## A full blob -/

/-- The offsets of a receiver with RX set and no error, in the order `rd1_off`, `rd2_off`,
`wr_off`, `rd1_end`. -/
structure At (nc : Netcom α) (a b w e : Nat) : Prop where
  rx : nc.rx = true
  errorflag : nc.errorflag = false
  rd1Off : nc.rd1Off = a
  rd2Off : nc.rd2Off = b
  wrOff : nc.wrOff = w
  rd1End : nc.rd1End = e

section At
variable {a b w e n : Nat} {nc nc' : Netcom α}

theorem At.consume (h : At nc a b w e) (rd2Off : Nat) : At { nc with rd2Off := rd2Off } a rd2Off w e :=
  ⟨h.rx, h.errorflag, h.rd1Off, rfl, h.wrOff, h.rd1End⟩

theorem At.consumes (h : At nc a b w e) {rd2Off : Nat}
    (hc : if b ≤ a then b ≤ rd2Off ∧ rd2Off ≤ a else (b ≤ rd2Off ∧ rd2Off ≤ e) ∨ (b = e ∧ rd2Off = 0)) :
    Legal nc (.consume rd2Off) ∧ SparesUnread nc (.consume rd2Off) := by
  refine ⟨?_, trivial⟩
  unfold Legal Consumes
  rw [h.rd1Off, h.rd2Off, h.rd1End]
  exact hc

theorem At.here (h : At nc a b w e) (hw : w ≤ netcomRdbufferForcerewindOffset)
    (hs : circSpace w b netcomRdbufferSize ≠ 0) :
    netcomMakeRoom nc = .room nc (circSpaceToEnd w b netcomRdbufferSize) := by
  obtain ⟨-, he, -, rfl, rfl, -⟩ := h
  unfold netcomMakeRoom
  rw [if_neg (by simp [he])]
  dsimp only
  rw [if_neg hs, if_neg (Nat.not_lt.2 hw)]

theorem At.leaves (h : At nc a b w e) (hle : a ≤ w) (hhi : w ≤ netcomRdbufferSize) (hp : w - a < l0006StreamMaxSize) :
    Leaves nc := by
  obtain ⟨-, -, rfl, -, rfl, -⟩ := h
  exact ⟨⟨hle, hhi⟩, hp⟩

/-- Two different headers, one at the start of the blob, one pending. -/
theorem At.collides (h : At nc a 0 netcomRdbufferSize e) (h8 : 8 ≤ a) (ha : a + 8 ≤ netcomRdbufferSize)
    (hne : nc.published.take 8 ≠ nc.pending.take 8) : Collides nc := by
  refine ⟨h.rd2Off, h.wrOff, fun hsame => hne ?_⟩
  have hpublished : nc.published.take 8 = slice nc.blob 0 8 := take_slice _ (by rw [h.rd1Off]; exact h8)
  have hmoved : (slice nc.blob 0 (nc.wrOff - nc.rd1Off)).take 8 = slice nc.blob 0 8 :=
    take_slice _ (by rw [h.rd1Off, h.wrOff]; omega)
  rw [hpublished, ← hmoved, hsame]

theorem At.takesRewind (h : At nc a b w e) (hw : w > netcomRdbufferForcerewindOffset)
    (hs : circSpace w b netcomRdbufferSize > w - a + netcomRdbufferForcerewindSize) : TakesRewind nc := by
  obtain ⟨-, he, rfl, rfl, rfl, -⟩ := h
  exact ⟨he, hw, hs⟩

theorem At.there (h : At nc a b w e) (hw : w > netcomRdbufferForcerewindOffset)
    (hs : circSpace w b netcomRdbufferSize > w - a + netcomRdbufferForcerewindSize) :
    netcomMakeRoom nc = .room (netcomRewind nc) (circSpaceToEnd (w - a) b netcomRdbufferSize) := by
  have hr := makeRoom_rewind (h.takesRewind hw hs)
  obtain ⟨-, -, rfl, rfl, rfl, -⟩ := h
  exact hr

theorem At.rewind (h : At nc a b w e) : At (netcomRewind nc) 0 b (w - a) a := by
  obtain ⟨hrx, he, rfl, hb, rfl, -⟩ := h
  exact ⟨hrx, he, rfl, hb, rfl, rfl⟩

/-- A read in front of `rd2_off`, or behind all that is unread. -/
theorem At.legal {chunk : List UInt8} (h : At nc' a b a e) (hr : netcomMakeRoom nc = .room nc' n)
    (hn : chunk.length ≤ n) (hfree : b ≤ a ∨ a + chunk.length ≤ b ∨ e ≤ b) :
    Legal nc (.readcb chunk) ∧ SparesUnread nc (.readcb chunk) := by
  obtain ⟨-, -, h1, h2, hw, hend⟩ := h
  unfold Legal Fits SparesUnread Unread
  simp only [hr, h1, h2, hw, hend]
  refine ⟨hn, fun i hi hi' hu => ?_⟩
  by_cases hba : b ≤ a
  · rw [if_pos hba] at hu
    omega
  · rw [if_neg hba] at hu
    omega

theorem length_addata {f : List UInt8} (h : WellFormed f) (hc : cmdOf f = l0006NetcmdAddata) : 20 ≤ f.length := by
  rcases h with ⟨-, hc', -⟩ | ⟨-, -, hl, h20, -⟩
  · exact absurd hc hc'
  · exact hl ▸ h20

theorem At.pending_nil (h : At nc a b a e) : nc.pending = [] :=
  List.eq_nil_of_length_eq_zero (by rw [length_pending, h.rd1Off, h.wrOff, Nat.sub_self])

/-- With the read, what is pending are stream packets and the start of another one. -/
theorem At.receive (env : Env) {fs : List (List UInt8)} {chunk part : List UInt8} (h : At nc' a b w e) (hle : a ≤ w)
    (hr : netcomMakeRoom nc = .room nc' n) (hcat : nc'.pending ++ chunk = fs.flatten ++ part)
    (hfs : ∀ f ∈ fs, WellFormed f ∧ cmdOf f = l0006NetcmdAddata) (hpart : Incomplete part) :
    ∃ (t : Netcom α) (evs : List (NetcomEv α)), netcomReadcb env nc chunk = some t ∧
      At t (a + fs.flatten.length) b (a + fs.flatten.length + part.length) e ∧ t.pending = part ∧
      evs.map NetcomEv.frame = (fs.map Frame.append).map some ∧
      t.published = nc'.published ++ evs.flatMap NetcomEv.stored := by
  have hle : nc'.rd1Off ≤ nc'.wrOff := by
    rw [h.rd1Off, h.wrOff]
    exact hle
  have hd := drains_frames nc'.rx (fun f hf => (hfs f hf).1) hpart
  rw [← hcat] at hd
  obtain ⟨t, ht, hp, ⟨evs, -, hm, hpub⟩, hk⟩ := room_drains env hr hle hd
  have hframes : fs.map (frameOf nc'.rx) = fs.map Frame.append := by
    apply List.map_congr_left
    intro f hf
    rw [frameOf, if_pos (hfs f hf).2, if_pos h.rx]
  rw [hframes] at hm
  have h1 : t.rd1Off = a + fs.flatten.length := by
    have hlen := congrArg List.length hpub
    have hstored : (evs.flatMap NetcomEv.stored).length = fs.flatten.length := by
      rw [length_stored hm, List.length_flatten, List.map_map]
      · rfl
      · intro packet hmem
        obtain ⟨f, hf, heq⟩ := List.mem_map.1 hmem
        cases heq
        exact Nat.le_trans (by decide) (length_addata (hfs packet hf).1 (hfs packet hf).2)
    rw [List.length_append, hstored, Netcom.published, Netcom.published, length_slice, length_slice, h.rd1Off] at hlen
    exact hlen
  have hw : t.wrOff = t.rd1Off + part.length := by
    have hlen := congrArg List.length hp
    have hle := hk.le
    rw [length_pending] at hlen
    omega
  exact ⟨t, evs, ht, ⟨hk.rx.trans h.rx, hk.errorflag.trans h.errorflag, h1, hk.rd2Off.trans h.rd2Off, by rw [hw, h1],
    hk.rd1End.trans h.rd1End⟩, hp, hm, hpub⟩

end At

/-- `n` packets of the maximal length. -/
def packets (n : Nat) : List (List UInt8) := List.replicate n (zeroPacket addataMaxHeader)

theorem length_packets (n : Nat) : (packets n).flatten.length = n * 9940 := by
  rw [packets, List.length_flatten, List.map_replicate, length_addataMax, List.sum_replicate_nat]

theorem addata_packets {n : Nat} {f : List UInt8} (hf : f ∈ packets n) :
    WellFormed f ∧ cmdOf f = l0006NetcmdAddata := by
  rw [List.eq_of_mem_replicate hf]
  exact ⟨wellFormed_addataMax, (cmdOf_append _ (by decide)).trans (by decide)⟩

/-- The header of a stream packet of 9000 bytes. -/
def addata9000Header : List UInt8 := [0xEF, 0xBE, 0x04, 0, 0x28, 0x23, 0x12, 0xFE]

/-- The start of a packet that ends with the blob. -/
def cutPacket : List UInt8 := (zeroPacket addata9000Header).take 4688

theorem length_cutPacket : cutPacket.length = 4688 := by
  rw [cutPacket, List.length_take, length_zeroPacket rfl (by decide)]
  decide

theorem incomplete_cutPacket : Incomplete cutPacket := by
  refine ⟨(zeroPacket addata9000Header).drop 4688, ?_, ?_⟩
  · rw [← List.length_pos_iff, List.length_drop, length_zeroPacket rfl (by decide)]
    decide
  · rw [cutPacket, List.take_append_drop]
    exact wellFormed_zeroPacket rfl (by decide +kernel) (by decide) (by decide) (by decide)

theorem incomplete_nil : Incomplete [] := by
  refine ⟨addata20, by decide, ?_⟩
  decide +kernel

theorem take_zeroPacket {header : List UInt8} (h8 : header.length = 8) : (zeroPacket header).take 8 = header := by
  rw [zeroPacket, ← h8, List.take_left]

theorem take_stored {evs : List (NetcomEv α)} {f : List UInt8} {fs : List (List UInt8)} (h8 : 8 ≤ f.length)
    (h : evs.map NetcomEv.frame = ((f :: fs).map Frame.append).map some) :
    (evs.flatMap NetcomEv.stored).take 8 = f.take 8 := by
  cases evs with
  | nil => cases h
  | cons ev evs =>
    injection h with hev _
    cases ev with
    | append packet tv =>
      cases hev
      rw [List.flatMap_cons, NetcomEv.stored, stamp, List.append_assoc, List.append_assoc,
        List.take_append_of_le_length (by simp [h8]), List.take_take, Nat.min_self]
    | lookup | drop | discard => cases hev

theorem take_published {nc t : Netcom α} {bs : List UInt8} (h8 : 8 ≤ nc.rd1Off)
    (h : t.published = nc.published ++ bs) : t.published.take 8 = nc.published.take 8 := by
  rw [h, List.take_append_of_le_length]
  rw [Netcom.published, length_slice]
  exact h8

/-- A step as the consumer and the socket make them, and none that overwrites what is
unread. -/
def LegalSparing (nc : Netcom Unit) (i : RdInput) : Prop := Legal nc i ∧ SparesUnread nc i

section Reads
variable {nc nc' : Netcom Unit} {a b e n : Nat} {part : List UInt8}

/-- A read of packets of the maximal length. -/
theorem At.read (h : At nc' a b a e) (k : Nat) (hr : netcomMakeRoom nc = .room nc' n) (hpart : Incomplete part)
    (hn : k * 9940 + part.length ≤ n) (hfree : b ≤ a ∨ a + (k * 9940 + part.length) ≤ b ∨ e ≤ b) :
    LegalSparing nc (.readcb ((packets k).flatten ++ part)) ∧ ∃ (t : Netcom Unit) (evs : List (NetcomEv Unit)),
      rdStep .still nc (.readcb ((packets k).flatten ++ part)) = some t ∧
        At t (a + k * 9940) b (a + k * 9940 + part.length) e ∧ t.pending = part ∧
        evs.map NetcomEv.frame = ((packets k).map Frame.append).map some ∧
        t.published = nc'.published ++ evs.flatMap NetcomEv.stored := by
  have hlen : ((packets k).flatten ++ part).length = k * 9940 + part.length := by
    rw [List.length_append, length_packets]
  have hcat : nc'.pending ++ ((packets k).flatten ++ part) = (packets k).flatten ++ part := by
    rw [h.pending_nil, List.nil_append]
  have hrecv := h.receive .still (Nat.le_refl a) hr hcat (fun _ => addata_packets (n := k)) hpart
  rw [length_packets] at hrecv
  exact ⟨h.legal hr (hlen ▸ hn) (hlen ▸ hfree), hrecv⟩

/-- The consumer moves on, and so does the producer. -/
theorem At.round (h : At nc a b a e) (rd2Off k : Nat) (hpart : Incomplete part)
    (hc : if b ≤ a then b ≤ rd2Off ∧ rd2Off ≤ a else (b ≤ rd2Off ∧ rd2Off ≤ e) ∨ (b = e ∧ rd2Off = 0))
    (hw : 8 ≤ a ∧ a ≤ netcomRdbufferForcerewindOffset) (hs : circSpace a rd2Off netcomRdbufferSize ≠ 0)
    (hn : k * 9940 + part.length ≤ circSpaceToEnd a rd2Off netcomRdbufferSize)
    (hfree : rd2Off ≤ a ∨ a + (k * 9940 + part.length) ≤ rd2Off ∨ e ≤ rd2Off) :
    ∃ t, At t (a + k * 9940) rd2Off (a + k * 9940 + part.length) e ∧ t.pending = part ∧
      t.published.take 8 = nc.published.take 8 ∧ ∀ is u, OkRun (rdStep .still) LegalSparing t is u →
        OkRun (rdStep .still) LegalSparing nc
          (.consume rd2Off :: .readcb ((packets k).flatten ++ part) :: is) u := by
  have hcons := h.consume rd2Off
  obtain ⟨hok, t, evs, ht, hat, hp, -, hpub⟩ := hcons.read k (hcons.here hw.2 hs) hpart hn hfree
  refine ⟨t, hat, hp, take_published (h.rd1Off ▸ hw.1) hpub, ?_⟩
  intro is u hrun
  exact .cons (h.consumes hc) rfl (.cons hok ht hrun)

/-- All the packets of a read are published behind each other from the start on. -/
theorem At.fill (h : At nc 0 0 0 0) :
    ∃ t, At t 3141060 0 3141060 0 ∧ ∀ is u, OkRun (rdStep .still) LegalSparing t is u →
      OkRun (rdStep .still) LegalSparing nc (.readcb ((packets 316 ++ [addata20]).flatten ++ []) :: is) u := by
  have hlen : (packets 316 ++ [addata20]).flatten.length = 3141060 := by
    rw [List.flatten_append, List.length_append, length_packets]
    decide
  have hfs : ∀ f ∈ packets 316 ++ [addata20], WellFormed f ∧ cmdOf f = l0006NetcmdAddata := by
    intro f hf
    rcases List.mem_append.1 hf with hf | hf
    · exact addata_packets hf
    · rw [List.mem_singleton.1 hf]
      decide +kernel
  have hroom := h.here (by decide) (by decide +kernel)
  have hok : LegalSparing nc (.readcb ((packets 316 ++ [addata20]).flatten ++ [])) :=
    h.legal hroom (by rw [List.append_nil, hlen]; decide +kernel) (.inl (Nat.le_refl 0))
  have hcat : nc.pending ++ ((packets 316 ++ [addata20]).flatten ++ []) = (packets 316 ++ [addata20]).flatten ++ [] := by
    rw [h.pending_nil, List.nil_append]
  obtain ⟨t, -, ht, hat, -⟩ := h.receive .still (Nat.le_refl 0) hroom hcat hfs incomplete_nil
  rw [hlen] at hat
  exact ⟨t, hat, fun is u hrun => .cons hok ht hrun⟩

/-- The consumer has read 105 packets when the buffer is rewound. -/
theorem At.wrap (h : At nc 3141060 0 3141060 0) :
    ∃ t, At t 1033760 1043700 1033760 3141060 ∧ t.published.take 8 = addataMaxHeader ∧
      ∀ is u, OkRun (rdStep .still) LegalSparing t is u →
        OkRun (rdStep .still) LegalSparing nc (.consume 1043700 :: .readcb ((packets 104).flatten ++ []) :: is) u := by
  have hcons : At { nc with rd2Off := 1043700 } 3141060 1043700 3141060 0 := h.consume 1043700
  have hroom := hcons.there (by decide) (by decide +kernel)
  obtain ⟨hok, t, evs, ht, hat, -, hevs, hpub⟩ :=
    hcons.rewind.read 104 hroom incomplete_nil (by decide +kernel) (by decide)
  refine ⟨t, hat, ?_, fun is u hrun => .cons (h.consumes (by decide)) rfl (.cons hok ht hrun)⟩
  rw [packets, List.replicate_succ] at hevs
  have hfirst := take_stored (by rw [length_addataMax]; decide) hevs
  rw [take_zeroPacket rfl] at hfirst
  rw [hpub]
  exact hfirst

end Reads

/-- The consumer stays at `rd1_end` until the producer is at the end of the blob, and goes
back to 0 only then. -/
def fullRun : List RdInput :=
  [.start, .readcb ((packets 316 ++ [addata20]).flatten ++ []), .consume 1043700,
    .readcb ((packets 104).flatten ++ []), .consume 2077460, .readcb ((packets 104).flatten ++ []), .consume 3111220,
    .readcb ((packets 95).flatten ++ []), .consume 3141060, .readcb ((packets 13).flatten ++ cutPacket), .consume 0]

/-- The rewind moves what is pending over the first unread packet. -/
theorem rewind_overwrites :
    ∃ nc, OkRun (rdStep .still) LegalSparing (netcomAllocateBuffer : Netcom Unit) fullRun nc ∧
      nc.rd2Off ≤ nc.rd1Off ∧ TakesRewind nc ∧ ¬ RewindPreserves nc := by
  have hat0 : At (l0006NetcomStart (netcomAllocateBuffer : Netcom Unit)) 0 0 0 0 := ⟨rfl, rfl, rfl, rfl, rfl, rfl⟩
  obtain ⟨t1, hat1, hrun1⟩ := hat0.fill
  obtain ⟨t2, hat2, hhead2, hrun2⟩ := hat1.wrap
  -- From here on the producer follows the consumer.
  obtain ⟨t3, hat3, -, hhead3, hrun3⟩ :=
    hat2.round 2077460 104 incomplete_nil (by decide) (by decide) (by decide +kernel) (by decide +kernel) (by decide)
  have hat3 : At t3 2067520 2077460 2067520 3141060 := hat3
  obtain ⟨t4, hat4, -, hhead4, hrun4⟩ :=
    hat3.round 3111220 95 incomplete_nil (by decide) (by decide) (by decide +kernel) (by decide +kernel) (by decide)
  have hat4 : At t4 3011820 3111220 3011820 3141060 := hat4
  obtain ⟨t5, hat5, hp5, hhead5, hrun5⟩ := hat4.round 3141060 13 incomplete_cutPacket (by decide) (by decide)
    (by decide +kernel) (by rw [length_cutPacket]; decide +kernel) (.inr (.inr (Nat.le_refl _)))
  rw [length_cutPacket] at hat5
  have hat5 : At t5 3141040 3141060 3145728 3141060 := hat5
  -- Only now does the consumer go back, with `wr_off` at the end.
  have hat : At { t5 with rd2Off := 0 } 3141040 0 3145728 3141060 := hat5.consume 0
  have hlast : OkRun (rdStep .still) LegalSparing t5 [.consume 0] { t5 with rd2Off := 0 } :=
    .cons (hat5.consumes (by decide)) rfl (.nil _)
  have hrun := hrun1 _ _ (hrun2 _ _ (hrun3 _ _ (hrun4 _ _ (hrun5 _ _ hlast))))
  have hrw : TakesRewind { t5 with rd2Off := 0 } := hat.takesRewind (by decide) (by decide +kernel)
  refine ⟨{ t5 with rd2Off := 0 }, .cons ⟨trivial, trivial⟩ rfl hrun, Nat.zero_le _, hrw, ?_⟩
  have hleaves := hat.leaves (by decide) (by decide) (by decide)
  rw [rewindPreserves_iff hrw, rewind_unread_iff hleaves (Nat.zero_le _) hrw, Classical.not_not]
  apply hat.collides (by decide) (by decide)
  have hhead : t5.published.take 8 = addataMaxHeader := hhead5.trans (hhead4.trans (hhead3.trans hhead2))
  have hpending : t5.pending.take 8 = addata9000Header := by
    rw [hp5, cutPacket, List.take_take, Nat.min_eq_left (by decide), take_zeroPacket rfl]
  change t5.published.take 8 ≠ t5.pending.take 8
  rw [hhead, hpending]
  decide

/-! ## A consumer that goes back in time -/

/-- The consumer goes back to the start while there is room at the end. -/
def BacksInTime (nc : Netcom α) : RdInput → Prop
  | .consume rd2Off => rd2Off = 0 → nc.rd2Off = 0 ∨ nc.wrOff < netcomRdbufferSize
  | .readcb _ | .start | .stop => True

/-- With `rd2_off` at 0 the last byte is free. -/
structure EndFree (nc : Netcom α) : Prop where
  leaves : Leaves nc
  free : nc.rd2Off = 0 → nc.wrOff < netcomRdbufferSize

theorem makeRoom_free (h : EndFree nc) : match netcomMakeRoom nc with
    | .returned nc' | .room nc' _ => nc'.rd2Off = 0 → nc'.wrOff < netcomRdbufferSize := by
  have hready := ready_of nc
  generalize netcomMakeRoom nc = room at hready ⊢
  cases hready with
  | reset => exact fun _ => Nat.zero_lt_succ _
  | drop => exact fun h0 => Nat.lt_of_le_of_lt h.leaves.offsets.le (h.free h0)
  | here => exact h.free
  | rewind => exact fun _ => Nat.lt_trans h.leaves.pending (by decide)

theorem readcb_free {chunk : List UInt8} {t : Netcom α} (h : EndFree nc) (hf : Fits nc chunk)
    (ht : netcomReadcb env nc chunk = some t) (h0 : t.rd2Off = 0) : t.wrOff < netcomRdbufferSize := by
  have hfree := makeRoom_free h
  unfold netcomReadcb at ht
  unfold Fits at hf
  cases hr : netcomMakeRoom nc with
  | returned nc' =>
    rw [hr] at ht hfree
    cases ht
    exact hfree h0
  | room nc' spaceToEnd =>
    obtain ⟨h', rfl⟩ := offsets_room h.leaves.offsets hr
    simp only [hr] at hf ht hfree
    have hk := (loop_keeps (offsets_receive h' hf).le ht).1
    have h2 : nc'.rd2Off = 0 := hk.rd2Off.symm.trans h0
    have hlt : circSpaceToEnd nc'.wrOff 0 0x300000 < 0x300000 - nc'.wrOff := circSpaceToEnd_zero_lt (hfree h2)
    have hhi : t.wrOff ≤ nc'.wrOff + chunk.length := hk.hi
    rw [h2] at hf
    simp only [netcomRdbufferSize] at *
    omega

theorem rdStep_free (s : Netcom α) (i : RdInput) (t : Netcom α) (h : EndFree s) (hi : Legal s i ∧ BacksInTime s i)
    (ht : rdStep env s i = some t) : EndFree t := by
  have hleaves : Leaves t := by
    refine rdStep_leaves h.leaves ?_ ht
    rintro chunk rfl
    exact hi.1
  refine ⟨hleaves, ?_⟩
  cases i with
  | readcb chunk => exact readcb_free h hi.1 ht
  | start =>
    cases ht
    exact h.free
  | stop =>
    cases ht
    intro h0
    have hpend := h.leaves.pending
    simp only [l0006NetcomStop, l0006StreamMaxSize, netcomRdbufferSize] at *
    omega
  | consume rd2Off =>
    cases ht
    intro h0
    rcases hi.2 h0 with h0 | hlt
    · exact h.free h0
    · exact hlt

/-- If the consumer never goes back to the start with `wr_off` at the end, the blob is
never full when it is rewound, and nothing unread is lost. -/
theorem run_rewind_preserves [Inhabited α] (env : Env) (blob : Nat → UInt8) {is : List RdInput} {nc : Netcom α}
    (hrun : OkRun (rdStep env) (fun nc i => Legal nc i ∧ BacksInTime nc i)
      { (netcomAllocateBuffer : Netcom α) with blob := blob } is nc)
    (h2 : nc.rd2Off ≤ nc.rd1Off) (hrw : TakesRewind nc) : RewindPreserves nc := by
  have hinit : EndFree { (netcomAllocateBuffer : Netcom α) with blob := blob } :=
    ⟨⟨⟨Nat.le_refl 0, Nat.zero_le _⟩, Nat.zero_lt_succ _⟩, fun _ => Nat.zero_lt_succ _⟩
  have hend : EndFree nc := exec_inv rdStep_free hinit hrun.along hrun.exec
  rw [rewindPreserves_iff hrw, rewind_unread_iff hend.leaves h2 hrw]
  rintro ⟨h0, hfull, -⟩
  exact absurd hfull (Nat.ne_of_lt (hend.free h0))

/-- The consumer takes all that is there, goes back to the start when the buffer has been
rewound, and has read ten packets when it is to be rewound again. -/
def backRun : List RdInput :=
  [.start, .readcb ((packets 304).flatten ++ []), .consume 3021760, .readcb ((packets 0).flatten ++ []), .consume 0,
    .readcb ((packets 304).flatten ++ []), .consume 99400]

theorem run_rewind_preserves_back :
    ∃ nc, OkRun (rdStep .still) (fun nc i => Legal nc i ∧ BacksInTime nc i) (netcomAllocateBuffer : Netcom Unit)
      backRun nc ∧ RewindPreserves nc := by
  have hat0 : At (l0006NetcomStart (netcomAllocateBuffer : Netcom Unit)) 0 0 0 0 := ⟨rfl, rfl, rfl, rfl, rfl, rfl⟩
  obtain ⟨hok1, t1, -, ht1, hat1, -⟩ := hat0.read 304 (hat0.here (by decide) (by decide +kernel)) incomplete_nil
    (by decide +kernel) (.inl (Nat.le_refl 0))
  have hat1 : At t1 3021760 0 3021760 0 := hat1
  have hcons1 := hat1.consume 3021760
  obtain ⟨hok2, t2, -, ht2, hat2, -⟩ := hcons1.rewind.read 0 (hcons1.there (by decide) (by decide +kernel)) incomplete_nil
    (by decide +kernel) (by decide)
  have hat2 : At t2 0 3021760 0 3021760 := hat2
  have hcons2 := hat2.consume 0
  obtain ⟨hok3, t3, -, ht3, hat3, -⟩ := hcons2.read 304 (hcons2.here (by decide) (by decide +kernel)) incomplete_nil
    (by decide +kernel) (.inl (Nat.le_refl 0))
  have hat3 : At t3 3021760 0 3021760 3021760 := hat3
  have hat := hat3.consume 99400
  have hearly : t2.wrOff < netcomRdbufferSize := by
    rw [hat2.wrOff]
    decide
  have hrun : OkRun (rdStep .still) (fun nc i => Legal nc i ∧ BacksInTime nc i) (netcomAllocateBuffer : Netcom Unit)
      backRun { t3 with rd2Off := 99400 } :=
    .cons ⟨trivial, trivial⟩ rfl (.cons ⟨hok1.1, trivial⟩ ht1 (.cons ⟨(hat1.consumes (by decide)).1, nofun⟩ rfl
      (.cons ⟨hok2.1, trivial⟩ ht2 (.cons ⟨(hat2.consumes (by decide)).1, fun _ => .inr hearly⟩ rfl
        (.cons ⟨hok3.1, trivial⟩ ht3 (.cons ⟨(hat3.consumes (by decide)).1, nofun⟩ rfl (.nil _)))))))
  have hle : (99400 : Nat) ≤ t3.rd1Off := by
    rw [hat3.rd1Off]
    decide
  exact ⟨_, hrun, run_rewind_preserves .still (fun _ => 0) hrun hle (hat.takesRewind (by decide) (by decide +kernel))⟩

end CmdAgent

import CmdAgent.Isolation
import CmdAgent.Netcmd
import CmdAgent.StreamLib.Framing
/-!
# Clients that share a device

`serclt_recvdata` passes on all it has buffered, whole frames or not, and the blocks
of all clients go to the output of one device. The runs here are those in which a
block is added only where the output does not end inside a frame of another client.
-/
open StreamLib.Mem StreamLib.Loop StreamLib.Runs StreamLib.Reads StreamLib.Framing

namespace CmdAgent

/-! ## Command frames -/

/-- A `struct cmd_packet`, with `SAVECONF` a `struct l0006_netcmd_ex_packet`. -/
def CmdFrame (f : List UInt8) : Prop :=
  f.length = if cmdOf f = l0006NetcmdSaveconf then l0006NetcmdExHeaderSize else l0006NetcmdHeaderSize

instance (f : List UInt8) : Decidable (CmdFrame f) := inferInstanceAs (Decidable (_ = _))

section
variable {β : Type} (byte : β → UInt8)

/-- The frame at the front of what is there; `cmd` is the third byte. -/
def cmdNext (p : List β) : Verdict (List β) :=
  match p[2]? with
  | none => .more
  | some b =>
    let n := if byte b = l0006NetcmdSaveconf then l0006NetcmdExHeaderSize else l0006NetcmdHeaderSize
    if n ≤ p.length then .unit n (p.take n) else .more

theorem cmdNext_unit {p : List β} {n : Nat} {o : List β} (h : cmdNext byte p = .unit n o) :
    (n = 8 ∨ n = 64) ∧ n ≤ p.length ∧ o = p.take n ∧ ∃ b, p[2]? = some b ∧
      n = if byte b = l0006NetcmdSaveconf then 64 else 8 := by
  unfold cmdNext at h
  cases hb : p[2]? with
  | none =>
    rw [hb] at h
    cases h
  | some b =>
    simp only [hb, l0006NetcmdExHeaderSize, l0006NetcmdHeaderSize] at h
    generalize hk : (if byte b = l0006NetcmdSaveconf then 64 else 8) = k at h
    by_cases hle : k ≤ p.length
    · rw [if_pos hle] at h
      cases h
      refine ⟨?_, hle, rfl, b, rfl, hk.symm⟩
      rw [← hk]
      split
      · exact .inr rfl
      · exact .inl rfl
    · rw [if_neg hle] at h
      cases h

theorem cmdNext_append {p : List β} (q : List β) (h : cmdNext byte p ≠ .more) :
    cmdNext byte (p ++ q) = cmdNext byte p := by
  unfold cmdNext at h ⊢
  cases hb : p[2]? with
  | none => simp [hb] at h
  | some b =>
    have hlt : 2 < p.length := (List.getElem?_eq_some_iff.1 hb).1
    simp only [hb] at h ⊢
    rw [List.getElem?_append_left hlt, hb]
    dsimp only
    generalize (if byte b = l0006NetcmdSaveconf then l0006NetcmdExHeaderSize else l0006NetcmdHeaderSize) = n at h ⊢
    have hle : n ≤ p.length := Nat.le_of_not_lt fun hlt => h (if_neg (Nat.not_le.2 hlt))
    rw [if_pos hle, if_pos (by rw [List.length_append]; omega), List.take_append_of_le_length hle]

/-- The frames in a stream of bytes, tagged or not. -/
def cmdFramer : Framer β (List β) where
  next := cmdNext byte
  unit_pos h := by
    obtain ⟨hn, hle, -⟩ := cmdNext_unit byte h
    exact ⟨by omega, hle⟩
  next_append := cmdNext_append byte

theorem cmdNext_frame {p : List β} (h : CmdFrame (p.map byte)) : (cmdFramer byte).next p = .unit p.length p := by
  unfold CmdFrame at h
  rw [List.length_map] at h
  have h8 : 8 ≤ p.length := by
    rw [h]
    split <;> decide
  have hb : p[2]? = some p[2] := List.getElem?_eq_getElem (by omega)
  have hcmd : cmdOf (p.map byte) = byte p[2] := by
    simp [cmdOf, L0006NetcmdPacket.ofBytes, List.getD_eq_getElem?_getD, hb]
  rw [hcmd] at h
  simp only [cmdFramer, cmdNext, hb]
  rw [← h, if_pos (Nat.le_refl _), List.take_length]

/-- A part of a frame needs more. -/
theorem cmdNext_part {p f : List β} (h : CmdFrame (f.map byte)) (hp : p <+: f) (hne : p ≠ f) :
    (cmdFramer byte).next p = .more := by
  obtain ⟨q, rfl⟩ := hp
  refine Framer.next_prefix (cmdNext_frame byte h) ?_
  rintro rfl
  exact hne (List.append_nil p).symm

end

/-! ## Outputs -/

/-- Bytes with the client they come from. -/
def owned (c : Int) (bs : List UInt8) : List (Int × UInt8) := bs.map fun b => (c, b)

def tagged (blocks : List (Int × List UInt8)) : List (Int × UInt8) := blocks.flatMap fun block => owned block.1 block.2

/-- What the clients sent is there in whole frames, and behind them stands at most the
start of one more. -/
def Woven (frames : Int → List (List UInt8)) (output : List (Int × List UInt8)) : Prop :=
  ∃ (whole : List (Int × List UInt8)) (c : Int) (part : List UInt8),
    tagged output = tagged whole ++ owned c part ∧ (∀ f ∈ whole, f.2 ∈ frames f.1) ∧
      (part = [] ∨ ∃ f ∈ frames c, part <+: f ∧ part ≠ f)

/-- Behind the whole frames of `output`, `output'` goes on with one frame, or as much of
it as there is. -/
def Continues (frames : Int → List (List UInt8)) (output output' : List (Int × List UInt8)) : Prop :=
  ∀ whole c part, tagged output = tagged whole ++ owned c part → (∀ f ∈ whole, f.2 ∈ frames f.1) →
    (∃ f ∈ frames c, part <+: f ∧ part ≠ f) → part ≠ [] →
      ∃ f rest, f ∈ frames c ∧ tagged output' = tagged whole ++ rest ∧ (rest <+: owned c f ∨ owned c f <+: rest)

/-- The part of a frame that bytes end with. -/
def openPart (bytes : List UInt8) : List UInt8 := (cmdFramer id).rest bytes

@[simp] theorem owned_append (c : Int) (bs bs' : List UInt8) : owned c (bs ++ bs') = owned c bs ++ owned c bs' :=
  List.map_append

@[simp] theorem tagged_append (blocks blocks' : List (Int × List UInt8)) :
    tagged (blocks ++ blocks') = tagged blocks ++ tagged blocks' := List.flatMap_append

@[simp] theorem tagged_singleton (c : Int) (bs : List UInt8) : tagged [(c, bs)] = owned c bs := by simp [tagged]

theorem owned_flatten (c : Int) (fs : List (List UInt8)) : owned c fs.flatten = tagged (fs.map fun f => (c, f)) := by
  induction fs with
  | nil => rfl
  | cons f fs ih =>
    rw [List.flatten_cons, owned_append, ih]
    rfl

@[simp] theorem bytesFor_owned (c c' : Int) (bs : List UInt8) :
    bytesFor c (owned c' bs) = if c' = c then bs else [] := by
  have howner : ∀ p ∈ owned c' bs, p.1 = c' := by simp [owned]
  rw [bytesFor_of_owner howner]
  simp [owned, Function.comp_def]

theorem bytesFor_tagged (c : Int) (blocks : List (Int × List UInt8)) :
    bytesFor c (tagged blocks) = ((blocks.filter fun block => block.1 = c).map Prod.snd).flatten := by
  induction blocks with
  | nil => rfl
  | cons block blocks ih =>
    rw [tagged, List.flatMap_cons, bytesFor_append, bytesFor_owned, ← tagged, ih, List.filter_cons]
    by_cases hc : block.1 = c <;> simp [hc]

@[simp] theorem map_snd_owned (c : Int) (bs : List UInt8) : (owned c bs).map Prod.snd = bs := by
  simp [owned, Function.comp_def]

theorem owned_isPrefix {c : Int} {bs bs' : List UInt8} (h : bs <+: bs') : owned c bs <+: owned c bs' :=
  h.map _

theorem owner_of_mem {c c' : Int} {b : UInt8} {bs : List UInt8} (h : (c, b) ∈ owned c' bs) : c' = c := by
  obtain ⟨b', -, he⟩ := List.mem_map.1 h
  exact congrArg Prod.fst he

/-- Frames and a part of one more drain to just that part. -/
theorem openPart_frames {fs : List (List UInt8)} {part : List UInt8} (hfs : ∀ f ∈ fs, CmdFrame f)
    (hpart : part = [] ∨ ∃ f, CmdFrame f ∧ part <+: f ∧ part ≠ f) : openPart (fs.flatten ++ part) = part := by
  have hmore : (cmdFramer (id : UInt8 → UInt8)).next part = .more := by
    rcases hpart with rfl | ⟨f, hf, hp, hne⟩
    · rfl
    · exact cmdNext_part id (by rwa [List.map_id]) hp hne
  have hunits : ∀ f ∈ fs, (cmdFramer (id : UInt8 → UInt8)).next (id f) = .unit (id f).length (id f) := by
    intro f hf
    refine cmdNext_frame id ?_
    rw [List.map_id]
    exact hfs f hf
  have hdrains := Drains.units id id hunits (.more hmore)
  rw [List.map_id] at hdrains
  exact hdrains.rest_eq

section
variable {frames : Int → List (List UInt8)} (hframes : ∀ c, ∀ f ∈ frames c, CmdFrame f)
  {whole : List (Int × List UInt8)} {c : Int} {part : List UInt8} (hwhole : ∀ f ∈ whole, f.2 ∈ frames f.1)
  (hpart : part = [] ∨ ∃ f ∈ frames c, part <+: f ∧ part ≠ f)
include hframes hwhole hpart

/-- Taking frames off an output that is in order, whoever owns them. -/
theorem drains_woven : Drains (cmdFramer Prod.snd) (tagged whole ++ owned c part)
    (whole.map fun f => owned f.1 f.2) (owned c part) := by
  have hmore : (cmdFramer Prod.snd).next (owned c part) = .more := by
    rcases hpart with rfl | ⟨f, hf, hp, hne⟩
    · rfl
    · refine cmdNext_part Prod.snd (f := owned c f) ?_ (owned_isPrefix hp) ?_
      · rw [map_snd_owned]
        exact hframes c f hf
      · intro he
        have h := congrArg (List.map Prod.snd) he
        rw [map_snd_owned, map_snd_owned] at h
        exact hne h
  have hunits : ∀ f ∈ whole, (cmdFramer Prod.snd).next (owned f.1 f.2) =
      .unit (owned f.1 f.2).length (owned f.1 f.2) := by
    intro f hf
    refine cmdNext_frame Prod.snd ?_
    rw [map_snd_owned]
    exact hframes f.1 f.2 (hwhole f hf)
  have hdrains := Drains.units (fun f : Int × List UInt8 => owned f.1 f.2) (fun f => owned f.1 f.2) hunits (.more hmore)
  rw [List.append_nil] at hdrains
  rwa [tagged, List.flatMap_def]

/-- Only the bytes of one client end inside a frame. -/
theorem openPart_bytesFor (c' : Int) :
    openPart (bytesFor c' (tagged whole ++ owned c part)) = if c = c' then part else [] := by
  rw [bytesFor_append, bytesFor_tagged, bytesFor_owned]
  refine openPart_frames ?_ ?_
  · intro f hf
    obtain ⟨block, hb, rfl⟩ := List.mem_map.1 hf
    exact hframes block.1 block.2 (hwhole block (List.mem_of_mem_filter hb))
  · by_cases hc : c = c'
    · rw [if_pos hc]
      exact hpart.imp_right fun ⟨f, hf, h⟩ => ⟨f, hframes c f hf, h⟩
    · rw [if_neg hc]
      exact .inl rfl

end

theorem woven_nil (frames : Int → List (List UInt8)) : Woven frames [] :=
  ⟨[], 0, [], rfl, by simp, .inl rfl⟩

section
variable {frames : Int → List (List UInt8)} (hframes : ∀ c, ∀ f ∈ frames c, CmdFrame f)
  {output : List (Int × List UInt8)}
include hframes

/-- A client's block goes where the output does not end inside a frame of another
client, and where it goes on with the client's own. `handed` is what the client has
sent before. -/
theorem Woven.add (h : Woven frames output) {c : Int} {handed block : List UInt8}
    (hsent : handed ++ block <+: (frames c).flatten)
    (hothers : ∀ other ∈ output, other.1 ≠ c → openPart (bytesFor other.1 (tagged output)) = [])
    (hown : openPart handed = openPart (bytesFor c (tagged output))) : Woven frames (output ++ [(c, block)]) := by
  obtain ⟨whole, c', part, hout, hwhole, hpart⟩ := h
  have hopen := openPart_bytesFor hframes hwhole hpart
  -- What is open belongs to `c`.
  have htail : tagged output = tagged whole ++ owned c (openPart handed) := by
    rw [hown, hout, hopen]
    by_cases hc : c' = c
    · rw [if_pos hc, hc]
    · rw [if_neg hc]
      by_cases hnil : part = []
      · rw [hnil]
        rfl
      obtain ⟨b, hb⟩ := List.exists_mem_of_ne_nil part hnil
      have hmem : (c', b) ∈ tagged output := by
        rw [hout]
        exact List.mem_append_right _ (List.mem_map_of_mem hb)
      obtain ⟨other, ho, hb'⟩ := List.mem_flatMap.1 hmem
      have hoc : other.1 = c' := owner_of_mem hb'
      have hnone := hothers other ho (hoc ▸ hc)
      rw [hout, hopen, if_pos hoc.symm] at hnone
      exact absurd hnone hnil
  -- The client's stream, cut before and behind the block.
  obtain ⟨gs, hs, y, hfs, hy, hypart⟩ := cut_prefix ((List.prefix_append handed block).trans hsent)
  have hcmd : ∀ f ∈ gs ++ hs, CmdFrame f := fun f hf => hframes c f (hfs ▸ hf)
  have hyo : openPart handed = y := by
    rw [hy]
    refine openPart_frames (fun f hf => hcmd f (List.mem_append_left _ hf)) ?_
    exact hypart.imp_right fun ⟨f, hf, h⟩ => ⟨f, hcmd f (List.mem_append_right _ hf), h⟩
  have hnext : y ++ block <+: hs.flatten := by
    rw [hfs, List.flatten_append, hy, List.append_assoc] at hsent
    exact (List.prefix_append_right_inj _).1 hsent
  obtain ⟨gs', hs', y', rfl, hy', hypart'⟩ := cut_prefix hnext
  refine ⟨whole ++ gs'.map (fun f => (c, f)), c, y', ?_, ?_, ?_⟩
  · rw [tagged_append, tagged_singleton, htail, hyo, List.append_assoc, ← owned_append, hy', owned_append,
      owned_flatten, tagged_append, List.append_assoc]
  · intro f hf
    rcases List.mem_append.1 hf with hf | hf
    · exact hwhole f hf
    · obtain ⟨g, hg, rfl⟩ := List.mem_map.1 hf
      rw [hfs]
      exact List.mem_append_right _ (List.mem_append_left _ hg)
  · refine hypart'.imp_right fun ⟨f, hf, h⟩ => ⟨f, ?_, h⟩
    rw [hfs]
    exact List.mem_append_right _ (List.mem_append_right _ hf)

/-- In an output that is in order the next bytes go on with the frame that is open. -/
theorem Woven.continues {more : List (Int × List UInt8)} (h : Woven frames (output ++ more)) :
    Continues frames output (output ++ more) := by
  intro whole c part hout hwhole hpart hne
  obtain ⟨whole', c', part', hout', hwhole', hpart'⟩ := h
  have hd := drains_woven hframes hwhole' hpart'
  rw [← hout', tagged_append] at hd
  obtain ⟨os₁, r₁, os₂, h₁, h₂, hos⟩ := hd.split
  rw [hout] at h₁
  obtain ⟨rfl, rfl⟩ := h₁.det (drains_woven hframes hwhole (.inr hpart))
  have hall : tagged (output ++ more) = tagged whole ++ (owned c part ++ tagged more) := by
    rw [tagged_append, hout, List.append_assoc]
  obtain ⟨b, bs, rfl⟩ := List.exists_cons_of_ne_nil hne
  have hfirst : (c, b) ∈ owned c (b :: bs) := List.mem_cons_self
  generalize hrest : owned c (b :: bs) ++ tagged more = rest at h₂ hall
  generalize hr : owned c' part' = r at h₂
  cases h₂ with
  | more =>
    -- Nothing is completed: all of `rest` is the part that is open in the end.
    have hlast : (c, b) ∈ owned c' part' := by
      rw [hr, ← hrest]
      exact List.mem_append_left _ hfirst
    have hc : c' = c := owner_of_mem hlast
    have hne' : part' ≠ [] := by
      rintro rfl
      rw [← hr] at hrest
      cases hrest
    obtain ⟨f, hf, hp, -⟩ := hpart'.resolve_left hne'
    rw [hc] at hf hr
    exact ⟨f, rest, hf, hall, .inl (hr ▸ owned_isPrefix hp)⟩
  | @unit _ _ n o os hn =>
    obtain ⟨hsize, -, rfl, -⟩ := cmdNext_unit Prod.snd hn
    -- The first frame completed starts with the part that is open.
    obtain ⟨f, hf, ho⟩ := List.mem_map.1 (hos ▸ List.mem_append_right _ List.mem_cons_self)
    have hmem : (c, b) ∈ rest.take n := by
      obtain ⟨k, rfl⟩ := Nat.exists_eq_add_of_le' (show 1 ≤ n by omega)
      rw [← hrest]
      exact List.mem_cons_self
    have hc : f.1 = c := owner_of_mem (by rw [ho]; exact hmem)
    rw [hc] at ho
    refine ⟨f.2, rest, hc ▸ hwhole' f hf, hall, .inr ?_⟩
    rw [ho]
    exact List.take_prefix n rest

end

/-! ## Clients -/

/-- A client that has sent `bytes`, the start of its init packet `p` and its frames. -/
inductive ClientStage (c : Int) (p : InitPacket) (bytes : List UInt8) (u : SercltInfo) : Prop
  | fresh : Offsets u → u.nsocket = c → u.log = [] → u.pending = bytes → ClientStage c p bytes u
  /-- The init packet names port 0. -/
  | refused : u.nsocket = c → u.devport = 0 → u.log = [.registerdevice p.device.1 p.device.2] → ClientStage c p bytes u
  | delivering : p.device.2 ≠ 0 → Delivering c p bytes u → ClientStage c p bytes u

/-- The magic of an init packet is met only at the start of the stream, with all of the
packet there. -/
def MagicInFront (u : SercltInfo) : Prop :=
  cmdPacketHeadLen ≤ u.remainLen → u.AtInit → u.log = [] ∧ agentPacketHeadLen ≤ u.remainLen

instance (u : SercltInfo) : Decidable (MagicInFront u) := inferInstanceAs (Decidable (_ → _))

section
variable {c : Int} {p : InitPacket} {bytes : List UInt8} {u : SercltInfo}

theorem agentHead_magic (h : 2 ≤ u.pending.length) : u.agentHead.magic = (AgentPacket.ofBytes u.pending).magic := by
  rw [u.length_pending] at h
  have hget : ∀ {n : Nat}, 2 ≤ n → ∀ i < 2, (slice u.dataBlob u.rdOff n).getD i 0 = u.dataBlob (u.rdOff + i) := by
    intro n hn i hi
    rw [List.getD_eq_getElem?_getD, getElem?_slice _ (by omega), Option.getD_some]
  simp only [SercltInfo.agentHead, AgentPacket.ofBytes, SercltInfo.pending, agentPacketHeadLen]
  rw [hget (by omega) 0 (by omega), hget (by omega) 1 (by omega), hget h 0 (by omega), hget h 1 (by omega)]

/-- A stream that starts with an init packet starts with its magic. -/
theorem magic_of_prefix {payload : List UInt8} (hpre : bytes <+: p.bytes ++ payload) (h8 : 8 ≤ bytes.length) :
    (AgentPacket.ofBytes bytes).magic = agentInitPacketHeadMagic := by
  have hlen : p.bytes.length = 9 := p.length_eq
  obtain ⟨more, hmore⟩ := hpre
  have hget : ∀ i < 2, bytes.getD i 0 = p.bytes.getD i 0 := by
    intro i hi
    have h := congrArg (fun l => l.getD i 0) hmore
    rwa [List.getD_append _ _ _ _ (by omega), List.getD_append _ _ _ _ (by omega)] at h
  have hm := p.magic_eq
  simp only [AgentPacket.ofBytes] at hm ⊢
  rw [hget 0 (by omega), hget 1 (by omega)]
  exact hm

theorem ClientStage.init {payload : List UInt8} (hoff : Offsets u) (hsock : u.nsocket = c) (hlog : u.log = [])
    (hpend : u.pending = bytes) (hpre : bytes <+: p.bytes ++ payload) (h9 : 9 ≤ u.remainLen) :
    ClientStage c p bytes (sercltInit u) := by
  have hlen : p.bytes.length = 9 := p.length_eq
  have h9' : u.rdOff + 9 ≤ u.wrOff := by
    rw [hoff.remainLen] at h9
    omega
  have htake : u.pending.take 9 = p.bytes := by
    obtain ⟨more, hmore⟩ := hpre
    rw [← hpend] at hmore
    have h := congrArg (List.take 9) hmore
    rwa [List.take_append_of_le_length (by rw [u.length_pending]; omega), ← hlen, List.take_left, hlen] at h
  have hhead : u.agentHead = .ofBytes p.bytes := by rw [agentHead_eq h9', htake]
  have hdev : ((sercltInit u).devip, (sercltInit u).devport) = p.device := by
    simp only [sercltInit, hhead]
    rfl
  have hlog' : (sercltInit u).log = [.registerdevice p.device.1 p.device.2] := by
    simp only [sercltInit, hhead, hlog]
    rfl
  by_cases hport : p.device.2 = 0
  · exact .refused hsock ((congrArg Prod.snd hdev).trans hport) hlog'
  · refine .delivering hport ⟨hoff.init h9', hsock, hdev, [], hlog', by simp, ?_⟩
    rw [sercltInit_pending hoff h9', ← htake, ← hpend]
    exact (List.take_append_drop 9 u.pending).symm

theorem ClientStage.receive (h : ClientStage c p bytes u) {chunk : List UInt8} (hf : SercltFits u chunk) :
    ClientStage c p (bytes ++ chunk) (sercltReceive u chunk) := by
  cases h with
  | fresh hoff hsock hlog hpend =>
    refine .fresh (hoff.receive hf) hsock hlog ?_
    rw [sercltReceive_pending chunk hoff.1, hpend]
  | refused hsock hport hlog => exact .refused hsock hport hlog
  | delivering hport h => exact .delivering hport (h.receive hf)

/-- One round. -/
theorem ClientStage.round {payload : List UInt8} {o : Outcome SercltInfo} (h : ClientStage c p bytes u)
    (hpre : bytes <+: p.bytes ++ payload) (hmagic : MagicInFront u) (hr : SercltRound u o) :
    ClientStage c p bytes o.state := by
  cases h with
  | fresh hoff hsock hlog hpend =>
    have hinit : 8 ≤ u.remainLen → u.AtInit := by
      intro h8
      rw [remainLen_eq_length hoff] at h8
      rw [SercltInfo.AtInit, agentHead_magic (by omega), hpend]
      exact magic_of_prefix hpre (hpend ▸ h8)
    cases hr with
    | short => exact .fresh hoff hsock hlog hpend
    | init h8 hi => exact .init hoff hsock hlog hpend hpre (hmagic h8 hi).2
    | refuse h8 hi | transmit h8 hi => exact absurd (hinit h8) hi
  | refused hsock hport hlog =>
    cases hr with
    | short | refuse => exact .refused hsock hport hlog
    | init h8 hi =>
      rw [(hmagic h8 hi).1] at hlog
      cases hlog
    | transmit _ _ hne => exact absurd hport hne
  | delivering hport h =>
    cases hr with
    | short => exact .delivering hport h
    | init h8 hi => exact absurd (hmagic h8 hi).1 h.log_ne_nil
    | refuse _ _ h0 => exact absurd ((congrArg Prod.snd h.device).symm.trans h0) hport
    | transmit h8 => exact .delivering hport (h.transmit h8)

/-- One read. -/
theorem ClientStage.recvdata {payload chunk : List UInt8} {t : SercltInfo} (h : ClientStage c p bytes u)
    (hf : SercltFits u chunk) (hpre : bytes ++ chunk <+: p.bytes ++ payload)
    (hmagic : ∀ v, Reaches sercltIter (sercltReceive u chunk) v → MagicInFront v)
    (ht : sercltRecvdata u chunk = some t) : ClientStage c p (bytes ++ chunk) t := by
  obtain ⟨v, hv, hb⟩ := reaches_of_run ht
  have hstage : ClientStage c p (bytes ++ chunk) v := by
    clear hb
    induction hv with
    | refl => exact h.receive hf
    | tail hw hb ih => exact ih.round hpre (hmagic _ hw) (sercltRound_of hb)
  exact hstage.round hpre (hmagic v hv) (sercltRound_of hb)

/-- The bytes handed to `transmitpacket`. -/
def handedOver (log : List SercltEv) : List UInt8 :=
  log.flatMap fun
    | .registerdevice .. => []
    | .transmitpacket _ _ _ packet => packet

/-- A block is the client's own and comes next in its frames. -/
theorem ClientStage.block {payload : List UInt8} (h : ClientStage c p bytes u) (hpre : bytes <+: p.bytes ++ payload)
    {made calls : List SercltEv} {devip : String} {devport : UInt16} {nsocket : Int} {packet : List UInt8}
    (hlog : u.log = made ++ .transmitpacket devip devport nsocket packet :: calls) :
    nsocket = c ∧ handedOver made ++ packet <+: payload := by
  cases h with
  | fresh _ _ hnil =>
    rw [hnil] at hlog
    exact absurd hlog (by simp)
  | refused _ _ hreg =>
    rw [hreg] at hlog
    rcases made with _ | ⟨call, made⟩
    · cases hlog
    · rw [List.cons_append] at hlog
      injection hlog with _ htail
      exact absurd htail (by simp)
  | delivering _ h =>
    obtain ⟨-, -, -, blocks, hblocks, -, hb⟩ := h
    have hmem : SercltEv.transmitpacket devip devport nsocket packet ∈ u.log := by
      rw [hlog]
      exact List.mem_append_right _ List.mem_cons_self
    have hall : handedOver u.log = blocks.flatten := by
      rw [hblocks]
      simp [handedOver, List.flatMap_cons, List.flatMap_map, List.flatMap_id']
    have hcut : handedOver u.log = handedOver made ++ packet ++ handedOver calls := by
      rw [hlog]
      simp [handedOver]
    constructor
    · rw [hblocks] at hmem
      rcases List.mem_cons.1 hmem with he | hin
      · cases he
      · obtain ⟨block, -, he⟩ := List.mem_map.1 hin
        cases he
        rfl
    · rw [hb] at hpre
      have hpay := (List.prefix_append_right_inj _).1 hpre
      rw [← hall, hcut, List.append_assoc] at hpay
      exact (List.prefix_append _ _).trans hpay

end

/-! ## Steps -/

/-- What is received from the client `c`. -/
def Ev.bytesFrom (c : Int) : Ev → List UInt8
  | .recv fd chunk => if fd = c then chunk else []
  | .accept .. | .registerdevice _ | .transmitpacket _ | .connect _ | .connected _ | .answer .. | .read .. => []

def received (evs : List Ev) (c : Int) : List UInt8 := evs.flatMap (Ev.bytesFrom c)

def World.info (w : World) (c : Int) : Option SercltInfo :=
  (simuListGet w.sercltList c).map fun node => node.pData.info

/-- What the client `c` has handed over in the calls that are made. -/
def World.handed (w : World) (c : Int) : List UInt8 :=
  match w.info c with
  | none => []
  | some info => handedOver (info.log.take (info.log.length - w.calls.length))

/-- Reads are for connections that were accepted and return no more than fits. -/
def World.Possible (w : World) : Ev → Prop
  | .recv fd chunk => ∃ info ∈ w.info fd, SercltFits info chunk
  | _ => True

/-- A read meets the magic of an init packet only in front of the stream. A block is
added to an output only where no other client's bytes end inside a frame, and where
the client's own end as far inside one as it has handed over. -/
def World.Undivided (w : World) : Ev → Prop
  | .recv fd chunk =>
    ∀ info ∈ w.info fd, ∀ u ∈ heads sercltIter (2 ^ 32) (sercltReceive info chunk), MagicInFront u
  | .transmitpacket added =>
    match w.calls with
    | .transmitpacket devip devport nsocket _ :: _ =>
      ∀ device ∈ cmdagentFind w.devInfo devip devport, ∀ entry ∈ w.devInfo[device]?,
        devnetIsconnected entry.devNet → added →
          (∀ other ∈ entry.devNet.output, other.1 ≠ nsocket →
            openPart (bytesFor other.1 (tagged entry.devNet.output)) = []) ∧
          openPart (w.handed nsocket) = openPart (bytesFor nsocket (tagged entry.devNet.output))
    | _ => True
  | _ => True

/-! ### Clients -/

section
variable {w : World}

theorem info_accept (w : World) (fd : Int) (dataBlob : Nat → UInt8) (c : Int) :
    World.info { w with sercltList := sernetAcceptcb w.sercltList fd dataBlob } c =
      (w.info c).or (if fd = c then some (sercltInitialize fd dataBlob) else none) := by
  simp only [World.info, sernetAcceptcb, simuListGet_add]
  cases simuListGet w.sercltList c with
  | some node => rfl
  | none => by_cases hc : fd = c <;> simp [hc]

theorem info_recv {fd : Int} {chunk : List UInt8} {r : SimuList Serclt × List SercltEv} {info : SercltInfo}
    (hinfo : w.info fd = some info) (hr : sernetReadcb w.sercltList fd chunk = some r) :
    ∃ info', sercltRecvdata info chunk = some info' ∧ r.2 = info'.log.drop info.log.length ∧
      ∀ c, World.info { w with sercltList := r.1, calls := r.2 } c = if fd = c then some info' else w.info c := by
  obtain ⟨node, hget, rfl⟩ := Option.map_eq_some_iff.1 hinfo
  simp only [sernetReadcb, hget] at hr
  obtain ⟨info', hrecv, rfl⟩ := Option.map_eq_some_iff.1 hr
  refine ⟨info', hrecv, rfl, fun c => ?_⟩
  simp only [World.info, simuListGet_put]
  by_cases hc : fd = c
  · subst hc
    simp [hget]
  · simp [hc]

theorem info_passOn (w : World) (device : Nat) (added : Bool) (call : Option (Int × List UInt8)) (c : Int) :
    (w.passOn device added call).info c = w.info c := by
  rcases call with _ | ⟨serid, data⟩
  · rfl
  · exact get_write w.sercltList serid data added c

end

/-- What holds of the clients when `rcv` has been received from them. -/
structure World.Threads (init : Int → InitPacket) (rcv : Int → List UInt8) (w : World) : Prop where
  clients : ∀ c info, w.info c = some info → ClientStage c (init c) (rcv c) info
  unknown : ∀ c, w.info c = none → rcv c = []
  calls : w.calls = [] ∨ ∃ c info made, w.info c = some info ∧ info.log = made ++ w.calls

section
variable {init : Int → InitPacket} {frames : Int → List (List UInt8)} {rcv : Int → List UInt8} {w w' : World} {ev : Ev}

theorem init_threads : World.init.Threads init fun _ => [] :=
  ⟨fun c info h => by simp [World.info, World.init, simuListGet] at h, fun _ _ => rfl, .inl rfl⟩

theorem World.Threads.accept (h : w.Threads init rcv) (hcalls : w.calls = []) (fd : Int) (dataBlob : Nat → UInt8) :
    World.Threads init rcv { w with sercltList := sernetAcceptcb w.sercltList fd dataBlob } := by
  refine ⟨fun c info hc => ?_, fun c hc => ?_, .inl hcalls⟩
  · rw [info_accept, Option.or_eq_some_iff] at hc
    rcases hc with hold | ⟨hnone, hnew⟩
    · exact h.clients c info hold
    · by_cases he : fd = c
      · subst he
        rw [if_pos rfl] at hnew
        cases hnew
        rw [h.unknown fd hnone]
        exact .fresh ⟨Nat.le_refl 0, Nat.zero_le _⟩ rfl rfl rfl
      · rw [if_neg he] at hnew
        cases hnew
  · rw [info_accept, Option.or_eq_none_iff] at hc
    exact h.unknown c hc.1

theorem World.Threads.recv (h : w.Threads init rcv) {fd : Int} {chunk : List UInt8}
    {r : SimuList Serclt × List SercltEv} (hr : sernetReadcb w.sercltList fd chunk = some r)
    (hposs : w.Possible (.recv fd chunk)) (hund : w.Undivided (.recv fd chunk))
    (hpre : rcv fd ++ chunk <+: (init fd).bytes ++ (frames fd).flatten) :
    World.Threads init (fun c => rcv c ++ Ev.bytesFrom c (.recv fd chunk))
      { w with sercltList := r.1, calls := r.2 } := by
  obtain ⟨info, hinfo, hfit⟩ := hposs
  obtain ⟨info', hrecv, hcalls, hget⟩ := info_recv hinfo hr
  obtain ⟨-, calls, hlog, -⟩ := recvdata_calls hrecv
  refine ⟨fun c info'' hc => ?_, fun c hc => ?_, .inr ⟨fd, info', info.log, ?_, ?_⟩⟩
  · rw [hget] at hc
    by_cases he : fd = c
    · subst he
      rw [if_pos rfl] at hc
      cases hc
      rw [Ev.bytesFrom, if_pos rfl]
      refine (h.clients fd info hinfo).recvdata hfit hpre (fun v hv => ?_) hrecv
      exact hund info hinfo v (mem_heads hrecv hv)
    · rw [if_neg he] at hc
      rw [Ev.bytesFrom, if_neg he, List.append_nil]
      exact h.clients c info'' hc
  · rw [hget] at hc
    by_cases he : fd = c
    · rw [if_pos he] at hc
      cases hc
    · rw [if_neg he] at hc
      rw [Ev.bytesFrom, if_neg he, List.append_nil]
      exact h.unknown c hc
  · rw [hget, if_pos rfl]
  · rw [hcalls, hlog, List.drop_left]

/-- A call is made, or something else happens that leaves the clients alone. -/
theorem World.Threads.keep (h : w.Threads init rcv) (hinfo : ∀ c, w'.info c = w.info c)
    (hcalls : w'.calls = w.calls ∨ ∃ call, w.calls = call :: w'.calls) : w'.Threads init rcv := by
  refine ⟨fun c info hc => h.clients c info (hinfo c ▸ hc), fun c hc => h.unknown c (hinfo c ▸ hc), ?_⟩
  rcases hcalls with he | ⟨call, he⟩
  · rw [he]
    exact h.calls.imp_right fun ⟨c, info, made, hc, hlog⟩ => ⟨c, info, made, (hinfo c).trans hc, hlog⟩
  · rcases h.calls with hnil | ⟨c, info, made, hc, hlog⟩
    · rw [hnil] at he
      cases he
    · refine .inr ⟨c, info, made ++ [call], (hinfo c).trans hc, ?_⟩
      rw [hlog, he, List.append_assoc]
      rfl

theorem World.Threads.step (h : w.Threads init rcv) (hstep : w.step ev = some w') (hposs : w.Possible ev)
    (hund : w.Undivided ev) (hpre : ∀ c, rcv c ++ ev.bytesFrom c <+: (init c).bytes ++ (frames c).flatten) :
    w'.Threads init fun c => rcv c ++ ev.bytesFrom c := by
  have same : (∀ c, ev.bytesFrom c = []) → w'.Threads init rcv →
      w'.Threads init fun c => rcv c ++ ev.bytesFrom c := by
    intro hnil h'
    simpa only [hnil, List.append_nil] using h'
  cases does_of_step hstep with
  | accept hcalls => exact same (fun _ => rfl) (h.accept hcalls _ _)
  | @recv fd chunk r _ hr => exact h.recv hr hposs hund (by simpa [Ev.bytesFrom] using hpre fd)
  | registerdevice hcalls | transmitpacket hcalls =>
    exact same (fun _ => rfl) (h.keep (fun _ => rfl) (.inr ⟨_, hcalls⟩))
  | connect | connected | answer => exact same (fun _ => rfl) (h.keep (fun _ => rfl) (.inl rfl))
  | read =>
    refine same (fun _ => rfl) (h.keep (fun c => info_passOn _ _ _ _ c) (.inl ?_))
    unfold World.passOn
    split <;> rfl

/-! ### Outputs -/

/-- Where the output of a device comes from. -/
inductive OutputFrom (w : World) (ev : Ev) (device : Nat) (entry : DeventityInfo) : Prop
  | same (old : DeventityInfo) : w.devInfo[device]? = some old → old.devNet.output = entry.devNet.output →
      OutputFrom w ev device entry
  | new : w.devInfo[device]? = none → entry.devNet.output = [] → OutputFrom w ev device entry
  | added (old : DeventityInfo) (devip : String) (devport : UInt16) (nsocket : Int) (packet : List UInt8)
      (calls : List SercltEv) : ev = .transmitpacket true →
      w.calls = .transmitpacket devip devport nsocket packet :: calls →
      cmdagentFind w.devInfo devip devport = some device → w.devInfo[device]? = some old →
      devnetIsconnected old.devNet → entry.devNet.output = old.devNet.output ++ [(nsocket, packet)] →
      OutputFrom w ev device entry

theorem outputFrom_modify {idx device : Nat} {f : DevnetInfo → DevnetInfo} {entry : DeventityInfo}
    (hf : ∀ old, w.devInfo[idx]? = some old → (f old.devNet).output = old.devNet.output)
    (he : (modifyDevNet w.devInfo idx f)[device]? = some entry) : OutputFrom w ev device entry := by
  obtain ⟨old, hold, rfl⟩ := devInfo_modify he
  refine .same old hold ?_
  by_cases hidx : idx = device
  · subst hidx
    rw [if_pos rfl]
    exact (hf old hold).symm
  · rw [if_neg hidx]

theorem outputFrom_register {devip : String} {devport : UInt16} {started : Bool} {device : Nat} {entry : DeventityInfo}
    (he : (cmdagentRegisterDevice w.devInfo devip devport started).2[device]? = some entry) :
    OutputFrom w ev device entry := by
  unfold cmdagentRegisterDevice at he
  split at he
  · exact .same entry he rfl
  split at he
  · exact .same entry he rfl
  split at he
  · exact .same entry he rfl
  split at he
  · rw [List.getElem?_append] at he
    by_cases hlt : device < w.devInfo.length
    · rw [if_pos hlt] at he
      exact .same entry he rfl
    · rw [if_neg hlt, List.getElem?_singleton] at he
      obtain ⟨-, hnew⟩ := Option.ite_none_right_eq_some.1 he
      cases hnew
      exact .new (List.getElem?_eq_none (Nat.not_lt.1 hlt)) rfl
  · exact .same entry he rfl

theorem outputFrom_sendto {devip : String} {devport : UInt16} {nsocket : Int} {packet : List UInt8}
    {calls : List SercltEv} {added : Bool} {device : Nat} {entry : DeventityInfo}
    (hcalls : w.calls = .transmitpacket devip devport nsocket packet :: calls)
    (he : (cmdagentSendtoDevice w.devInfo devip devport nsocket packet added).2[device]? = some entry) :
    OutputFrom w (.transmitpacket added) device entry := by
  unfold cmdagentSendtoDevice at he
  split at he
  · exact .same entry he rfl
  cases hfind : cmdagentFind w.devInfo devip devport with
  | none =>
    rw [hfind] at he
    exact .same entry he rfl
  | some idx =>
    rw [hfind] at he
    dsimp only at he
    obtain ⟨old, hold, rfl⟩ := devInfo_modify he
    by_cases hidx : idx = device
    · subst hidx
      rw [if_pos rfl]
      unfold devnetWrite
      by_cases hc : devnetIsconnected old.devNet
      · rw [if_pos hc]
        cases added with
        | true => exact .added old devip devport nsocket packet calls rfl hcalls hfind hold hc rfl
        | false => exact .same old hold rfl
      · rw [if_neg hc]
        exact .same old hold rfl
    · rw [if_neg hidx]
      exact .same old hold rfl

theorem outputFrom_step (hstep : w.step ev = some w') {device : Nat} {entry : DeventityInfo}
    (he : w'.devInfo[device]? = some entry) : OutputFrom w ev device entry := by
  cases does_of_step hstep with
  | accept | recv | answer => exact .same entry he rfl
  | registerdevice => exact outputFrom_register he
  | transmitpacket hcalls => exact outputFrom_sendto hcalls he
  | connect | connected => exact outputFrom_modify (fun _ _ => rfl) he
  | @read idx len added old hold =>
    have he' : (modifyDevNet w.devInfo idx fun _ =>
        (devnetReadcb old.devNet (((w.link idx).input.take (min len devnetRdbufferSize)).map Prod.snd)).1)[device]? =
        some entry := by
      unfold World.passOn at he
      split at he <;> exact he
    refine outputFrom_modify (fun old' hold' => ?_) he'
    cases hold.symm.trans hold'
    exact (World.Inv.devnetReadcb_same _ _).2

theorem length_step (hstep : w.step ev = some w') : w.devInfo.length ≤ w'.devInfo.length := by
  have hmodify : ∀ (idx : Nat) (f : DevnetInfo → DevnetInfo),
      (modifyDevNet w.devInfo idx f).length = w.devInfo.length := fun idx f => List.length_modify _ _ _
  cases does_of_step hstep with
  | accept | recv | answer => exact Nat.le_refl _
  | @registerdevice devip devport calls started =>
    rcases nserids_register w.devInfo devip devport started with ⟨-, hsame⟩ | ⟨-, hnew⟩
    · rw [hsame]
    · rw [← length_nserids, ← length_nserids, hnew, List.length_append]
      exact Nat.le_add_right _ _
  | transmitpacket =>
    unfold cmdagentSendtoDevice
    split
    · exact Nat.le_refl _
    split
    · exact Nat.le_refl _
    · dsimp only
      rw [hmodify]
  | connect | connected =>
    dsimp only
    rw [hmodify]
  | read =>
    unfold World.passOn
    split <;> dsimp only <;> rw [hmodify]

/-- Outputs only grow. -/
theorem output_grows {evs : List Ev} (hrun : exec World.step w evs = some w') {device : Nat}
    {old entry : DeventityInfo} (hold : w.devInfo[device]? = some old) (he : w'.devInfo[device]? = some entry) :
    ∃ more, entry.devNet.output = old.devNet.output ++ more := by
  induction evs generalizing w old with
  | nil =>
    cases hrun
    cases hold.symm.trans he
    exact ⟨[], (List.append_nil _).symm⟩
  | cons ev evs ih =>
    obtain ⟨u, hstep, hrun⟩ := exec_cons_eq_some.1 hrun
    have hlt : device < u.devInfo.length :=
      Nat.lt_of_lt_of_le (List.getElem?_eq_some_iff.1 hold).1 (length_step hstep)
    obtain ⟨mid, hmid⟩ : ∃ mid, u.devInfo[device]? = some mid := ⟨_, List.getElem?_eq_getElem hlt⟩
    obtain ⟨more, hmore⟩ := ih hrun hmid
    cases outputFrom_step hstep hmid with
    | new hnone =>
      rw [hold] at hnone
      cases hnone
    | same old' hold' hsame =>
      cases hold.symm.trans hold'
      exact ⟨more, hsame ▸ hmore⟩
    | added old' _ _ nsocket packet _ _ _ _ hold' _ hadded =>
      cases hold.symm.trans hold'
      exact ⟨(nsocket, packet) :: more, by rw [hmore, hadded, List.append_assoc]; rfl⟩

/-! ## Runs -/

/-- The outputs of all devices are in order. -/
def World.InOrder (frames : Int → List (List UInt8)) (w : World) : Prop :=
  ∀ (device : Nat) (entry : DeventityInfo), w.devInfo[device]? = some entry → Woven frames entry.devNet.output

theorem World.InOrder.step (hframes : ∀ c, ∀ f ∈ frames c, CmdFrame f) (h : w.InOrder frames)
    (ht : w.Threads init rcv) (hstep : w.step ev = some w') (hund : w.Undivided ev)
    (hpre : ∀ c, rcv c <+: (init c).bytes ++ (frames c).flatten) : w'.InOrder frames := by
  intro device entry he
  cases outputFrom_step hstep he with
  | same old hold hsame => exact hsame ▸ h device old hold
  | new _ hnil =>
    rw [hnil]
    exact woven_nil frames
  | added old devip devport nsocket packet calls hev hcalls hfind hold hconn hadded =>
    subst hev
    obtain ⟨c, info, made, hinfo, hlog⟩ := ht.calls.resolve_left (by rw [hcalls]; exact List.cons_ne_nil _ _)
    rw [hcalls] at hlog
    obtain ⟨rfl, hsent⟩ := (ht.clients c info hinfo).block (hpre c) hlog
    -- What is handed over so far is what stands in the calls that are made.
    have hhanded : w.handed nsocket = handedOver made := by
      simp [World.handed, hinfo, hcalls, hlog]
    simp only [World.Undivided, hcalls] at hund
    obtain ⟨hothers, hown⟩ := hund device hfind old hold hconn trivial
    rw [hadded]
    exact (h device old hold).add hframes hsent hothers (hhanded ▸ hown)

theorem World.InOrder.run (hframes : ∀ c, ∀ f ∈ frames c, CmdFrame f) {evs : List Ev} (h : w.InOrder frames)
    (ht : w.Threads init rcv) (hrun : Along World.step (fun w ev => w.Possible ev ∧ w.Undivided ev) w evs)
    (hpre : ∀ c, rcv c ++ received evs c <+: (init c).bytes ++ (frames c).flatten)
    (he : exec World.step w evs = some w') : w'.InOrder frames := by
  induction evs generalizing w rcv with
  | nil =>
    cases he
    exact h
  | cons ev evs ih =>
    obtain ⟨u, hstep, he⟩ := exec_cons_eq_some.1 he
    obtain ⟨⟨hposs, hund⟩, hrest⟩ := hrun
    have hnext : ∀ c, rcv c ++ ev.bytesFrom c ++ received evs c <+: (init c).bytes ++ (frames c).flatten := by
      intro c
      rw [List.append_assoc]
      exact hpre c
    have hread : ∀ c, rcv c ++ ev.bytesFrom c <+: (init c).bytes ++ (frames c).flatten :=
      fun c => (List.prefix_append _ _).trans (hnext c)
    refine ih ?_ (ht.step hstep hposs hund hread) (hrest u hstep) hnext he
    exact h.step hframes ht hstep hund fun c => (List.prefix_append _ _).trans (hread c)

/-- Where no block is added inside a frame of another client or behind a loss, devices
get whole frames and at most the start of one more, which the next bytes go on with. -/
theorem frames_kept_whole (init : Int → InitPacket) (frames : Int → List (List UInt8)) (evs : List Ev)
    (hframes : ∀ c, ∀ f ∈ frames c, CmdFrame f)
    (hrcv : ∀ c, received evs c <+: (init c).bytes ++ (frames c).flatten)
    (hrun : Along World.step (fun w ev => w.Possible ev ∧ w.Undivided ev) World.init evs) :
    ∀ pre post w, evs = pre ++ post → exec World.step World.init pre = some w →
      (∀ (device : Nat) (entry : DeventityInfo), w.devInfo[device]? = some entry →
        Woven frames entry.devNet.output) ∧
      ∀ w', exec World.step w post = some w' → ∀ (device : Nat) (entry entry' : DeventityInfo),
        w.devInfo[device]? = some entry → w'.devInfo[device]? = some entry' →
          Continues frames entry.devNet.output entry'.devNet.output := by
  have inOrder : ∀ evs' w, evs' <+: evs → exec World.step World.init evs' = some w → w.InOrder frames := by
    rintro evs' w ⟨more, rfl⟩ he
    have hthreads : World.init.Threads init fun _ => [] := init_threads
    refine World.InOrder.run hframes ?_ hthreads ((along_append World.init evs' more).1 hrun).1 (fun c => ?_) he
    · intro device entry he
      cases he
    · refine List.IsPrefix.trans ?_ (hrcv c)
      rw [List.nil_append, received, received, List.flatMap_append]
      exact List.prefix_append _ _
  rintro pre post w rfl hw
  refine ⟨inOrder pre w (List.prefix_append pre post) hw, fun w' hw' device entry entry' he he' => ?_⟩
  have hall : exec World.step World.init (pre ++ post) = some w' := by
    rw [exec_append, hw]
    exact hw'
  have hwoven := inOrder (pre ++ post) w' (List.prefix_refl _) hall device entry' he'
  obtain ⟨more, hmore⟩ := output_grows hw' he he'
  rw [hmore] at hwoven ⊢
  exact hwoven.continues hframes

end

instance instDecidableWorldPossible (w : World) : (ev : Ev) → Decidable (w.Possible ev)
  | .recv fd chunk =>
    inferInstanceAs (Decidable (∃ info ∈ w.info fd, chunk.length ≤ sercltRdbufferSize - info.wrOff))
  | .accept .. | .registerdevice _ | .transmitpacket _ | .connect _ | .connected _ | .answer .. | .read .. =>
    .isTrue trivial

instance (w : World) : (ev : Ev) → Decidable (w.Undivided ev)
  | .recv fd chunk =>
    inferInstanceAs (Decidable (∀ info ∈ w.info fd,
      ∀ u ∈ heads sercltIter (2 ^ 32) (sercltReceive info chunk), MagicInFront u))
  | .transmitpacket added =>
    match hcalls : w.calls with
    | [] | .registerdevice .. :: _ => .isTrue (by simp only [World.Undivided, hcalls])
    | .transmitpacket devip devport nsocket packet :: calls =>
      decidable_of_iff (∀ device ∈ cmdagentFind w.devInfo devip devport, ∀ entry ∈ w.devInfo[device]?,
        devnetIsconnected entry.devNet → added →
          (∀ other ∈ entry.devNet.output, other.1 ≠ nsocket →
            openPart (bytesFor other.1 (tagged entry.devNet.output)) = []) ∧
          openPart (w.handed nsocket) = openPart (bytesFor nsocket (tagged entry.devNet.output)))
        (by simp only [World.Undivided, hcalls])
  | .accept .. | .registerdevice _ | .connect _ | .connected _ | .answer .. | .read .. => .isTrue trivial

/-- Client 5 sends frames in pieces and ends with a whole one before client 6 sends. -/
def sentInPieces : List Ev :=
  twoClients ++ [.recv 5 (buzzackBytes ++ buzzackBytes.take 4), .transmitpacket true,
    .recv 5 (buzzackBytes.drop 4 ++ buzzackBytes), .transmitpacket true, .recv 6 buzzackBytes, .transmitpacket true]

theorem frames_kept_whole_in_pieces :
    let frames := fun _ : Int => [buzzackBytes, buzzackBytes, buzzackBytes]
    (∃ w, exec World.step World.init sentInPieces = some w ∧
      (w.devInfo[0]?.map fun entry => entry.devNet.output) =
        some [(5, buzzackBytes ++ buzzackBytes.take 4), (5, buzzackBytes.drop 4 ++ buzzackBytes), (6, buzzackBytes)]) ∧
    ∀ pre post w, sentInPieces = pre ++ post → exec World.step World.init pre = some w →
      (∀ (device : Nat) (entry : DeventityInfo), w.devInfo[device]? = some entry →
        Woven frames entry.devNet.output) ∧
      ∀ w', exec World.step w post = some w' → ∀ (device : Nat) (entry entry' : DeventityInfo),
        w.devInfo[device]? = some entry → w'.devInfo[device]? = some entry' →
          Continues frames entry.devNet.output entry'.devNet.output := by
  constructor
  · obtain ⟨w, hw, hp⟩ := (Option.any_eq_true _ _).1 (by decide +kernel : (exec World.step World.init sentInPieces).any
      fun w => (w.devInfo[0]?.map fun entry => entry.devNet.output) = some [(5, buzzackBytes ++ buzzackBytes.take 4),
        (5, buzzackBytes.drop 4 ++ buzzackBytes), (6, buzzackBytes)])
    exact ⟨w, hw, of_decide_eq_true hp⟩
  · refine frames_kept_whole (fun _ => initLoopback) _ _ (fun c => by decide +kernel) (fun c => ?_) (by decide +kernel)
    by_cases h5 : 5 = c
    · subst h5
      decide +kernel
    by_cases h6 : 6 = c
    · subst h6
      decide +kernel
    · simp [received, sentInPieces, twoClients, Ev.bytesFrom, h5, h6]

/-- Client 6 sends while the device has half of client 5's second frame. -/
def sentBetween : List Ev :=
  twoClients ++ [.recv 5 (buzzackBytes ++ buzzackBytes.take 4), .transmitpacket true, .recv 6 buzzackBytes,
    .transmitpacket true]

/-- The second frame the device gets is half of either client. -/
theorem frame_torn :
    let frames := fun _ : Int => [buzzackBytes, buzzackBytes]
    (∀ c, ∀ f ∈ frames c, CmdFrame f) ∧
      (∀ c, received sentBetween c <+: initLoopback.bytes ++ (frames c).flatten) ∧
      Along World.step World.Possible World.init sentBetween ∧
      ∃ w entry, exec World.step World.init sentBetween = some w ∧ w.devInfo[0]? = some entry ∧
        ¬ Woven frames entry.devNet.output := by
  intro frames
  have hframes : ∀ c, ∀ f ∈ frames c, CmdFrame f := fun c => by decide +kernel
  refine ⟨hframes, fun c => ?_, by decide +kernel, ?_⟩
  · by_cases h5 : 5 = c
    · subst h5
      decide +kernel
    by_cases h6 : 6 = c
    · subst h6
      decide +kernel
    · simp [received, sentBetween, twoClients, Ev.bytesFrom, h5, h6]
  · obtain ⟨w, hw, hp⟩ := (Option.any_eq_true _ _).1 (by decide +kernel : (exec World.step World.init sentBetween).any
      fun w => w.devInfo[0]?.any fun entry =>
        entry.devNet.output = [(5, buzzackBytes ++ buzzackBytes.take 4), (6, buzzackBytes)])
    obtain ⟨entry, he, hout⟩ := (Option.any_eq_true _ _).1 hp
    refine ⟨w, entry, hw, he, ?_⟩
    rw [of_decide_eq_true hout]
    rintro ⟨whole, c, part, htagged, hwhole, hpart⟩
    have hd := drains_woven (c := c) hframes hwhole hpart
    rw [← htagged] at hd
    have hmixed : owned 5 (buzzackBytes.take 4) ++ owned 6 (buzzackBytes.take 4) ∈
        whole.map fun f => owned f.1 f.2 := by
      rw [← (Prod.mk.inj (hd.drain_eq (Nat.le_refl _))).1]
      decide +kernel
    obtain ⟨f, -, hf⟩ := List.mem_map.1 hmixed
    have h5 : (5, 0xEF) ∈ owned f.1 f.2 := by
      rw [hf]
      decide +kernel
    have h6 : (6, 0xEF) ∈ owned f.1 f.2 := by
      rw [hf]
      decide +kernel
    exact absurd ((owner_of_mem h5).symm.trans (owner_of_mem h6)) (by decide)

end CmdAgent

import CmdAgent.Serclient
/-!
# What becomes of a client's stream

A client sends init packets and command bytes. `Renders` says that a log carries
out a list of such items: a registration for each init packet, and the command
bytes in blocks for the device registered last. As long as every round meets the
items where they are (`OnTrack`), the log of a run renders what was sent, however
it was cut into reads.
-/
open StreamLib.Mem StreamLib.Loop StreamLib.Runs StreamLib.Reads

namespace CmdAgent

/-! ## Items -/

/-- The bytes of an init packet. -/
structure InitPacket where
  bytes : List UInt8
  length_eq : bytes.length = agentPacketHeadLen
  magic_eq : (AgentPacket.ofBytes bytes).magic = agentInitPacketHeadMagic

/-- The device an init packet names. -/
def InitPacket.device (p : InitPacket) : String × UInt16 :=
  (sprintfDevip (AgentPacket.ofBytes p.bytes).devip, (AgentPacket.ofBytes p.bytes).port)

inductive Item where
  | init (p : InitPacket)
  | command (b : UInt8)

def Item.bytes : Item → List UInt8
  | .init p => p.bytes
  | .command b => [b]

/-- What a client sends. -/
def stream (items : List Item) : List UInt8 := items.flatMap Item.bytes

/-- What a byte of the stream is. -/
inductive Tag where
  | start
  | inner
  | command
  deriving DecidableEq

def Item.tags : Item → List Tag
  | .init _ => .start :: List.replicate 8 .inner
  | .command _ => [.command]

def tags (items : List Item) : List Tag := items.flatMap Item.tags

theorem length_tags (items : List Item) : (tags items).length = (stream items).length := by
  induction items with
  | nil => rfl
  | cons item items ih =>
    simp only [tags, stream, List.flatMap_cons, List.length_append] at ih ⊢
    rw [ih]
    cases item with
    | init p => rw [Item.bytes, p.length_eq]; rfl
    | command b => rfl

theorem stream_append (items items' : List Item) : stream (items ++ items') = stream items ++ stream items' :=
  List.flatMap_append

theorem tags_append (items items' : List Item) : tags (items ++ items') = tags items ++ tags items' :=
  List.flatMap_append

theorem stream_commands (bs : List UInt8) : stream (bs.map .command) = bs := by
  induction bs with
  | nil => rfl
  | cons b bs ih => exact congrArg (b :: ·) ih

/-- Where the next `n` bytes are all command bytes, the next `n` items are they. -/
theorem commands_of_tags {items : List Item} {n : Nat} (hn : n ≤ (stream items).length)
    (h : ∀ t ∈ (tags items).take n, t = .command) :
    ∃ rest, items = ((stream items).take n).map .command ++ rest := by
  induction n generalizing items with
  | zero => exact ⟨items, rfl⟩
  | succ n ih =>
    cases items with
    | nil => exact absurd hn (Nat.not_succ_le_zero n)
    | cons item items =>
      cases item with
      | init p => exact absurd (h .start List.mem_cons_self) (by decide)
      | command b =>
        obtain ⟨rest, he⟩ := ih (Nat.le_of_succ_le_succ hn) fun t ht => h t (List.mem_cons_of_mem _ ht)
        exact ⟨rest, congrArg (Item.command b :: ·) he⟩

/-- The device registered last. -/
def deviceAfter (cur : String × UInt16) : List Item → String × UInt16
  | [] => cur
  | .init p :: items => deviceAfter p.device items
  | .command _ :: items => deviceAfter cur items

theorem deviceAfter_append (cur : String × UInt16) (items items' : List Item) :
    deviceAfter cur (items ++ items') = deviceAfter (deviceAfter cur items) items' := by
  induction items generalizing cur with
  | nil => rfl
  | cons item items ih => cases item <;> exact ih _

theorem deviceAfter_commands (cur : String × UInt16) (bs : List UInt8) : deviceAfter cur (bs.map .command) = cur := by
  induction bs with
  | nil => rfl
  | cons b bs ih => exact ih

/-! ## Logs that carry out items -/

/-- `log` carries out `items`, starting with the device `cur` registered. -/
inductive Renders (nsocket : Int) : String × UInt16 → List Item → List SercltEv → Prop
  | nil {cur : String × UInt16} : Renders nsocket cur [] []
  | init {cur : String × UInt16} {items : List Item} {log : List SercltEv} (p : InitPacket) :
      Renders nsocket p.device items log →
        Renders nsocket cur (.init p :: items) (.registerdevice p.device.1 p.device.2 :: log)
  | block {cur : String × UInt16} {items : List Item} {log : List SercltEv} (bs : List UInt8) :
      cmdPacketHeadLen ≤ bs.length → Renders nsocket cur items log →
        Renders nsocket cur (bs.map .command ++ items) (.transmitpacket cur.1 cur.2 nsocket bs :: log)

variable {nsocket : Int} {cur : String × UInt16}

theorem Renders.append {items items' : List Item} {log log' : List SercltEv} (h : Renders nsocket cur items log)
    (h' : Renders nsocket (deviceAfter cur items) items' log') : Renders nsocket cur (items ++ items') (log ++ log') := by
  induction h with
  | nil => exact h'
  | init p _ ih => exact .init p (ih h')
  | block bs h8 _ ih =>
    rw [deviceAfter_append, deviceAfter_commands] at h'
    rw [List.append_assoc]
    exact .block bs h8 (ih h')

/-! ### What the devices see -/

/-- The calls of `registerdevice` so far. -/
def registrations (log : List SercltEv) : List (String × UInt16) :=
  log.filterMap fun
    | .registerdevice devip devport => some (devip, devport)
    | .transmitpacket .. => none

/-- The bytes handed to `transmitpacket` for `device` so far. -/
def forwarded (device : String × UInt16) (log : List SercltEv) : List UInt8 :=
  log.flatMap fun
    | .registerdevice .. => []
    | .transmitpacket devip devport _ packet => if (devip, devport) = device then packet else []

/-- The devices named by the init packets. -/
def devices (items : List Item) : List (String × UInt16) :=
  items.filterMap fun
    | .init p => some p.device
    | .command _ => none

/-- The command bytes meant for `device`. -/
def sentTo (device cur : String × UInt16) : List Item → List UInt8
  | [] => []
  | .init p :: items => sentTo device p.device items
  | .command b :: items => if cur = device then b :: sentTo device cur items else sentTo device cur items

theorem sentTo_append (device cur : String × UInt16) (items items' : List Item) :
    sentTo device cur (items ++ items') = sentTo device cur items ++ sentTo device (deviceAfter cur items) items' := by
  induction items generalizing cur with
  | nil => rfl
  | cons item items ih =>
    cases item with
    | init p => exact ih _
    | command b =>
      simp only [List.cons_append, sentTo, deviceAfter, ih]
      split <;> rfl

theorem sentTo_commands (device cur : String × UInt16) (bs : List UInt8) :
    sentTo device cur (bs.map .command) = if cur = device then bs else [] := by
  induction bs with
  | nil => simp [sentTo]
  | cons b bs ih =>
    simp only [List.map_cons, sentTo, ih]
    split <;> rfl

theorem devices_append (items items' : List Item) : devices (items ++ items') = devices items ++ devices items' :=
  List.filterMap_append

theorem devices_commands (bs : List UInt8) : devices (bs.map .command) = [] := by
  simp [devices, List.filterMap_map]

theorem Renders.registrations {items : List Item} {log : List SercltEv} (h : Renders nsocket cur items log) :
    registrations log = devices items := by
  induction h with
  | nil => rfl
  | init p _ ih => exact congrArg (p.device :: ·) ih
  | block bs _ _ ih =>
    rw [devices_append, devices_commands, List.nil_append, ← ih]
    rfl

theorem Renders.forwarded {items : List Item} {log : List SercltEv} (h : Renders nsocket cur items log)
    (device : String × UInt16) : forwarded device log = sentTo device cur items := by
  induction h with
  | nil => rfl
  | init p _ ih => exact ih
  | block bs _ _ ih =>
    rw [sentTo_append, sentTo_commands, deviceAfter_commands, ← ih]
    rfl

/-! ## Following the items -/

/-- A round meets the items where they are: at the magic of an init packet one
starts, and all of it is there; otherwise a device is registered and everything
buffered is command bytes. -/
def OnTrack (items : List Item) (bytes : List UInt8) (u : SercltInfo) : Prop :=
  cmdPacketHeadLen ≤ u.remainLen →
    if u.AtInit then
      ((tags items).drop (bytes.length - u.remainLen)).head? = some .start ∧ agentPacketHeadLen ≤ u.remainLen
    else
      u.devport ≠ 0 ∧ ∀ t ∈ ((tags items).drop (bytes.length - u.remainLen)).take u.remainLen, t = .command

/-- The items carried out, and the bytes of the others that are buffered. -/
structure Follows (nsocket : Int) (items : List Item) (bytes : List UInt8) (u : SercltInfo) : Prop where
  offsets : Offsets u
  socket : u.nsocket = nsocket
  split : ∃ done rest, items = done ++ rest ∧ bytes = stream done ++ u.pending ∧
    Renders nsocket ("", 0) done u.log ∧ (u.devip, u.devport) = deviceAfter ("", 0) done

section
variable {u : SercltInfo}

@[simp] theorem SercltInfo.length_pending (u : SercltInfo) : u.pending.length = u.wrOff - u.rdOff := by
  simp [SercltInfo.pending]

theorem sercltReceive_pending (chunk : List UInt8) (h : u.rdOff ≤ u.wrOff) :
    (sercltReceive u chunk).pending = u.pending ++ chunk := by
  obtain ⟨k, hk⟩ := Nat.exists_eq_add_of_le h
  have hn : u.rdOff + k + chunk.length - u.rdOff = k + chunk.length := by omega
  simp only [SercltInfo.pending, sercltReceive, hk, hn, Nat.add_sub_cancel_left]
  exact slice_store_append _ _ _ _

theorem sercltInit_pending (h : Offsets u) (h9 : u.rdOff + 9 ≤ u.wrOff) :
    (sercltInit u).pending = u.pending.drop 9 := by
  have hhi := h.2
  simp only [sercltRdbufferSize] at hhi
  have hmod : (u.rdOff + 9) % 2 ^ 32 = u.rdOff + 9 := Nat.mod_eq_of_lt (by omega)
  unfold SercltInfo.pending
  rw [drop_slice _ (by omega)]
  simp only [sercltInit, agentPacketHeadLen, hmod]
  congr 1

theorem agentHead_eq (h9 : u.rdOff + 9 ≤ u.wrOff) : u.agentHead = .ofBytes (u.pending.take 9) := by
  unfold SercltInfo.agentHead SercltInfo.pending
  rw [take_slice _ (by omega)]

theorem transmit_log (h : Offsets u) :
    (sercltTransmit u).log = u.log ++ [.transmitpacket u.devip u.devport u.nsocket u.pending] := by
  unfold SercltInfo.pending
  rw [← h.remainLen]
  rfl

/-! ### Steps -/

variable {items : List Item} {bytes : List UInt8}

theorem remainLen_eq_length (h : Offsets u) : u.remainLen = u.pending.length := by
  rw [h.remainLen, u.length_pending]

theorem tags_ahead {done rest : List Item} (h : Offsets u) (hb : bytes = stream done ++ u.pending) :
    (tags (done ++ rest)).drop (bytes.length - u.remainLen) = tags rest := by
  have hpos : bytes.length - u.remainLen = (tags done).length := by
    rw [hb, List.length_append, remainLen_eq_length h, length_tags]
    omega
  rw [hpos, tags_append, List.drop_left]

/-- What is buffered is the start of what is to come. -/
theorem pending_prefix {done rest : List Item} (hb : bytes = stream done ++ u.pending)
    (hpre : List.IsPrefix bytes (stream (done ++ rest))) : List.IsPrefix u.pending (stream rest) := by
  rw [hb, stream_append] at hpre
  exact (List.prefix_append_right_inj _).1 hpre

theorem Follows.receive (h : Follows nsocket items bytes u) {chunk : List UInt8} (hf : SercltFits u chunk) :
    Follows nsocket items (bytes ++ chunk) (sercltReceive u chunk) := by
  obtain ⟨hoff, hsock, done, rest, hit, hb, hrend, hdev⟩ := h
  refine ⟨hoff.receive hf, hsock, done, rest, hit, ?_, hrend, hdev⟩
  rw [sercltReceive_pending chunk hoff.1, hb, List.append_assoc]

theorem Follows.init (h : Follows nsocket items bytes u) (hpre : List.IsPrefix bytes (stream items))
    (h8 : 8 ≤ u.remainLen) (hi : u.AtInit) (ht : OnTrack items bytes u) :
    Follows nsocket items bytes (sercltInit u) := by
  obtain ⟨hoff, hsock, done, rest, rfl, hb, hrend, hdev⟩ := h
  have ht := ht h8
  rw [if_pos hi, tags_ahead hoff hb] at ht
  obtain ⟨hstart, h9⟩ := ht
  rw [hoff.remainLen] at h9
  have h9' : u.rdOff + 9 ≤ u.wrOff := by
    simp only [agentPacketHeadLen] at h9
    omega
  obtain ⟨p, rest, rfl⟩ : ∃ p rest', rest = .init p :: rest' := by
    cases rest with
    | nil => cases hstart
    | cons item rest =>
      cases item with
      | init p => exact ⟨p, rest, rfl⟩
      | command b => cases hstart
  -- The packet at `rd_off` is `p`.
  have htake : u.pending.take 9 = p.bytes := by
    have hlen : p.bytes.length = 9 := p.length_eq
    obtain ⟨more, hmore⟩ := pending_prefix hb hpre
    have h := congrArg (List.take 9) hmore
    rw [List.take_append_of_le_length (by simp; omega)] at h
    rw [h, stream, List.flatMap_cons, Item.bytes, ← hlen, List.take_left]
  have hhead : u.agentHead = .ofBytes p.bytes := by rw [agentHead_eq h9', htake]
  refine ⟨hoff.init h9', hsock, done ++ [.init p], rest, by simp, ?_, ?_, ?_⟩
  · rw [sercltInit_pending hoff h9', stream_append, List.append_assoc, hb]
    congr 1
    rw [show stream [.init p] = p.bytes by simp [stream, Item.bytes], ← htake, List.take_append_drop]
  · rw [sercltInit]
    simp only [hhead]
    exact hrend.append (.init p .nil)
  · rw [deviceAfter_append, sercltInit]
    simp only [hhead]
    rfl

theorem Follows.transmit (h : Follows nsocket items bytes u) (hpre : List.IsPrefix bytes (stream items))
    (h8 : 8 ≤ u.remainLen) (hi : ¬ u.AtInit) (ht : OnTrack items bytes u) :
    Follows nsocket items bytes (sercltTransmit u) := by
  obtain ⟨hoff, hsock, done, rest, rfl, hb, hrend, hdev⟩ := h
  have ht := ht h8
  rw [if_neg hi, tags_ahead hoff hb] at ht
  obtain ⟨-, hcmd⟩ := ht
  rw [remainLen_eq_length hoff] at hcmd h8
  obtain ⟨more, hmore⟩ := pending_prefix hb hpre
  have hlen : u.pending.length ≤ (stream rest).length := by rw [← hmore]; simp
  obtain ⟨rest', hrest⟩ := commands_of_tags hlen hcmd
  rw [← hmore, List.take_left] at hrest
  refine ⟨⟨Nat.le_refl 0, Nat.zero_le _⟩, hsock, done ++ u.pending.map .command, rest', ?_, ?_, ?_, ?_⟩
  · rw [List.append_assoc, ← hrest]
  · rw [stream_append, stream_commands, hb]
    exact (List.append_nil _).symm
  · have hblock : Renders nsocket (deviceAfter ("", 0) done) _ _ := .block u.pending h8 .nil
    rw [transmit_log hoff, hsock]
    have h := hrend.append hblock
    rw [List.append_nil, ← hdev] at h
    exact h
  · rw [deviceAfter_append, deviceAfter_commands]
    exact hdev

end

/-! ## Whole runs -/

section
variable {items : List Item} {chunks : List (List UInt8)} {dataBlob : Nat → UInt8}

theorem recvdata_short {s t : SercltInfo} {chunk : List UInt8} (h : sercltRecvdata s chunk = some t) :
    t.remainLen < 8 := by
  obtain ⟨u, -, hb⟩ := reaches_of_run h
  cases sercltRound_of hb with
  | short h => exact h
  | refuse => simp only [SercltInfo.remainLen, sercltRefuse]; decide

/-- Reads of fewer bytes in total than the blob has room for all fit. -/
theorem fits_of_length {s : SercltInfo} (h : s.wrOff + chunks.flatten.length ≤ sercltRdbufferSize) :
    Along sercltRecvdata SercltFits s chunks := by
  induction chunks generalizing s with
  | nil => trivial
  | cons c cs ih =>
    rw [List.flatten_cons, List.length_append] at h
    refine ⟨by unfold SercltFits; omega, ?_⟩
    intro t ht
    have hle : t.wrOff ≤ s.wrOff + c.length := by
      refine run_inv (I := fun u => u.wrOff ≤ s.wrOff + c.length) (Q := fun u => u.wrOff ≤ s.wrOff + c.length) ?_ ?_
        (Nat.le_refl _) ht
      · intro u v hu huv
        cases sercltRound_of huv with
        | init => exact hu
        | transmit => exact Nat.zero_le _
      · intro u v hu huv
        cases sercltRound_of huv with
        | short => exact hu
        | refuse => exact Nat.zero_le _
    exact ih (by omega)

theorem initial_follows (items : List Item) : Follows nsocket items [] (sercltInitialize nsocket dataBlob) :=
  ⟨⟨Nat.le_refl 0, Nat.zero_le _⟩, rfl, [], items, rfl, rfl, .nil, rfl⟩

/-- A run on track follows the items. -/
theorem visits_follow (hfit : Along sercltRecvdata SercltFits (sercltInitialize nsocket dataBlob) chunks)
    (hcat : List.IsPrefix chunks.flatten (stream items))
    (ht : ∀ bytes u, SercltVisits (sercltInitialize nsocket dataBlob) chunks bytes u → OnTrack items bytes u)
    {bytes : List UInt8} {u : SercltInfo} (hu : SercltVisits (sercltInitialize nsocket dataBlob) chunks bytes u) :
    Follows nsocket items bytes u := by
  have hP : ∀ bytes u, SercltVisits (sercltInitialize nsocket dataBlob) chunks bytes u →
      List.IsPrefix bytes (stream items) ∧ OnTrack items bytes u :=
    fun bytes u hu => ⟨hu.isPrefix.trans hcat, ht bytes u hu⟩
  refine visits_inv (K := Follows nsocket items) (P := fun bytes u => List.IsPrefix bytes (stream items) ∧
    OnTrack items bytes u) (h := []) ?_ ?_ ?_ (initial_follows items) hfit hP hu
  · intro bytes s c hs hc _
    exact hs.receive hc
  · intro bytes s t hs hp hst
    cases sercltRound_of hst with
    | init h8 hi => exact hs.init hp.1 h8 hi hp.2
    | transmit h8 hi => exact hs.transmit hp.1 h8 hi hp.2
  · intro bytes s t hs hp hst
    cases sercltRound_of hst with
    | short => exact hs
    | refuse h8 hi h0 =>
      -- On track there is a device.
      have hon := hp.2 h8
      rw [if_neg hi] at hon
      exact absurd h0 hon.1

/-! ### The same stream in different reads -/

/-- Every round of the run meets the items where they are. -/
def Tracks (nsocket : Int) (dataBlob : Nat → UInt8) (items : List Item) (chunks : List (List UInt8)) : Prop :=
  ∀ bytes u, SercltVisits (sercltInitialize nsocket dataBlob) chunks bytes u → OnTrack items bytes u

/-- What `device` was sent, with the bytes still buffered for it. -/
def relayed (device : String × UInt16) (t : SercltInfo) : List UInt8 :=
  forwarded device t.log ++ if (t.devip, t.devport) = device then t.pending else []

theorem commands_of_short {rest : List Item} (h : (stream rest).length < 9) :
    rest = (stream rest).map .command := by
  induction rest with
  | nil => rfl
  | cons item rest ih =>
    cases item with
    | init p =>
      have hlen : p.bytes.length = 9 := p.length_eq
      simp only [stream, List.flatMap_cons, Item.bytes, List.length_append] at h
      omega
    | command b =>
      have hlt : (stream rest).length < 9 := Nat.lt_of_succ_lt h
      exact congrArg (Item.command b :: ·) (ih hlt)

/-- What the devices see of a run over the whole stream. -/
theorem Follows.relays {t : SercltInfo} (h : Follows nsocket items (stream items) t) (hshort : t.remainLen < 8) :
    registrations t.log = devices items ∧ ∀ device, relayed device t = sentTo device ("", 0) items := by
  obtain ⟨hoff, -, done, rest, rfl, hb, hrend, hdev⟩ := h
  rw [stream_append] at hb
  have hpend : stream rest = t.pending := List.append_cancel_left hb
  have hrest : rest = t.pending.map .command := by
    rw [remainLen_eq_length hoff, ← hpend] at hshort
    rw [← hpend]
    exact commands_of_short (Nat.lt_succ_of_lt hshort)
  rw [hrest]
  constructor
  · rw [devices_append, devices_commands, List.append_nil]
    exact hrend.registrations
  · intro device
    rw [sentTo_append, sentTo_commands, relayed, hrend.forwarded, hdev]

theorem remainLen_initialize : (sercltInitialize nsocket dataBlob).remainLen < 8 := by
  simp only [SercltInfo.remainLen, sercltInitialize]
  decide

theorem exec_short {t : SercltInfo} (h : exec sercltRecvdata (sercltInitialize nsocket dataBlob) chunks = some t) :
    t.remainLen < 8 :=
  exec_inv_all (I := fun s => s.remainLen < 8) (fun _ _ _ _ hst => recvdata_short hst) remainLen_initialize h

theorem exec_follows (hcat : chunks.flatten = stream items) (hlen : (stream items).length < sercltRdbufferSize)
    (ht : Tracks nsocket dataBlob items chunks) :
    ∃ t, exec sercltRecvdata (sercltInitialize nsocket dataBlob) chunks = some t ∧
      Follows nsocket items (stream items) t ∧ t.remainLen < 8 := by
  have hfit : Along sercltRecvdata SercltFits (sercltInitialize nsocket dataBlob) chunks := by
    refine fits_of_length ?_
    rw [hcat]
    exact (Nat.zero_add _).trans_le (Nat.le_of_lt hlen)
  obtain ⟨t, he⟩ := exec_of_total recvdata_total (sercltInitialize nsocket dataBlob) chunks
  refine ⟨t, he, ?_, exec_short he⟩
  cases chunks with
  | nil =>
    cases he
    rw [← hcat]
    exact initial_follows items
  | cons c cs =>
    have hv := visits_of_exec he
    rw [hcat] at hv
    exact visits_follow hfit (hcat ▸ List.prefix_rfl) ht hv

/-- On track, the registrations and what each device is sent are those of the
items, so they are the same however the stream is cut into reads. -/
theorem serclt_segmentation (items : List Item) (nsocket nsocket' : Int) (dataBlob dataBlob' : Nat → UInt8)
    (chunks chunks' : List (List UInt8)) (hcat : chunks.flatten = stream items) (hcat' : chunks'.flatten = stream items)
    (hlen : (stream items).length < sercltRdbufferSize) (ht : Tracks nsocket dataBlob items chunks)
    (ht' : Tracks nsocket' dataBlob' items chunks') :
    ∃ t t', exec sercltRecvdata (sercltInitialize nsocket dataBlob) chunks = some t ∧
      exec sercltRecvdata (sercltInitialize nsocket' dataBlob') chunks' = some t' ∧
      registrations t.log = registrations t'.log ∧ ∀ device, relayed device t = relayed device t' := by
  obtain ⟨t, he, hf, hs⟩ := exec_follows hcat hlen ht
  obtain ⟨t', he', hf', hs'⟩ := exec_follows hcat' hlen ht'
  obtain ⟨hr, hd⟩ := hf.relays hs
  obtain ⟨hr', hd'⟩ := hf'.relays hs'
  exact ⟨t, t', he, he', hr.trans hr'.symm, fun device => (hd device).trans (hd' device).symm⟩

end

instance (items : List Item) (bytes : List UInt8) (u : SercltInfo) : Decidable (OnTrack items bytes u) :=
  inferInstanceAs (Decidable (_ → _))

/-- The init packet for 127.0.0.1, port 7777. -/
def initLoopback : InitPacket := ⟨initPacket, rfl, by decide +kernel⟩

/-- The init packet for 127.0.0.2, port 7777. -/
def initOther : InitPacket := ⟨[0xFA, 0xFC, 127, 0, 0, 2, 0x61, 0x1E, 1], rfl, by decide +kernel⟩

/-- The header of a `BUZZACK`. -/
def buzzackBytes : List UInt8 := [0xEF, 0xBE, 0x80, 0, 0, 0, 0x95, 0x72]

/-- An init packet and a command, in one read and in two. -/
theorem serclt_segmentation_init :
    ∃ t t', exec sercltRecvdata (sercltInitialize 5 fun _ => 0) [initPacket ++ buzzackBytes] = some t ∧
      exec sercltRecvdata (sercltInitialize 5 fun _ => 0) [initPacket ++ buzzackBytes.take 3, buzzackBytes.drop 3] =
        some t' ∧
      registrations t.log = registrations t'.log ∧ ∀ device, relayed device t = relayed device t' :=
  serclt_segmentation (.init initLoopback :: buzzackBytes.map .command) 5 5 (fun _ => 0) (fun _ => 0) _ _ rfl rfl
    (by decide) (forall_visits recvdata_total (by decide +kernel)) (forall_visits recvdata_total (by decide +kernel))

/-- Two init packets with a command after each: in one read the second packet goes
to the first device as data, in reads of one item each it registers the second. -/
theorem segmentation_swallows_init :
    let items : List Item := .init initLoopback :: (buzzackBytes.map .command ++ .init initOther :: buzzackBytes.map .command)
    let chunks := [stream items]
    let chunks' := [initLoopback.bytes, buzzackBytes, initOther.bytes, buzzackBytes]
    chunks.flatten = chunks'.flatten ∧
      (exec sercltRecvdata (sercltInitialize 5 fun _ => 0) chunks).map (fun t => registrations t.log) =
        some [initLoopback.device] ∧
      (exec sercltRecvdata (sercltInitialize 5 fun _ => 0) chunks').map (fun t => registrations t.log) =
        some [initLoopback.device, initOther.device] := by
  decide +kernel

/-! ## One init packet and payload -/

/-- The payload in `bytes` went to the device of `p` in blocks, but for what is
buffered. -/
def Delivers (nsocket : Int) (p : InitPacket) (bytes : List UInt8) (u : SercltInfo) : Prop :=
  ∃ blocks : List (List UInt8),
    u.log = .registerdevice p.device.1 p.device.2 ::
      blocks.map (.transmitpacket p.device.1 p.device.2 nsocket) ∧
    (∀ block ∈ blocks, cmdPacketHeadLen ≤ block.length) ∧
    bytes = p.bytes ++ (blocks.flatten ++ u.pending)

/-- What holds once the init packet is taken. -/
structure Delivering (nsocket : Int) (p : InitPacket) (bytes : List UInt8) (u : SercltInfo) : Prop where
  offsets : Offsets u
  socket : u.nsocket = nsocket
  device : (u.devip, u.devport) = p.device
  delivers : Delivers nsocket p bytes u

section
variable {p : InitPacket} {bytes : List UInt8} {u : SercltInfo}

theorem Delivering.receive (h : Delivering nsocket p bytes u) {chunk : List UInt8} (hf : SercltFits u chunk) :
    Delivering nsocket p (bytes ++ chunk) (sercltReceive u chunk) := by
  obtain ⟨hoff, hsock, hdev, blocks, hlog, h8, hb⟩ := h
  refine ⟨hoff.receive hf, hsock, hdev, blocks, hlog, h8, ?_⟩
  rw [sercltReceive_pending chunk hoff.1, hb]
  simp only [List.append_assoc]

theorem Delivering.transmit (h : Delivering nsocket p bytes u) (h8 : 8 ≤ u.remainLen) :
    Delivering nsocket p bytes (sercltTransmit u) := by
  obtain ⟨hoff, hsock, hdev, blocks, hlog, hblocks, hb⟩ := h
  refine ⟨⟨Nat.le_refl 0, Nat.zero_le _⟩, hsock, hdev, blocks ++ [u.pending], ?_, ?_, ?_⟩
  · rw [transmit_log hoff, hlog, hsock, ← hdev]
    simp
  · intro block hblock
    rcases List.mem_append.1 hblock with hold | hnew
    · exact hblocks block hold
    · rw [List.mem_singleton.1 hnew, ← remainLen_eq_length hoff]
      exact h8
  · have hnil : (sercltTransmit u).pending = [] := rfl
    rw [hnil, List.append_nil, List.flatten_append, List.flatten_cons, List.flatten_nil, List.append_nil]
    exact hb

theorem long_of_cont {v : SercltInfo} (h : sercltIter u = .cont v) : 8 ≤ u.remainLen := by
  cases sercltRound_of h with
  | init h8 => exact h8
  | transmit h8 => exact h8

theorem Delivering.log_ne_nil (h : Delivering nsocket p bytes u) : u.log ≠ [] := by
  obtain ⟨blocks, hlog, -⟩ := h.delivers
  rw [hlog]
  exact List.cons_ne_nil _ _

/-- The first round takes the init packet. -/
theorem first_round {dataBlob : Nat → UInt8} {payload : List UInt8}
    (hf : SercltFits (sercltInitialize nsocket dataBlob) (p.bytes ++ payload)) :
    let s := sercltReceive (sercltInitialize nsocket dataBlob) (p.bytes ++ payload)
    sercltIter s = .cont (sercltInit s) ∧ Delivering nsocket p (p.bytes ++ payload) (sercltInit s) := by
  intro s
  have hoff : Offsets s := Offsets.receive ⟨Nat.le_refl 0, Nat.zero_le _⟩ hf
  have hpend : s.pending = p.bytes ++ payload := sercltReceive_pending _ (Nat.le_refl 0)
  have hlen : p.bytes.length = 9 := p.length_eq
  have hrd : s.rdOff = 0 := rfl
  have h9 : s.rdOff + 9 ≤ s.wrOff := by
    have hw := congrArg List.length hpend
    rw [s.length_pending, List.length_append] at hw
    omega
  have hhead : s.agentHead = .ofBytes p.bytes := by
    rw [agentHead_eq h9, hpend, ← hlen, List.take_left]
  have hi : s.AtInit := by
    unfold SercltInfo.AtInit
    rw [hhead, p.magic_eq]
  refine ⟨iter_init (by rw [hoff.remainLen]; omega) hi, hoff.init h9, rfl, ?_, [], ?_, ?_, ?_⟩
  · simp only [sercltInit, hhead]
    rfl
  · simp only [sercltInit, hhead]
    rfl
  · intro block hblock
    cases hblock
  · rw [sercltInit_pending hoff h9, hpend, ← hlen, List.drop_left]
    rfl

end

/-- Where only the first round, which finds nothing in the log, finds the magic of
an init packet, the payload goes to its device in order: at every point after it the
blocks forwarded and what is buffered are the payload received, and every read
leaves fewer than 8 bytes. -/
theorem serclt_preserves_stream (nsocket : Int) (dataBlob : Nat → UInt8) (p : InitPacket) (payload : List UInt8)
    (chunks : List (List UInt8)) (hport : p.device.2 ≠ 0)
    (hfit : Along sercltRecvdata SercltFits (sercltInitialize nsocket dataBlob) ((p.bytes ++ payload) :: chunks))
    (hmagic : ∀ bytes u, SercltVisits (sercltInitialize nsocket dataBlob) ((p.bytes ++ payload) :: chunks) bytes u →
      u.log ≠ [] → cmdPacketHeadLen ≤ u.remainLen → ¬ u.AtInit) :
    (∀ bytes u, SercltVisits (sercltInitialize nsocket dataBlob) ((p.bytes ++ payload) :: chunks) bytes u →
      u.log = [] ∧ u.pending = bytes ∧ u = sercltReceive (sercltInitialize nsocket dataBlob) bytes ∨
        Delivers nsocket p bytes u) ∧
    ∀ pre post, chunks = pre ++ post →
      ∃ t, exec sercltRecvdata (sercltInitialize nsocket dataBlob) ((p.bytes ++ payload) :: pre) = some t ∧
        t.pending.length < cmdPacketHeadLen ∧ Delivers nsocket p (p.bytes ++ payload ++ pre.flatten) t := by
  obtain ⟨hfirst, hstart⟩ := first_round hfit.1
  have hvis : ∀ {bytes : List UInt8} {u : SercltInfo},
      SercltVisits (sercltInitialize nsocket dataBlob) ((p.bytes ++ payload) :: chunks) bytes u →
      (bytes = p.bytes ++ payload ∧ u = sercltReceive (sercltInitialize nsocket dataBlob) (p.bytes ++ payload)) ∨
        Delivering nsocket p bytes u := by
    intro bytes u hu
    refine visits_inv_after (K := Delivering nsocket p) ?_ ?_ ?_ hfirst hstart hfit hmagic hu
    · intro bytes s c hs hc _
      exact hs.receive hc
    · intro bytes s t hs hp hst
      cases sercltRound_of hst with
      | init h8 hi => exact absurd hi (hp hs.log_ne_nil h8)
      | transmit h8 => exact hs.transmit h8
    · intro bytes s t hs _ hst
      cases sercltRound_of hst with
      | short => exact hs
      | refuse _ _ h0 => exact absurd ((congrArg Prod.snd hs.device).symm.trans h0) hport
  constructor
  · intro bytes u hu
    rcases hvis hu with ⟨rfl, rfl⟩ | h
    · exact .inl ⟨rfl, sercltReceive_pending _ (Nat.le_refl 0), rfl⟩
    · exact .inr h.delivers
  · rintro pre post rfl
    obtain ⟨t, he⟩ := exec_of_total recvdata_total (sercltInitialize nsocket dataBlob) ((p.bytes ++ payload) :: pre)
    have hshort := exec_short he
    refine ⟨t, he, ?_⟩
    rcases hvis ((visits_of_exec he).append post) with ⟨-, rfl⟩ | h
    · exact absurd (long_of_cont hfirst) (Nat.not_le.2 hshort)
    · rw [remainLen_eq_length h.offsets] at hshort
      exact ⟨hshort, h.delivers⟩

/-- A command behind the init packet, cut in two. -/
theorem serclt_preserves_stream_buzzack :
    let s := sercltInitialize 5 (fun _ => 0)
    let first := initLoopback.bytes ++ buzzackBytes.take 3
    (∀ bytes u, SercltVisits s [first, buzzackBytes.drop 3] bytes u →
      u.log = [] ∧ u.pending = bytes ∧ u = sercltReceive s bytes ∨ Delivers 5 initLoopback bytes u) ∧
    ∀ pre post, [buzzackBytes.drop 3] = pre ++ post →
      ∃ t, exec sercltRecvdata s (first :: pre) = some t ∧ t.pending.length < cmdPacketHeadLen ∧
        Delivers 5 initLoopback (first ++ pre.flatten) t :=
  serclt_preserves_stream 5 (fun _ => 0) initLoopback (buzzackBytes.take 3) [buzzackBytes.drop 3]
    (by decide +kernel) (by decide +kernel) (forall_visits recvdata_total (by decide +kernel))

end CmdAgent

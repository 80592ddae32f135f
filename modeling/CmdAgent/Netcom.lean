import CmdAgent.StreamLib.Loop
import CmdAgent.CircBuf
import CmdAgent.Netcmd
import CmdAgent.Misc
/-!
# `netcom.c`: the receiver

`Netcom` is `struct l0006_netcom_info` with the fields of `ncrdbuf` spread out.
The blob is the memory from `ncrdbuf.blob` on, of which the first
`netcomRdbufferSize` bytes are allocated. The offsets are `uint32_t`; in every
state the code reaches, `rd1Off ≤ wrOff`, so their differences are those of `Nat`.
The log is a history of what the code did: it is written and never read.
-/
open StreamLib.Mem StreamLib.Loop

namespace CmdAgent

/-! ## State -/

/-- `struct l0006_netcom_action`: `cb` stands for `actioncb` with its `in` and
`out` lists, which only the callback looks at. -/
structure NetcomAction (α : Type) where
  cb : α
  seqno : UInt8
  deriving DecidableEq

/-- `struct l0006_netcom_wrbuf`; `slot` is its place in `wrbuf_ncbuf`. -/
structure NetcomWrbuf (α : Type) where
  slot : Nat
  ts : Timespec
  action : NetcomAction α
  deriving DecidableEq

inductive NetcomEv (α : Type) where
  /-- A search of `wrbuf_used_list` for the command a packet acknowledges, and
  the entry whose action callback was then called with the packet. -/
  | lookup (seqno : UInt8) (packet : List UInt8) (hit : Option (NetcomWrbuf α))
  /-- A stream packet, as received, accepted at `rd1_off` and stamped. -/
  | append (packet : List UInt8) (tv : Timeval)
  /-- A stream packet removed because RX is not set. -/
  | drop (packet : List UInt8)
  /-- Bytes `netcom_find_header` moved over. -/
  | discard (bytes : List UInt8)
  deriving DecidableEq

structure Netcom (α : Type) where
  seqno : UInt8
  /-- `L0006_NETCOM_FLAGS_CONNECTED` -/
  connected : Bool
  /-- `L0006_NETCOM_FLAGS_RX` -/
  rx : Bool
  bev : Option Nat
  /-- `wrbuf_unused_list` -/
  unused : List (NetcomWrbuf α)
  /-- `wrbuf_used_list` -/
  used : List (NetcomWrbuf α)
  blob : Nat → UInt8
  rd1Off : Nat
  rd2Off : Nat
  wrOff : Nat
  rd1End : Nat
  errorflag : Bool
  /-- The calls of `gettimeofday` so far. -/
  tods : Nat
  log : List (NetcomEv α)

/-- What the receiver finds outside its own state: the results of the calls of
`gettimeofday`, and the memory in front of the blob. -/
structure Env where
  gettimeofday : Nat → Timeval
  below : Nat → UInt8

variable {α : Type}

/-- `[rd1_off, wr_off)` -/
def Netcom.pending (nc : Netcom α) : List UInt8 := slice nc.blob nc.rd1Off (nc.wrOff - nc.rd1Off)

/-- `[0, rd1_off)` -/
def Netcom.published (nc : Netcom α) : List UInt8 := slice nc.blob 0 nc.rd1Off

/-! ## Sizes -/

@[simp] abbrev netcomRdbufferSize : Nat := 0x300000
@[simp] abbrev netcomRdbufferForcerewindSize : Nat := 0x20000
@[simp] abbrev netcomRdbufferForcerewindOffset : Nat := 0x2E0000

/-! ## The packet loop -/

/-- The loop of `netcom_find_header` from `rd1_off` on, for at most `fuel`
rounds: the final `rd1_off` and `head_found`. -/
def findHeaderLoop (blob : Nat → UInt8) (wrOff : Nat) : Nat → Nat → Nat × Bool
  | 0, rd1Off => (rd1Off, false)
  | fuel + 1, rd1Off =>
    if rd1Off + netcmdGetpacketheaderlength < wrOff then
      if netcmdIsvalidpacketheader (slice blob rd1Off netcmdGetpacketheaderlength) then (rd1Off, true)
      else findHeaderLoop blob wrOff fuel (rd1Off + 1)
    else (rd1Off, false)

/-- The end of `netcom_find_header`, the same in both its branches: the bytes from
the local `rd1_off` on move to the front. -/
def netcomDiscard (nc : Netcom α) (rd1Off : Nat) : Netcom α :=
  { nc with
    blob := move nc.blob nc.rd1Off rd1Off (nc.wrOff - rd1Off)
    wrOff := nc.wrOff - (rd1Off - nc.rd1Off)
    log := nc.log ++ [.discard (slice nc.blob nc.rd1Off (rd1Off - nc.rd1Off))] }

/-- `netcom_find_header`; the flag is false where the source returns -1. -/
def netcomFindHeader (nc : Netcom α) (offset : Nat) : Netcom α × Bool :=
  let (rd1Off, headFound) := findHeaderLoop nc.blob nc.wrOff (nc.wrOff - (nc.rd1Off + offset)) (nc.rd1Off + offset)
  (netcomDiscard nc rd1Off, headFound)

/-- `if (netcom_find_header(nc, packetheaderlength) < 0) break;` -/
def netcomResync (nc : Netcom α) : Outcome (Netcom α) :=
  match netcomFindHeader nc netcmdGetpacketheaderlength with
  | (nc', true) => .cont nc'
  | (nc', false) => .brk nc'

/-- The `memmove` that removes a packet at `rd1_off`. -/
def netcomRemove (nc : Netcom α) (packetlength : Nat) : Netcom α :=
  { nc with
    blob := move nc.blob nc.rd1Off (nc.rd1Off + packetlength) (nc.wrOff - nc.rd1Off - packetlength)
    wrOff := nc.wrOff - packetlength }

/-- The search of `wrbuf_used_list`: the action of the first entry with the
packet's sequence number is called, and the entry moved to the unused list. -/
def netcomLookup (nc : Netcom α) (seqno : UInt8) (packet : List UInt8) : Netcom α :=
  match nc.used.find? (fun ncwrbuf => ncwrbuf.action.seqno == seqno) with
  | some ncwrbuf =>
    { nc with
      used := nc.used.eraseP (fun ncwrbuf => ncwrbuf.action.seqno == seqno)
      unused := nc.unused ++ [ncwrbuf]
      log := nc.log ++ [.lookup seqno packet (some ncwrbuf)] }
  | none => { nc with log := nc.log ++ [.lookup seqno packet none] }

/-- One round of the `while` loop of `netcom_readcb`, its test included. -/
def netcomIter (env : Env) (nc : Netcom α) : Outcome (Netcom α) :=
  if nc.wrOff = nc.rd1Off then .brk nc else
  let length := nc.wrOff - nc.rd1Off
  if length ≥ netcmdGetpacketheaderlength then
    let packet := slice nc.blob nc.rd1Off length
    if netcmdIsvalidpacketheader packet then
      let packetlength := netcmdVerifystream packet
      if packetlength ≠ 0 then
        -- A length of 0 does not come here: `verifystream` says with 0 that it is no stream packet.
        if packetlength = 0 ∨ packetlength > l0006StreamMaxSize then netcomResync nc
        else if packetlength ≤ length then
          if nc.rx then
            match netcmdReadpacket env.below nc.blob nc.rd1Off (env.gettimeofday nc.tods) with
            | some blob =>
              .cont { nc with
                blob := blob
                rd1Off := nc.rd1Off + packetlength
                tods := nc.tods + 1
                log := nc.log ++ [.append (packet.take packetlength) (env.gettimeofday nc.tods)] }
            | none => netcomResync nc
          else .cont (netcomRemove { nc with log := nc.log ++ [.drop (packet.take packetlength)] } packetlength)
        else .brk nc
      else
        let (packetlength, seqno) := netcmdVerifycmdpacket packet
        if packetlength ≠ 0 then
          if packetlength ≤ length then
            .cont (netcomRemove (netcomLookup nc seqno (packet.take packetlength)) packetlength)
          else .brk nc
        -- "Invalid cmd packet", and `packetlength` is 0.
        else .cont (netcomRemove nc packetlength)
    else netcomResync nc
  else .brk nc

/-- The loop. Every round lowers `wr_off - rd1_off` or repeats forever
(`loop_none_iff`), so `none` is a loop that is never left. -/
def netcomLoop (env : Env) (nc : Netcom α) : Option (Netcom α) :=
  run (netcomIter env) (nc.wrOff - nc.rd1Off + 1) nc

/-! ## `netcom_readcb` -/

/-- `netcom_readcb` up to `bufferevent_read`: it has returned, or it goes on to
ask for `spaceToEnd` bytes. -/
inductive Room (α : Type) where
  | returned (nc : Netcom α)
  | room (nc : Netcom α) (spaceToEnd : Nat)

/-- The reset on `errorflag`. -/
def netcomReset (nc : Netcom α) : Netcom α :=
  { nc with wrOff := 0, rd1Off := 0, rd2Off := 0, rd1End := 0, errorflag := false }

/-- Dropping what is pending. -/
def netcomDrop (nc : Netcom α) : Netcom α := { nc with wrOff := nc.rd1Off }

/-- The move of what is pending to the start of the blob. -/
def netcomRewind (nc : Netcom α) : Netcom α :=
  { nc with
    blob := move nc.blob 0 nc.rd1Off (nc.wrOff - nc.rd1Off)
    wrOff := nc.wrOff - nc.rd1Off
    rd1End := nc.rd1Off
    rd1Off := 0 }

def netcomMakeRoom (nc : Netcom α) : Room α :=
  if nc.errorflag then .returned (netcomReset nc)
  else
    let space := circSpace nc.wrOff nc.rd2Off netcomRdbufferSize
    let spaceToEnd := circSpaceToEnd nc.wrOff nc.rd2Off netcomRdbufferSize
    if space = 0 then .returned (netcomDrop nc)
    else if nc.wrOff > netcomRdbufferForcerewindOffset then
      -- The start of the blob must have room for what is pending and 128 KB more.
      if space > nc.wrOff - nc.rd1Off + netcomRdbufferForcerewindSize then
        .room (netcomRewind nc) (circSpaceToEnd (nc.wrOff - nc.rd1Off) nc.rd2Off netcomRdbufferSize)
      else .returned (netcomDrop nc)
    else .room nc spaceToEnd

/-- `bufferevent_read` putting `chunk` at `wr_off`. -/
def netcomReceive (nc : Netcom α) (chunk : List UInt8) : Netcom α :=
  { nc with blob := store nc.blob nc.wrOff chunk, wrOff := nc.wrOff + chunk.length }

/-- `netcom_readcb`, with `chunk` what `bufferevent_read` returns; where the
source drains the input instead, `chunk` is lost. -/
def netcomReadcb (env : Env) (nc : Netcom α) (chunk : List UInt8) : Option (Netcom α) :=
  match netcomMakeRoom nc with
  | .returned nc' => some nc'
  | .room nc' _ => netcomLoop env (netcomReceive nc' chunk)

/-- `bufferevent_read` returns at most the bytes it is asked for. -/
def Fits (nc : Netcom α) (chunk : List UInt8) : Prop :=
  match netcomMakeRoom nc with
  | .returned _ => True
  | .room _ spaceToEnd => chunk.length ≤ spaceToEnd

instance (nc : Netcom α) (chunk : List UInt8) : Decidable (Fits nc chunk) :=
  match h : netcomMakeRoom nc with
  | .returned _ => .isTrue (by simp [Fits, h])
  | .room _ spaceToEnd => decidable_of_iff (chunk.length ≤ spaceToEnd) (by simp [Fits, h])

/-! ## The other operations -/

def l0006NetcomStop (nc : Netcom α) : Netcom α := { nc with rx := false, rd2Off := nc.rd1Off }

def l0006NetcomStart (nc : Netcom α) : Netcom α := { nc with rx := true }

def l0006NetcomGetseqno (nc : Netcom α) : UInt8 × Netcom α := (nc.seqno, { nc with seqno := nc.seqno + 1 })

def l0006NetcomWrbufferMax : Nat := 16

/-- The state `netcom_allocate_buffer` leaves in a zeroed `nc`: `list_add` puts
each slot in front of the earlier ones. -/
def netcomAllocateBuffer [Inhabited α] : Netcom α where
  seqno := 0
  connected := false
  rx := false
  bev := none
  unused := (List.range l0006NetcomWrbufferMax).reverse.map (fun i => ⟨i, ⟨0, 0⟩, default, 0⟩)
  used := []
  blob := fun _ => 0
  rd1Off := 0
  rd2Off := 0
  wrOff := 0
  rd1End := 0
  errorflag := false
  tods := 0
  log := []

end CmdAgent

import Mathlib.Data.List.Nodup
import Mathlib.Data.List.Perm.Basic
import CmdAgent.Command
import CmdAgent.RingBuffer
/-!
# The command slots

`netcom_allocate_buffer` makes `L0006_NETCOM_WRBUFFER_MAX` slots. A command that waits
for its acknowledgement holds one in `wrbuf_used_list` until `netcom_readcb` or
`netcom_timeoutcb` calls its action callback and gives the slot back. Each of these
runs under the lock of `nc`, so it is one step. `Moves` says what such a step does to
the lists; everything about runs follows from it.
-/
open StreamLib.Loop StreamLib.Runs

namespace CmdAgent

variable {α : Type} {env : Env} {nc : Netcom α}

/-! ## `netcom_timeoutcb` -/

/-- The scan for at most `n` entries, and the entries whose callback was called with
`timedout` set. The next entry is fetched before the list changes. -/
def netcomTimeoutScan (now : Timespec) : Nat → Netcom α → Netcom α × List (NetcomWrbuf α)
  | 0, nc => (nc, [])
  | n + 1, nc =>
    match netcomExpired nc now with
    | none => (nc, [])
    | some ncwrbuf =>
      let r := netcomTimeoutScan now n (netcomExpire nc ncwrbuf)
      (r.1, ncwrbuf :: r.2)

def netcomTimeoutcb (nc : Netcom α) (now : Timespec) : Netcom α × List (NetcomWrbuf α) :=
  netcomTimeoutScan now nc.used.length nc

/-- What `netcom_timeoutcb` finds too old. -/
def fires (now : Timespec) (ncwrbuf : NetcomWrbuf α) : Bool :=
  l0001Timespecelapsed now ncwrbuf.ts > l0006NetcomTimeoutPeriodMs

theorem expired_cons {now : Timespec} {ncwrbuf : NetcomWrbuf α} {used : List (NetcomWrbuf α)}
    (h : nc.used = ncwrbuf :: used) : netcomExpired nc now = if fires now ncwrbuf then some ncwrbuf else none := by
  simp [netcomExpired, h, fires]

theorem timeoutScan_eq {now : Timespec} {used : List (NetcomWrbuf α)} (h : nc.used = used) :
    netcomTimeoutScan now used.length nc =
      ({ nc with
          used := used.dropWhile (fires now)
          unused := nc.unused ++ used.takeWhile (fires now) },
        used.takeWhile (fires now)) := by
  induction used generalizing nc with
  | nil =>
    rw [List.length_nil, netcomTimeoutScan, List.dropWhile_nil, List.takeWhile_nil, List.append_nil, ← h]
  | cons ncwrbuf used ih =>
    rw [List.length_cons, netcomTimeoutScan, expired_cons h]
    by_cases hf : fires now ncwrbuf = true
    · have hrest : (netcomExpire nc ncwrbuf).used = used := by rw [netcomExpire, h, List.tail_cons]
      rw [if_pos hf, List.takeWhile_cons_of_pos hf, List.dropWhile_cons_of_pos hf]
      dsimp only
      rw [ih hrest, netcomExpire, List.append_assoc, List.singleton_append]
    · rw [if_neg hf, List.takeWhile_cons_of_neg hf, List.dropWhile_cons_of_neg hf, List.append_nil, ← h]

theorem timeoutcb_eq (nc : Netcom α) (now : Timespec) :
    netcomTimeoutcb nc now =
      ({ nc with
          used := nc.used.dropWhile (fires now)
          unused := nc.unused ++ nc.used.takeWhile (fires now) },
        nc.used.takeWhile (fires now)) :=
  timeoutScan_eq rfl

/-! ## What a step does to the lists -/

/-- Between `nc` and `t` the entries `called` have left `wrbuf_used_list`, the others
stay in their order, and the slots are given back. -/
structure Moves (nc : Netcom α) (called : List (NetcomWrbuf α)) (t : Netcom α) : Prop where
  used : (called ++ t.used).Perm nc.used
  order : t.used.Sublist nc.used
  unused : t.unused = nc.unused ++ called
  seqno : t.seqno = nc.seqno

theorem Moves.refl (nc : Netcom α) : Moves nc [] nc := ⟨.refl _, .refl _, (List.append_nil _).symm, rfl⟩

theorem Moves.trans {t u : Netcom α} {called called' : List (NetcomWrbuf α)} (h : Moves nc called t)
    (h' : Moves t called' u) : Moves nc (called ++ called') u where
  used := by
    rw [List.append_assoc]
    exact (h'.used.append_left called).trans h.used
  order := h'.order.trans h.order
  unused := by rw [h'.unused, h.unused, List.append_assoc]
  seqno := h'.seqno.trans h.seqno

theorem timeoutcb_moves (nc : Netcom α) (now : Timespec) :
    Moves nc (netcomTimeoutcb nc now).2 (netcomTimeoutcb nc now).1 := by
  rw [timeoutcb_eq]
  refine ⟨?_, List.dropWhile_sublist _, rfl, rfl⟩
  rw [List.takeWhile_append_dropWhile]

/-! ### The receiver -/

/-- A search of the used list. -/
def NetcomEv.IsLookup : NetcomEv α → Prop
  | .lookup .. => True
  | _ => False

/-- The entry of a search whose callback was called, with the packet. -/
def NetcomEv.call? : NetcomEv α → Option (NetcomWrbuf α × List UInt8)
  | .lookup _ packet (some ncwrbuf) => some (ncwrbuf, packet)
  | _ => none

theorem calls_nil {evs : List (NetcomEv α)} (hevs : ∀ ev ∈ evs, ¬ ev.IsLookup) : evs.filterMap NetcomEv.call? = [] := by
  refine List.filterMap_eq_nil_iff.2 fun ev hev => ?_
  cases ev with
  | lookup => exact absurd trivial (hevs _ hev)
  | append | drop | discard => rfl

/-- What relates the state before to the state after whatever the receiver does: it holds
across a search, and across what leaves the commands alone. -/
structure ReceiverRel (R : Netcom α → Netcom α → Prop) : Prop where
  trans : ∀ {nc t u}, R nc t → R t u → R nc u
  lookup : ∀ nc seqno packet, R nc (netcomLookup nc seqno packet)
  frame : ∀ {nc t} evs, t.log = nc.log ++ evs → (∀ ev ∈ evs, ¬ ev.IsLookup) → t.used = nc.used →
    t.unused = nc.unused → t.seqno = nc.seqno → R nc t

namespace ReceiverRel
variable {R : Netcom α → Netcom α → Prop} {t : Netcom α}

/-- A change of other things only. -/
theorem same (hR : ReceiverRel R) (hlog : t.log = nc.log) (hused : t.used = nc.used) (hunused : t.unused = nc.unused)
    (hseqno : t.seqno = nc.seqno) : R nc t :=
  hR.frame [] (hlog.trans (List.append_nil _).symm) nofun hused hunused hseqno

theorem one (hR : ReceiverRel R) {ev : NetcomEv α} (hlog : t.log = nc.log ++ [ev]) (hev : ¬ ev.IsLookup)
    (hused : t.used = nc.used) (hunused : t.unused = nc.unused) (hseqno : t.seqno = nc.seqno) : R nc t := by
  refine hR.frame [ev] hlog (fun e he => ?_) hused hunused hseqno
  rw [List.mem_singleton.1 he]
  exact hev

theorem resync (hR : ReceiverRel R) (nc : Netcom α) : R nc (netcomResync nc).state := by
  unfold netcomResync netcomFindHeader
  generalize findHeaderLoop nc.blob nc.wrOff (nc.wrOff - (nc.rd1Off + netcmdGetpacketheaderlength))
    (nc.rd1Off + netcmdGetpacketheaderlength) = r
  obtain ⟨rd1Off, headFound⟩ := r
  cases headFound with
  | true => exact hR.one (t := netcomDiscard nc rd1Off) rfl id rfl rfl rfl
  | false => exact hR.one (t := netcomDiscard nc rd1Off) rfl id rfl rfl rfl

theorem round (hR : ReceiverRel R) {o : Outcome (Netcom α)} (h : Round env nc o) : R nc o.state := by
  cases h with
  | short | incomplete | partialCommand | zeroStream => exact hR.same rfl rfl rfl rfl
  | badHeader | tooLong | badCrc => exact hR.resync nc
  | append blob => exact hR.one rfl id rfl rfl rfl
  | drop => exact hR.one rfl id rfl rfl rfl
  | command =>
    refine hR.trans (hR.lookup nc (seqnoOf nc.pending) (nc.pending.take (commandLength nc.pending))) ?_
    exact hR.same rfl rfl rfl rfl

theorem loop (hR : ReceiverRel R) (h : netcomLoop env nc = some t) : R nc t := by
  refine run_inv (I := R nc) (Q := R nc) ?_ ?_ (hR.same rfl rfl rfl rfl) h
  · intro s u hs hsu
    exact hR.trans hs (hR.round (round_of hsu))
  · intro s u hs hsu
    exact hR.trans hs (hR.round (round_of hsu))

theorem readcb (hR : ReceiverRel R) {chunk : List UInt8} (h : netcomReadcb env nc chunk = some t) : R nc t := by
  have hready := ready_of nc
  unfold netcomReadcb at h
  generalize netcomMakeRoom nc = r at hready h
  cases hready with
  | reset => cases h; exact hR.same rfl rfl rfl rfl
  | drop => cases h; exact hR.same rfl rfl rfl rfl
  | here => exact hR.trans (hR.same (t := netcomReceive nc chunk) rfl rfl rfl rfl) (hR.loop h)
  | rewind => exact hR.trans (hR.same (t := netcomReceive (netcomRewind nc) chunk) rfl rfl rfl rfl) (hR.loop h)

theorem rdStep (hR : ReceiverRel R) {i : RdInput} (h : rdStep env nc i = some t) : R nc t := by
  cases i with
  | readcb chunk => exact hR.readcb h
  | start | stop | consume => cases h; exact hR.same rfl rfl rfl rfl

end ReceiverRel

/-- The receiver went from `nc` to `t` and called the callbacks its log says. -/
def Acks (nc t : Netcom α) : Prop :=
  ∃ evs, t.log = nc.log ++ evs ∧ Moves nc ((evs.filterMap NetcomEv.call?).map Prod.fst) t

theorem acks_of_frame {t : Netcom α} (evs : List (NetcomEv α)) (hlog : t.log = nc.log ++ evs)
    (hevs : ∀ ev ∈ evs, ev.call? = none) (hused : t.used = nc.used) (hunused : t.unused = nc.unused)
    (hseqno : t.seqno = nc.seqno) : Acks nc t := by
  refine ⟨evs, hlog, ?_⟩
  rw [List.filterMap_eq_nil_iff.2 hevs]
  exact ⟨by rw [hused]; exact .refl _, by rw [hused], by simp [hunused], hseqno⟩

theorem acks_lookup (nc : Netcom α) (seqno : UInt8) (packet : List UInt8) :
    Acks nc (netcomLookup nc seqno packet) := by
  cases hf : nc.used.find? (fun ncwrbuf => ncwrbuf.action.seqno == seqno) with
  | none =>
    have he : netcomLookup nc seqno packet = { nc with log := nc.log ++ [.lookup seqno packet none] } := by
      simp only [netcomLookup, hf]
    rw [he]
    exact acks_of_frame [.lookup seqno packet none] rfl (fun ev hev => by rw [List.mem_singleton.1 hev]; rfl) rfl rfl rfl
  | some ncwrbuf =>
    obtain ⟨-, l₁, l₂, hused, hrest⟩ := lookup_used hf packet
    have hlog : (netcomLookup nc seqno packet).log = nc.log ++ [.lookup seqno packet (some ncwrbuf)] := by
      simp only [netcomLookup, hf]
    refine ⟨_, hlog, ?_, ?_, ?_, ?_⟩
    · rw [hused, hrest]
      change (ncwrbuf :: (l₁ ++ l₂)).Perm (l₁ ++ ncwrbuf :: l₂)
      exact List.perm_middle.symm
    · rw [hused, hrest]
      exact (List.Sublist.refl l₁).append (List.sublist_cons_self _ _)
    · simp only [netcomLookup, hf]
      rfl
    · simp only [netcomLookup, hf]

theorem acks_rel : ReceiverRel (@Acks α) where
  trans := by
    rintro nc t u ⟨evs, hlog, hm⟩ ⟨evs', hlog', hm'⟩
    refine ⟨evs ++ evs', by rw [hlog', hlog, List.append_assoc], ?_⟩
    rw [List.filterMap_append, List.map_append]
    exact hm.trans hm'
  lookup := acks_lookup
  frame := by
    intro nc t evs hlog hevs hused hunused hseqno
    exact acks_of_frame evs hlog (List.filterMap_eq_nil_iff.1 (calls_nil hevs)) hused hunused hseqno

/-! ## The steps of the event loop -/

/-- What happens to the commands besides being written. -/
inductive NetcomInput where
  | rd (i : RdInput)
  | timeoutcb (now : Timespec)
  /-- The connection comes up or goes down. -/
  | link (connected : Bool) (bev : Option Nat)

/-- The state afterwards, with the entries whose callback was called and the packet it
was given, or none with `timedout` set. -/
def netcomStep (env : Env) (nc : Netcom α) :
    NetcomInput → Option (Netcom α × List (NetcomWrbuf α × Option (List UInt8)))
  | .rd i => (rdStep env nc i).map fun t =>
    (t, ((t.log.drop nc.log.length).filterMap NetcomEv.call?).map fun c => (c.1, some c.2))
  | .timeoutcb now =>
    let r := netcomTimeoutcb nc now
    some (r.1, r.2.map fun ncwrbuf => (ncwrbuf, none))
  | .link connected bev => some ({ nc with connected := connected, bev := bev }, [])

theorem netcomStep_moves {i : NetcomInput} {t : Netcom α} {called : List (NetcomWrbuf α × Option (List UInt8))}
    (h : netcomStep env nc i = some (t, called)) : Moves nc (called.map Prod.fst) t := by
  cases i with
  | rd i =>
    obtain ⟨u, hu, he⟩ := Option.map_eq_some_iff.1 h
    cases he
    obtain ⟨evs, hlog, hm⟩ := acks_rel.rdStep hu
    rw [hlog, List.drop_left, List.map_map]
    exact hm
  | timeoutcb now =>
    cases h
    rw [List.map_map]
    simpa [Function.comp_def] using timeoutcb_moves nc now
  | link connected bev =>
    cases h
    exact ⟨.refl _, .refl _, (List.append_nil _).symm, rfl⟩

/-! ## Runs -/

/-- The receiver with the history of its commands. A command accepted with `ack` set
is marked with its place in `accepted`; `nc` never looks at the mark. -/
structure Pool (α : Type) where
  nc : Netcom (Nat × α)
  accepted : List (NetcomAction (Nat × α))
  calls : List (NetcomWrbuf (Nat × α) × Option (List UInt8))

inductive PoolEv (α : Type) where
  | write (ncaction : NetcomAction α) (ack : Bool) (ts : Timespec) (added : Bool)
  | netcom (i : NetcomInput)

/-- The action of the next command. -/
def Pool.mark (p : Pool α) (ncaction : NetcomAction α) : NetcomAction (Nat × α) :=
  ⟨(p.accepted.length, ncaction.cb), ncaction.seqno⟩

def Pool.write (p : Pool α) (ncaction : NetcomAction α) (ack : Bool) (ts : Timespec) (added : Bool) :
    Int × Netcom (Nat × α) :=
  l0006NetcomWrite p.nc (p.mark ncaction) ack ts added

def Pool.step (env : Env) (p : Pool α) : PoolEv α → Option (Pool α)
  | .write ncaction ack ts added =>
    let r := p.write ncaction ack ts added
    some { p with
      nc := r.2
      accepted := if r.1 = 0 ∧ ack = true then p.accepted ++ [p.mark ncaction] else p.accepted }
  | .netcom i => (netcomStep env p.nc i).map fun r => { p with nc := r.1, calls := p.calls ++ r.2 }

def Pool.init [Inhabited α] : Pool α := ⟨netcomAllocateBuffer, [], []⟩

/-! ### Writes -/

/-- A write that is not accepted, or does not wait, leaves the lists as they are; an
accepted one that waits moves the first slot to the end of the used list. -/
inductive Written (nc : Netcom α) (ncaction : NetcomAction α) (ack : Bool) (ts : Timespec) :
    Int × Netcom α → Prop
  | same {t : Netcom α} {retval : Int} : retval < 0 ∨ ack = false → t.used = nc.used →
      t.unused.map NetcomWrbuf.slot = nc.unused.map NetcomWrbuf.slot → t.seqno = nc.seqno →
      Written nc ncaction ack ts (retval, t)
  | queued {t : Netcom α} (slot : Nat) : ack = true →
      nc.unused.map NetcomWrbuf.slot = slot :: t.unused.map NetcomWrbuf.slot →
      t.used = nc.used ++ [⟨slot, ts, ncaction⟩] → t.seqno = nc.seqno → Written nc ncaction ack ts (0, t)

theorem written_of (nc : Netcom α) (ncaction : NetcomAction α) (ack : Bool) (ts : Timespec) (added : Bool) :
    Written nc ncaction ack ts (l0006NetcomWrite nc ncaction ack ts added) := by
  unfold l0006NetcomWrite
  split
  · split
    · rename_i ncwrbuf unused _ hun _
      cases added with
      | false => exact .same (.inl (by decide)) rfl (by rw [hun]; rfl) rfl
      | true =>
        cases ack with
        | false => exact .same (.inr rfl) rfl (by rw [hun]; rfl) rfl
        | true => exact .queued ncwrbuf.slot rfl (by rw [hun]; rfl) rfl rfl
    · exact .same (.inl (by decide)) rfl rfl rfl
  · exact .same (.inl (by decide)) rfl rfl rfl

/-! ### The invariant -/

/-- The slots in the two lists. -/
def Netcom.slots (nc : Netcom α) : List Nat := (nc.unused ++ nc.used).map NetcomWrbuf.slot

structure Pool.Inv (p : Pool α) : Prop where
  slots : p.nc.slots.Perm (List.range l0006NetcomWrbufferMax)
  marks : p.accepted.map (fun ncaction => ncaction.cb.1) = List.range p.accepted.length
  /-- Each accepted command has been called or still waits. -/
  custody : (p.calls.map (fun c => c.1.action) ++ p.nc.used.map NetcomWrbuf.action).Perm p.accepted

theorem allocateBuffer_slots [Inhabited α] :
    (netcomAllocateBuffer : Netcom α).slots.Perm (List.range l0006NetcomWrbufferMax) := by
  have h : (netcomAllocateBuffer : Netcom α).slots = (List.range l0006NetcomWrbufferMax).reverse := by
    simp [Netcom.slots, netcomAllocateBuffer, Function.comp_def]
  rw [h]
  exact List.reverse_perm _

theorem Pool.init_inv [Inhabited α] : (Pool.init : Pool α).Inv where
  slots := allocateBuffer_slots
  marks := rfl
  custody := .refl _

/-- Slots only change hands. -/
theorem Moves.slots {t : Netcom α} {called : List (NetcomWrbuf α)} (h : Moves nc called t) :
    t.slots.Perm nc.slots := by
  unfold Netcom.slots
  rw [h.unused, List.append_assoc]
  exact (h.used.append_left _).map _

theorem Pool.Inv.step {p q : Pool α} {ev : PoolEv α} (h : p.Inv) (hstep : p.step env ev = some q) : q.Inv := by
  cases ev with
  | write ncaction ack ts added =>
    cases hstep
    have hw : Written p.nc (p.mark ncaction) ack ts (p.write ncaction ack ts added) := written_of _ _ _ _ _
    generalize p.write ncaction ack ts added = r at hw
    cases hw with
    | @same t retval hret hused hunused _ =>
      have hno : ¬ (retval = 0 ∧ ack = true) := by
        rintro ⟨h0, ha⟩
        rcases hret with hlt | hf
        · omega
        · rw [ha] at hf
          cases hf
      refine ⟨?_, ?_, ?_⟩
      · have hs := h.slots
        rw [Netcom.slots, List.map_append] at hs ⊢
        rw [hused, hunused]
        exact hs
      · rw [if_neg hno]
        exact h.marks
      · rw [if_neg hno, hused]
        exact h.custody
    | queued slot hack hslot hused =>
      rw [if_pos ⟨rfl, hack⟩]
      refine ⟨?_, ?_, ?_⟩
      · have hs := h.slots
        rw [Netcom.slots, List.map_append] at hs ⊢
        rw [hslot] at hs
        rw [hused, List.map_append]
        refine .trans ?_ hs
        rw [List.map_singleton, ← List.append_assoc]
        exact List.perm_append_singleton _ _
      · rw [List.map_append, h.marks, List.length_append, List.range_add]
        rfl
      · rw [hused, List.map_append, ← List.append_assoc]
        exact h.custody.append_right _
  | netcom i =>
    obtain ⟨⟨t, called⟩, ht, rfl⟩ := Option.map_eq_some_iff.1 hstep
    have hm := netcomStep_moves ht
    refine ⟨hm.slots.trans h.slots, h.marks, ?_⟩
    refine .trans ?_ h.custody
    rw [List.map_append, List.append_assoc]
    refine .append_left _ ?_
    have hp := hm.used.map NetcomWrbuf.action
    rw [List.map_append, List.map_map] at hp
    exact hp

/-! ### Each command is called once -/

/-- The calls of the callback of the `n`th accepted command. -/
def Pool.callsOf (p : Pool α) (n : Nat) : List (NetcomWrbuf (Nat × α) × Option (List UInt8)) :=
  p.calls.filter fun c => c.1.action.cb.1 = n

/-- The `n`th accepted command is in the used list. -/
def Pool.Waits (p : Pool α) (n : Nat) : Prop := ∃ ncwrbuf ∈ p.nc.used, ncwrbuf.action.cb.1 = n

/-- Of elements numbered by their place there is one with each number. -/
theorem filter_of_numbered {β : Type} {l : List β} {f : β → Nat} (h : l.map f = List.range l.length) {n : Nat} {b : β}
    (hb : l[n]? = some b) : l.filter (fun x => f x = n) = [b] := by
  obtain ⟨hlt, rfl⟩ := List.getElem?_eq_some_iff.1 hb
  have hf : f l[n] = n := by
    have := congrArg (fun m => m[n]?) h
    simpa [hlt] using this
  have hone : (l.filter (fun x => f x = n)).length = 1 := by
    have hcount : (l.map f).count n = 1 := by
      rw [h]
      exact List.count_eq_one_of_mem List.nodup_range (List.mem_range.2 hlt)
    rw [← hcount, List.count, List.countP_map, List.countP_eq_length_filter]
    rfl
  obtain ⟨x, hx⟩ := List.length_eq_one_iff.1 hone
  have hmem : l[n] ∈ l.filter (fun x => f x = n) := List.mem_filter.2 ⟨List.getElem_mem hlt, by simpa using hf⟩
  rw [hx, List.mem_singleton] at hmem
  rw [hx, hmem]

/-- The calls and the waiting entries of one command. -/
theorem Pool.Inv.custodyOf {p : Pool α} (h : p.Inv) {n : Nat} {ncaction : NetcomAction (Nat × α)}
    (ha : p.accepted[n]? = some ncaction) :
    (p.callsOf n).map (fun c => c.1.action) ++
      (p.nc.used.filter (fun ncwrbuf => ncwrbuf.action.cb.1 = n)).map NetcomWrbuf.action = [ncaction] := by
  have hp := h.custody.filter (fun a => a.cb.1 = n)
  rw [filter_of_numbered h.marks ha, List.filter_append, List.filter_map, List.filter_map] at hp
  exact List.perm_singleton.1 hp

theorem Pool.Inv.called_once {p : Pool α} (h : p.Inv) {n : Nat} {ncaction : NetcomAction (Nat × α)}
    (ha : p.accepted[n]? = some ncaction) :
    (p.Waits n → p.callsOf n = []) ∧ (¬ p.Waits n → ∃ c, p.callsOf n = [c] ∧ c.1.action = ncaction) := by
  have hc := h.custodyOf ha
  constructor
  · rintro ⟨ncwrbuf, hmem, hn⟩
    have hin : ncwrbuf ∈ p.nc.used.filter (fun ncwrbuf => ncwrbuf.action.cb.1 = n) :=
      List.mem_filter.2 ⟨hmem, by simpa using hn⟩
    have hlen := congrArg List.length hc
    rw [List.length_append, List.length_map, List.length_map, List.length_singleton] at hlen
    have hpos := List.length_pos_of_mem hin
    exact List.eq_nil_of_length_eq_zero (by omega)
  · intro hw
    have hnone : p.nc.used.filter (fun ncwrbuf => ncwrbuf.action.cb.1 = n) = [] := by
      rw [List.filter_eq_nil_iff]
      intro ncwrbuf hmem hn
      exact hw ⟨ncwrbuf, hmem, by simpa using hn⟩
    rw [hnone, List.map_nil, List.append_nil, List.map_eq_singleton_iff] at hc
    exact hc

/-- In every run from `netcom_allocate_buffer` the slots of the two lists are all of
them, each once; a write that fails or does not wait changes neither list; and an
accepted command that waits has its callback called once when its entry has left the
used list, and not before. -/
theorem slots_conserved [Inhabited α] (env : Env) (evs : List (PoolEv α)) (p : Pool α)
    (hrun : exec (Pool.step env) Pool.init evs = some p) :
    (p.nc.slots.Nodup ∧ ∀ slot, slot ∈ p.nc.slots ↔ slot < l0006NetcomWrbufferMax) ∧
      (∀ ncaction ack ts added, (p.write ncaction ack ts added).1 < 0 ∨ ack = false →
        (p.write ncaction ack ts added).2.used = p.nc.used ∧
          (p.write ncaction ack ts added).2.unused.map NetcomWrbuf.slot = p.nc.unused.map NetcomWrbuf.slot) ∧
      ∀ n ncaction, p.accepted[n]? = some ncaction →
        (p.Waits n → p.callsOf n = []) ∧ (¬ p.Waits n → ∃ c, p.callsOf n = [c] ∧ c.1.action = ncaction) := by
  have hinv : p.Inv := exec_inv_all (fun _ _ _ hs hst => hs.step hst) Pool.init_inv hrun
  refine ⟨⟨hinv.slots.nodup_iff.2 List.nodup_range, ?_⟩, ?_, ?_⟩
  · intro slot
    rw [hinv.slots.mem_iff, List.mem_range]
  · intro ncaction ack ts added hno
    have hw : Written p.nc (p.mark ncaction) ack ts (p.write ncaction ack ts added) := written_of _ _ _ _ _
    generalize p.write ncaction ack ts added = r at hw hno
    cases hw with
    | same _ hused hunused => exact ⟨hused, hunused⟩
    | queued slot hack =>
      rcases hno with hlt | hf
      · cases hlt
      · rw [hack] at hf
        cases hf
  · intro n ncaction ha
    exact hinv.called_once ha

/-- Three commands, of which one is not sent; one is acknowledged, the other is too old. -/
def ackedAndExpired : List (PoolEv Unit) :=
  [.netcom (.link true (some 0)), .write ⟨(), 0⟩ true ⟨0, 0⟩ true, .write ⟨(), 1⟩ true ⟨1, 0⟩ false,
    .write ⟨(), 2⟩ true ⟨1, 0⟩ true, .netcom (.rd (.readcb buzzack)), .netcom (.timeoutcb ⟨5, 0⟩)]

theorem slots_conserved_acked : ∃ p, exec (Pool.step .still) Pool.init ackedAndExpired = some p ∧
    (p.nc.slots.Nodup ∧ ∀ slot, slot ∈ p.nc.slots ↔ slot < 16) ∧
      (∀ ncaction ack ts added, (p.write ncaction ack ts added).1 < 0 ∨ ack = false →
        (p.write ncaction ack ts added).2.used = p.nc.used ∧
          (p.write ncaction ack ts added).2.unused.map NetcomWrbuf.slot = p.nc.unused.map NetcomWrbuf.slot) ∧
      ∀ n ncaction, p.accepted[n]? = some ncaction →
        (p.Waits n → p.callsOf n = []) ∧ (¬ p.Waits n → ∃ c, p.callsOf n = [c] ∧ c.1.action = ncaction) := by
  obtain ⟨p, hp⟩ := Option.isSome_iff_exists.1
    (by decide +kernel : (exec (Pool.step .still) Pool.init ackedAndExpired).isSome)
  exact ⟨p, hp, slots_conserved .still ackedAndExpired p hp⟩

end CmdAgent

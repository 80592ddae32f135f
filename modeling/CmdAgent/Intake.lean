import CmdAgent.RingBuffer
/-!
# What the reads of a run take in

`netcom_readcb` reads, or finds no room and drains its input, and what was pending
with it. Every byte that has arrived is handled in a frame, moved over by
`netcom_find_header`, still pending, or lost in a drain. Reads that lose nothing
hand the stream to the packet loop, whatever the consumer does meanwhile and
wherever the buffer is rewound.
-/
open StreamLib.Mem StreamLib.Loop StreamLib.Runs StreamLib.Framing

namespace CmdAgent

variable {α : Type} {env : Env} {nc : Netcom α}

/-! ## One read -/

/-- A callback goes on to read. -/
def HasRoom (nc : Netcom α) : Prop :=
  match netcomMakeRoom nc with
  | .returned _ => False
  | .room _ _ => True

instance (nc : Netcom α) : Decidable (HasRoom nc) :=
  match h : netcomMakeRoom nc with
  | .returned _ => .isFalse (by simp [HasRoom, h])
  | .room _ _ => .isTrue (by simp [HasRoom, h])

/-- What the packet loop starts from: what was pending, and the chunk behind it. -/
structure Takes (nc : Netcom α) (chunk : List UInt8) (u : Netcom α) : Prop where
  le : u.rd1Off ≤ u.wrOff
  pending : u.pending = nc.pending ++ chunk
  rx : u.rx = nc.rx
  log : u.log = nc.log

theorem readcb_room (env : Env) (h : HasRoom nc) (hle : nc.rd1Off ≤ nc.wrOff) (chunk : List UInt8) :
    ∃ u, netcomReadcb env nc chunk = netcomLoop env u ∧ Takes nc chunk u := by
  have hready := ready_of nc
  cases hr : netcomMakeRoom nc with
  | returned nc' => simp [HasRoom, hr] at h
  | room nc' spaceToEnd =>
    rw [hr] at hready
    have hreadcb : netcomReadcb env nc chunk = netcomLoop env (netcomReceive nc' chunk) := by
      unfold netcomReadcb
      rw [hr]
    refine ⟨netcomReceive nc' chunk, hreadcb, ?_⟩
    cases hready with
    | here => exact ⟨Nat.le_trans hle (Nat.le_add_right _ _), pending_receive chunk hle, rfl, rfl⟩
    | rewind =>
      have hle' : (netcomRewind nc).rd1Off ≤ (netcomRewind nc).wrOff := Nat.zero_le _
      refine ⟨Nat.zero_le _, ?_, rfl, rfl⟩
      rw [pending_receive chunk hle', pending_rewind]

/-- Nothing is pending after a drain. -/
structure Drained (nc t : Netcom α) : Prop where
  offsets : t.rd1Off = t.wrOff
  rx : t.rx = nc.rx
  log : t.log = nc.log

theorem Drained.pending_eq {t : Netcom α} (h : Drained nc t) : t.pending = [] := by
  refine List.eq_nil_of_length_eq_zero ?_
  rw [length_pending, h.offsets, Nat.sub_self]

theorem readcb_drained (env : Env) (h : ¬ HasRoom nc) (chunk : List UInt8) :
    ∃ t, netcomReadcb env nc chunk = some t ∧ Drained nc t := by
  have hready := ready_of nc
  cases hr : netcomMakeRoom nc with
  | room nc' spaceToEnd => simp [HasRoom, hr] at h
  | returned nc' =>
    rw [hr] at hready
    have hreadcb : netcomReadcb env nc chunk = some nc' := by
      unfold netcomReadcb
      rw [hr]
    refine ⟨nc', hreadcb, ?_⟩
    cases hready with
    | reset | drop => exact ⟨rfl, rfl, rfl⟩

/-! ## The bytes a run takes in -/

/-- The bytes a step takes in. -/
def RdInput.bytes : RdInput → List UInt8
  | .readcb chunk => chunk
  | .start | .stop | .consume _ => []

/-- What a call of `netcom_readcb` does with the bytes that have come. -/
inductive Intake where
  | read (n : Nat)
  /-- There is no room: what is pending and what has come, `n` bytes, are thrown away. -/
  | drained (n : Nat)
  deriving DecidableEq

def intake (nc : Netcom α) : RdInput → List Intake
  | .readcb chunk => if HasRoom nc then [.read chunk.length] else [.drained (nc.pending.length + chunk.length)]
  | .start | .stop | .consume _ => []

/-- What the calls of a run do with the bytes that have come. -/
def intakes (env : Env) : Netcom α → List RdInput → List Intake
  | _, [] => []
  | nc, i :: is => intake nc i ++ (rdStep env nc i).elim [] fun t => intakes env t is

/-- How many bytes are thrown away. -/
def Intake.lost : Intake → Nat
  | .read _ => 0
  | .drained n => n

def lost (cs : List Intake) : Nat := (cs.map Intake.lost).sum

@[simp] theorem lost_nil : lost [] = 0 := rfl

@[simp] theorem lost_cons (c : Intake) (cs : List Intake) : lost (c :: cs) = c.lost + lost cs := rfl

theorem lost_append (cs cs' : List Intake) : lost (cs ++ cs') = lost cs + lost cs' := by
  rw [lost, List.map_append, List.sum_append, lost, lost]

theorem intakes_cons {i : RdInput} {t : Netcom α} (is : List RdInput) (h : rdStep env nc i = some t) :
    intakes env nc (i :: is) = intake nc i ++ intakes env t is := by
  rw [intakes, h, Option.elim]

/-- A run whose steps lose nothing. -/
theorem lost_intakes {is : List RdInput} (h : Along (rdStep env) (fun nc i => lost (intake nc i) = 0) nc is) :
    lost (intakes env nc is) = 0 := by
  induction is generalizing nc with
  | nil => rfl
  | cons i is ih =>
    rw [intakes, lost_append, h.1, Nat.zero_add]
    cases hst : rdStep env nc i with
    | none => rfl
    | some t => exact ih (h.2 t hst)

/-- A step after which RX is what it was. -/
def KeepsRx (nc : Netcom α) : RdInput → Prop
  | .start => nc.rx = true
  | .stop => nc.rx = false
  | .readcb _ | .consume _ => True

instance (nc : Netcom α) : (i : RdInput) → Decidable (KeepsRx nc i)
  | .start => inferInstanceAs (Decidable (nc.rx = true))
  | .stop => inferInstanceAs (Decidable (nc.rx = false))
  | .readcb _ | .consume _ => .isTrue trivial

/-- A step that reads nothing leaves alone what is pending. -/
theorem rdStep_quiet (env : Env) {i : RdInput} (hrx : KeepsRx nc i) (h : ∀ chunk, i ≠ .readcb chunk) :
    ∃ t, rdStep env nc i = some t ∧ t.pending = nc.pending ∧ t.rx = nc.rx ∧ t.log = nc.log ∧
      (t.rd1Off ≤ t.wrOff ↔ nc.rd1Off ≤ nc.wrOff) ∧ i.bytes = [] ∧ intake nc i = [] := by
  cases i with
  | readcb chunk => exact absurd rfl (h chunk)
  | start => exact ⟨_, rfl, rfl, hrx.symm, rfl, Iff.rfl, rfl, rfl⟩
  | stop => exact ⟨_, rfl, rfl, hrx.symm, rfl, Iff.rfl, rfl, rfl⟩
  | consume => exact ⟨_, rfl, rfl, rfl, rfl, Iff.rfl, rfl, rfl⟩

/-! ## Every byte is accounted for -/

/-- The bytes an event is about. -/
def NetcomEv.bytes : NetcomEv α → List UInt8
  | .lookup _ packet _ | .append packet _ | .drop packet => packet
  | .discard bytes => bytes

/-- The bytes that have been dealt with, and those pending. -/
def Netcom.weight (nc : Netcom α) : Nat := (nc.log.map fun ev => ev.bytes.length).sum + nc.pending.length

theorem weight_log {t : Netcom α} (ev : NetcomEv α) (hlog : t.log = nc.log ++ [ev])
    (hpending : t.pending.length + ev.bytes.length = nc.pending.length) : t.weight = nc.weight := by
  unfold Netcom.weight
  rw [hlog, List.map_append, List.sum_append, List.map_singleton, List.sum_singleton]
  omega

theorem weight_resync (h : nc.rd1Off + 8 ≤ nc.wrOff) : (netcomResync nc).state.weight = nc.weight := by
  obtain ⟨p, hp, hp', -, hr⟩ := resync_cases h
  have hdiscard : (netcomDiscard nc p).weight = nc.weight := by
    refine weight_log (.discard (slice nc.blob nc.rd1Off (p - nc.rd1Off))) rfl ?_
    simp only [length_pending, netcomDiscard, NetcomEv.bytes, length_slice]
    omega
  generalize netcomResync nc = o at hr ⊢
  cases hr with
  | found | notFound => exact hdiscard

/-- A round takes bytes off the front only to deal with them. -/
theorem Round.weight {o : Outcome (Netcom α)} (h : Round env nc o) : o.state.weight = nc.weight := by
  have hlen := length_pending nc
  cases h with
  | short | incomplete | partialCommand | zeroStream => rfl
  | badHeader h8 | tooLong h8 | badCrc h8 => exact weight_resync (by omega)
  | append blob h8 _ _ _ _ hn =>
    refine weight_log (.append (nc.pending.take (lengthOf nc.pending)) (env.gettimeofday nc.tods)) rfl ?_
    simp only [Outcome.state, length_pending, NetcomEv.bytes, List.length_take]
    omega
  | drop h8 _ _ _ _ hn =>
    refine weight_log (.drop (nc.pending.take (lengthOf nc.pending))) rfl ?_
    simp only [Outcome.state, netcomRemove, length_pending, NetcomEv.bytes, List.length_take]
    omega
  | command h8 _ _ hn =>
    obtain ⟨hit, un, us, he⟩ := lookup_frame nc (seqnoOf nc.pending) (nc.pending.take (commandLength nc.pending))
    rw [he]
    refine weight_log (.lookup (seqnoOf nc.pending) (nc.pending.take (commandLength nc.pending)) hit) rfl ?_
    simp only [Outcome.state, netcomRemove, length_pending, NetcomEv.bytes, List.length_take]
    omega

theorem loop_weight {t : Netcom α} (h : netcomLoop env nc = some t) : t.weight = nc.weight := by
  refine run_inv (I := fun s => s.weight = nc.weight) (Q := fun t => t.weight = nc.weight) ?_ ?_ rfl h
  · intro s u hs hsu
    exact (round_of hsu).weight.trans hs
  · intro s u hs hsu
    exact (round_of hsu).weight.trans hs

theorem rdStep_weight {i : RdInput} {t : Netcom α} (hle : nc.rd1Off ≤ nc.wrOff) (ht : rdStep env nc i = some t) :
    t.rd1Off ≤ t.wrOff ∧ t.weight + lost (intake nc i) = nc.weight + i.bytes.length := by
  cases i with
  | start | stop | consume =>
    cases ht
    exact ⟨hle, rfl⟩
  | readcb chunk =>
    by_cases hroom : HasRoom nc
    · obtain ⟨u, hu, htakes⟩ := readcb_room env hroom hle chunk
      have hloop : netcomLoop env u = some t := hu.symm.trans ht
      refine ⟨(loop_keeps htakes.le hloop).1.le, ?_⟩
      have hweight := loop_weight hloop
      have hlen := congrArg List.length htakes.pending
      rw [List.length_append] at hlen
      simp only [intake, if_pos hroom, lost_cons, lost_nil, Intake.lost, RdInput.bytes]
      rw [hweight, Netcom.weight, Netcom.weight, htakes.log, hlen]
      omega
    · obtain ⟨u, hu, hd⟩ := readcb_drained env hroom chunk
      obtain rfl : u = t := Option.some.inj (hu.symm.trans ht)
      refine ⟨Nat.le_of_eq hd.offsets, ?_⟩
      simp only [intake, if_neg hroom, lost_cons, lost_nil, Intake.lost, RdInput.bytes]
      rw [Netcom.weight, Netcom.weight, hd.pending_eq, hd.log, List.length_nil]
      omega

/-- What has arrived in a run is in the log, pending or lost. -/
theorem run_weight {is : List RdInput} {t : Netcom α} (hle : nc.rd1Off ≤ nc.wrOff)
    (ht : exec (rdStep env) nc is = some t) :
    t.weight + lost (intakes env nc is) = nc.weight + (is.flatMap RdInput.bytes).length := by
  induction is generalizing nc with
  | nil =>
    cases ht
    rfl
  | cons i is ih =>
    obtain ⟨u, hu, ht⟩ := exec_cons_eq_some.1 ht
    obtain ⟨hle', hstep⟩ := rdStep_weight hle hu
    have hrest := ih hle' ht
    rw [intakes_cons is hu, lost_append, List.flatMap_cons, List.length_append]
    omega

/-- The same for what a run adds to the log. -/
theorem run_weight_log {is : List RdInput} {t : Netcom α} {evs : List (NetcomEv α)} (hle : nc.rd1Off ≤ nc.wrOff)
    (ht : exec (rdStep env) nc is = some t) (hlog : t.log = nc.log ++ evs) :
    (evs.map fun ev => ev.bytes.length).sum + t.pending.length + lost (intakes env nc is) =
      nc.pending.length + (is.flatMap RdInput.bytes).length := by
  have h := run_weight hle ht
  rw [Netcom.weight, Netcom.weight, hlog, List.map_append, List.sum_append] at h
  omega

theorem rdStep_rx {i : RdInput} {t : Netcom α} (hle : nc.rd1Off ≤ nc.wrOff) (hrx : KeepsRx nc i)
    (ht : rdStep env nc i = some t) : t.rx = nc.rx := by
  by_cases hi : ∀ chunk, i ≠ .readcb chunk
  · obtain ⟨u, hu, -, hrxu, -⟩ := rdStep_quiet env hrx hi
    cases hu.symm.trans ht
    exact hrxu
  obtain ⟨chunk, rfl⟩ := not_forall_not.1 hi
  by_cases hroom : HasRoom nc
  · obtain ⟨u, hu, htakes⟩ := readcb_room env hroom hle chunk
    exact (loop_keeps htakes.le (hu.symm.trans ht)).1.rx.trans htakes.rx
  · obtain ⟨u, hu, hd⟩ := readcb_drained env hroom chunk
    obtain rfl : u = t := Option.some.inj (hu.symm.trans ht)
    exact hd.rx

theorem rdStep_log {i : RdInput} {t : Netcom α} (hle : nc.rd1Off ≤ nc.wrOff) (ht : rdStep env nc i = some t) :
    ∃ evs, t.log = nc.log ++ evs := by
  cases i with
  | start | stop | consume =>
    cases ht
    exact ⟨[], (List.append_nil _).symm⟩
  | readcb chunk =>
    by_cases hroom : HasRoom nc
    · obtain ⟨u, hu, htakes⟩ := readcb_room env hroom hle chunk
      obtain ⟨evs, hl⟩ := (loop_keeps htakes.le (hu.symm.trans ht)).1.log
      exact ⟨evs, htakes.log ▸ hl⟩
    · obtain ⟨u, hu, hd⟩ := readcb_drained env hroom chunk
      obtain rfl : u = t := Option.some.inj (hu.symm.trans ht)
      exact ⟨[], hd.log.trans (List.append_nil _).symm⟩

theorem run_log {is : List RdInput} {t : Netcom α} (hle : nc.rd1Off ≤ nc.wrOff)
    (ht : exec (rdStep env) nc is = some t) : ∃ evs, t.log = nc.log ++ evs := by
  induction is generalizing nc with
  | nil =>
    cases ht
    exact ⟨[], (List.append_nil _).symm⟩
  | cons i is ih =>
    obtain ⟨u, hu, ht⟩ := exec_cons_eq_some.1 ht
    obtain ⟨evs, hl⟩ := rdStep_log hle hu
    obtain ⟨evs', hl'⟩ := ih (rdStep_weight hle hu).1 ht
    exact ⟨evs ++ evs', by rw [hl', hl, List.append_assoc]⟩

/-! ## Runs that lose nothing -/

/-- From `nc` to `t` the frames `os` were handled, one after the other, and `r` is left. -/
structure HandsOn (nc : Netcom α) (os : List Frame) (r : List UInt8) (t : Netcom α) : Prop where
  log : ∃ evs, t.log = nc.log ++ evs ∧ evs.map NetcomEv.frame = os.map some
  pending : t.pending = r

theorem HandsOn.trans {t u : Netcom α} {os os' : List Frame} {r r' : List UInt8} (h : HandsOn nc os r t)
    (h' : HandsOn t os' r' u) : HandsOn nc (os ++ os') r' u := by
  obtain ⟨⟨evs, hl, hm⟩, -⟩ := h
  obtain ⟨⟨evs', hl', hm'⟩, hp'⟩ := h'
  refine ⟨⟨evs ++ evs', ?_, ?_⟩, hp'⟩
  · rw [hl', hl, List.append_assoc]
  · rw [List.map_append, List.map_append, hm, hm']

theorem HandsOn.of_log {u t : Netcom α} {os : List Frame} {r : List UInt8} (h : HandsOn u os r t)
    (hlog : u.log = nc.log) : HandsOn nc os r t :=
  ⟨hlog ▸ h.log, h.pending⟩

theorem loop_handsOn (env : Env) {os : List Frame} {r : List UInt8} (h : Drains (netcmdFramer nc.rx) nc.pending os r)
    (hle : nc.rd1Off ≤ nc.wrOff) :
    ∃ t, netcomLoop env nc = some t ∧ t.rd1Off ≤ t.wrOff ∧ t.rx = nc.rx ∧ HandsOn nc os r t := by
  obtain ⟨t, ht, hp, ⟨evs, hl, hm, -⟩, hk⟩ := loop_drains env h hle
  exact ⟨t, ht, hk.le, hk.rx, ⟨⟨evs, hl, hm⟩, hp⟩⟩

/-- However the bytes are cut into reads, and whatever the consumer does meanwhile. -/
theorem run_handsOn {is : List RdInput} {os : List Frame} {r : List UInt8} (hle : nc.rd1Off ≤ nc.wrOff)
    (hmore : netcmdNext nc.rx nc.pending = .more) (hrx : Along (rdStep env) KeepsRx nc is)
    (hlost : lost (intakes env nc is) = 0)
    (hd : Drains (netcmdFramer nc.rx) (nc.pending ++ is.flatMap RdInput.bytes) os r) :
    ∃ t, exec (rdStep env) nc is = some t ∧ HandsOn nc os r t := by
  induction is generalizing nc os with
  | nil =>
    rw [List.flatMap_nil, List.append_nil] at hd
    obtain ⟨rfl, rfl⟩ := hd.det (.more hmore)
    exact ⟨nc, rfl, ⟨[], (List.append_nil _).symm, rfl⟩, rfl⟩
  | cons i is ih =>
    rw [List.flatMap_cons, ← List.append_assoc] at hd
    -- A step after which what is pending is as before goes on with the induction.
    have hskip : ∀ {t : Netcom α}, rdStep env nc i = some t → t.rd1Off ≤ t.wrOff → t.rx = nc.rx →
        t.pending = nc.pending ++ i.bytes → t.pending = nc.pending → t.log = nc.log →
        ∃ u, exec (rdStep env) nc (i :: is) = some u ∧ HandsOn nc os r u := by
      intro t ht hle' hrx' hbytes hpending hlog
      rw [intakes_cons is ht, lost_append] at hlost
      rw [← hbytes, ← hrx'] at hd
      rw [← hpending, ← hrx'] at hmore
      obtain ⟨u, hu, hh⟩ := ih hle' hmore (hrx.2 t ht) (by omega) hd
      exact ⟨u, (exec_cons is ht).trans hu, hh.of_log hlog⟩
    by_cases hi : ∀ chunk, i ≠ .readcb chunk
    · obtain ⟨t, ht, hp, hrx', hlog, hle', hbytes, -⟩ := rdStep_quiet env hrx.1 hi
      exact hskip ht (hle'.2 hle) hrx' (by rw [hp, hbytes, List.append_nil]) hp hlog
    · obtain ⟨chunk, rfl⟩ := not_forall_not.1 hi
      by_cases hroom : HasRoom nc
      · obtain ⟨u, hu, htakes⟩ := readcb_room env hroom hle chunk
        obtain ⟨os₁, r₁, os₂, hfirst, hrest, rfl⟩ := hd.split
        rw [RdInput.bytes, ← htakes.pending, ← htakes.rx] at hfirst
        obtain ⟨t, ht, hle', hrx', hh⟩ := loop_handsOn env hfirst htakes.le
        have hstep : rdStep env nc (.readcb chunk) = some t := hu.trans ht
        have hrxt : t.rx = nc.rx := hrx'.trans htakes.rx
        have hmore' : netcmdNext t.rx t.pending = .more := by
          rw [hh.pending, hrx']
          exact hfirst.rest
        rw [intakes_cons is hstep, lost_append] at hlost
        rw [← hh.pending, ← hrxt] at hrest
        obtain ⟨v, hv, hh'⟩ := ih hle' hmore' (hrx.2 t hstep) (by omega) hrest
        exact ⟨v, (exec_cons is hstep).trans hv, (hh.of_log htakes.log).trans hh'⟩
      · -- Nothing is thrown away only where there is nothing.
        obtain ⟨t, ht, hdrained⟩ := readcb_drained env hroom chunk
        have hstep : rdStep env nc (.readcb chunk) = some t := ht
        have hzero := hlost
        rw [intakes_cons is hstep, lost_append] at hzero
        simp only [intake, if_neg hroom, lost_cons, lost_nil, Intake.lost] at hzero
        have hp : nc.pending = [] := List.eq_nil_of_length_eq_zero (by omega)
        have hc : chunk = [] := List.eq_nil_of_length_eq_zero (by omega)
        refine hskip hstep (Nat.le_of_eq hdrained.offsets) hdrained.rx ?_ ?_ hdrained.log
        · rw [hdrained.pending_eq, hp, hc]
          rfl
        · rw [hdrained.pending_eq, hp]

end CmdAgent

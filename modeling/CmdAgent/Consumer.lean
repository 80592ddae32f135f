import CmdAgent.Intake
import CmdAgent.Rewind
import CmdAgent.RingQueue
/-!
# What reaches the consumer

The packets of the stream, whatever reads they come in, are accepted one after the other,
stamped and queued, while the consumer takes them out and the buffer is rewound. What it has
got, and what it can still take, are the stream packets that were sent, the `k`th with the
`k`th time of `gettimeofday`.
-/
open StreamLib.Mem StreamLib.Loop StreamLib.Runs StreamLib.Framing StreamLib.Queue

namespace CmdAgent

variable {α : Type} {env : Env} {nc : Netcom α}

/-! ## The times -/

/-- The packets accepted have the times of the calls of `gettimeofday`, one each. -/
def Clocked (env : Env) (nc : Netcom α) : Prop :=
  nc.accepted.map Prod.snd = (List.range nc.tods).map env.gettimeofday

theorem Clocked.congr {t : Netcom α} (h : Clocked env nc) (ha : t.accepted = nc.accepted) (htods : t.tods = nc.tods) :
    Clocked env t := by
  rw [Clocked, ha, htods]
  exact h

theorem tods_resync (nc : Netcom α) : (netcomResync nc).state.tods = nc.tods := by
  unfold netcomResync netcomFindHeader
  cases findHeaderLoop nc.blob nc.wrOff (nc.wrOff - (nc.rd1Off + netcmdGetpacketheaderlength))
    (nc.rd1Off + netcmdGetpacketheaderlength) with
  | mk p found =>
    cases found with
    | true | false => rfl

theorem Round.clocked {o : Outcome (Netcom α)} (hr : Round env nc o) (h : Clocked env nc) : Clocked env o.state := by
  have hlen := length_pending nc
  cases hr with
  | short | incomplete | partialCommand | zeroStream => exact h
  | badHeader h8 | tooLong h8 | badCrc h8 =>
    exact h.congr (accepted_resync (by omega)).1 (tods_resync nc)
  | append blob =>
    unfold Clocked at h ⊢
    simp only [Outcome.state, Netcom.accepted, List.filterMap_append, List.map_append, List.range_succ] at h ⊢
    rw [h]
    rfl
  | drop =>
    refine h.congr ?_ rfl
    simp [Netcom.accepted, Outcome.state, netcomRemove, NetcomEv.accepted]
  | command =>
    obtain ⟨hit, un, us, he⟩ := lookup_frame nc (seqnoOf nc.pending) (nc.pending.take (commandLength nc.pending))
    rw [he]
    refine h.congr ?_ rfl
    simp [Netcom.accepted, Outcome.state, netcomRemove, NetcomEv.accepted]

theorem rdStep_clocked (s : Netcom α) (i : RdInput) (t : Netcom α) (h : Clocked env s) (ht : rdStep env s i = some t) :
    Clocked env t := by
  cases i with
  | start | stop | consume =>
    cases ht
    exact h
  | readcb chunk =>
    have hready := ready_of s
    unfold rdStep netcomReadcb at ht
    have hloop : ∀ {u : Netcom α}, netcomLoop env u = some t → Clocked env u → Clocked env t := fun hrun hu =>
      run_inv (fun _ _ hs hb => (round_of hb).clocked hs) (fun _ _ hs hb => (round_of hb).clocked hs) hu hrun
    cases hr : netcomMakeRoom s with
    | returned s' =>
      rw [hr] at ht hready
      cases ht
      cases hready with
      | reset | drop => exact h
    | room s' spaceToEnd =>
      rw [hr] at hready
      simp only [hr] at ht
      cases hready with
      | here | rewind => exact hloop ht (h.congr rfl rfl)

/-- With both columns known, so is the list. -/
theorem eq_mapIdx_of_columns {β γ : Type} {l : List (β × γ)} {bs : List β} {n : Nat} {g : Nat → γ}
    (hfst : l.map Prod.fst = bs) (hsnd : l.map Prod.snd = (List.range n).map g) :
    l = bs.mapIdx fun k b => (b, g k) := by
  subst hfst
  refine List.ext_getElem (by simp) fun k hk hk' => ?_
  have hk₁ : k < (l.map Prod.snd).length := by simpa using hk
  have htime : (l.map Prod.snd)[k] = g k := by simp [hsnd]
  rw [List.getElem_map] at htime
  rw [List.getElem_mapIdx, List.getElem_map, ← htime]

/-! ## The packets -/

/-- The stream packet a frame is accepted as. -/
def Frame.appended : Frame → Option (List UInt8)
  | .append packet => some packet
  | _ => none

theorem accepted_fst (ev : NetcomEv α) : ev.accepted.map Prod.fst = ev.frame.bind Frame.appended := by
  cases ev with
  | append | lookup | drop | discard => rfl

/-- What is stored are the packets accepted, stamped. -/
theorem stored_accepted (evs : List (NetcomEv α)) :
    evs.flatMap NetcomEv.stored = (evs.filterMap NetcomEv.accepted).flatMap fun f => stamp f.1 f.2 := by
  induction evs with
  | nil => rfl
  | cons ev evs ih =>
    rw [List.flatMap_cons, ih]
    cases ev with
    | append | lookup | drop | discard => rfl

theorem accepted_of_frames {evs : List (NetcomEv α)} {fs : List (List UInt8)}
    (h : evs.map NetcomEv.frame = (fs.map (frameOf true)).map some) :
    (evs.filterMap NetcomEv.accepted).map Prod.fst = fs.filter fun f => cmdOf f = l0006NetcmdAddata := by
  have hevs : (evs.filterMap NetcomEv.accepted).map Prod.fst =
      (evs.map NetcomEv.frame).filterMap fun frame => frame.bind Frame.appended := by
    rw [List.map_filterMap, List.filterMap_map]
    exact List.filterMap_congr fun ev _ => accepted_fst ev
  rw [hevs, h, List.map_map, List.filterMap_map]
  clear h hevs
  induction fs with
  | nil => rfl
  | cons f fs ih =>
    by_cases hc : cmdOf f = l0006NetcmdAddata
    · rw [List.filter_cons_of_pos (by simpa using hc), ← ih]
      exact List.filterMap_cons_some (by simp [frameOf, hc, Frame.appended])
    · rw [List.filter_cons_of_neg (by simpa using hc), ← ih]
      exact List.filterMap_cons_none (by simp [frameOf, hc, Frame.appended])

theorem stampFits_of_accepted {fs : List (List UInt8)} (hfs : ∀ f ∈ fs, WellFormed f)
    (h : nc.accepted.map Prod.fst = fs.filter fun f => cmdOf f = l0006NetcmdAddata) : StampFits nc := by
  intro f hf
  have hmem : f.1 ∈ fs.filter fun f => cmdOf f = l0006NetcmdAddata := h ▸ List.mem_map_of_mem hf
  obtain ⟨hin, hc⟩ := List.mem_filter.1 hmem
  exact Nat.le_trans (by decide) (length_addata (hfs f.1 hin) (of_decide_eq_true hc))

/-! ## Runs without a loss -/

/-- A step with RX set all the time, in which nothing is dropped or run over. -/
def Flows (nc : Netcom α) (i : RdInput) : Prop :=
  (Legal nc i ∧ StaysBehind nc i) ∧ match i with
    | .readcb _ => HasRoom nc
    | .stop => False
    | .start | .consume _ => True

instance (nc : Netcom α) (i : RdInput) : Decidable (Flows nc i) :=
  match i with
  | .readcb chunk =>
    inferInstanceAs (Decidable ((Legal nc (.readcb chunk) ∧ StaysBehind nc (.readcb chunk)) ∧ HasRoom nc))
  | .stop => inferInstanceAs (Decidable ((Legal nc .stop ∧ StaysBehind nc .stop) ∧ False))
  | .start => inferInstanceAs (Decidable ((Legal nc .start ∧ StaysBehind nc .start) ∧ True))
  | .consume rd2Off =>
    inferInstanceAs (Decidable ((Legal nc (.consume rd2Off) ∧ StaysBehind nc (.consume rd2Off)) ∧ True))

theorem Flows.keepsRx {i : RdInput} (h : Flows nc i) (hrx : nc.rx = true) : KeepsRx nc i := by
  cases i with
  | readcb | consume => trivial
  | start => exact hrx
  | stop => exact h.2.elim

theorem Flows.lost {i : RdInput} (h : Flows nc i) : lost (intake nc i) = 0 := by
  cases i with
  | start | consume => rfl
  | stop => exact h.2.elim
  | readcb chunk =>
    have hroom : HasRoom nc := h.2
    rw [intake, if_pos hroom]
    rfl

/-- In such a run RX stays set, and nothing is thrown away. -/
theorem run_flows {is : List RdInput} (hle : nc.rd1Off ≤ nc.wrOff) (hrx : nc.rx = true)
    (h : Along (rdStep env) Flows nc is) :
    Along (rdStep env) KeepsRx nc is ∧ lost (intakes env nc is) = 0 := by
  have hset : ∀ (s : Netcom α) (i : RdInput) (t : Netcom α), s.rd1Off ≤ s.wrOff ∧ s.rx = true → Flows s i →
      rdStep env s i = some t → t.rd1Off ≤ t.wrOff ∧ t.rx = true := by
    rintro s i t ⟨hles, hrxs⟩ hi ht
    exact ⟨(rdStep_weight hles ht).1, (rdStep_rx hles (hi.keepsRx hrxs) ht).trans hrxs⟩
  refine ⟨along_inv hset ?_ ⟨hle, hrx⟩ h, lost_intakes (h.mono fun s i hi => hi.lost)⟩
  rintro s i ⟨-, hrxs⟩ hi
  exact hi.keepsRx hrxs

/-- A receiver with RX set, before anything has arrived. -/
def receiving [Inhabited α] (blob : Nat → UInt8) : Netcom α :=
  l0006NetcomStart { netcomAllocateBuffer with blob := blob }

theorem ringQueue_receiving [Inhabited α] (blob : Nat → UInt8) : RingQueue (receiving blob : Netcom α) :=
  ⟨⟨Nat.le_refl 0, Nat.zero_le _, Nat.zero_lt_succ _, .inl ⟨Nat.le_refl 0, Nat.zero_lt_succ _⟩⟩, rfl⟩

section Flows
variable {a b w e n : Nat} {nc nc' : Netcom α}

theorem At.flows {chunk : List UInt8} (h : At nc' a b w e) (hr : netcomMakeRoom nc = .room nc' n)
    (hn : chunk.length ≤ n) (hs : w < b → b ≤ w + 2 ^ 20 → w + chunk.length < b) : Flows nc (.readcb chunk) := by
  obtain ⟨-, -, -, rfl, rfl, -⟩ := h
  unfold Flows Legal Fits StaysBehind HasRoom
  simp only [hr]
  exact ⟨⟨hn, hs⟩, trivial⟩

theorem At.flows_consume (h : At nc a b w e) {rd2Off : Nat}
    (hc : if b ≤ a then b ≤ rd2Off ∧ rd2Off ≤ a else (b ≤ rd2Off ∧ rd2Off ≤ e) ∨ (b = e ∧ rd2Off = 0)) :
    Flows nc (.consume rd2Off) := ⟨⟨(h.consumes hc).1, trivial⟩, trivial⟩

end Flows

/-- In every run with RX set in which every read has room and ends in front of `rd2_off`: if
what arrives are well-formed frames and a part of another, cut into reads anyhow, what the
consumer has taken and can still take are the stream packets among them, each once and in
order, the `k`th stamped with the `k`th time. -/
theorem packets_reach_consumer [Inhabited α] (env : Env) (blob : Nat → UInt8) (is : List RdInput)
    (fs : List (List UInt8)) (part : List UInt8) (hfs : ∀ f ∈ fs, WellFormed f) (hpart : Incomplete part)
    (hcat : is.flatMap RdInput.bytes = fs.flatten ++ part)
    (hflows : Along (rdStep env) Flows (receiving blob : Netcom α) is) :
    ∃ nc, exec (rdStep env) (receiving blob : Netcom α) is = some nc ∧
      (labels (rdStep env) queueOp (receiving blob : Netcom α)
          is).flatMap QueueOp.takes ++ nc.queued =
        ((fs.filter fun f => cmdOf f = l0006NetcmdAddata).mapIdx fun k f => stamp f (env.gettimeofday k)).flatten ∧
      nc.pending = part := by
  have hd := drains_frames true hfs hpart
  rw [← hcat] at hd
  obtain ⟨hrx, hlost⟩ := run_flows (Nat.le_refl 0) rfl hflows
  obtain ⟨nc, hexec, ⟨evs, hlog, hframes⟩, hp⟩ := run_handsOn (Nat.le_refl 0) rfl hrx hlost hd
  have haccepted : nc.accepted.map Prod.fst = fs.filter fun f => cmdOf f = l0006NetcmdAddata := by
    rw [Netcom.accepted, hlog]
    exact accepted_of_frames hframes
  have hnone : Clocked env (receiving blob : Netcom α) := rfl
  have hclocked := exec_inv_all rdStep_clocked hnone hexec
  have hsafe : Along (rdStep env) (fun nc i => Legal nc i ∧ StaysBehind nc i) (receiving blob : Netcom α) is :=
    hflows.mono fun _ _ h => h.1
  have hstop : .stop ∉ is := by
    intro hmem
    exact (along_iff_forall (p := (· ≠ .stop)) hexec).1
      (hflows.mono fun _ i h heq => by subst heq; exact h.2) .stop hmem rfl
  obtain ⟨evs', hlog', hbalance⟩ :=
    queue_balance (ringQueue_receiving blob) ⟨hexec, hsafe⟩ (stampFits_of_accepted hfs haccepted) hstop
  refine ⟨nc, hexec, ?_, hp⟩
  calc (labels (rdStep env) queueOp (receiving blob : Netcom α) is).flatMap QueueOp.takes ++ nc.queued
      = evs'.flatMap NetcomEv.stored := hbalance
    _ = nc.accepted.flatMap fun f => stamp f.1 f.2 := by rw [stored_accepted, Netcom.accepted, hlog']; rfl
    _ = _ := by
      rw [eq_mapIdx_of_columns haccepted hclocked, List.flatMap_def, List.mapIdx_eq_zipIdx_map,
        List.mapIdx_eq_zipIdx_map, List.map_map]
      rfl

/-- An acknowledgement, 304 stream packets of the maximal length and the start of another
one; the consumer takes ten of them, and then the buffer is rewound. The rest of the cut
packet goes to the start of the blob, where the consumer gets in the end. -/
def rewoundRun : List RdInput :=
  [.readcb buzzack, .readcb ((packets 304).flatten ++ addata20.take 5), .consume 99400,
    .readcb (addata20.drop 5 ++ buzzack.take 7), .consume 3021760, .consume 0, .consume 10]

/-- The acknowledgement leaves nothing in the buffer. -/
theorem receive_buzzack :
    ∃ t, rdStep .still (receiving (fun _ => 0) : Netcom Unit) (.readcb buzzack) = some t ∧ At t 0 0 0 0 := by
  let offsets : Netcom Unit → Bool × Bool × Nat × Nat × Nat × Nat := fun t =>
    (t.rx, t.errorflag, t.rd1Off, t.rd2Off, t.wrOff, t.rd1End)
  have hread : (rdStep .still (receiving (fun _ => 0) : Netcom Unit) (.readcb buzzack)).map offsets =
      some (true, false, 0, 0, 0, 0) := by decide +kernel
  obtain ⟨t, ht, hoffsets⟩ := Option.map_eq_some_iff.1 hread
  simp only [offsets, Prod.mk.injEq] at hoffsets
  obtain ⟨hrx, he, h1, h2, hw, hend⟩ := hoffsets
  exact ⟨t, ht, hrx, he, h1, h2, hw, hend⟩

theorem rewound_flows :
    ∃ nc, OkRun (rdStep .still) Flows (receiving (fun _ => 0) : Netcom Unit) rewoundRun nc := by
  have hack : Incomplete (buzzack.take 7) := ⟨buzzack.drop 7, by decide, by decide +kernel⟩
  have hcut : Incomplete (addata20.take 5) := ⟨addata20.drop 5, by decide, by decide +kernel⟩
  have hat₀ : At (receiving (fun _ => 0) : Netcom Unit) 0 0 0 0 := ⟨rfl, rfl, rfl, rfl, rfl, rfl⟩
  have hroom₀ := hat₀.here (by decide) (by decide +kernel)
  obtain ⟨t₁, ht₁, hat₁⟩ := receive_buzzack
  -- The packets fill the blob up to where it is rewound.
  have hroom₁ := hat₁.here (by decide) (by decide +kernel)
  obtain ⟨-, t₂, -, ht₂, hat₂, hp₂, -⟩ := hat₁.read 304 hroom₁ hcut (by decide +kernel) (.inl (Nat.le_refl 0))
  have hat₂ : At t₂ 3021760 0 3021765 0 := hat₂
  have hcons₂ : At { t₂ with rd2Off := 99400 } 3021760 99400 3021765 0 := hat₂.consume 99400
  have hroom₂ := hcons₂.there (by decide) (by decide +kernel)
  have hrewound : At (netcomRewind { t₂ with rd2Off := 99400 }) 0 99400 5 3021760 := hcons₂.rewind
  -- The first bytes of the cut packet have moved to the start of the blob.
  have hcat : (netcomRewind { t₂ with rd2Off := 99400 }).pending ++ (addata20.drop 5 ++ buzzack.take 7) =
      [addata20].flatten ++ buzzack.take 7 := by
    have hmoved : (netcomRewind { t₂ with rd2Off := 99400 }).pending = addata20.take 5 :=
      (pending_rewind _).trans hp₂
    rw [hmoved]
    rfl
  obtain ⟨t₃, -, ht₃, hat₃, -⟩ := hrewound.receive .still (by decide) hroom₂ hcat (by decide +kernel) hack
  have hat₃ : At t₃ 20 99400 27 3021760 := hat₃
  have hcons₃ := hat₃.consume 3021760
  have hcons₄ := hcons₃.consume 0
  have hread₂ : Flows t₁ (.readcb ((packets 304).flatten ++ addata20.take 5)) := by
    refine hat₁.flows hroom₁ ?_ (by decide)
    rw [List.length_append, length_packets]
    decide +kernel
  exact ⟨{ t₃ with rd2Off := 10 },
    .cons (hat₀.flows hroom₀ (by decide +kernel) (by decide)) ht₁ (.cons hread₂ ht₂
      (.cons (hat₂.flows_consume (by decide)) rfl (.cons (hrewound.flows hroom₂ (by decide +kernel) (by decide)) ht₃
        (.cons (hat₃.flows_consume (by decide)) rfl (.cons (hcons₃.flows_consume (by decide)) rfl
          (.cons (hcons₄.flows_consume (by decide)) rfl (.nil _)))))))⟩

theorem packets_reach_consumer_rewound :
    ∃ nc, exec (rdStep .still) (receiving (fun _ => 0) : Netcom Unit) rewoundRun = some nc ∧
      (labels (rdStep .still) queueOp (receiving (fun _ => 0) : Netcom Unit) rewoundRun).flatMap QueueOp.takes ++
          nc.queued =
        ((([buzzack] ++ packets 304 ++ [addata20]).filter fun f => cmdOf f = l0006NetcmdAddata).mapIdx
          fun k f => stamp f (Env.still.gettimeofday k)).flatten ∧
      nc.pending = buzzack.take 7 := by
  obtain ⟨nc, hrun⟩ := rewound_flows
  refine packets_reach_consumer .still (fun _ => 0) rewoundRun ([buzzack] ++ packets 304 ++ [addata20])
    (buzzack.take 7) ?_ ⟨buzzack.drop 7, by decide, by decide +kernel⟩ ?_ hrun.along
  · intro f hf
    rcases List.mem_append.1 hf with hf | hf
    · rcases List.mem_append.1 hf with hf | hf
      · rw [List.mem_singleton.1 hf]
        decide +kernel
      · exact (addata_packets hf).1
    · rw [List.mem_singleton.1 hf]
      decide +kernel
  · simp only [rewoundRun, List.flatMap_cons, List.flatMap_nil, RdInput.bytes, List.flatten_append,
      List.nil_append, List.append_nil, List.append_assoc]
    rfl

end CmdAgent

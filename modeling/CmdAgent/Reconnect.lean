import CmdAgent.Bounds
import CmdAgent.Connected
/-!
# New connections and old bytes

No connect touches the receive buffer. What the last connection left pending is still in
front of what the next one receives, and the frames of the new connection are cut from
both together; an error it reported costs the new connection its first read.
-/
open StreamLib.Mem StreamLib.Loop StreamLib.Runs StreamLib.Framing

namespace CmdAgent

variable {α : Type} {env : Env} {nc : Netcom α}

/-! ## The system -/

/-- The connection and its receiver. -/
inductive LinkEv (α : Type) where
  | line (ev : LineEv α)
  | nc (i : NcInput)

def linkStep (env : Env) (line : NetcomLine α) : LinkEv α → Option (NetcomLine α)
  | .line ev => line.step ev
  | .nc i => (ncStep env line.info.nc i).map fun nc => { line with info := { line.info with nc := nc } }

def LinkPossible (line : NetcomLine α) : LinkEv α → Prop
  | .nc i => Possible line.info.nc i
  | .line _ => True

instance (line : NetcomLine α) : (ev : LinkEv α) → Decidable (LinkPossible line ev)
  | .nc i => inferInstanceAs (Decidable (Possible line.info.nc i))
  | .line _ => .isTrue trivial

/-- `l0006_netcom_connect` or `l0006_netcom_connect2` returns 0. -/
def Connects (info info' : NetcomInfo α) : Prop :=
  ∃ made started, info.l0006NetcomConnect made started = (0, info') ∨ info.l0006NetcomConnect2 made started = (0, info')

/-- What the reads bring. -/
def readBytes (is : List RdInput) : List UInt8 :=
  is.flatMap fun
    | .readcb chunk => chunk
    | .consume _ | .start | .stop => []

/-- The receiver with an empty buffer: nothing is pending, and no error is reported. -/
def Netcom.emptied (nc : Netcom α) : Netcom α := { netcomDrop nc with errorflag := false }

/-- However the frames of the connection are cut into reads, and whatever happens
between them, they are processed as with an empty buffer. -/
def StartsClean (env : Env) (nc : Netcom α) : Prop :=
  ∀ (frames : List (List UInt8)) (is : List RdInput), (∀ f ∈ frames, WellFormed f) → readBytes is = frames.flatten →
    Along (rdStep env) Legal nc is → Along (rdStep env) Legal nc.emptied is →
      (exec (rdStep env) nc is).map Netcom.log = (exec (rdStep env) nc.emptied is).map Netcom.log

/-! ## What a connection leaves -/

theorem Relinks.leaves {info info' : NetcomInfo α} (hr : Relinks info info') (h : Leaves info.nc) : Leaves info'.nc := by
  obtain ⟨bev, hnc⟩ := hr.nc
  rw [hnc]
  exact ⟨⟨h.offsets.le, h.offsets.hi⟩, h.pending⟩

theorem write_leaves {ncaction : NetcomAction α} {ack : Bool} {ts : Timespec} {added : Bool} (h : Leaves nc) :
    Leaves (l0006NetcomWrite nc ncaction ack ts added).2 := by
  have hsame : ∀ unused used, Leaves { nc with unused := unused, used := used } :=
    fun _ _ => ⟨⟨h.offsets.le, h.offsets.hi⟩, h.pending⟩
  unfold l0006NetcomWrite
  split
  · split
    · cases added with
      | false => exact hsame _ _
      | true => cases ack <;> exact hsame _ _
    · exact h
  · exact h

theorem eventcb_leaves (events : UInt16) (h : Leaves nc) : Leaves (netcomEventcb nc events) := by
  have hsame : ∀ connected, Leaves { nc with connected := connected } :=
    fun _ => ⟨⟨h.offsets.le, h.offsets.hi⟩, h.pending⟩
  unfold netcomEventcb
  split
  · exact hsame true
  · split
    · exact hsame false
    · exact h

theorem linkStep_leaves (s : NetcomLine α) (ev : LinkEv α) (t : NetcomLine α) (h : Leaves s.info.nc)
    (hi : LinkPossible s ev) (ht : linkStep env s ev = some t) : Leaves t.info.nc := by
  cases ev with
  | nc i =>
    obtain ⟨nc, hnc, rfl⟩ := Option.map_eq_some_iff.1 ht
    exact ncStep_leaves h hi hnc
  | line ev =>
    cases ev with
    | connect made started => cases ht; exact (relinks_connect _ made started).leaves h
    | connect2 made started => cases ht; exact (relinks_connect2 _ made started).leaves h
    | disconnect => cases ht; exact (relinks_disconnect _).leaves h
    | event events =>
      obtain ⟨bev, -, rfl⟩ := Option.map_eq_some_iff.1 ht
      exact eventcb_leaves events h
    | write ncaction ack ts added => cases ht; exact write_leaves h

theorem Connects.relinks {info info' : NetcomInfo α} (h : Connects info info') : Relinks info info' := by
  obtain ⟨made, started, h | h⟩ := h
  · have hr := relinks_connect info made started
    rwa [h] at hr
  · have hr := relinks_connect2 info made started
    rwa [h] at hr

/-! ## Something pending, or an error reported -/

/-- With all that is published consumed there is room for a command, wherever the
offsets are. -/
theorem stopped_room (h : Leaves nc) (he : nc.errorflag = false) (h2 : nc.rd2Off = nc.rd1Off) :
    ∃ nc' spaceToEnd, netcomMakeRoom nc = .room nc' spaceToEnd ∧ 8 ≤ spaceToEnd ∧ nc'.pending = nc.pending ∧
      nc'.log = nc.log ∧ nc'.rd1Off ≤ nc'.wrOff := by
  obtain ⟨⟨hle, hhi⟩, hpend⟩ := h
  simp only [netcomRdbufferSize, l0006StreamMaxSize] at hhi hpend
  have hspace : circSpace nc.wrOff nc.rd2Off netcomRdbufferSize = 0x300000 - 1 - (nc.wrOff - nc.rd1Off) := by
    rw [h2]
    exact circSpace_behind hle (by omega) hhi
  unfold netcomMakeRoom
  rw [if_neg (by simp [he])]
  dsimp only
  rw [hspace, if_neg (by omega)]
  by_cases hw : nc.wrOff > netcomRdbufferForcerewindOffset
  · have hw' := hw
    simp only [netcomRdbufferForcerewindOffset] at hw'
    rw [if_pos hw, if_pos (by simp only [netcomRdbufferForcerewindSize]; omega)]
    have hroom : 2 ^ 17 ≤ circSpaceToEnd (nc.wrOff - nc.rd1Off) nc.rd2Off netcomRdbufferSize :=
      le_circSpaceToEnd_start (by omega) (by omega) (by omega)
    exact ⟨_, _, rfl, by omega, pending_rewind nc, rfl, Nat.zero_le _⟩
  · rw [if_neg hw]
    have hroom : 2 ^ 17 ≤ circSpaceToEnd nc.wrOff nc.rd2Off netcomRdbufferSize :=
      le_circSpaceToEnd_behind (by omega) (by omega) (Nat.not_lt.1 hw)
    exact ⟨_, _, rfl, by omega, rfl, rfl, hle⟩

/-- `t` is `nc`, or what was logged first since is no command but the one the pending
bytes of `nc` start with. -/
def FirstOf (nc t : Netcom α) : Prop :=
  t = nc ∨ ∃ ev evs, t.log = nc.log ++ ev :: evs ∧
    ∀ seqno packet hit, ev = .lookup seqno packet hit → packet = nc.pending.take packet.length

theorem firstOf_resync (h8 : nc.rd1Off + 8 ≤ nc.wrOff) : FirstOf nc (netcomResync nc).state := by
  obtain ⟨p, -, -, -, hr⟩ := resync_cases h8
  generalize netcomResync nc = o at hr ⊢
  cases hr with
  | found | notFound => exact .inr ⟨_, [], rfl, by rintro _ _ _ ⟨⟩⟩

theorem Round.firstOf {o : Outcome (Netcom α)} (h : Round env nc o) : FirstOf nc o.state := by
  have hlen := length_pending nc
  cases h with
  | short | incomplete | partialCommand | zeroStream => exact .inl rfl
  | badHeader h8 | tooLong h8 | badCrc h8 => exact firstOf_resync (by omega)
  | append | drop => exact .inr ⟨_, [], rfl, by rintro _ _ _ ⟨⟩⟩
  | command h8 _ _ hn =>
    obtain ⟨hit, un, us, he⟩ := lookup_frame nc (seqnoOf nc.pending) (nc.pending.take (commandLength nc.pending))
    rw [he]
    refine .inr ⟨_, [], rfl, ?_⟩
    rintro _ _ _ ⟨⟩
    rw [List.length_take, Nat.min_eq_left hn]

theorem FirstOf.keeps {s t : Netcom α} {o : Outcome (Netcom α)} (h : FirstOf nc s) (hle : s.rd1Off ≤ s.wrOff)
    (hr : Round env s o) (ho : o.state = t) : FirstOf nc t := by
  subst ho
  rcases h with rfl | ⟨ev, evs, hlog, hev⟩
  · exact hr.firstOf
  · obtain ⟨evs', hlog'⟩ := (hr.keeps hle).log
    refine .inr ⟨ev, evs ++ evs', ?_, hev⟩
    rw [hlog', hlog, List.append_assoc, List.cons_append]

theorem loop_firstOf {t : Netcom α} (hle : nc.rd1Off ≤ nc.wrOff) (ht : netcomLoop env nc = some t) : FirstOf nc t := by
  refine run_inv (I := fun s => s.rd1Off ≤ s.wrOff ∧ FirstOf nc s) (Q := FirstOf nc) ?_ ?_ ⟨hle, .inl rfl⟩ ht
  · rintro s u ⟨hs, hf⟩ hsu
    have hr := round_of hsu
    exact ⟨(hr.keeps hs).le, hf.keeps hs hr rfl⟩
  · rintro s u ⟨hs, hf⟩ hsu
    exact hf.keeps hs (round_of hsu) rfl

theorem loop_command {t : Netcom α} {seqno : UInt8} {packet : List UInt8} {hit : Option (NetcomWrbuf α)}
    (hle : nc.rd1Off ≤ nc.wrOff) (ht : netcomLoop env nc = some t) (hlog : t.log = nc.log ++ [.lookup seqno packet hit]) :
    packet = nc.pending.take packet.length := by
  rcases loop_firstOf hle ht with rfl | ⟨ev, evs, hlog', hev⟩
  · simp at hlog
  · rw [hlog, List.append_cancel_left_eq] at hlog'
    cases hlog'
    exact hev _ _ _ rfl

/-- A BLINKACK packet. -/
def blinkack : List UInt8 := [0xEF, 0xBE, 0x81, 0, 0, 0, 0x21, 0x04]

/-- Of two commands one does not stand at the front when it is received behind what is
pending. -/
theorem exists_command (pending : List UInt8) (hp : pending ≠ []) :
    ∃ f, CommandFrame f ∧ f.length = 8 ∧ (pending ++ f).take 8 ≠ f := by
  have hpos := List.length_pos_iff.2 hp
  -- The first byte of a magic number is nowhere else in the two.
  have hshort : ∀ f : List UInt8, f.length = 8 → (∀ i < 8, i ≠ 0 → f.getD i 0 ≠ f.getD 0 0) →
      pending.length < 8 → (pending ++ f).take 8 ≠ f := by
    intro f hf hfirst hlt he
    apply hfirst pending.length hlt (by omega)
    have hget := congrArg (fun p => p.getD pending.length 0) he
    simp only [List.getD_eq_getElem?_getD, List.getElem?_take, hlt, if_true] at hget ⊢
    rw [List.getElem?_append_right (Nat.le_refl _), Nat.sub_self] at hget
    exact hget.symm
  have hlong : ∀ f : List UInt8, 8 ≤ pending.length → (pending ++ f).take 8 = pending.take 8 :=
    fun f h8 => List.take_append_of_le_length h8
  by_cases h8 : 8 ≤ pending.length
  · by_cases hb : pending.take 8 = buzzack
    · refine ⟨blinkack, by decide +kernel, rfl, ?_⟩
      rw [hlong _ h8, hb]
      decide
    · refine ⟨buzzack, by decide +kernel, rfl, ?_⟩
      rw [hlong _ h8]
      exact hb
  · exact ⟨buzzack, by decide +kernel, rfl, hshort buzzack rfl (by decide) (Nat.not_le.1 h8)⟩

theorem stop_readcb (env : Env) {f : List UInt8} (h : Leaves nc) (he : nc.errorflag = false) (hf : f.length = 8) :
    Along (rdStep env) Legal nc [.stop, .readcb f] ∧
      ∃ r, exec (rdStep env) nc [.stop, .readcb f] = netcomLoop env r ∧ r.pending = nc.pending ++ f ∧
        r.log = nc.log ∧ r.rd1Off ≤ r.wrOff := by
  have hstop : rdStep env nc .stop = some (l0006NetcomStop nc) := rfl
  have hleaves : Leaves (l0006NetcomStop nc) := ⟨⟨h.offsets.le, h.offsets.hi⟩, h.pending⟩
  obtain ⟨nc', spaceToEnd, hroom, hspace, hpend, hlog, hle⟩ := stopped_room hleaves he rfl
  constructor
  · rw [along_cons _ hstop, along_singleton]
    refine ⟨trivial, ?_⟩
    unfold Legal Fits
    rw [hroom]
    exact hf.trans_le hspace
  · refine ⟨netcomReceive nc' f, ?_, ?_, hlog, Nat.le_trans hle (Nat.le_add_right _ _)⟩
    · rw [exec_cons _ hstop, exec, rdStep, netcomReadcb, hroom]
      exact Option.bind_fun_some _
    · rw [pending_receive f hle, hpend]
      rfl

/-- With nothing pending a command is looked up. -/
theorem loop_frame (env : Env) {f : List UInt8} (hf : CommandFrame f) (hp : nc.pending = f)
    (hle : nc.rd1Off ≤ nc.wrOff) :
    ∃ t hit, netcomLoop env nc = some t ∧ t.log = nc.log ++ [.lookup (seqnoOf f) f hit] := by
  have hnext : (netcmdFramer nc.rx).next f = .unit f.length (.lookup (seqnoOf f) f) :=
    (next_wellFormed nc.rx (.inl hf)).trans (congrArg _ (if_neg hf.2.1))
  have hd : Drains (netcmdFramer nc.rx) nc.pending [.lookup (seqnoOf f) f] [] := by
    rw [hp]
    apply Drains.unit hnext
    rw [List.drop_length]
    exact .more rfl
  obtain ⟨t, ht, -, ⟨evs, hlog, hevs, -⟩, -⟩ := loop_drains env hd hle
  obtain ⟨ev, rfl, hev⟩ := List.map_eq_singleton_iff.1 hevs
  cases ev with
  | lookup seqno packet hit =>
    cases hev
    exact ⟨t, hit, ht, hlog⟩
  | append | drop | discard => cases hev

theorem emptied_of_clean (hp : nc.wrOff = nc.rd1Off) (he : nc.errorflag = false) : nc.emptied = nc := by
  cases nc
  cases hp
  cases he
  rfl

theorem Leaves.emptied (h : Leaves nc) : Leaves nc.emptied :=
  ⟨⟨Nat.le_refl _, Nat.le_trans h.offsets.le h.offsets.hi⟩, (Nat.sub_self nc.rd1Off).trans_lt (Nat.zero_lt_succ _)⟩

/-- With an empty buffer a command is looked up. -/
theorem emptied_command (env : Env) (h : Leaves nc) {f : List UInt8} (hf : CommandFrame f) (h8 : f.length = 8) :
    Along (rdStep env) Legal nc.emptied [.stop, .readcb f] ∧
      ∃ hit, (exec (rdStep env) nc.emptied [.stop, .readcb f]).map Netcom.log =
        some (nc.log ++ [.lookup (seqnoOf f) f hit]) := by
  have hempty : nc.emptied.pending = [] := by
    refine List.eq_nil_of_length_eq_zero ?_
    rw [length_pending]
    exact Nat.sub_self _
  obtain ⟨hlegal, r, hrun, hpend, hlog, hr⟩ := stop_readcb env h.emptied rfl h8
  obtain ⟨t, hit, ht, htlog⟩ := loop_frame env hf (by rw [hpend, hempty, List.nil_append]) hr
  refine ⟨hlegal, hit, ?_⟩
  rw [hrun, ht, Option.map_some, htlog, hlog]
  rfl

/-- What is pending is taken for the start of the first command. -/
theorem not_startsClean_pending (env : Env) (h : Leaves nc) (he : nc.errorflag = false) (hne : nc.wrOff ≠ nc.rd1Off) :
    ¬ StartsClean env nc := by
  have hle := h.offsets.le
  have hp : nc.pending ≠ [] := by
    apply List.ne_nil_of_length_pos
    rw [length_pending]
    omega
  obtain ⟨f, hf, h8, hfront⟩ := exists_command nc.pending hp
  obtain ⟨hlegal, r, hrun, hpend, hlog, hr⟩ := stop_readcb env h he h8
  obtain ⟨hlegal', hit, hlog'⟩ := emptied_command env h hf h8
  intro hclean
  have hsame := hclean [f] [.stop, .readcb f] (by simpa using .inl hf) rfl hlegal hlegal'
  rw [hrun, hlog'] at hsame
  obtain ⟨t, ht, htlog⟩ := Option.map_eq_some_iff.1 hsame
  have hfirst := loop_command hr ht (by rw [htlog, hlog])
  rw [hpend, h8] at hfirst
  exact hfront hfirst.symm

/-- The first read is thrown away. -/
theorem not_startsClean_errorflag (env : Env) (h : Leaves nc) (he : nc.errorflag = true) : ¬ StartsClean env nc := by
  have hf : CommandFrame buzzack := by decide +kernel
  obtain ⟨hlegal', hit, hlog'⟩ := emptied_command env h hf rfl
  have hstop : rdStep env nc .stop = some (l0006NetcomStop nc) := rfl
  have hroom : netcomMakeRoom (l0006NetcomStop nc) = .returned (netcomReset (l0006NetcomStop nc)) := by
    unfold netcomMakeRoom
    rw [if_pos (show (l0006NetcomStop nc).errorflag = true from he)]
  have hlegal : Along (rdStep env) Legal nc [.stop, .readcb buzzack] := by
    rw [along_cons _ hstop, along_singleton]
    refine ⟨trivial, ?_⟩
    unfold Legal Fits
    rw [hroom]
    trivial
  have hread : rdStep env (l0006NetcomStop nc) (.readcb buzzack) = some (netcomReset (l0006NetcomStop nc)) := by
    rw [rdStep, netcomReadcb, hroom]
  intro hclean
  have hsame := hclean [buzzack] [.stop, .readcb buzzack] (by simpa using .inl hf) rfl hlegal hlegal'
  rw [exec_cons _ hstop, exec_cons _ hread, hlog'] at hsame
  have hlog : nc.log = nc.log ++ [.lookup (seqnoOf buzzack) buzzack hit] := Option.some.inj hsame
  exact absurd (List.self_eq_append_right.1 hlog) (by simp)

/-! ## Runs -/

/-- The frames of a new connection are processed as with an empty buffer exactly where
nothing is pending and no error is reported. -/
theorem netcom_reconnect_iff [Inhabited α] (env : Env) (evs : List (LinkEv α)) (line : NetcomLine α)
    (info : NetcomInfo α) (hrun : exec (linkStep env) NetcomLine.init evs = some line)
    (hok : Along (linkStep env) LinkPossible NetcomLine.init evs) (hconn : Connects line.info info) :
    StartsClean env info.nc ↔ line.info.nc.wrOff = line.info.nc.rd1Off ∧ line.info.nc.errorflag = false := by
  have hinit : Leaves (NetcomLine.init : NetcomLine α).info.nc := ⟨⟨Nat.le_refl 0, Nat.zero_le _⟩, Nat.zero_lt_succ _⟩
  have hline : Leaves line.info.nc := exec_inv linkStep_leaves hinit hok hrun
  have hleaves : Leaves info.nc := hconn.relinks.leaves hline
  obtain ⟨bev, hnc⟩ := hconn.relinks.nc
  have hoff : line.info.nc.wrOff = line.info.nc.rd1Off ∧ line.info.nc.errorflag = false ↔
      info.nc.wrOff = info.nc.rd1Off ∧ info.nc.errorflag = false := by rw [hnc]
  rw [hoff]
  constructor
  · intro hclean
    have he : info.nc.errorflag = false := by
      by_contra he
      exact not_startsClean_errorflag env hleaves (Bool.not_eq_false _ ▸ he) hclean
    refine ⟨?_, he⟩
    by_contra hne
    exact not_startsClean_pending env hleaves he hne hclean
  · rintro ⟨hp, he⟩ frames is _ _ _ _
    rw [emptied_of_clean hp he]

/-- A connection that has brought whole packets is followed by another. -/
theorem netcom_reconnect_whole : ∃ (line : NetcomLine Unit) (info : NetcomInfo Unit),
    exec (linkStep .still) NetcomLine.init [.line (.connect true true), .nc (.rd .start),
      .nc (.rd (.readcb (addata20 ++ buzzack))), .line .disconnect] = some line ∧
        Connects line.info info ∧ StartsClean .still info.nc := by
  obtain ⟨line, hrun, hwr⟩ := (Option.any_eq_true _ _).1 (by decide +kernel : (exec (linkStep .still)
    (NetcomLine.init : NetcomLine Unit) [.line (.connect true true), .nc (.rd .start),
      .nc (.rd (.readcb (addata20 ++ buzzack))), .line .disconnect]).any fun line =>
        decide (line.info.nc.wrOff = line.info.nc.rd1Off ∧ line.info.nc.errorflag = false))
  refine ⟨line, _, hrun, ⟨true, true, .inr rfl⟩, ?_⟩
  have hiff := netcom_reconnect_iff .still _ line _ hrun (by decide +kernel) ⟨true, true, .inr rfl⟩
  exact hiff.2 (of_decide_eq_true hwr)

/-- A connection breaks in a stream packet of 20 bytes, of which 12 have come. The first
command of the next connection is taken for the rest of it. -/
theorem netcom_reconnect_mixed : ∃ (line : NetcomLine Unit) (info : NetcomInfo Unit),
    exec (linkStep .still) NetcomLine.init [.line (.connect true true), .nc (.rd (.readcb (addata20.take 12))),
      .line (.event bevEventEof)] = some line ∧ Connects line.info info ∧
        (exec (rdStep .still) info.nc [.readcb buzzack]).map Netcom.log = some [.drop (addata20.take 12 ++ buzzack)] ∧
          ¬ StartsClean .still info.nc := by
  obtain ⟨line, hrun, hlog⟩ := (Option.any_eq_true _ _).1 (by decide +kernel : (exec (linkStep .still)
    (NetcomLine.init : NetcomLine Unit) [.line (.connect true true), .nc (.rd (.readcb (addata20.take 12))),
      .line (.event bevEventEof)]).any fun line =>
        let nc := (line.info.l0006NetcomConnect2 true true).2.nc
        decide (Along (rdStep .still) Legal nc [.readcb buzzack]) &&
          decide (Along (rdStep .still) Legal nc.emptied [.readcb buzzack]) &&
            decide ((exec (rdStep .still) nc [.readcb buzzack]).map Netcom.log =
              some [.drop (addata20.take 12 ++ buzzack)]) &&
                decide ((exec (rdStep .still) nc.emptied [.readcb buzzack]).map Netcom.log =
                  some [.lookup 0 buzzack none]))
  simp only [Bool.and_eq_true, decide_eq_true_eq] at hlog
  obtain ⟨⟨⟨hlegal, hlegal'⟩, hmixed⟩, hclean⟩ := hlog
  refine ⟨line, _, hrun, ⟨true, true, .inr rfl⟩, hmixed, ?_⟩
  intro h
  have hsame := hmixed.symm.trans ((h [buzzack] [.readcb buzzack] (by decide +kernel) rfl hlegal hlegal').trans hclean)
  cases hsame

end CmdAgent

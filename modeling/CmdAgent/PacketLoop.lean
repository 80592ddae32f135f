import CmdAgent.Netcom
/-!
# The rounds of the packet loop

`Round` lists what one round of the loop of `netcom_readcb` can do; it is the
only place that looks at the code of `netcomIter`. What every round keeps, and
whether the loop is left, are case analyses over it.
-/
open StreamLib.Mem StreamLib.Loop

namespace CmdAgent

variable {α : Type} {env : Env} {nc : Netcom α}

@[simp] theorem length_pending (nc : Netcom α) : nc.pending.length = nc.wrOff - nc.rd1Off := by
  simp [Netcom.pending]

/-! ## `netcom_find_header` -/

/-- The search stops at the first valid header with a byte behind it, or where
fewer than nine bytes are left. -/
theorem findHeaderLoop_spec {blob : Nat → UInt8} {wrOff fuel p r : Nat} {b : Bool} (hf : wrOff ≤ p + fuel)
    (h : findHeaderLoop blob wrOff fuel p = (r, b)) :
    p ≤ r ∧ (∀ q, p ≤ q → q < r → netcmdIsvalidpacketheader (slice blob q 8) = false) ∧
      (b = true → r + 8 < wrOff ∧ netcmdIsvalidpacketheader (slice blob r 8) = true) ∧
      (b = false → wrOff ≤ r + 8 ∧ (r = p ∨ r + 8 = wrOff)) := by
  induction fuel generalizing p with
  | zero =>
    cases h
    exact ⟨Nat.le_refl _, fun q hq hq' => by omega, by simp, fun _ => ⟨by omega, .inl rfl⟩⟩
  | succ fuel ih =>
    simp only [findHeaderLoop, netcmdGetpacketheaderlength, l0006NetcmdHeaderSize] at h
    split at h
    · rename_i hlt
      split at h
      · rename_i hv
        cases h
        exact ⟨Nat.le_refl _, fun q hq hq' => by omega, fun _ => ⟨hlt, hv⟩, by simp⟩
      · rename_i hv
        obtain ⟨h1, h2, h3, h4⟩ := ih (by omega) h
        refine ⟨by omega, fun q hq hq' => ?_, h3, fun hb => ?_⟩
        · by_cases he : q = p
          · rw [he]
            exact Bool.eq_false_iff.2 hv
          · exact h2 q (by omega) hq'
        · obtain ⟨h5, h6⟩ := h4 hb
          exact ⟨h5, .inr (by omega)⟩
    · cases h
      exact ⟨Nat.le_refl _, fun q hq hq' => by omega, by simp, fun _ => ⟨by omega, .inl rfl⟩⟩

/-- Where a resynchronisation leaves off. -/
inductive Resync (nc : Netcom α) (p : Nat) : Outcome (Netcom α) → Prop
  | found : p + 8 < nc.wrOff → netcmdIsvalidpacketheader (slice nc.blob p 8) = true →
      Resync nc p (.cont (netcomDiscard nc p))
  | notFound : nc.wrOff ≤ p + 8 → p = nc.rd1Off + 8 ∨ p + 8 = nc.wrOff →
      Resync nc p (.brk (netcomDiscard nc p))

theorem resync_cases (h : nc.rd1Off + 8 ≤ nc.wrOff) :
    ∃ p, nc.rd1Off + 8 ≤ p ∧ p ≤ nc.wrOff ∧
      (∀ q, nc.rd1Off + 8 ≤ q → q < p → netcmdIsvalidpacketheader (slice nc.blob q 8) = false) ∧
      Resync nc p (netcomResync nc) := by
  simp only [netcomResync, netcomFindHeader, netcmdGetpacketheaderlength, l0006NetcmdHeaderSize]
  cases hr : findHeaderLoop nc.blob nc.wrOff (nc.wrOff - (nc.rd1Off + 8)) (nc.rd1Off + 8) with
  | mk p b =>
    obtain ⟨h1, h2, h3, h4⟩ := findHeaderLoop_spec (by omega) hr
    cases b with
    | true =>
      obtain ⟨h5, h6⟩ := h3 rfl
      exact ⟨p, h1, by omega, h2, .found h5 h6⟩
    | false =>
      obtain ⟨h5, h6⟩ := h4 rfl
      exact ⟨p, h1, by omega, h2, .notFound h5 h6⟩

/-! ## One round -/

/-- What one round does, by what is at the front of the pending bytes. -/
inductive Round (env : Env) (nc : Netcom α) : Outcome (Netcom α) → Prop
  | short : nc.pending.length < 8 → Round env nc (.brk nc)
  | badHeader : 8 ≤ nc.pending.length → netcmdIsvalidpacketheader nc.pending = false →
      Round env nc (netcomResync nc)
  | tooLong : 8 ≤ nc.pending.length → netcmdIsvalidpacketheader nc.pending = true →
      cmdOf nc.pending = l0006NetcmdAddata → l0006StreamMaxSize < lengthOf nc.pending →
      Round env nc (netcomResync nc)
  | incomplete : 8 ≤ nc.pending.length → netcmdIsvalidpacketheader nc.pending = true →
      cmdOf nc.pending = l0006NetcmdAddata → 0 < lengthOf nc.pending →
      lengthOf nc.pending ≤ l0006StreamMaxSize → nc.pending.length < lengthOf nc.pending →
      Round env nc (.brk nc)
  | badCrc : 8 ≤ nc.pending.length → netcmdIsvalidpacketheader nc.pending = true →
      cmdOf nc.pending = l0006NetcmdAddata → 0 < lengthOf nc.pending →
      lengthOf nc.pending ≤ l0006StreamMaxSize → lengthOf nc.pending ≤ nc.pending.length → nc.rx = true →
      netcmdReadpacket env.below nc.blob nc.rd1Off (env.gettimeofday nc.tods) = none →
      Round env nc (netcomResync nc)
  | append (blob : Nat → UInt8) : 8 ≤ nc.pending.length → netcmdIsvalidpacketheader nc.pending = true →
      cmdOf nc.pending = l0006NetcmdAddata → 0 < lengthOf nc.pending →
      lengthOf nc.pending ≤ l0006StreamMaxSize → lengthOf nc.pending ≤ nc.pending.length → nc.rx = true →
      netcmdReadpacket env.below nc.blob nc.rd1Off (env.gettimeofday nc.tods) = some blob →
      Round env nc (.cont { nc with
        blob := blob
        rd1Off := nc.rd1Off + lengthOf nc.pending
        tods := nc.tods + 1
        log := nc.log ++ [.append (nc.pending.take (lengthOf nc.pending)) (env.gettimeofday nc.tods)] })
  | drop : 8 ≤ nc.pending.length → netcmdIsvalidpacketheader nc.pending = true →
      cmdOf nc.pending = l0006NetcmdAddata → 0 < lengthOf nc.pending →
      lengthOf nc.pending ≤ l0006StreamMaxSize → lengthOf nc.pending ≤ nc.pending.length → nc.rx = false →
      Round env nc (.cont (netcomRemove
        { nc with log := nc.log ++ [.drop (nc.pending.take (lengthOf nc.pending))] } (lengthOf nc.pending)))
  | partialCommand : 8 ≤ nc.pending.length → netcmdIsvalidpacketheader nc.pending = true →
      cmdOf nc.pending ≠ l0006NetcmdAddata → nc.pending.length < commandLength nc.pending →
      Round env nc (.brk nc)
  | command : 8 ≤ nc.pending.length → netcmdIsvalidpacketheader nc.pending = true →
      cmdOf nc.pending ≠ l0006NetcmdAddata → commandLength nc.pending ≤ nc.pending.length →
      Round env nc (.cont (netcomRemove
        (netcomLookup nc (seqnoOf nc.pending) (nc.pending.take (commandLength nc.pending)))
        (commandLength nc.pending)))
  | zeroStream : 8 ≤ nc.pending.length → netcmdIsvalidpacketheader nc.pending = true →
      cmdOf nc.pending = l0006NetcmdAddata → lengthOf nc.pending = 0 → Round env nc (.cont nc)

theorem verifystream_eq (p : List UInt8) :
    netcmdVerifystream p = if cmdOf p = l0006NetcmdAddata then lengthOf p else 0 := rfl

theorem round_of {o : Outcome (Netcom α)} (h : netcomIter env nc = o) : Round env nc o := by
  rw [← h]
  unfold netcomIter
  have hlen := length_pending nc
  by_cases hlt : nc.pending.length < 8
  · split
    · exact .short hlt
    · rw [if_neg (by simp only [netcmdGetpacketheaderlength, l0006NetcmdHeaderSize]; omega)]
      exact .short hlt
  have h8 : 8 ≤ nc.pending.length := Nat.not_lt.1 hlt
  rw [if_neg (by omega)]
  dsimp only
  rw [← Netcom.pending, ← hlen, if_pos (by simpa using h8)]
  by_cases hv : netcmdIsvalidpacketheader nc.pending = true
  swap
  · rw [if_neg hv]
    exact .badHeader h8 (Bool.eq_false_iff.2 hv)
  rw [if_pos hv, verifystream_eq]
  by_cases hc : cmdOf nc.pending = l0006NetcmdAddata
  · rw [if_pos hc]
    by_cases hz : lengthOf nc.pending = 0
    · -- The packet is neither a stream packet nor a command packet; 0 bytes are removed.
      rw [if_neg (by simp [hz]), verifycmdpacket_addata hc]
      have hself : netcomRemove nc 0 = nc := by simp [netcomRemove, move_self]
      simp only [ne_eq, not_true, if_false, hself]
      exact .zeroStream h8 hv hc hz
    have hpos := Nat.pos_of_ne_zero hz
    rw [if_pos hz]
    by_cases hmax : l0006StreamMaxSize < lengthOf nc.pending
    · rw [if_pos (.inr hmax)]
      exact .tooLong h8 hv hc hmax
    rw [if_neg (by rintro (h | h) <;> contradiction)]
    by_cases hle : lengthOf nc.pending ≤ nc.pending.length
    swap
    · rw [if_neg hle]
      exact .incomplete h8 hv hc hpos (Nat.not_lt.1 hmax) (Nat.not_le.1 hle)
    rw [if_pos hle]
    by_cases hrx : nc.rx = true
    · rw [if_pos hrx]
      cases hr : netcmdReadpacket env.below nc.blob nc.rd1Off (env.gettimeofday nc.tods) with
      | none => exact .badCrc h8 hv hc hpos (Nat.not_lt.1 hmax) hle hrx hr
      | some blob => exact .append blob h8 hv hc hpos (Nat.not_lt.1 hmax) hle hrx hr
    · rw [if_neg hrx]
      exact .drop h8 hv hc hpos (Nat.not_lt.1 hmax) hle (Bool.eq_false_iff.2 hrx)
  · rw [if_neg hc, if_neg (by simp), verifycmdpacket_of_isvalid hv hc]
    have hn : commandLength nc.pending ≠ 0 := by
      rcases commandLength_cases nc.pending with h | h <;> omega
    simp only [ne_eq, hn, not_false_eq_true, if_true]
    by_cases hle : commandLength nc.pending ≤ nc.pending.length
    · rw [if_pos hle]
      exact .command h8 hv hc hle
    · rw [if_neg hle]
      exact .partialCommand h8 hv hc (Nat.not_le.1 hle)

/-! ## What every round keeps -/

/-- The offsets close in on each other, everything in front of `rd1_off` stays,
and the log grows. -/
structure Keeps (nc t : Netcom α) : Prop where
  rd2Off : t.rd2Off = nc.rd2Off
  rd1End : t.rd1End = nc.rd1End
  errorflag : t.errorflag = nc.errorflag
  rx : t.rx = nc.rx
  lo : nc.rd1Off ≤ t.rd1Off
  le : t.rd1Off ≤ t.wrOff
  hi : t.wrOff ≤ nc.wrOff
  blob : ∀ i < nc.rd1Off, t.blob i = nc.blob i
  log : ∃ evs, t.log = nc.log ++ evs

theorem Keeps.refl (h : nc.rd1Off ≤ nc.wrOff) : Keeps nc nc :=
  ⟨rfl, rfl, rfl, rfl, Nat.le_refl _, h, Nat.le_refl _, fun _ _ => rfl, [], by simp⟩

theorem Keeps.trans {t u : Netcom α} (h : Keeps nc t) (h' : Keeps t u) : Keeps nc u where
  rd2Off := h'.rd2Off.trans h.rd2Off
  rd1End := h'.rd1End.trans h.rd1End
  errorflag := h'.errorflag.trans h.errorflag
  rx := h'.rx.trans h.rx
  lo := Nat.le_trans h.lo h'.lo
  le := h'.le
  hi := Nat.le_trans h'.hi h.hi
  blob i hi := (h'.blob i (Nat.lt_of_lt_of_le hi h.lo)).trans (h.blob i hi)
  log := by
    obtain ⟨e, he⟩ := h.log
    obtain ⟨e', he'⟩ := h'.log
    exact ⟨e ++ e', by rw [he', he, List.append_assoc]⟩

theorem keeps_discard {p : Nat} (h : nc.rd1Off ≤ p) (h' : p ≤ nc.wrOff) : Keeps nc (netcomDiscard nc p) :=
  ⟨rfl, rfl, rfl, rfl, Nat.le_refl _, by simp only [netcomDiscard]; omega, by simp only [netcomDiscard]; omega,
    fun _ hi => move_before _ _ hi, _, rfl⟩

theorem keeps_resync (h : nc.rd1Off + 8 ≤ nc.wrOff) : Keeps nc (netcomResync nc).state := by
  obtain ⟨p, hp, hp', -, hr⟩ := resync_cases h
  generalize netcomResync nc = o at hr ⊢
  cases hr with
  | found => exact keeps_discard (by omega) hp'
  | notFound => exact keeps_discard (by omega) hp'

theorem keeps_remove {n : Nat} (h : nc.rd1Off + n ≤ nc.wrOff) : Keeps nc (netcomRemove nc n) :=
  ⟨rfl, rfl, rfl, rfl, Nat.le_refl _, by simp only [netcomRemove]; omega, by simp only [netcomRemove]; omega,
    fun _ hi => move_before _ _ hi, [], by simp [netcomRemove]⟩

/-- The search of the used list leaves the receive buffer alone. -/
theorem lookup_frame (nc : Netcom α) (seqno : UInt8) (packet : List UInt8) :
    ∃ hit unused used, netcomLookup nc seqno packet =
      { nc with unused := unused, used := used, log := nc.log ++ [.lookup seqno packet hit] } := by
  unfold netcomLookup
  cases nc.used.find? (fun ncwrbuf => ncwrbuf.action.seqno == seqno) with
  | none => exact ⟨none, _, _, rfl⟩
  | some w => exact ⟨some w, _, _, rfl⟩

theorem Round.keeps {o : Outcome (Netcom α)} (h : Round env nc o) (hle : nc.rd1Off ≤ nc.wrOff) :
    Keeps nc o.state := by
  have hlen := length_pending nc
  cases h with
  | short | incomplete | partialCommand | zeroStream => exact .refl hle
  | badHeader h8 | tooLong h8 | badCrc h8 => exact keeps_resync (by omega)
  | append blob h8 _ _ _ _ hn _ hr =>
    refine ⟨rfl, rfl, rfl, rfl, Nat.le_add_right _ _, ?_, Nat.le_refl _, fun i hi => ?_, _, rfl⟩
    · simp only [Outcome.state]; omega
    · rw [Outcome.state, readpacket_some hr]
      exact store_before _ (by omega)
  | drop h8 _ _ _ _ hn =>
    refine .trans (t := { nc with log := _ }) ?_ (keeps_remove (by simp only; omega))
    exact ⟨rfl, rfl, rfl, rfl, Nat.le_refl _, hle, Nat.le_refl _, fun _ _ => rfl, _, rfl⟩
  | command h8 _ _ hn =>
    obtain ⟨hit, un, us, he⟩ := lookup_frame nc (seqnoOf nc.pending) (nc.pending.take (commandLength nc.pending))
    rw [he]
    refine .trans (t := { nc with unused := un, used := us, log := _ }) ?_ (keeps_remove (by simp only; omega))
    exact ⟨rfl, rfl, rfl, rfl, Nat.le_refl _, hle, Nat.le_refl _, fun _ _ => rfl, _, rfl⟩

/-- What the loop leaves pending is shorter than the longest stream packet. -/
theorem Round.rest {t : Netcom α} (h : Round env nc (.brk t)) (hle : nc.rd1Off ≤ nc.wrOff) :
    t.wrOff - t.rd1Off < l0006StreamMaxSize := by
  have hlen := length_pending nc
  have resync : nc.rd1Off + 8 ≤ nc.wrOff → netcomResync nc = .brk t → t.wrOff - t.rd1Off < l0006StreamMaxSize := by
    intro h8 he
    obtain ⟨p, hp, hp', -, hr⟩ := resync_cases h8
    rw [he] at hr
    cases hr with
    | notFound hw _ => simp only [netcomDiscard, l0006StreamMaxSize]; omega
  generalize ho : Outcome.brk t = o at h
  simp only [l0006StreamMaxSize] at resync ⊢
  cases h with
  | short h => cases ho; omega
  | incomplete _ _ _ _ hmax hlt => cases ho; simp only [l0006StreamMaxSize] at hmax; omega
  | partialCommand _ _ _ hlt =>
    cases ho
    rcases commandLength_cases nc.pending with h | h <;> omega
  | badHeader h8 | tooLong h8 | badCrc h8 => exact resync (by omega) ho.symm
  | append | drop | command | zeroStream => cases ho

/-! ## Leaving the loop -/

/-- The pending bytes start with a valid ADDATA header that declares length 0. -/
def ZeroStream (nc : Netcom α) : Prop :=
  8 ≤ nc.pending.length ∧ netcmdIsvalidpacketheader nc.pending = true ∧ cmdOf nc.pending = l0006NetcmdAddata ∧
    lengthOf nc.pending = 0

theorem not_zeroStream_of_pos (h : 0 < lengthOf nc.pending) : ¬ ZeroStream nc := fun hz => by
  rw [hz.2.2.2] at h
  cases h

theorem Resync.progress {p : Nat} {t : Netcom α} (h : Resync nc p (.cont t)) (hp : nc.rd1Off + 8 ≤ p) :
    t.wrOff - t.rd1Off < nc.wrOff - nc.rd1Off := by
  cases h with
  | found hw _ => simp only [netcomDiscard]; omega

/-- A round that does not leave the loop takes bytes off the pending ones, unless
a zero-length stream header makes it do nothing. -/
theorem Round.progress {t : Netcom α} (h : Round env nc (.cont t)) :
    (¬ ZeroStream nc ∧ t.wrOff - t.rd1Off < nc.wrOff - nc.rd1Off) ∨ (ZeroStream nc ∧ t = nc) := by
  have hlen := length_pending nc
  have resync : nc.rd1Off + 8 ≤ nc.wrOff → netcomResync nc = .cont t →
      t.wrOff - t.rd1Off < nc.wrOff - nc.rd1Off := by
    intro h8 he
    obtain ⟨p, hp, -, -, hr⟩ := resync_cases h8
    exact (he ▸ hr).progress hp
  generalize ho : Outcome.cont t = o at h
  cases h with
  | short | incomplete | partialCommand => cases ho
  | badHeader h8 hv =>
    have hnz : ¬ ZeroStream nc := fun hz => by simp [hz.2.1] at hv
    exact .inl ⟨hnz, resync (by omega) ho.symm⟩
  | tooLong h8 _ _ hl =>
    exact .inl ⟨not_zeroStream_of_pos (Nat.lt_of_le_of_lt (Nat.zero_le _) hl), resync (by omega) ho.symm⟩
  | badCrc h8 _ _ hpos => exact .inl ⟨not_zeroStream_of_pos hpos, resync (by omega) ho.symm⟩
  | append blob h8 _ _ hpos =>
    cases ho
    refine .inl ⟨not_zeroStream_of_pos hpos, ?_⟩
    simp only
    omega
  | drop h8 _ _ hpos =>
    cases ho
    refine .inl ⟨not_zeroStream_of_pos hpos, ?_⟩
    simp only [netcomRemove]
    omega
  | command h8 _ hc hn =>
    cases ho
    obtain ⟨hit, un, us, he⟩ := lookup_frame nc (seqnoOf nc.pending) (nc.pending.take (commandLength nc.pending))
    refine .inl ⟨fun hz => hc hz.2.2.1, ?_⟩
    rw [he]
    simp only [netcomRemove]
    rcases commandLength_cases nc.pending with h | h <;> omega
  | zeroStream h8 hv hc hz => cases ho; exact .inr ⟨⟨h8, hv, hc, hz⟩, rfl⟩

theorem iter_zeroStream (h : ZeroStream nc) : netcomIter env nc = .cont nc := by
  obtain ⟨h8, hv, hc, hz⟩ := h
  generalize ho : netcomIter env nc = o
  cases round_of ho with
  | zeroStream => rfl
  | short h => omega
  | badHeader _ h => simp [hv] at h
  | tooLong _ _ _ h | incomplete _ _ _ h | badCrc _ _ _ h | append _ _ _ _ h | drop _ _ _ h => rw [hz] at h; cases h
  | partialCommand _ _ h | command _ _ h => exact absurd hc h

theorem iter_badHeader (h8 : 8 ≤ nc.pending.length) (hv : netcmdIsvalidpacketheader nc.pending = false) :
    netcomIter env nc = netcomResync nc := by
  generalize ho : netcomIter env nc = o
  cases round_of ho with
  | badHeader | tooLong | badCrc => rfl
  | short h => omega
  | incomplete _ h | append _ _ h | drop _ h | partialCommand _ h | command _ h | zeroStream _ h =>
    rw [hv] at h
    cases h

theorem iter_eq_self_iff : netcomIter env nc = .cont nc ↔ ZeroStream nc := by
  refine ⟨fun h => ?_, iter_zeroStream⟩
  rcases (round_of h).progress with ⟨-, hlt⟩ | ⟨hz, -⟩
  · exact absurd hlt (Nat.lt_irrefl _)
  · exact hz

/-- What a round that does not leave the loop may lower. -/
def Netcom.ahead (nc : Netcom α) : Nat := nc.wrOff - nc.rd1Off

/-- The form of `Round.progress` the rules for loops take. -/
theorem iter_measure (env : Env) (s t : Netcom α) (hs : s.rd1Off ≤ s.wrOff) (h : netcomIter env s = .cont t) :
    t.rd1Off ≤ t.wrOff ∧ (t.ahead < s.ahead ∨ t = s) := by
  have hr := round_of h
  refine ⟨(hr.keeps hs).le, ?_⟩
  rcases hr.progress with ⟨-, hlt⟩ | ⟨-, he⟩
  · exact .inl hlt
  · exact .inr he

/-- The bound in `netcomLoop` only cuts off loops that are never left. -/
theorem loop_none_iff (hle : nc.rd1Off ≤ nc.wrOff) : netcomLoop env nc = none ↔ ¬ Stops (netcomIter env) nc :=
  run_none_iff Netcom.ahead (iter_measure env) hle

theorem loop_of_run {n : Nat} {t : Netcom α} (hle : nc.rd1Off ≤ nc.wrOff) (h : run (netcomIter env) n nc = some t) :
    netcomLoop env nc = some t := by
  cases hl : netcomLoop env nc with
  | none => exact absurd ⟨n, t, h⟩ ((loop_none_iff hle).1 hl)
  | some u => rw [run_det h hl]

theorem loop_brk {t : Netcom α} (h : netcomIter env nc = .brk t) : netcomLoop env nc = some t :=
  run_brk _ h

theorem loop_cont {t : Netcom α} (hle : nc.rd1Off ≤ nc.wrOff) (h : netcomIter env nc = .cont t) :
    netcomLoop env nc = netcomLoop env t := by
  have ht : t.rd1Off ≤ t.wrOff := (iter_measure env nc t hle h).1
  cases hl : netcomLoop env t with
  | some u => exact loop_of_run hle ((run_cont _ h).trans hl)
  | none =>
    refine (loop_none_iff hle).2 ?_
    rintro ⟨n, u, hu⟩
    cases n with
    | zero => cases hu
    | succ n => exact (loop_none_iff ht).1 hl ⟨n, u, (run_cont n h).symm.trans hu⟩

/-- What the loop keeps, and how much it leaves pending. -/
theorem loop_keeps {t : Netcom α} (hle : nc.rd1Off ≤ nc.wrOff) (h : netcomLoop env nc = some t) :
    Keeps nc t ∧ t.wrOff - t.rd1Off < l0006StreamMaxSize := by
  refine run_inv (I := Keeps nc) (Q := fun t => Keeps nc t ∧ t.wrOff - t.rd1Off < l0006StreamMaxSize) ?_ ?_
    (.refl hle) h
  · intro s u hs hsu
    exact hs.trans ((round_of hsu).keeps hs.le)
  · intro s u hs hsu
    exact ⟨hs.trans ((round_of hsu).keeps hs.le), (round_of hsu).rest hs.le⟩

/-- The packet loop is left, with every round before the last lowering
`wr_off - rd1_off`, exactly when no round starts at a zero-length stream header. -/
theorem packet_loop_stops_iff (env : Env) (nc : Netcom α) (hle : nc.rd1Off ≤ nc.wrOff) :
    (Stops (netcomIter env) nc ∧
      ∀ s t, Reaches (netcomIter env) nc s → netcomIter env s = .cont t →
        t.wrOff - t.rd1Off < s.wrOff - s.rd1Off) ↔
      ∀ s, Reaches (netcomIter env) nc s → ¬ ZeroStream s := by
  constructor
  · intro ⟨_, hdec⟩ s hs hz
    exact absurd (hdec s s hs (iter_zeroStream hz)) (Nat.lt_irrefl _)
  · intro hnz
    refine ⟨?_, fun s t hs hst => ?_⟩
    · refine (stops_iff Netcom.ahead (iter_measure env) hle).2 fun s hs hself => ?_
      exact hnz s hs (iter_eq_self_iff.1 hself)
    · rcases (round_of hst).progress with ⟨-, hlt⟩ | ⟨hz, -⟩
      · exact hlt
      · exact absurd hz (hnz s hs)

/-- A clock that stands still and zeros in front of the blob. -/
def Env.still : Env := ⟨fun _ => ⟨0, 0⟩, fun _ => 0⟩

/-- A receiver that holds one BUZZACK packet leaves the loop. -/
theorem packet_loop_stops_buzzack :
    Stops (netcomIter .still)
      (netcomReceive (netcomAllocateBuffer : Netcom Unit) [0xEF, 0xBE, 0x80, 0, 0, 0, 0x95, 0x72]) := by
  refine ((packet_loop_stops_iff _ _ (by decide)).2 fun s hs => ?_).1
  rcases Relation.ReflTransGen.cases_head hs with rfl | ⟨t, ht, hts⟩
  · unfold ZeroStream
    decide +kernel
  -- The one round removes the packet, and nothing is left.
  have hlen : t.wrOff - t.rd1Off = 0 := by
    have h := congrArg (fun o => o.state.wrOff - o.state.rd1Off) ht
    exact h.symm.trans (by decide +kernel)
  have hst : s = t := by
    rcases Relation.ReflTransGen.cases_head hts with rfl | ⟨u, hu, -⟩
    · rfl
    · rcases (round_of hu).progress with ⟨-, hlt⟩ | ⟨-, rfl⟩
      · omega
      · exact absurd (iter_eq_self_iff.1 hu).1 (by simp [hlen])
  exact fun hz => by simpa [hst, hlen] using hz.1

/-- A valid ADDATA header with `f.length` 0 keeps the loop where it is. -/
theorem packet_loop_zero_length :
    ¬ Stops (netcomIter .still)
      (netcomReceive (netcomAllocateBuffer : Netcom Unit) [0xEF, 0xBE, 0x04, 0, 0, 0, 0x5C, 0x65]) := by
  have hz : ZeroStream (netcomReceive (netcomAllocateBuffer : Netcom Unit)
      [0xEF, 0xBE, 0x04, 0, 0, 0, 0x5C, 0x65]) := by
    unfold ZeroStream
    decide +kernel
  rintro ⟨n, t, ht⟩
  rw [run_stuck .refl (iter_zeroStream hz)] at ht
  cases ht

end CmdAgent

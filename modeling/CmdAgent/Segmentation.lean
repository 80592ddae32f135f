import CmdAgent.Resync
/-!
# The same stream in different chunks

What `netcom_find_header` discards depends on how much is buffered when it is
called, unless a header stands where every search is sure to look, or all of the
stream has arrived by then. `Cuts` takes a stream apart by its own headers as long as
this is so; the receiver then does the same, whatever chunks the stream arrives in.
-/
open StreamLib.Mem StreamLib.Loop StreamLib.Runs StreamLib.Framing

namespace CmdAgent

variable {α : Type} {env : Env} {nc : Netcom α}

/-! ## Streams -/

/-- A stream packet too short for the time that is stored in it. -/
structure Tight (p : List UInt8) : Prop where
  header : 8 ≤ p.length
  valid : netcmdIsvalidpacketheader p = true
  cmd : cmdOf p = l0006NetcmdAddata
  pos : 0 < lengthOf p
  lt : lengthOf p < 16

/-- The packet at the front is not complete. -/
def Waits (rx : Bool) (p : List UInt8) : Prop :=
  netcmdNext rx p = .more ∨ (rx = true ∧ Tight p ∧ p.length < lengthOf p)

/-- The bytes that have arrived when a packet is found to be bad: all of it if its
checksum fails, else its header. -/
def badLength (p : List UInt8) : Nat :=
  if netcmdIsvalidpacketheader p = true ∧ lengthOf p ≤ l0006StreamMaxSize then lengthOf p else 8

/-- A packet for which `netcom_find_header` is called. -/
structure Spoilt (rx : Bool) (p : List UInt8) : Prop where
  bad : netcmdNext rx p = .bad
  length : netcmdIsvalidpacketheader p = true →
    16 ≤ lengthOf p ∨ (12 ≤ lengthOf p ∧ lengthOf p ≤ p.length ∧ streamCrc p = false)

/-- A bad packet at the front of the stream `p`, of which at least `a` bytes have
arrived, from which every search goes `k` bytes on: to the first valid header at 8
bytes or more, if that lies in what is sure to be buffered by then, or to fewer bytes
than make a packet. -/
structure Skips (rx : Bool) (a : Nat) (p : List UInt8) (k : Nat) : Prop where
  spoilt : Spoilt rx p
  lo : 8 ≤ k
  hi : k ≤ max 8 (max a (badLength p) - 8)
  none : ∀ j, 8 ≤ j → j < k → netcmdIsvalidpacketheader (p.drop j) = false
  header : k + 8 < p.length → netcmdIsvalidpacketheader (p.drop k) = true
  last : p.length ≤ k + 8 → Waits rx (p.drop k)

/-- The stream, of which at least `a` bytes have arrived, is the frames `os` with bad
packets between them, then `r`. -/
inductive Cuts (rx : Bool) : Nat → List UInt8 → List Frame → List UInt8 → Prop
  | more {a : Nat} {p : List UInt8} : Waits rx p → Cuts rx a p [] p
  | frame {a n : Nat} {p r : List UInt8} {f : Frame} {os : List Frame} :
      netcmdNext rx p = .unit n f → Cuts rx (a - n) (p.drop n) os r → Cuts rx a p (f :: os) r
  | skip {a k : Nat} {p r : List UInt8} {os : List Frame} :
      Skips rx a p k → Cuts rx (max a (badLength p) - k) (p.drop k) os r → Cuts rx a p os r
  /-- No header is found in all there is. -/
  | stop {a : Nat} {p : List UInt8} : Spoilt rx p → max a (badLength p) = p.length →
      (∀ j, 8 ≤ j → j + 8 < p.length → netcmdIsvalidpacketheader (p.drop j) = false) →
      Cuts rx a p [] (p.drop (max 8 (p.length - 8)))
  /-- The time stored in the last packet runs over nothing. -/
  | tight {a : Nat} {p : List UInt8} : rx = true → Tight p → 12 ≤ lengthOf p → p.length = lengthOf p →
      streamCrc p = true → Cuts rx a p [.append p] []

theorem length_of_next {rx : Bool} {p : List UInt8} (h : netcmdNext rx p ≠ .more) : 8 ≤ p.length := by
  by_contra h8
  exact h (if_pos (Nat.not_le.1 h8))

theorem Tight.next {p : List UInt8} (h : Tight p) : netcmdNext true p = .bad :=
  netcmdNext_tight h.header h.valid h.cmd h.lt

theorem tight_append {p : List UInt8} (q : List UInt8) (h8 : 8 ≤ p.length) : Tight (p ++ q) ↔ Tight p := by
  have hle : p.length ≤ (p ++ q).length := by simp
  constructor
  · rintro ⟨-, hv, hc, hpos, hlt⟩
    rw [isvalid_append q h8] at hv
    rw [cmdOf_append q h8] at hc
    rw [lengthOf_append q h8] at hpos hlt
    exact ⟨h8, hv, hc, hpos, hlt⟩
  · rintro ⟨-, hv, hc, hpos, hlt⟩
    rw [← isvalid_append q h8] at hv
    rw [← cmdOf_append q h8] at hc
    rw [← lengthOf_append q h8] at hpos hlt
    exact ⟨Nat.le_trans h8 hle, hv, hc, hpos, hlt⟩

theorem length_of_not_waits {rx : Bool} {p : List UInt8} (h : ¬ Waits rx p) : 8 ≤ p.length :=
  length_of_next fun hm => h (.inl hm)

/-- While a packet is not complete, fewer bytes of it are not either. -/
theorem Waits.prefix {rx : Bool} {p q : List UInt8} (h : Waits rx (p ++ q)) : Waits rx p := by
  by_cases hm : netcmdNext rx p = .more
  · exact .inl hm
  have h8 := length_of_next hm
  rcases h with h | ⟨hrx, ht, hlt⟩
  · rw [netcmdNext_append q hm] at h
    exact absurd h hm
  · rw [lengthOf_append q h8, List.length_append] at hlt
    exact .inr ⟨hrx, (tight_append q h8).1 ht, by omega⟩

theorem Spoilt.not_waits {rx : Bool} {p : List UInt8} (h : Spoilt rx p) : ¬ Waits rx p := by
  rintro (hm | ⟨-, ht, hlt⟩)
  · rw [h.bad] at hm
    cases hm
  · have hlt16 := ht.lt
    rcases h.length ht.valid with h16 | ⟨-, hle, -⟩ <;> omega

/-- Nothing is done while the first packet is not complete. -/
theorem Cuts.of_waits {rx : Bool} {a : Nat} {p r : List UInt8} {os : List Frame} (h : Cuts rx a p os r)
    (hw : Waits rx p) : os = [] ∧ r = p := by
  cases h with
  | more => exact ⟨rfl, rfl⟩
  | frame hn =>
    rcases hw with hm | ⟨rfl, ht, -⟩
    · rw [hm] at hn
      cases hn
    · rw [ht.next] at hn
      cases hn
  | skip hs => exact absurd hw hs.spoilt.not_waits
  | stop hs => exact absurd hw hs.not_waits
  | tight hrx ht _ hlen =>
    subst hrx
    rcases hw with hm | ⟨-, -, hlt⟩
    · rw [ht.next] at hm
      cases hm
    · omega

/-! ## One round -/

theorem loop_waits (env : Env) (h : Waits nc.rx nc.pending) : netcomLoop env nc = some nc := by
  rcases h with hm | ⟨-, ht, hlt⟩
  · exact loop_more env hm
  have hlt16 := ht.lt
  have hpos := ht.pos
  generalize ho : netcomIter env nc = o
  cases round_of ho with
  | short | incomplete => exact loop_brk ho
  | badHeader _ hv => rw [ht.valid] at hv; cases hv
  | tooLong _ _ _ hl => simp only [l0006StreamMaxSize] at hl; omega
  | badCrc _ _ _ _ _ hn | append _ _ _ _ _ _ hn | drop _ _ _ _ _ hn => omega
  | partialCommand _ _ hc | command _ _ hc => exact absurd ht.cmd hc
  | zeroStream _ _ _ hz => omega

/-- A bad packet of which enough has arrived. -/
theorem Spoilt.round (env : Env) {q : List UInt8} (h : Spoilt nc.rx (nc.pending ++ q))
    (hw : ¬ Waits nc.rx nc.pending) :
    netcomIter env nc = netcomResync nc ∧ badLength (nc.pending ++ q) ≤ nc.pending.length := by
  have h8 := length_of_not_waits hw
  have hle : nc.pending.length ≤ (nc.pending ++ q).length := by simp
  have hlen : badLength (nc.pending ++ q) =
      if netcmdIsvalidpacketheader nc.pending = true ∧ lengthOf nc.pending ≤ l0006StreamMaxSize
        then lengthOf nc.pending else 8 := by
    rw [badLength, isvalid_append q h8, lengthOf_append q h8]
  have hv' := isvalid_append q h8
  have hc' := cmdOf_append q h8
  have hl' := lengthOf_append q h8
  have hbad := h.bad
  have hlength := h.length
  rw [hv', hl'] at hlength
  rw [hlen]
  generalize ho : netcomIter env nc = o
  cases round_of ho with
  | short h => omega
  | badHeader _ hv => exact ⟨rfl, by rw [if_neg (by simp [hv])]; exact h8⟩
  | tooLong _ _ _ hl => exact ⟨rfl, by rw [if_neg fun hcon => by omega]; exact h8⟩
  | badCrc _ hv _ _ hmax hn => exact ⟨rfl, by rw [if_pos ⟨hv, hmax⟩]; exact hn⟩
  | incomplete _ hv hc hpos hmax hlt =>
    -- The packet is not complete, so it is not bad yet.
    refine absurd ?_ hw
    by_cases h16 : nc.rx = true → 16 ≤ lengthOf nc.pending
    · exact .inl ((netcmdNext_stream h8 hv hc hpos hmax h16).trans (if_pos hlt))
    · obtain ⟨hrx, hlt16⟩ := Classical.not_imp.1 h16
      exact .inr ⟨hrx, ⟨h8, hv, hc, hpos, Nat.not_le.1 hlt16⟩, hlt⟩
  | append blob _ hv hc hpos hmax hn hrx hr =>
    have h12 : 12 ≤ lengthOf nc.pending := by rcases hlength hv with h16 | ⟨h12, -⟩ <;> omega
    have hck : streamCrc nc.pending = true := by
      by_contra hck
      rw [readpacket_pending env _ h12 hn, if_neg hck] at hr
      cases hr
    rcases hlength hv with h16 | ⟨-, -, hno⟩
    · rw [netcmdNext_stream (by omega) (hv'.trans hv) (hc'.trans hc) (by omega) (by omega) (fun _ => by omega),
        if_neg (by omega), if_pos hrx, streamCrc_append q h12 hn, if_pos hck] at hbad
      cases hbad
    · rw [streamCrc_append q h12 hn, hck] at hno
      cases hno
  | drop _ hv hc hpos hmax hn hrx =>
    rw [netcmdNext_stream (by omega) (hv'.trans hv) (hc'.trans hc) (by omega) (by omega) (by simp [hrx]),
      if_neg (by omega), if_neg (by simp [hrx])] at hbad
    cases hbad
  | partialCommand _ hv hc hlt => exact absurd (.inl ((netcmdNext_command h8 hv hc).trans (if_pos hlt))) hw
  | command _ hv hc hn =>
    have hunit : netcmdNext nc.rx nc.pending = _ := (netcmdNext_command h8 hv hc).trans (if_neg (Nat.not_lt.2 hn))
    rw [netcmdNext_append q (by simp [hunit]), hunit] at hbad
    cases hbad
  | zeroStream _ hv _ hz => rcases hlength hv with h16 | ⟨h12, -⟩ <;> omega

theorem window_append {p : List UInt8} (q : List UInt8) {j : Nat} (hj : j + 8 ≤ p.length) :
    netcmdIsvalidpacketheader ((p ++ q).drop j) = netcmdIsvalidpacketheader (p.drop j) := by
  rw [List.drop_append_of_le_length (by omega)]
  exact isvalid_append q (by rw [List.length_drop]; omega)

/-- At a bad packet the search goes where the stream says, however much of the stream
is buffered. -/
theorem Skips.search (env : Env) {q : List UInt8} {a k : Nat} (h : Skips nc.rx a (nc.pending ++ q) k)
    (ha : a ≤ nc.pending.length) (hw : ¬ Waits nc.rx nc.pending) :
    max a (badLength (nc.pending ++ q)) ≤ nc.pending.length ∧ k ≤ nc.pending.length ∧
      netcomIter env nc = if k + 8 < nc.pending.length then .cont (netcomDiscard nc (nc.rd1Off + k))
        else .brk (netcomDiscard nc (nc.rd1Off + k)) := by
  have h8 := length_of_not_waits hw
  obtain ⟨hit, hlen⟩ := h.spoilt.round env hw
  have hhi := h.hi
  have hlo := h.lo
  have hle : nc.pending.length ≤ (nc.pending ++ q).length := by simp
  rw [hit]
  obtain ⟨p, hp, hp', hinv, hs⟩ := search_of h8
  -- The search cannot run past the header at `k`.
  have hpk : p ≤ k ∨ nc.pending.length ≤ k + 8 := by
    by_contra hcon
    have hhead := h.header (by omega)
    rw [window_append q (by omega), hinv k hlo (by omega)] at hhead
    cases hhead
  refine ⟨by omega, by omega, ?_⟩
  generalize netcomResync nc = o at hs
  cases hs with
  | found hlt hv =>
    have hkp : k ≤ p := by
      by_contra hcon
      rw [← window_append q (by omega), h.none p hp (by omega)] at hv
      cases hv
    obtain rfl : p = k := by omega
    rw [if_pos hlt]
  | notFound hge hpe =>
    obtain rfl : p = k := by omega
    rw [if_neg (by omega)]

/-- A search over all of the stream that finds nothing. -/
theorem Spoilt.search (env : Env) (h : Spoilt nc.rx nc.pending)
    (hnone : ∀ j, 8 ≤ j → j + 8 < nc.pending.length → netcmdIsvalidpacketheader (nc.pending.drop j) = false) :
    max 8 (nc.pending.length - 8) ≤ nc.pending.length ∧
      netcomIter env nc = .brk (netcomDiscard nc (nc.rd1Off + max 8 (nc.pending.length - 8))) := by
  have hw := h.not_waits
  have h8 := length_of_not_waits hw
  rw [← List.append_nil nc.pending] at h
  rw [(h.round env hw).1]
  obtain ⟨p, hp, hp', -, hs⟩ := search_of h8
  refine ⟨by omega, ?_⟩
  generalize netcomResync nc = o at hs
  cases hs with
  | found hlt hv =>
    rw [hnone p hp hlt] at hv
    cases hv
  | notFound hge hpe =>
    obtain rfl : p = max 8 (nc.pending.length - 8) := by omega
    rfl

/-! ## Whole runs -/

/-- What of the packet an event is about is published: the time stored in it ends with
it. -/
def NetcomEv.kept : NetcomEv α → List UInt8
  | .append packet tv => (stamp packet tv).take packet.length
  | .lookup .. | .drop _ | .discard _ => []

/-- Between `nc` and `t` the frames `os` were handled in order; bytes may have been
discarded between them. -/
def Yields (nc : Netcom α) (os : List Frame) (t : Netcom α) : Prop :=
  ∃ evs, t.log = nc.log ++ evs ∧ evs.filterMap NetcomEv.frame = os ∧
    t.published = nc.published ++ evs.flatMap NetcomEv.kept

theorem Yields.refl (nc : Netcom α) : Yields nc [] nc := ⟨[], by simp, rfl, by simp⟩

theorem Yields.trans {t u : Netcom α} {os os' : List Frame} (h : Yields nc os t) (h' : Yields t os' u) :
    Yields nc (os ++ os') u := by
  obtain ⟨e, hl, hm, hp⟩ := h
  obtain ⟨e', hl', hm', hp'⟩ := h'
  refine ⟨e ++ e', ?_, ?_, ?_⟩
  · rw [hl', hl, List.append_assoc]
  · rw [List.filterMap_append, hm, hm']
  · rw [hp', hp, List.flatMap_append, List.append_assoc]

theorem stamp_take {packet : List UInt8} (h16 : 16 ≤ packet.length) (tv : Timeval) :
    (stamp packet tv).take packet.length = stamp packet tv := by
  refine List.take_of_length_le ?_
  simp only [stamp, List.length_append, List.length_take, List.length_drop, Timeval.length_bytes]
  omega

/-- A stream packet that is no `Tight` one has room for the time. -/
theorem length_of_append {rx : Bool} {p packet : List UInt8} {n : Nat}
    (h : netcmdNext rx p = .unit n (.append packet)) : 16 ≤ packet.length := by
  unfold netcmdNext at h
  split at h
  · cases h
  split at h
  · cases h
  split at h
  · split at h
    · cases h
    rename_i hgood
    split at h
    · cases h
    split at h
    · rename_i hrx
      split at h
      · cases h
        have h16 : ¬ lengthOf p < 16 := fun hlt => hgood (.inr (.inr ⟨hrx, hlt⟩))
        rw [List.length_take]
        omega
      · cases h
    · cases h
  · split at h <;> cases h

theorem yields_unit {t : Netcom α} {rx : Bool} {p : List UInt8} {n : Nat} {f : Frame} (h : Handles nc [f] t)
    (hn : netcmdNext rx p = .unit n f) : Yields nc [f] t := by
  obtain ⟨evs, hl, hm, hp⟩ := h
  obtain ⟨ev, rfl⟩ : ∃ ev, evs = [ev] := by
    rw [← List.length_eq_one_iff, ← List.length_map NetcomEv.frame, hm]
    rfl
  have hev : ev.frame = some f := List.singleton_inj.1 hm
  refine ⟨[ev], hl, by rw [List.filterMap_cons, hev]; rfl, ?_⟩
  rw [hp, List.flatMap_singleton, List.flatMap_singleton]
  cases ev with
  | append packet tv =>
    cases hev
    exact congrArg (nc.published ++ ·) (stamp_take (length_of_append hn) tv).symm
  | lookup | drop | discard => rfl

theorem yields_discard (p : Nat) : Yields nc [] (netcomDiscard nc p) := by
  refine ⟨_, rfl, rfl, ?_⟩
  rw [List.flatMap_singleton]
  refine Eq.trans ?_ (List.append_nil _).symm
  exact slice_move_before _ _ _ (Nat.le_of_eq (Nat.zero_add _))

/-- The time stored in a short packet, as far as the packet goes. -/
theorem published_tight {n : Nat} (tv : Timeval) (h8 : 8 ≤ n) (h16 : n ≤ 16) (h : n ≤ nc.pending.length) :
    slice (store nc.blob (nc.rd1Off + 8) tv.bytes) 0 (nc.rd1Off + n) =
      nc.published ++ (stamp (nc.pending.take n) tv).take n := by
  have hlen := length_pending nc
  obtain ⟨k, rfl⟩ := Nat.exists_eq_add_of_le h8
  have hhead : (nc.pending.take (8 + k)).take 8 = slice nc.blob nc.rd1Off 8 := by
    rw [List.take_take, Nat.min_eq_left (by omega), Netcom.pending, take_slice _ (by omega)]
  have hrest : (nc.pending.take (8 + k)).drop 16 = [] := by
    rw [List.drop_eq_nil_iff, List.length_take]
    omega
  have hcut : nc.rd1Off + (8 + k) = nc.rd1Off + 8 + k := by omega
  have htime : slice (store nc.blob (nc.rd1Off + 8) tv.bytes) (nc.rd1Off + 8) k = tv.bytes.take k := by
    have hk : k ≤ tv.bytes.length := by
      rw [Timeval.length_bytes]
      omega
    rw [← take_slice _ hk, slice_store_self]
  have htake : (slice nc.blob nc.rd1Off 8 ++ tv.bytes).take (8 + k) = slice nc.blob nc.rd1Off 8 ++ tv.bytes.take k := by
    rw [List.take_append, length_slice, List.take_of_length_le (by rw [length_slice]; omega), Nat.add_sub_cancel_left]
  rw [stamp, hhead, hrest, List.append_nil, htake, hcut, slice_add, slice_add, Nat.zero_add, Nat.zero_add,
    slice_store_before _ _ (by omega), slice_store_before _ _ (by omega), htime, Netcom.published, List.append_assoc]

/-- A round over a short stream packet with nothing behind it. -/
theorem iter_tight (env : Env) (hrx : nc.rx = true) (ht : Tight nc.pending) (h12 : 12 ≤ lengthOf nc.pending)
    (hlen : nc.pending.length = lengthOf nc.pending) (hck : streamCrc nc.pending = true) :
    ∃ t, netcomIter env nc = .cont t ∧ t.pending = [] ∧ Yields nc [.append nc.pending] t := by
  have hlt := ht.lt
  have hpos := ht.pos
  have hw := length_pending nc
  generalize ho : netcomIter env nc = o
  cases round_of ho with
  | short h => omega
  | badHeader _ hv => rw [ht.valid] at hv; cases hv
  | tooLong _ _ _ hl => simp only [l0006StreamMaxSize] at hl; omega
  | incomplete _ _ _ _ _ hl => omega
  | badCrc _ _ _ _ _ hn _ hr =>
    rw [readpacket_pending env _ h12 hn, if_pos hck] at hr
    cases hr
  | drop _ _ _ _ _ _ hno => rw [hrx] at hno; cases hno
  | partialCommand _ _ hc | command _ _ hc => exact absurd ht.cmd hc
  | zeroStream _ _ _ hz => omega
  | append blob _ _ _ _ _ hn _ hr =>
    refine ⟨_, rfl, List.eq_nil_of_length_eq_zero ?_, [.append nc.pending (env.gettimeofday nc.tods)], ?_, rfl, ?_⟩
    · rw [length_pending]
      simp only
      omega
    · rw [List.take_of_length_le (Nat.le_of_eq hlen)]
    · cases readpacket_some hr
      rw [List.flatMap_singleton, NetcomEv.kept, hlen, Netcom.published, published_tight _ (by omega) (by omega) hn,
        List.take_of_length_le (Nat.le_of_eq hlen)]

/-- What the stream still holds for `nc`, of which `q` has not arrived: the frames `os`,
and `r` behind them. -/
inductive ToCome (nc : Netcom α) : List UInt8 → List Frame → List UInt8 → Prop
  | done : ToCome nc [] [] nc.pending
  | more {q r : List UInt8} {a : Nat} {os : List Frame} : q ≠ [] → a ≤ nc.pending.length →
      Cuts nc.rx a (nc.pending ++ q) os r → ToCome nc q os r

/-- The loop takes frames off the front of the stream, of which `q` has not arrived. -/
def Advances (env : Env) (nc : Netcom α) (q : List UInt8) (os : List Frame) (r : List UInt8) : Prop :=
  ∃ t os₁ os₂, netcomLoop env nc = some t ∧ Keeps nc t ∧ Yields nc os₁ t ∧ os = os₁ ++ os₂ ∧ ToCome t q os₂ r

section
variable {q r : List UInt8} {os : List Frame} {a : Nat}

/-- Where all of the stream has arrived and the first packet is not complete, it is over. -/
theorem toCome_of_waits (ha : a ≤ nc.pending.length) (h : Cuts nc.rx a (nc.pending ++ q) os r)
    (hw : q = [] → Waits nc.rx nc.pending) : ToCome nc q os r := by
  by_cases hq : q = []
  · subst hq
    rw [List.append_nil] at h
    obtain ⟨rfl, rfl⟩ := h.of_waits (hw rfl)
    exact .done
  · exact .more hq ha h

theorem Advances.stop (ha : a ≤ nc.pending.length) (h : Cuts nc.rx a (nc.pending ++ q) os r)
    (hw : Waits nc.rx nc.pending) (hle : nc.rd1Off ≤ nc.wrOff) : Advances env nc q os r :=
  ⟨nc, [], os, loop_waits env hw, .refl hle, .refl nc, rfl, toCome_of_waits ha h fun _ => hw⟩

theorem Advances.cont {t : Netcom α} {os' : List Frame} (h : Advances env t q os r) (hle : nc.rd1Off ≤ nc.wrOff)
    (ht : netcomIter env nc = .cont t) (hy : Yields nc os' t) : Advances env nc q (os' ++ os) r := by
  have hk : Keeps nc t := (round_of ht).keeps hle
  obtain ⟨u, os₁, os₂, hu, hku, hyu, rfl, hc⟩ := h
  exact ⟨u, os' ++ os₁, os₂, (loop_cont hle ht).trans hu, hk.trans hku, hy.trans hyu, (List.append_assoc _ _ _).symm, hc⟩

/-- A search that finds no header when all of the stream has arrived is the last round. -/
theorem advances_search (env : Env) (hs : Spoilt nc.rx (nc.pending ++ q))
    (hN : max a (badLength (nc.pending ++ q)) = (nc.pending ++ q).length)
    (hnone : ∀ j, 8 ≤ j → j + 8 < (nc.pending ++ q).length →
      netcmdIsvalidpacketheader ((nc.pending ++ q).drop j) = false)
    (ha : a ≤ nc.pending.length) (hw : ¬ Waits nc.rx nc.pending) (hle : nc.rd1Off ≤ nc.wrOff) :
    Advances env nc q [] ((nc.pending ++ q).drop (max 8 ((nc.pending ++ q).length - 8))) := by
  have hq : q = [] := by
    have hlen := (hs.round env hw).2
    rw [List.length_append] at hN
    exact List.eq_nil_of_length_eq_zero (by omega)
  subst hq
  rw [List.append_nil] at hs hnone ⊢
  obtain ⟨hk, hit⟩ := hs.search env hnone
  have hlen := length_pending nc
  refine ⟨_, [], [], loop_brk hit, keeps_discard (Nat.le_add_right _ _) (by omega), yields_discard _, rfl, ?_⟩
  rw [← pending_discard hk]
  exact .done

/-- So is the packet whose time runs over nothing. -/
theorem advances_tight (env : Env) (hrx : nc.rx = true) (ht : Tight (nc.pending ++ q))
    (h12 : 12 ≤ lengthOf (nc.pending ++ q)) (hlen : (nc.pending ++ q).length = lengthOf (nc.pending ++ q))
    (hck : streamCrc (nc.pending ++ q) = true) (hw : ¬ Waits nc.rx nc.pending) (hle : nc.rd1Off ≤ nc.wrOff) :
    Advances env nc q [.append (nc.pending ++ q)] [] := by
  have h8 := length_of_not_waits hw
  have htight := (tight_append q h8).1 ht
  have hq : q = [] := by
    by_contra hq
    refine hw (.inr ⟨hrx, htight, ?_⟩)
    rw [List.length_append, lengthOf_append q h8] at hlen
    have hpos := List.length_pos_iff.2 hq
    omega
  subst hq
  rw [List.append_nil] at ht h12 hlen hck ⊢
  obtain ⟨t, hit, hp, hy⟩ := iter_tight env hrx ht h12 hlen hck
  have hwt : Waits t.rx [] := .inl rfl
  have hcuts : Cuts t.rx 0 (t.pending ++ []) [] [] := by
    rw [hp]
    exact .more hwt
  have hrest : Advances env t [] [] [] :=
    .stop (Nat.zero_le _) hcuts (hp ▸ hwt) ((round_of hit).keeps hle).le
  exact hrest.cont hle hit hy

theorem loop_cuts (env : Env) (ha : a ≤ nc.pending.length) (h : Cuts nc.rx a (nc.pending ++ q) os r)
    (hle : nc.rd1Off ≤ nc.wrOff) : Advances env nc q os r := by
  by_cases hw : Waits nc.rx nc.pending
  · exact .stop ha h hw hle
  generalize hu : nc.pending ++ q = u at h
  generalize hrx : nc.rx = rx at h
  -- On the stream, not on what is buffered of it: a round may stop short of the next frame.
  induction h generalizing nc with
  | more hmore =>
    subst hu hrx
    exact absurd hmore.prefix hw
  | @frame a n _ _ _ _ hn hd ih =>
    subst hu hrx
    have hm : netcmdNext nc.rx nc.pending ≠ .more := fun hm => hw (.inl hm)
    have hn' := hn
    rw [netcmdNext_append q hm] at hn'
    obtain ⟨t, ht, hp, hh⟩ := iter_unit env hn'
    have hk : Keeps nc t := (round_of ht).keeps hle
    have hpend : t.pending ++ q = (nc.pending ++ q).drop n := by
      rw [hp, List.drop_append_of_le_length (netcmdNext_pos hn').2]
    have ha' : a - n ≤ t.pending.length := by
      rw [hp, List.length_drop]
      omega
    refine Advances.cont ?_ hle ht (yields_unit hh hn)
    by_cases hwt : Waits t.rx t.pending
    · exact .stop ha' (by rw [hpend, hk.rx]; exact hd) hwt hk.le
    · exact ih ha' hk.le hwt hpend hk.rx
  | @skip a k _ _ _ hs hd ih =>
    subst hu hrx
    obtain ⟨hN, hk, hit⟩ := hs.search env ha hw
    have hlen := length_pending nc
    have hkeep : Keeps nc (netcomDiscard nc (nc.rd1Off + k)) := keeps_discard (Nat.le_add_right _ _) (by omega)
    have hpend : (netcomDiscard nc (nc.rd1Off + k)).pending ++ q = (nc.pending ++ q).drop k := by
      rw [pending_discard hk, List.drop_append_of_le_length hk]
    have ha' : max a (badLength (nc.pending ++ q)) - k ≤ (netcomDiscard nc (nc.rd1Off + k)).pending.length := by
      rw [pending_discard hk, List.length_drop]
      omega
    split at hit
    · refine Advances.cont ?_ hle hit (yields_discard _)
      by_cases hwt : Waits nc.rx (netcomDiscard nc (nc.rd1Off + k)).pending
      · exact .stop ha' (hpend ▸ hd) hwt hkeep.le
      · exact ih ha' hkeep.le hwt hpend rfl
    · rename_i hlt
      refine ⟨_, [], _, loop_brk hit, hkeep, yields_discard _, rfl, toCome_of_waits ha' (hpend ▸ hd) ?_⟩
      rintro rfl
      have hwait := hs.last (by rw [List.append_nil]; omega)
      rwa [List.append_nil, ← pending_discard hk] at hwait
  | stop hs hN hnone =>
    subst hu hrx
    exact advances_search env hs hN hnone ha hw hle
  | tight hrx' ht h12 hlen hck =>
    subst hu
    exact advances_tight env (hrx.trans hrx') ht h12 hlen hck hw hle

/-- Whatever chunks the stream arrives in, its frames are handled and what is left is
pending. -/
theorem run_cuts {b : Bool} {chunks : List (List UInt8)} (hs : Aligned b nc) (hne : ∀ c ∈ chunks, c ≠ [])
    (hrun : Along (netcomReadcb env) Plain nc chunks) (h : ToCome nc chunks.flatten os r) :
    ∃ t, exec (netcomReadcb env) nc chunks = some t ∧ Aligned b t ∧ t.pending = r ∧ Yields nc os t := by
  refine exec_parses (I := Aligned b) (fun s cs os r => (∀ c ∈ cs, c ≠ []) ∧ ToCome s cs.flatten os r)
    Yields.refl (fun s t u os os' => Yields.trans) ?_ ?_ hs hrun ⟨hne, h⟩
  · rintro s os r - ⟨-, h⟩
    generalize hq : List.flatten [] = q at h
    cases h with
    | done => exact ⟨rfl, rfl⟩
    | more hne => exact absurd hq.symm hne
  · rintro s c cs os r hs hc ⟨hne, h⟩
    generalize hq : (c :: cs).flatten = q at h
    cases h with
    | done => exact absurd (List.append_eq_nil_iff.1 hq).1 (hne c List.mem_cons_self)
    | more _ ha h =>
      subst hq
      have hs' := hs.receive c
      have hpend := pending_receive c hs.le
      rw [List.flatten_cons, ← List.append_assoc, ← hpend] at h
      have ha' : _ ≤ (netcomReceive s c).pending.length :=
        Nat.le_trans ha (by rw [hpend, List.length_append]; exact Nat.le_add_right _ _)
      obtain ⟨t, os₁, os₂, ht, hk, ⟨evs, hl, hm, hp⟩, he, hcome⟩ := loop_cuts env ha' h hs'.le
      refine ⟨t, os₁, os₂, (readcb_plain env hs hc).trans ht, hk.aligned hs', ⟨evs, hl, hm, ?_⟩, he,
        fun c' hc' => hne c' (List.mem_cons_of_mem _ hc'), hcome⟩
      rw [hp, published_receive c hs.le]

end

/-! ## The same stream in different chunks -/

/-- Published bytes that differ in the timestamps of stream packets only. -/
inductive SameUpToStamps : List UInt8 → List UInt8 → Prop
  | nil : SameUpToStamps [] []
  | byte {a b : List UInt8} (x : UInt8) : SameUpToStamps a b → SameUpToStamps (x :: a) (x :: b)
  | packet {a b : List UInt8} (packet : List UInt8) (tv tv' : Timeval) :
      SameUpToStamps a b →
      SameUpToStamps ((stamp packet tv).take packet.length ++ a) ((stamp packet tv').take packet.length ++ b)

theorem SameUpToStamps.bytes {a b : List UInt8} (h : SameUpToStamps a b) (bytes : List UInt8) :
    SameUpToStamps (bytes ++ a) (bytes ++ b) := by
  induction bytes with
  | nil => exact h
  | cons x bytes ih => exact ih.byte x

/-- The searches of `wrbuf_used_list` so far. -/
def Netcom.lookups (nc : Netcom α) : List (UInt8 × List UInt8) :=
  nc.log.filterMap fun
    | .lookup seqno packet _ => some (seqno, packet)
    | _ => none

def Frame.lookup? : Frame → Option (UInt8 × List UInt8)
  | .lookup seqno packet => some (seqno, packet)
  | _ => none

theorem Yields.lookups {t : Netcom α} {os : List Frame} (h : Yields nc os t) :
    t.lookups = nc.lookups ++ os.filterMap Frame.lookup? := by
  obtain ⟨evs, hl, hm, -⟩ := h
  have hev : ∀ ev : NetcomEv α, (match ev with
      | .lookup seqno packet _ => some (seqno, packet)
      | _ => none) = ev.frame.bind Frame.lookup? := by
    intro ev
    cases ev <;> rfl
  rw [← hm, List.filterMap_filterMap, Netcom.lookups, hl, List.filterMap_append]
  congr 1
  exact congrArg (fun f => evs.filterMap f) (funext hev)

/-- The events that handle a frame keep all that is kept. -/
theorem framed_events (evs : List (NetcomEv α)) :
    (evs.filter fun ev => ev.frame.isSome).map NetcomEv.frame = (evs.filterMap NetcomEv.frame).map some ∧
      (evs.filter fun ev => ev.frame.isSome).flatMap NetcomEv.kept = evs.flatMap NetcomEv.kept := by
  induction evs with
  | nil => exact ⟨rfl, rfl⟩
  | cons ev evs ih =>
    obtain ⟨hm, hs⟩ := ih
    cases ev with
    | discard bytes => exact ⟨hm, hs⟩
    | _ => exact ⟨congrArg (List.cons _) hm, congrArg (HAppend.hAppend _) hs⟩

theorem kept_sameUpToStamps {evs evs' : List (NetcomEv α)}
    (h : evs.map NetcomEv.frame = evs'.map NetcomEv.frame) :
    SameUpToStamps (evs.flatMap NetcomEv.kept) (evs'.flatMap NetcomEv.kept) := by
  induction evs generalizing evs' with
  | nil =>
    obtain rfl := List.map_eq_nil_iff.1 h.symm
    exact .nil
  | cons ev evs ih =>
    cases evs' with
    | nil => cases h
    | cons ev' evs' =>
      rw [List.map_cons, List.map_cons] at h
      injection h with hev h
      have hrest := ih h
      rw [List.flatMap_cons, List.flatMap_cons]
      cases ev <;> cases ev' <;> try cases hev
      case append.append.refl tv tv' => exact hrest.packet _ tv tv'
      all_goals exact hrest

theorem Yields.sameUpToStamps {t t' : Netcom α} {os : List Frame} (h : Yields nc os t) (h' : Yields nc os t') :
    SameUpToStamps t.published t'.published := by
  obtain ⟨evs, -, hm, hp⟩ := h
  obtain ⟨evs', -, hm', hp'⟩ := h'
  obtain ⟨hf, hs⟩ := framed_events evs
  obtain ⟨hf', hs'⟩ := framed_events evs'
  rw [hp, hp', ← hs, ← hs']
  refine (kept_sameUpToStamps ?_).bytes _
  rw [hf, hf', hm, hm']

/-- Taking frames off the stream by their own headers, each bad packet is followed by
a header where every search finds it, or all of the stream has arrived when it is
found out. -/
def Settles (rx : Bool) (stream : List UInt8) : Prop := ∃ os r, Cuts rx 0 stream os r

theorem Quiet.toCome {os : List Frame} {r stream : List UInt8} (hq : Quiet nc) (h : Cuts nc.rx 0 stream os r) :
    ToCome nc stream os r := by
  have hp := hq.pending_eq
  have hempty : Waits nc.rx nc.pending := .inl (by rw [hp]; rfl)
  refine toCome_of_waits (Nat.zero_le _) ?_ fun _ => hempty
  rwa [hp, List.nil_append]

/-- The header of a stream packet of 12 bytes. -/
def addata12 : List UInt8 := [0xEF, 0xBE, 0x04, 0, 12, 0, 0x31, 0x20]

end CmdAgent

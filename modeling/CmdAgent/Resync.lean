import CmdAgent.Intake
/-!
# Resynchronisation

`netcom_find_header` starts to search 8 bytes behind the bad header and stops
8 bytes before the end of what is buffered. A stream that starts with `g`, bytes
that belong to no frame, is followed from the bytes of `g` that are left and the
number of bytes buffered, through reads, forced rewinds and reads that are drained.
-/
open StreamLib.Mem StreamLib.Loop StreamLib.Runs StreamLib.Framing

namespace CmdAgent

variable {α : Type} {env : Env} {nc : Netcom α}

/-! ## One search -/

theorem pending_discard {p : Nat} (h : p ≤ nc.pending.length) :
    (netcomDiscard nc (nc.rd1Off + p)).pending = nc.pending.drop p := by
  have hlen := length_pending nc
  have hn : nc.wrOff - (nc.rd1Off + p - nc.rd1Off) - nc.rd1Off = nc.wrOff - (nc.rd1Off + p) := by omega
  unfold Netcom.pending
  rw [drop_slice _ (by omega), ← Nat.sub_add_eq, ← slice_move nc.blob nc.rd1Off]
  simp only [netcomDiscard, hn]

/-- Where a search over the pending bytes ends. -/
inductive Search (nc : Netcom α) (p : Nat) : Outcome (Netcom α) → Prop
  | found : p + 8 < nc.pending.length → netcmdIsvalidpacketheader (nc.pending.drop p) = true →
      Search nc p (.cont (netcomDiscard nc (nc.rd1Off + p)))
  | notFound : nc.pending.length ≤ p + 8 → p = 8 ∨ p + 8 = nc.pending.length →
      Search nc p (.brk (netcomDiscard nc (nc.rd1Off + p)))

theorem window_eq {k : Nat} (h : k + 8 ≤ nc.pending.length) :
    netcmdIsvalidpacketheader (slice nc.blob (nc.rd1Off + k) 8) = netcmdIsvalidpacketheader (nc.pending.drop k) := by
  have hlen := length_pending nc
  have hd : 8 ≤ (nc.pending.drop k).length := by rw [List.length_drop]; omega
  rw [← isvalid_take hd, Netcom.pending, drop_slice _ (by omega), take_slice _ (by omega)]

theorem search_of (h : 8 ≤ nc.pending.length) :
    ∃ p, 8 ≤ p ∧ p ≤ nc.pending.length ∧
      (∀ k, 8 ≤ k → k < p → netcmdIsvalidpacketheader (nc.pending.drop k) = false) ∧
      Search nc p (netcomResync nc) := by
  have hlen := length_pending nc
  have h8 : nc.rd1Off + 8 ≤ nc.wrOff := by omega
  obtain ⟨q, hq, hq', hinv, hr⟩ := resync_cases h8
  obtain ⟨p, rfl⟩ := Nat.exists_eq_add_of_le (Nat.le_trans (Nat.le_add_right _ 8) hq)
  refine ⟨p, by omega, by omega, ?_, ?_⟩
  · intro k hk hkp
    have hwin : k + 8 ≤ nc.pending.length := by
      generalize netcomResync nc = o at hr
      cases hr with
      | found hw _ => omega
      | notFound _ hw => omega
    rw [← window_eq hwin]
    exact hinv _ (by omega) (by omega)
  · generalize netcomResync nc = o at hr ⊢
    cases hr with
    | found hw hv => exact .found (by omega) (by rwa [← window_eq (by omega)])
    | notFound hw hw' => exact .notFound (by omega) (by omega)

/-! ## What a run discards -/

def Frame.packet : Frame → List UInt8
  | .lookup _ packet | .append packet | .drop packet => packet

def NetcomEv.discarded : NetcomEv α → List UInt8
  | .discard bytes => bytes
  | _ => []

/-- Between `nc` and `t` the frames `fs` were all handled, in order, and nothing but
bytes of `g` was discarded; what is pending is the rest of `g`, and then `part`. -/
def LosesNone (rx : Bool) (nc : Netcom α) (g : List UInt8) (fs : List (List UInt8)) (part : List UInt8)
    (t : Netcom α) : Prop :=
  ∃ evs g', t.log = nc.log ++ evs ∧ evs.filterMap NetcomEv.frame = fs.map (frameOf rx) ∧
    List.Sublist (evs.flatMap NetcomEv.discarded) g ∧ g' <:+ g ∧ t.pending = g' ++ part

/-- No 8 bytes of the stream that start in `g` pass for a header. -/
def NoHeader (g stream : List UInt8) : Prop :=
  ∀ k, k < g.length → k + 8 ≤ (g ++ stream).length → netcmdIsvalidpacketheader ((g ++ stream).drop k) = false

/-- With `m` bytes of `g` left and `b` bytes buffered: what is drained is all from `g`,
each search starts with at least 8 bytes of `g` left, and the last one does not stop at
a complete frame of 8 bytes. `first` is the length of the first frame after `g`. -/
def Resyncs (first : Option Nat) : Nat → Nat → List Intake → Prop
  | m, b, [] => ¬ (m = 0 ∧ b = 8 ∧ first = some 8)
  | m, _, .drained n :: cs => n ≤ m ∧ Resyncs first (m - n) 0 cs
  | m, b, .read c :: cs =>
    if m = 0 then lost cs = 0
    else if b + c < 8 then Resyncs first m (b + c) cs
    else if m < 8 then False
    else if m + 8 < b + c then lost cs = 0
    else Resyncs first (m - max 8 (b + c - 8)) (b + c - max 8 (b + c - 8)) cs

instance instDecidableResyncs (first : Option Nat) : ∀ m b cs, Decidable (Resyncs first m b cs)
  | m, b, [] => inferInstanceAs (Decidable (¬ (m = 0 ∧ b = 8 ∧ first = some 8)))
  | m, _, .drained n :: cs =>
    have : ∀ m b, Decidable (Resyncs first m b cs) := fun m b => instDecidableResyncs first m b cs
    inferInstanceAs (Decidable (n ≤ m ∧ Resyncs first (m - n) 0 cs))
  | m, b, .read c :: cs =>
    have : ∀ m b, Decidable (Resyncs first m b cs) := fun m b => instDecidableResyncs first m b cs
    inferInstanceAs (Decidable (if m = 0 then lost cs = 0
      else if b + c < 8 then Resyncs first m (b + c) cs
      else if m < 8 then False
      else if m + 8 < b + c then lost cs = 0
      else Resyncs first (m - max 8 (b + c - 8)) (b + c - max 8 (b + c - 8)) cs))

/-! ## Counting -/

/-- Every event is a frame or a discard. -/
theorem sum_bytes (evs : List (NetcomEv α)) :
    (evs.map fun ev => ev.bytes.length).sum =
      ((evs.filterMap NetcomEv.frame).map fun f => f.packet.length).sum + (evs.flatMap NetcomEv.discarded).length := by
  induction evs with
  | nil => rfl
  | cons ev evs ih =>
    rw [List.map_cons, List.sum_cons, ih, List.flatMap_cons, List.length_append]
    cases ev with
    | lookup | append | drop | discard =>
      simp only [List.filterMap_cons, NetcomEv.frame, NetcomEv.bytes, NetcomEv.discarded, Frame.packet, List.map_cons,
        List.sum_cons, List.length_nil]
      omega

theorem frameOf_packet (rx : Bool) (f : List UInt8) : (frameOf rx f).packet = f := by
  unfold frameOf
  split
  · split <;> rfl
  · rfl

theorem sum_frames (rx : Bool) (fs : List (List UInt8)) :
    ((fs.map (frameOf rx)).map fun f => f.packet.length).sum = fs.flatten.length := by
  rw [List.length_flatten, List.map_map]
  congr 1
  exact List.map_congr_left fun f _ => congrArg List.length (frameOf_packet rx f)

/-- The frames `fs` were all handled, and at least the bytes of `part` are left. -/
def HandsAll (rx : Bool) (nc : Netcom α) (fs : List (List UInt8)) (part : List UInt8) (t : Netcom α) : Prop :=
  ∃ evs, t.log = nc.log ++ evs ∧ evs.filterMap NetcomEv.frame = fs.map (frameOf rx) ∧ part.length ≤ t.pending.length

theorem LosesNone.handsAll {rx : Bool} {g part : List UInt8} {fs : List (List UInt8)} {t : Netcom α}
    (h : LosesNone rx nc g fs part t) : HandsAll rx nc fs part t := by
  obtain ⟨evs, g', hl, hf, -, -, hp⟩ := h
  refine ⟨evs, hl, hf, ?_⟩
  rw [hp, List.length_append]
  exact Nat.le_add_left _ _

/-- What was discarded and lost is no more than what was there beside the frames. -/
theorem HandsAll.count {rx : Bool} {part : List UInt8} {fs : List (List UInt8)} {is : List RdInput}
    {t : Netcom α} {m : Nat} (h : HandsAll rx nc fs part t) (hle : nc.rd1Off ≤ nc.wrOff)
    (ht : exec (rdStep env) nc is = some t)
    (hm : nc.pending.length + (is.flatMap RdInput.bytes).length = m + (fs.flatten ++ part).length) :
    ∃ evs, t.log = nc.log ++ evs ∧ (evs.flatMap NetcomEv.discarded).length + lost (intakes env nc is) ≤ m := by
  obtain ⟨evs, hl, hf, hp⟩ := h
  have hsum := run_weight_log hle ht hl
  rw [sum_bytes, hf, sum_frames, hm, List.length_append] at hsum
  exact ⟨evs, hl, by omega⟩

/-! ## One read -/

/-- What is pending and what is still to come is what is left of `g` and then the
frames. -/
structure InGarbage (rx : Bool) (g stream rest : List UInt8) (nc : Netcom α) : Prop where
  rx : nc.rx = rx
  le : nc.rd1Off ≤ nc.wrOff
  bytes : nc.pending ++ rest = g ++ stream
  noHeader : NoHeader g stream

section
variable {rx : Bool} {g stream rest : List UInt8}

theorem InGarbage.takes {chunk : List UInt8} {u : Netcom α} (h : InGarbage rx g stream (chunk ++ rest) nc)
    (hu : Takes nc chunk u) : InGarbage rx g stream rest u := by
  refine ⟨hu.rx.trans h.rx, hu.le, ?_, h.noHeader⟩
  rw [hu.pending, List.append_assoc, h.bytes]

theorem InGarbage.window (h : InGarbage rx g stream rest nc) {k : Nat} (hk : k + 8 ≤ nc.pending.length) :
    netcmdIsvalidpacketheader (nc.pending.drop k) = netcmdIsvalidpacketheader ((g ++ stream).drop k) := by
  rw [← h.bytes, List.drop_append_of_le_length (by omega)]
  exact (isvalid_append _ (by rw [List.length_drop]; omega)).symm

theorem InGarbage.window_false (h : InGarbage rx g stream rest nc) {k : Nat} (hk : k + 8 ≤ nc.pending.length)
    (hkg : k < g.length) : netcmdIsvalidpacketheader (nc.pending.drop k) = false := by
  have hlen := congrArg List.length h.bytes
  rw [List.length_append] at hlen
  rw [h.window hk]
  exact h.noHeader k hkg (by omega)

/-- The first header behind `g`. -/
theorem InGarbage.window_true (h : InGarbage rx g stream rest nc) (hk : g.length + 8 ≤ nc.pending.length)
    (hv : netcmdIsvalidpacketheader stream = true) :
    netcmdIsvalidpacketheader (nc.pending.drop g.length) = true := by
  rw [h.window hk, List.drop_left]
  exact hv

theorem NoHeader.drop (h : NoHeader g stream) {p : Nat} (hp : p ≤ g.length) : NoHeader (g.drop p) stream := by
  intro k hk hk8
  have hd : (g.drop p ++ stream).drop k = (g ++ stream).drop (p + k) := by
    rw [← List.drop_drop, List.drop_append_of_le_length hp]
  rw [List.length_drop] at hk
  rw [List.length_append, List.length_drop] at hk8
  rw [hd]
  refine h (p + k) (by omega) ?_
  rw [List.length_append]
  omega

/-- `bytes` were discarded from the front of what a read holds, and nothing else happened. -/
structure Skipped (nc : Netcom α) (bytes : List UInt8) (u : Netcom α) : Prop where
  le : u.rd1Off ≤ u.wrOff
  rx : u.rx = nc.rx
  log : u.log = nc.log ++ [.discard bytes]
  pending : nc.pending = bytes ++ u.pending

theorem Skipped.length_pending {bytes : List UInt8} {u : Netcom α} (h : Skipped nc bytes u) :
    u.pending.length = nc.pending.length - bytes.length := by
  rw [h.pending, List.length_append, Nat.add_sub_cancel_left]

theorem skipped_discard (hle : nc.rd1Off ≤ nc.wrOff) {p : Nat} (hp : p ≤ nc.pending.length) :
    Skipped nc (nc.pending.take p) (netcomDiscard nc (nc.rd1Off + p)) := by
  have hlen := length_pending nc
  refine ⟨(keeps_discard (Nat.le_add_right _ _) (by omega)).le, rfl, ?_, ?_⟩
  · simp only [netcomDiscard, Netcom.pending, Nat.add_sub_cancel_left]
    rw [take_slice _ (by omega)]
  · rw [pending_discard hp, List.take_append_drop]

theorem InGarbage.skipped {u : Netcom α} {p : Nat} (h : InGarbage rx g stream rest nc)
    (hu : Skipped nc (g.take p) u) (hp : p ≤ g.length) : InGarbage rx (g.drop p) stream rest u := by
  refine ⟨hu.rx.trans h.rx, hu.le, ?_, h.noHeader.drop hp⟩
  refine (List.append_right_inj (g.take p)).1 ?_
  calc g.take p ++ (u.pending ++ rest) = nc.pending ++ rest := by rw [← List.append_assoc, hu.pending]
    _ = g ++ stream := h.bytes
    _ = g.take p ++ (g.drop p ++ stream) := by rw [← List.append_assoc, List.take_append_drop]

theorem InGarbage.take (h : InGarbage rx g stream rest nc) {p : Nat} (hp : p ≤ nc.pending.length)
    (hpg : p ≤ g.length) : nc.pending.take p = g.take p := by
  have ht := congrArg (List.take p) h.bytes
  rwa [List.take_append_of_le_length hp, List.take_append_of_le_length hpg] at ht

/-- With bytes of `g` at the front, a round searches for a header. -/
theorem InGarbage.search (env : Env) (h : InGarbage rx g stream rest nc) (h8 : 8 ≤ nc.pending.length)
    (hg : 0 < g.length) :
    ∃ p, 8 ≤ p ∧ p ≤ nc.pending.length ∧
      (∀ k, 8 ≤ k → k < p → netcmdIsvalidpacketheader (nc.pending.drop k) = false) ∧
      Search nc p (netcomIter env nc) := by
  rw [iter_badHeader h8 (by simpa using h.window_false (k := 0) (by omega) hg)]
  exact search_of h8

/-- What the loop does with bytes of `g` in front. -/
inductive Scans (env : Env) (g : List UInt8) (nc : Netcom α) : Prop
  | short : nc.pending.length < 8 → netcomLoop env nc = some nc → Scans env g nc
  /-- Fewer than 8 bytes of `g`: the search starts behind them. -/
  | overrun : 8 ≤ nc.pending.length → g.length < 8 →
      (∀ t, netcomLoop env nc = some t →
        ∃ bytes evs, t.log = nc.log ++ .discard bytes :: evs ∧ g.length < bytes.length) → Scans env g nc
  /-- More than 8 bytes behind `g`: the search ends at the first header. -/
  | found (u : Netcom α) : 8 ≤ g.length → g.length + 8 < nc.pending.length →
      netcomLoop env nc = netcomLoop env u → Skipped nc (g.take g.length) u → Scans env g nc
  /-- No more than 8 bytes behind `g`: the last 8 bytes are kept, or all but the first 8. -/
  | notFound (u : Netcom α) (p : Nat) : 8 ≤ nc.pending.length → 8 ≤ g.length →
      nc.pending.length ≤ g.length + 8 → p = max 8 (nc.pending.length - 8) → netcomLoop env nc = some u →
      Skipped nc (g.take p) u → Scans env g nc

theorem InGarbage.overrun (h : InGarbage rx g stream rest nc) (h8 : 8 ≤ nc.pending.length) (hg : 0 < g.length)
    (hg8 : g.length < 8) {t : Netcom α} (ht : netcomLoop env nc = some t) :
    ∃ bytes evs, t.log = nc.log ++ .discard bytes :: evs ∧ g.length < bytes.length := by
  obtain ⟨p, hp, hp', -, hs⟩ := h.search env h8 hg
  have hbytes : (nc.pending.take p).length = p := by rw [List.length_take]; omega
  have hskip := skipped_discard h.le hp'
  generalize ho : netcomIter env nc = o at hs
  cases hs with
  | notFound =>
    obtain rfl : netcomDiscard nc (nc.rd1Off + p) = t := Option.some.inj ((loop_brk ho).symm.trans ht)
    exact ⟨nc.pending.take p, [], hskip.log, by omega⟩
  | found =>
    rw [loop_cont h.le ho] at ht
    obtain ⟨evs, he⟩ := (loop_keeps hskip.le ht).1.log
    refine ⟨nc.pending.take p, evs, ?_, by omega⟩
    rw [he, hskip.log, List.append_assoc]
    rfl

theorem InGarbage.scans (env : Env) (h : InGarbage rx g stream rest nc) (hg : 0 < g.length)
    (hv : 8 ≤ stream.length → netcmdIsvalidpacketheader stream = true) : Scans env g nc := by
  have hbytes := congrArg List.length h.bytes
  rw [List.length_append, List.length_append] at hbytes
  by_cases h8 : nc.pending.length < 8
  · exact .short h8 (loop_more env (by rw [netcmdNext, if_pos h8]))
  rw [Nat.not_lt] at h8
  by_cases hg8 : g.length < 8
  · exact .overrun h8 hg8 fun t ht => h.overrun h8 hg hg8 ht
  rw [Nat.not_lt] at hg8
  obtain ⟨p, hp, hp', hinv, hs⟩ := h.search env h8 hg
  have hskip := skipped_discard h.le hp'
  generalize ho : netcomIter env nc = o at hs
  cases hs with
  | found hw hvp =>
    -- The search does not stop inside `g`, and not behind the first header.
    have hge : g.length ≤ p := by
      by_contra hlt
      rw [h.window_false (by omega) (by omega)] at hvp
      cases hvp
    have hle : p ≤ g.length := by
      by_contra hgt
      have hfirst := hinv g.length hg8 (by omega)
      rw [h.window_true (by omega) (hv (by omega))] at hfirst
      cases hfirst
    obtain rfl : p = g.length := Nat.le_antisymm hle hge
    rw [h.take hp' hle] at hskip
    exact .found _ hg8 hw (loop_cont h.le ho) hskip
  | notFound hw hpe =>
    have hle : nc.pending.length ≤ g.length + 8 := by
      by_contra hgt
      have hfirst := hinv g.length hg8 (by omega)
      rw [h.window_true (by omega) (hv (by omega))] at hfirst
      cases hfirst
    rw [h.take hp' (by omega)] at hskip
    exact .notFound _ p h8 hg8 hle (by omega) (loop_brk ho) hskip

end

/-! ## Whole runs -/

section
variable {rx : Bool} {g part : List UInt8} {fs : List (List UInt8)} {is : List RdInput}

/-- A run that is over with at most 8 bytes pending. -/
theorem resyncs_nil (hfs : ∀ f ∈ fs, WellFormed f) (hlen : nc.pending.length ≤ 8)
    (hbytes : nc.pending = g ++ (fs.flatten ++ part)) :
    Resyncs (fs.head?.map List.length) g.length nc.pending.length [] ↔ fs = [] := by
  unfold Resyncs
  cases fs with
  | nil => simp
  | cons f fs =>
    have hf := length_wellFormed (hfs f List.mem_cons_self)
    have hl := congrArg List.length hbytes
    simp only [List.flatten_cons, List.length_append] at hl
    have h3 : g.length = 0 ∧ nc.pending.length = 8 ∧ f.length = 8 := by omega
    simp [h3]

theorem isvalid_frames (hfs : ∀ f ∈ fs, WellFormed f) (hpart : Incomplete part) (h8 : 8 ≤ (fs.flatten ++ part).length) :
    netcmdIsvalidpacketheader (fs.flatten ++ part) = true :=
  isvalid_of_next h8 (drains_frames true hfs hpart).front

/-- The events of the frames, and no others. -/
theorem discarded_of_frames {evs : List (NetcomEv α)} {os : List Frame} (h : evs.map NetcomEv.frame = os.map some) :
    evs.filterMap NetcomEv.frame = os ∧ evs.flatMap NetcomEv.discarded = [] := by
  induction evs generalizing os with
  | nil => exact ⟨(List.map_eq_nil_iff.1 h.symm).symm, rfl⟩
  | cons ev evs ih =>
    cases os with
    | nil => cases h
    | cons o os =>
      rw [List.map_cons, List.map_cons] at h
      injection h with hev h
      obtain ⟨hf, hd⟩ := ih h
      refine ⟨by rw [List.filterMap_cons, hev, hf], ?_⟩
      rw [List.flatMap_cons, hd]
      cases ev <;> first | rfl | cases hev

theorem HandsOn.losesNone {t : Netcom α} (g : List UInt8) (h : HandsOn nc (fs.map (frameOf rx)) part t) :
    LosesNone rx nc g fs part t := by
  obtain ⟨⟨evs, hl, hm⟩, hp⟩ := h
  obtain ⟨hf, hd⟩ := discarded_of_frames hm
  refine ⟨evs, [], hl, hf, ?_, List.nil_suffix, hp⟩
  rw [hd]
  exact List.nil_sublist g

/-- Bytes of `g` were lost before. -/
theorem LosesNone.of_drop {t u : Netcom α} {n : Nat} (h : LosesNone rx u (g.drop n) fs part t) (hlog : u.log = nc.log) :
    LosesNone rx nc g fs part t := by
  obtain ⟨evs, g', hl, hf, hd, hg', hp⟩ := h
  exact ⟨evs, g', hlog ▸ hl, hf, hd.trans (List.drop_sublist n g), hg'.trans (List.drop_suffix n g), hp⟩

/-- Bytes of `g` were discarded before. -/
theorem LosesNone.of_skipped {t u : Netcom α} {p : Nat} (h : LosesNone rx u (g.drop p) fs part t)
    (hu : u.log = nc.log ++ [.discard (g.take p)]) : LosesNone rx nc g fs part t := by
  obtain ⟨evs, g', hl, hf, hd, hg', hp⟩ := h
  refine ⟨.discard (g.take p) :: evs, g', ?_, hf, ?_, hg'.trans (List.drop_suffix p g), hp⟩
  · rw [hl, hu, List.append_assoc]
    rfl
  · have hcat : List.Sublist (g.take p ++ evs.flatMap NetcomEv.discarded) (g.take p ++ g.drop p) :=
      (List.append_sublist_append_left _).2 hd
    rwa [List.take_append_drop] at hcat

theorem HandsAll.of_log {t u : Netcom α} (h : HandsAll rx nc fs part t) (hu : u.log = nc.log) :
    HandsAll rx u fs part t := by
  obtain ⟨evs, hl, hf, hp⟩ := h
  exact ⟨evs, hu ▸ hl, hf, hp⟩

/-- What a step discards first is among what is discarded in the run. -/
theorem discarded_of_step {i : RdInput} {t u : Netcom α} {bytes : List UInt8} {evs evs₁ : List (NetcomEv α)}
    (hle : nc.rd1Off ≤ nc.wrOff) (hu : rdStep env nc i = some u) (ht : exec (rdStep env) u is = some t)
    (hl₁ : u.log = nc.log ++ .discard bytes :: evs₁) (hlog : t.log = nc.log ++ evs) :
    bytes.length ≤ (evs.flatMap NetcomEv.discarded).length := by
  obtain ⟨evs₂, hl₂⟩ := run_log (rdStep_weight hle hu).1 ht
  have hcat : t.log = nc.log ++ .discard bytes :: (evs₁ ++ evs₂) := by
    rw [hl₂, hl₁, List.append_assoc]
    rfl
  obtain rfl : evs = .discard bytes :: (evs₁ ++ evs₂) := List.append_cancel_left (hlog.symm.trans hcat)
  rw [List.flatMap_cons, List.length_append, NetcomEv.discarded]
  exact Nat.le_add_right _ _

/-- What was discarded before handled no frame. -/
theorem HandsAll.of_skipped {t u : Netcom α} {bytes : List UInt8} (h : HandsAll rx nc fs part t)
    (hu : u.log = nc.log ++ [.discard bytes]) (ht : ∃ evs, t.log = u.log ++ evs) : HandsAll rx u fs part t := by
  obtain ⟨evs, hl, hf, hp⟩ := h
  obtain ⟨evs', hl'⟩ := ht
  have hcat : t.log = nc.log ++ .discard bytes :: evs' := by rw [hl', hu, List.append_assoc]; rfl
  obtain rfl : evs = .discard bytes :: evs' := List.append_cancel_left (hl.symm.trans hcat)
  exact ⟨evs', hl', hf, hp⟩

/-- A read that is drained in garbage. -/
theorem InGarbage.drained {stream rest chunk : List UInt8} {t : Netcom α}
    (h : InGarbage rx g stream (chunk ++ rest) nc) (ht : Drained nc t)
    (hn : nc.pending.length + chunk.length ≤ g.length) :
    InGarbage rx (g.drop (nc.pending.length + chunk.length)) stream rest t := by
  refine ⟨ht.rx.trans h.rx, Nat.le_of_eq ht.offsets, ?_, h.noHeader.drop hn⟩
  have hcut := congrArg (List.drop (nc.pending ++ chunk).length) h.bytes
  rw [← List.append_assoc, List.drop_left, List.length_append, List.drop_append_of_le_length hn] at hcut
  rw [ht.pending_eq, List.nil_append, hcut]

/-- A step that reads nothing. -/
theorem InGarbage.quiet {stream rest : List UInt8} {t : Netcom α} (h : InGarbage rx g stream rest nc)
    (hp : t.pending = nc.pending) (hrx : t.rx = nc.rx) (hle : t.rd1Off ≤ t.wrOff) : InGarbage rx g stream rest t :=
  ⟨hrx.trans h.rx, hle, by rw [hp, h.bytes], h.noHeader⟩

/-- Once the frames are at the front of what is pending, all of them are handled. -/
theorem InGarbage.synced (env : Env) (hfs : ∀ f ∈ fs, WellFormed f) (hpart : Incomplete part)
    (h : InGarbage rx [] (fs.flatten ++ part) (is.flatMap RdInput.bytes) nc) :
    ∃ u, netcomLoop env nc = some u ∧
      (Along (rdStep env) KeepsRx u is → lost (intakes env u is) = 0 →
        ∃ t, exec (rdStep env) u is = some t ∧ HandsOn nc (fs.map (frameOf rx)) part t) := by
  have hbytes := h.bytes
  rw [List.nil_append] at hbytes
  have hd := drains_frames rx hfs hpart
  rw [← hbytes, ← h.rx] at hd
  obtain ⟨os₁, r₁, os₂, hfirst, hrest, hos⟩ := hd.split
  obtain ⟨u, hu, hle, hrx, hh⟩ := loop_handsOn env hfirst h.le
  refine ⟨u, hu, fun hkeeps hlost => ?_⟩
  have hmore : netcmdNext u.rx u.pending = .more := by
    rw [hh.pending, hrx]
    exact hfirst.rest
  rw [← hh.pending, ← hrx] at hrest
  obtain ⟨t, ht, hh'⟩ := run_handsOn hle hmore hkeeps hlost hrest
  refine ⟨t, ht, ?_⟩
  rw [← h.rx, hos]
  exact hh.trans hh'

/-- In a run that handles every frame, the searches were as `Resyncs` says. -/
theorem resyncs_of_run (hfs : ∀ f ∈ fs, WellFormed f) (hpart : Incomplete part)
    (hin : InGarbage rx g (fs.flatten ++ part) (is.flatMap RdInput.bytes) nc) (hlen : nc.pending.length ≤ 8)
    (hrx : Along (rdStep env) KeepsRx nc is) {t : Netcom α} (ht : exec (rdStep env) nc is = some t)
    (hall : HandsAll rx nc fs part t) :
    Resyncs (fs.head?.map List.length) g.length nc.pending.length (intakes env nc is) := by
  induction is generalizing nc g with
  | nil =>
    cases ht
    obtain ⟨evs, hl, hf, -⟩ := hall
    obtain rfl := List.self_eq_append_right.1 hl
    have hbytes := hin.bytes
    rw [List.flatMap_nil, List.append_nil] at hbytes
    exact (resyncs_nil hfs hlen hbytes).2 (List.map_eq_nil_iff.1 hf.symm)
  | cons i is ih =>
    -- What is discarded and lost from here on is no more than what is left of `g`.
    obtain ⟨evs, hlog, hcount⟩ := hall.count hin.le ht (m := g.length) (by
      rw [← List.length_append, hin.bytes, List.length_append])
    obtain ⟨u, hu, hut⟩ := exec_cons_eq_some.1 ht
    rw [intakes_cons is hu, lost_append] at hcount
    rw [intakes_cons is hu]
    rw [List.flatMap_cons] at hin
    by_cases hi : ∀ chunk, i ≠ .readcb chunk
    · obtain ⟨v, hv, hp, hrxv, hlogv, hle, hbytes, hintake⟩ := rdStep_quiet env hrx.1 hi
      obtain rfl : v = u := Option.some.inj (hv.symm.trans hu)
      rw [hbytes, List.nil_append] at hin
      rw [hintake, List.nil_append, ← hp]
      exact ih (hin.quiet hp hrxv (hle.2 hin.le)) (hp ▸ hlen) (hrx.2 v hu) hut (hall.of_log hlogv)
    obtain ⟨chunk, rfl⟩ := not_forall_not.1 hi
    by_cases hroom : HasRoom nc
    swap
    · obtain ⟨v, hv, hd⟩ := readcb_drained env hroom chunk
      obtain rfl : v = u := Option.some.inj (hv.symm.trans hu)
      simp only [intake, if_neg hroom, lost_cons, lost_nil, Intake.lost, RdInput.bytes] at hcount hin ⊢
      have hn : nc.pending.length + chunk.length ≤ g.length := by omega
      refine ⟨hn, ?_⟩
      have hrest := ih (hin.drained hd hn) (by simp [hd.pending_eq]) (hrx.2 v hu) hut (hall.of_log hd.log)
      rwa [hd.pending_eq, List.length_drop] at hrest
    obtain ⟨v, hv, htakes⟩ := readcb_room env hroom hin.le chunk
    have hvu : netcomLoop env v = some u := hv.symm.trans hu
    have hin' := hin.takes htakes
    have hlen' : v.pending.length = nc.pending.length + chunk.length := by
      rw [htakes.pending, List.length_append]
    simp only [intake, if_pos hroom, lost_cons, lost_nil, Intake.lost, Nat.zero_add] at hcount ⊢
    rw [List.singleton_append]
    unfold Resyncs
    by_cases hg : g.length = 0
    · rw [if_pos hg]
      omega
    rw [if_neg hg, ← hlen']
    cases hin'.scans env (Nat.pos_of_ne_zero hg) (isvalid_frames hfs hpart) with
    | short h8 hl =>
      obtain rfl : v = u := Option.some.inj (hl.symm.trans hvu)
      rw [if_pos h8]
      exact ih hin' (by omega) (hrx.2 v hu) hut (hall.of_log htakes.log)
    | overrun h8 hg8 hover =>
      obtain ⟨bytes, evs₁, hl₁, hb⟩ := hover u hvu
      have hcut := discarded_of_step hin.le hu hut (by rw [hl₁, htakes.log]) hlog
      omega
    | found w hg8 hlt hl hskip =>
      rw [if_neg (by omega), if_neg (by omega), if_pos hlt]
      obtain ⟨evs₁, hl₁⟩ := (loop_keeps hskip.le (hl.symm.trans hvu)).1.log
      have hcut := discarded_of_step hin.le hu hut (by rw [hl₁, hskip.log, htakes.log, List.append_assoc]; rfl) hlog
      rw [List.take_length] at hcut
      omega
    | notFound w p h8 hg8 hle hp hl hskip =>
      obtain rfl : w = u := Option.some.inj (hl.symm.trans hvu)
      rw [if_neg (by omega), if_neg (by omega), if_neg (by omega), ← hp]
      have hwlen := hskip.length_pending
      rw [List.length_take, Nat.min_eq_left (by omega)] at hwlen
      have hrest := ih (hin'.skipped hskip (by omega)) (by omega) (hrx.2 w hu) hut
        ((hall.of_log htakes.log).of_skipped hskip.log (run_log hskip.le hut))
      rwa [hwlen, List.length_drop] at hrest

/-- Where the searches are as `Resyncs` says, the run ends and no frame is lost. -/
theorem run_of_resyncs (env : Env) (hfs : ∀ f ∈ fs, WellFormed f) (hpart : Incomplete part)
    (hin : InGarbage rx g (fs.flatten ++ part) (is.flatMap RdInput.bytes) nc) (hlen : nc.pending.length ≤ 8)
    (hrx : Along (rdStep env) KeepsRx nc is)
    (h : Resyncs (fs.head?.map List.length) g.length nc.pending.length (intakes env nc is)) :
    ∃ t, exec (rdStep env) nc is = some t ∧ LosesNone rx nc g fs part t := by
  induction is generalizing nc g with
  | nil =>
    have hbytes := hin.bytes
    rw [List.flatMap_nil, List.append_nil] at hbytes
    obtain rfl := (resyncs_nil hfs hlen hbytes).1 h
    exact ⟨nc, rfl, [], g, (List.append_nil _).symm, rfl, List.nil_sublist g, List.suffix_refl g, hbytes⟩
  | cons i is ih =>
    rw [List.flatMap_cons] at hin
    by_cases hi : ∀ chunk, i ≠ .readcb chunk
    · obtain ⟨u, hu, hp, hrxu, hlog, hle, hbytes, hintake⟩ := rdStep_quiet env hrx.1 hi
      rw [hbytes, List.nil_append] at hin
      rw [intakes_cons is hu, hintake, List.nil_append, ← hp] at h
      obtain ⟨t, ht, hln⟩ := ih (hin.quiet hp hrxu (hle.2 hin.le)) (hp ▸ hlen) (hrx.2 u hu) h
      exact ⟨t, (exec_cons is hu).trans ht, LosesNone.of_drop (n := 0) hln hlog⟩
    obtain ⟨chunk, rfl⟩ := not_forall_not.1 hi
    by_cases hroom : HasRoom nc
    swap
    · obtain ⟨u, hu, hd⟩ := readcb_drained env hroom chunk
      have hstep : rdStep env nc (.readcb chunk) = some u := hu
      rw [intakes_cons is hstep, intake, if_neg hroom, List.singleton_append] at h
      obtain ⟨hn, hrest⟩ := h
      rw [← List.length_drop, ← List.length_nil, ← hd.pending_eq] at hrest
      obtain ⟨t, ht, hln⟩ := ih (hin.drained hd hn) (by simp [hd.pending_eq]) (hrx.2 u hstep) hrest
      exact ⟨t, (exec_cons is hstep).trans ht, hln.of_drop hd.log⟩
    obtain ⟨v, hv, htakes⟩ := readcb_room env hroom hin.le chunk
    have hin' := hin.takes htakes
    have hlen' : v.pending.length = nc.pending.length + chunk.length := by
      rw [htakes.pending, List.length_append]
    rw [intakes, intake, if_pos hroom, List.singleton_append] at h
    unfold Resyncs at h
    -- The call returns `u`, and from there `t` is reached.
    have hstep : ∀ {u : Netcom α}, netcomLoop env v = some u → rdStep env nc (.readcb chunk) = some u :=
      fun hu => hv.trans hu
    by_cases hg : g.length = 0
    · rw [if_pos hg] at h
      obtain rfl := List.eq_nil_of_length_eq_zero hg
      obtain ⟨u, hu, hrun⟩ := hin'.synced env hfs hpart
      rw [hstep hu, Option.elim] at h
      obtain ⟨t, ht, hh⟩ := hrun (hrx.2 u (hstep hu)) h
      exact ⟨t, (exec_cons is (hstep hu)).trans ht, (hh.of_log htakes.log).losesNone []⟩
    rw [if_neg hg, ← hlen'] at h
    cases hin'.scans env (Nat.pos_of_ne_zero hg) (isvalid_frames hfs hpart) with
    | short h8 hl =>
      rw [if_pos h8, hstep hl, Option.elim] at h
      obtain ⟨t, ht, hln⟩ := ih hin' (by omega) (hrx.2 v (hstep hl)) h
      exact ⟨t, (exec_cons is (hstep hl)).trans ht, LosesNone.of_drop (n := 0) hln htakes.log⟩
    | overrun h8 hg8 =>
      rw [if_neg (by omega), if_pos hg8] at h
      exact h.elim
    | found w hg8 hlt hl hskip =>
      rw [if_neg (by omega), if_neg (by omega), if_pos hlt] at h
      have hin'' := hin'.skipped hskip (Nat.le_refl _)
      rw [List.drop_length] at hin''
      obtain ⟨u, hu, hrun⟩ := hin''.synced env hfs hpart
      rw [hstep (hl.trans hu), Option.elim] at h
      obtain ⟨t, ht, hh⟩ := hrun (hrx.2 u (hstep (hl.trans hu))) h
      exact ⟨t, (exec_cons is (hstep (hl.trans hu))).trans ht,
        (hh.losesNone _).of_skipped (hskip.log.trans (by rw [htakes.log]))⟩
    | notFound w p h8 hg8 hle hp hl hskip =>
      rw [if_neg (by omega), if_neg (by omega), if_neg (by omega), ← hp, hstep hl, Option.elim] at h
      have hwlen := hskip.length_pending
      rw [List.length_take, Nat.min_eq_left (by omega)] at hwlen
      rw [← List.length_drop, ← hwlen] at h
      obtain ⟨t, ht, hln⟩ := ih (hin'.skipped hskip (by omega)) (by omega) (hrx.2 w (hstep hl)) h
      exact ⟨t, (exec_cons is (hstep hl)).trans ht, hln.of_skipped (hskip.log.trans (by rw [htakes.log]))⟩

end

/-- From a receiver with nothing pending, every frame behind `g` is handled and only
bytes of `g` are discarded exactly when what is drained is all from `g`, each search
starts with at least 8 bytes of `g` left and the last one does not stop at a complete
frame of 8 bytes. -/
theorem resync_loses_none_iff (env : Env) (nc : Netcom α) (g part : List UInt8) (fs : List (List UInt8))
    (is : List RdInput) (hp : nc.rd1Off = nc.wrOff) (hg : NoHeader g (fs.flatten ++ part))
    (hfs : ∀ f ∈ fs, WellFormed f) (hpart : Incomplete part)
    (hcat : is.flatMap RdInput.bytes = g ++ (fs.flatten ++ part)) (hrx : Along (rdStep env) KeepsRx nc is) :
    (∃ t, exec (rdStep env) nc is = some t ∧ LosesNone nc.rx nc g fs part t) ↔
      Resyncs (fs.head?.map List.length) g.length 0 (intakes env nc is) := by
  have h0 : nc.pending.length = 0 := by rw [length_pending, hp, Nat.sub_self]
  have hin : InGarbage nc.rx g (fs.flatten ++ part) (is.flatMap RdInput.bytes) nc := by
    refine ⟨rfl, Nat.le_of_eq hp, ?_, hg⟩
    rw [List.eq_nil_of_length_eq_zero h0, List.nil_append, hcat]
  rw [← h0]
  constructor
  · rintro ⟨t, ht, hln⟩
    exact resyncs_of_run hfs hpart hin (by omega) hrx ht hln.handsAll
  · exact run_of_resyncs env hfs hpart hin (by omega) hrx

/-- The first read is drained, for `errorflag` is set; the second brings twelve bytes in
front of two BUZZACK packets. -/
theorem resync_loses_none_twelve :
    let nc : Netcom Unit := { netcomAllocateBuffer with errorflag := true }
    let is : List RdInput := [.readcb (List.replicate 4 0), .readcb (List.replicate 12 0 ++ buzzack ++ buzzack)]
    ∃ t, exec (rdStep .still) nc is = some t ∧
      LosesNone false nc (List.replicate 16 0) [buzzack, buzzack] [] t := by
  intro nc is
  refine (resync_loses_none_iff .still nc (List.replicate 16 0) [] [buzzack, buzzack] is rfl ?_ ?_
    ⟨buzzack, by decide, ?_⟩ (by decide) ?_).2 ?_
  · unfold NoHeader
    decide +kernel
  · decide +kernel
  · decide +kernel
  · decide +kernel
  · decide +kernel

/-- One byte in front of a BUZZACK packet: the search starts inside the packet,
and all but its last byte is discarded. -/
theorem resync_one_byte :
    let nc : Netcom Unit := netcomAllocateBuffer
    NoHeader [0] buzzack ∧ WellFormed buzzack ∧
      ¬ ∃ t, exec (rdStep .still) nc [.readcb (0 :: buzzack)] = some t ∧ LosesNone false nc [0] [buzzack] [] t := by
  refine ⟨?_, by decide +kernel, ?_⟩
  · unfold NoHeader
    decide +kernel
  · rintro ⟨t, ht, evs, g', hl, hf, -⟩
    have hlog : some t.log = some [.discard (0 :: buzzack.take 7)] := by
      have h := congrArg (Option.map Netcom.log) ht
      exact h.symm.trans (by decide +kernel)
    have hevs : evs = [.discard (0 :: buzzack.take 7)] := hl.symm.trans (Option.some.inj hlog)
    rw [hevs] at hf
    cases hf

end CmdAgent

import CmdAgent.StreamLib.Blocks
import CmdAgent.StreamLib.Loop
import CmdAgent.StreamLib.Mem
/-!
# `md5.c`

`MD5Update` takes a message in parts and keeps what does not fill a block. `md5` is the
digest of a whole message; the code computes it however the message is cut, and ends in all
its loops, as long as no part is so long that an index wraps.
-/
open StreamLib.Mem StreamLib.Blocks StreamLib.Loop

namespace CmdAgent

/-! ## The functions -/

/-- `state[4]` -/
structure Md5State where
  a : UInt32
  b : UInt32
  c : UInt32
  d : UInt32
  deriving DecidableEq

structure Md5Ctx where
  count0 : UInt32
  count1 : UInt32
  state : Md5State
  buffer : Nat → UInt8

/-- `ROTATE_LEFT` -/
def rotateLeft (x n : UInt32) : UInt32 := (x <<< n) ||| (x >>> (32 - n))

/-- A step with the function `f` of its round. -/
def md5Step (f : UInt32 → UInt32 → UInt32 → UInt32) (a b c d x s ac : UInt32) : UInt32 :=
  rotateLeft (a + (f b c d + x + ac)) s + b

def md5FF : UInt32 → UInt32 → UInt32 → UInt32 → UInt32 → UInt32 → UInt32 → UInt32 :=
  md5Step fun x y z => (x &&& y) ||| (~~~x &&& z)

def md5GG : UInt32 → UInt32 → UInt32 → UInt32 → UInt32 → UInt32 → UInt32 → UInt32 :=
  md5Step fun x y z => (x &&& z) ||| (y &&& ~~~z)

def md5HH : UInt32 → UInt32 → UInt32 → UInt32 → UInt32 → UInt32 → UInt32 → UInt32 :=
  md5Step fun x y z => x ^^^ y ^^^ z

def md5II : UInt32 → UInt32 → UInt32 → UInt32 → UInt32 → UInt32 → UInt32 → UInt32 :=
  md5Step fun x y z => y ^^^ (x ||| ~~~z)

/-- Four bytes for each word, the lowest first. -/
def md5Encode (input : List UInt32) : List UInt8 :=
  input.flatMap fun (w : UInt32) => [(w &&& 0xFF).toUInt8, (w >>> 8 &&& 0xFF).toUInt8, (w >>> 16 &&& 0xFF).toUInt8,
    (w >>> 24 &&& 0xFF).toUInt8]

/-- The word at `input[4 * i]`. -/
def md5Decode (input : List UInt8) (i : Nat) : UInt32 :=
  (input.getD (4 * i) 0).toUInt32 ||| (input.getD (4 * i + 1) 0).toUInt32 <<< 8 |||
    (input.getD (4 * i + 2) 0).toUInt32 <<< 16 ||| (input.getD (4 * i + 3) 0).toUInt32 <<< 24

def md5Transform (state : Md5State) (block : List UInt8) : Md5State :=
  let x := md5Decode block
  let a := state.a
  let b := state.b
  let c := state.c
  let d := state.d
  let a := md5FF a b c d (x 0) 7 0xd76aa478
  let d := md5FF d a b c (x 1) 12 0xe8c7b756
  let c := md5FF c d a b (x 2) 17 0x242070db
  let b := md5FF b c d a (x 3) 22 0xc1bdceee
  let a := md5FF a b c d (x 4) 7 0xf57c0faf
  let d := md5FF d a b c (x 5) 12 0x4787c62a
  let c := md5FF c d a b (x 6) 17 0xa8304613
  let b := md5FF b c d a (x 7) 22 0xfd469501
  let a := md5FF a b c d (x 8) 7 0x698098d8
  let d := md5FF d a b c (x 9) 12 0x8b44f7af
  let c := md5FF c d a b (x 10) 17 0xffff5bb1
  let b := md5FF b c d a (x 11) 22 0x895cd7be
  let a := md5FF a b c d (x 12) 7 0x6b901122
  let d := md5FF d a b c (x 13) 12 0xfd987193
  let c := md5FF c d a b (x 14) 17 0xa679438e
  let b := md5FF b c d a (x 15) 22 0x49b40821
  let a := md5GG a b c d (x 1) 5 0xf61e2562
  let d := md5GG d a b c (x 6) 9 0xc040b340
  let c := md5GG c d a b (x 11) 14 0x265e5a51
  let b := md5GG b c d a (x 0) 20 0xe9b6c7aa
  let a := md5GG a b c d (x 5) 5 0xd62f105d
  let d := md5GG d a b c (x 10) 9 0x2441453
  let c := md5GG c d a b (x 15) 14 0xd8a1e681
  let b := md5GG b c d a (x 4) 20 0xe7d3fbc8
  let a := md5GG a b c d (x 9) 5 0x21e1cde6
  let d := md5GG d a b c (x 14) 9 0xc33707d6
  let c := md5GG c d a b (x 3) 14 0xf4d50d87
  let b := md5GG b c d a (x 8) 20 0x455a14ed
  let a := md5GG a b c d (x 13) 5 0xa9e3e905
  let d := md5GG d a b c (x 2) 9 0xfcefa3f8
  let c := md5GG c d a b (x 7) 14 0x676f02d9
  let b := md5GG b c d a (x 12) 20 0x8d2a4c8a
  let a := md5HH a b c d (x 5) 4 0xfffa3942
  let d := md5HH d a b c (x 8) 11 0x8771f681
  let c := md5HH c d a b (x 11) 16 0x6d9d6122
  let b := md5HH b c d a (x 14) 23 0xfde5380c
  let a := md5HH a b c d (x 1) 4 0xa4beea44
  let d := md5HH d a b c (x 4) 11 0x4bdecfa9
  let c := md5HH c d a b (x 7) 16 0xf6bb4b60
  let b := md5HH b c d a (x 10) 23 0xbebfbc70
  let a := md5HH a b c d (x 13) 4 0x289b7ec6
  let d := md5HH d a b c (x 0) 11 0xeaa127fa
  let c := md5HH c d a b (x 3) 16 0xd4ef3085
  let b := md5HH b c d a (x 6) 23 0x4881d05
  let a := md5HH a b c d (x 9) 4 0xd9d4d039
  let d := md5HH d a b c (x 12) 11 0xe6db99e5
  let c := md5HH c d a b (x 15) 16 0x1fa27cf8
  let b := md5HH b c d a (x 2) 23 0xc4ac5665
  let a := md5II a b c d (x 0) 6 0xf4292244
  let d := md5II d a b c (x 7) 10 0x432aff97
  let c := md5II c d a b (x 14) 15 0xab9423a7
  let b := md5II b c d a (x 5) 21 0xfc93a039
  let a := md5II a b c d (x 12) 6 0x655b59c3
  let d := md5II d a b c (x 3) 10 0x8f0ccc92
  let c := md5II c d a b (x 10) 15 0xffeff47d
  let b := md5II b c d a (x 1) 21 0x85845dd1
  let a := md5II a b c d (x 8) 6 0x6fa87e4f
  let d := md5II d a b c (x 15) 10 0xfe2ce6e0
  let c := md5II c d a b (x 6) 15 0xa3014314
  let b := md5II b c d a (x 13) 21 0x4e0811a1
  let a := md5II a b c d (x 4) 6 0xf7537e82
  let d := md5II d a b c (x 11) 10 0xbd3af235
  let c := md5II c d a b (x 2) 15 0x2ad7d2bb
  let b := md5II b c d a (x 9) 21 0xeb86d391
  ⟨state.a + a, state.b + b, state.c + c, state.d + d⟩

/-- The state `MD5Init` sets. -/
def md5Iv : Md5State := ⟨0x67452301, 0xEFCDAB89, 0x98BADCFE, 0x10325476⟩

/-- The buffer stays as it is. -/
def md5Init (context : Md5Ctx) : Md5Ctx := { context with count0 := 0, count1 := 0, state := md5Iv }

/-- A round of the loop of `MD5Update`, its test included; `i` wraps. -/
def md5Round (input : Nat → UInt8) (inputlen : UInt32) (s : UInt32 × Md5State) : Outcome (UInt32 × Md5State) :=
  if s.1 + 64 ≤ inputlen then .cont (s.1 + 64, md5Transform s.2 (slice input s.1.toNat 64)) else .brk s

/-- The loop, or `none` if it is never left (`md5Loop_none_iff`). -/
def md5Loop (input : Nat → UInt8) (inputlen partlen : UInt32) (state : Md5State) : Option (UInt32 × Md5State) :=
  run (md5Round input inputlen) (inputlen.toNat / 64 + 1) (partlen, state)

/-- `input` is the memory from `input` on. -/
def md5Update (context : Md5Ctx) (input : Nat → UInt8) (inputlen : UInt32) : Option Md5Ctx :=
  let index := (context.count0 >>> 3) &&& 0x3F
  let partlen := 64 - index
  let count0 := context.count0 + (inputlen <<< 3)
  let count1 := if count0 < inputlen <<< 3 then context.count1 + 1 else context.count1
  let count1 := count1 + (inputlen >>> 29)
  if inputlen ≥ partlen then
    let buffer := store context.buffer index.toNat (slice input 0 partlen.toNat)
    (md5Loop input inputlen partlen (md5Transform context.state (slice buffer 0 64))).map fun (i, state) =>
      ⟨count0, count1, state, store buffer 0 (slice input i.toNat (inputlen - i).toNat)⟩
  else some ⟨count0, count1, context.state, store context.buffer index.toNat (slice input 0 inputlen.toNat)⟩

/-- The array `PADDING` and what lies behind it. -/
def md5Padding : Nat → UInt8 := fun i => if i = 0 then 0x80 else 0

/-- The digest. -/
def md5Final (context : Md5Ctx) : Option (List UInt8) :=
  let bits := md5Encode [context.count0, context.count1]
  let index := (context.count0 >>> 3) &&& 0x3F
  let padlen := if index < 56 then 56 - index else 120 - index
  ((md5Update context md5Padding padlen).bind fun context => md5Update context (fun i => bits.getD i 0) 8).map
    fun context => md5Encode [context.state.a, context.state.b, context.state.c, context.state.d]

/-! ## The digest of a message -/

/-- How many bytes of `PADDING` follow a message. -/
def md5PadLength (length : Nat) : Nat := if length % 64 < 56 then 56 - length % 64 else 120 - length % 64

/-- The number of bits, modulo `2 ^ 64`, in two words. -/
def md5Bits (length : Nat) : List UInt8 :=
  md5Encode [UInt32.ofNat (8 * length), UInt32.ofNat (length / 2 ^ 29)]

def md5Padded (message : List UInt8) : List UInt8 :=
  message ++ slice md5Padding 0 (md5PadLength message.length) ++ md5Bits message.length

/-- The digest: the state after all the blocks of the padded message. -/
def md5 (message : List UInt8) : List UInt8 :=
  let state := (blockFold md5Transform 64 md5Iv (md5Padded message)).1
  md5Encode [state.a, state.b, state.c, state.d]

/-- `context` has taken `message`. -/
structure Md5Ctx.Has (context : Md5Ctx) (message : List UInt8) : Prop where
  count0 : context.count0.toNat = 8 * message.length % 2 ^ 32
  count1 : context.count1.toNat = message.length / 2 ^ 29 % 2 ^ 32
  folded : blockFold md5Transform 64 md5Iv message =
    (context.state, slice context.buffer 0 (message.length % 64))

theorem init_has (context : Md5Ctx) : (md5Init context).Has [] where
  count0 := rfl
  count1 := rfl
  folded := rfl

/-! ## The loop -/

section Loop
variable {input : Nat → UInt8} {inputlen : UInt32}

theorem toNat_next (i : UInt32) : (i + 64).toNat = (i.toNat + 64) % 2 ^ 32 := by
  rw [UInt32.toNat_add]
  rfl

/-- Where no index wraps, the loop takes the blocks behind `i`, and what is left is shorter
than one. -/
theorem md5Loop_takes (input : Nat → UInt8) (fuel : Nat) {i : UInt32} (state : Md5State) (hi : i.toNat ≤ inputlen.toNat)
    (hwrap : inputlen.toNat + 64 < 2 ^ 32 + (i.toNat % 64)) (hfuel : inputlen.toNat - i.toNat < 64 * fuel) :
    ∃ j state', run (md5Round input inputlen) fuel (i, state) = some (j, state') ∧ j.toNat ≤ inputlen.toNat ∧
      blockFold md5Transform 64 state (slice input i.toNat (inputlen.toNat - i.toNat)) =
        (state', slice input j.toNat (inputlen.toNat - j.toNat)) := by
  induction fuel generalizing i state with
  | zero => exact absurd hfuel (Nat.not_lt_zero _)
  | succ fuel ih =>
    by_cases hnext : i.toNat + 64 ≤ inputlen.toNat
    · have hsum : (i + 64).toNat = i.toNat + 64 := by
        rw [toNat_next, Nat.mod_eq_of_lt (Nat.lt_of_le_of_lt hnext inputlen.toNat_lt)]
      have htest : i + 64 ≤ inputlen := UInt32.le_iff_toNat_le.2 (hsum ▸ hnext)
      have hround : md5Round input inputlen (i, state) =
          .cont (i + 64, md5Transform state (slice input i.toNat 64)) := by
        rw [md5Round, if_pos htest]
      obtain ⟨j, state', hrun, hj, hfold⟩ := ih (i := i + 64) (md5Transform state (slice input i.toNat 64))
        (hsum ▸ hnext) (by rw [hsum]; omega) (by rw [hsum]; omega)
      refine ⟨j, state', (run_cont _ hround).trans hrun, hj, ?_⟩
      obtain ⟨k, hk⟩ := Nat.exists_eq_add_of_le hnext
      have hcut : inputlen.toNat - i.toNat = 64 + (inputlen.toNat - (i.toNat + 64)) := by omega
      rw [hcut, slice_add, blockFold_block (by decide) (length_slice _ _ _), ← hsum]
      exact hfold
    · have hsum : (i + 64).toNat = i.toNat + 64 := by
        rw [toNat_next, Nat.mod_eq_of_lt]
        omega
      have htest : ¬ i + 64 ≤ inputlen := fun h => hnext (hsum ▸ UInt32.le_iff_toNat_le.1 h)
      have hround : md5Round input inputlen (i, state) = .brk (i, state) := by
        rw [md5Round, if_neg htest]
      refine ⟨i, state, run_brk _ hround, hi, blockFold_short ?_ _⟩
      rw [length_slice]
      omega

/-- Where one wraps, every test succeeds. -/
theorem md5Loop_wraps {i : UInt32} (hwrap : 2 ^ 32 + i.toNat % 64 ≤ inputlen.toNat + 64) (state : Md5State)
    (fuel : Nat) : run (md5Round input inputlen) fuel (i, state) = none := by
  induction fuel generalizing i state with
  | zero => rfl
  | succ fuel ih =>
    have hsum := toNat_next i
    have hmod : (i + 64).toNat % 64 = i.toNat % 64 := by omega
    have htest : i + 64 ≤ inputlen := by
      refine UInt32.le_iff_toNat_le.2 ?_
      omega
    have hround : md5Round input inputlen (i, state) = .cont (i + 64, md5Transform state (slice input i.toNat 64)) := by
      rw [md5Round, if_pos htest]
    rw [run_cont _ hround]
    exact ih (by rw [hmod]; exact hwrap) _

/-- The bound on the rounds cuts off only what is never left. -/
theorem md5Loop_none_iff {partlen : UInt32} (hle : partlen.toNat ≤ inputlen.toNat) (state : Md5State) :
    md5Loop input inputlen partlen state = none ↔ ¬ Stops (md5Round input inputlen) (partlen, state) := by
  by_cases hwrap : 2 ^ 32 + partlen.toNat % 64 ≤ inputlen.toNat + 64
  · refine ⟨fun _ => ?_, fun _ => md5Loop_wraps hwrap state _⟩
    rintro ⟨n, t, ht⟩
    rw [md5Loop_wraps hwrap state n] at ht
    cases ht
  · obtain ⟨j, state', hrun, -⟩ := md5Loop_takes input (inputlen.toNat / 64 + 1) state hle
      (Nat.lt_of_not_le hwrap) (by omega)
    constructor
    · intro hnone
      cases hnone.symm.trans hrun
    · exact fun hno => absurd ⟨_, _, hrun⟩ hno

end Loop

/-! ## The counts -/

theorem toNat_index (count0 : UInt32) : ((count0 >>> 3) &&& 0x3F).toNat = count0.toNat / 8 % 64 := by
  rw [UInt32.toNat_and, UInt32.toNat_shiftRight]
  change (count0.toNat >>> 3) &&& (2 ^ 6 - 1) = _
  rw [Nat.and_two_pow_sub_one_eq_mod, Nat.shiftRight_eq_div_pow]

theorem toNat_bits (inputlen : UInt32) : (inputlen <<< 3).toNat = 8 * inputlen.toNat % 2 ^ 32 := by
  rw [UInt32.toNat_shiftLeft]
  change inputlen.toNat <<< 3 % 2 ^ 32 = _
  rw [Nat.shiftLeft_eq, Nat.mul_comm]

theorem toNat_high (inputlen : UInt32) : (inputlen >>> 29).toNat = inputlen.toNat / 2 ^ 29 := by
  rw [UInt32.toNat_shiftRight]
  change inputlen.toNat >>> 29 = _
  rw [Nat.shiftRight_eq_div_pow]

/-- The two words count on, the carry included. -/
theorem counts_add {count0 count1 : UInt32} {length : Nat} (h0 : count0.toNat = 8 * length % 2 ^ 32)
    (h1 : count1.toNat = length / 2 ^ 29 % 2 ^ 32) (inputlen : UInt32) :
    (count0 + (inputlen <<< 3)).toNat = 8 * (length + inputlen.toNat) % 2 ^ 32 ∧
      ((if count0 + (inputlen <<< 3) < inputlen <<< 3 then count1 + 1 else count1) + (inputlen >>> 29)).toNat =
        (length + inputlen.toNat) / 2 ^ 29 % 2 ^ 32 := by
  have hsum : (count0 + (inputlen <<< 3)).toNat = 8 * (length + inputlen.toNat) % 2 ^ 32 := by
    rw [UInt32.toNat_add, toNat_bits, h0]
    omega
  refine ⟨hsum, ?_⟩
  have hcarry : count0 + (inputlen <<< 3) < inputlen <<< 3 ↔ 2 ^ 29 ≤ length % 2 ^ 29 + inputlen.toNat % 2 ^ 29 := by
    rw [UInt32.lt_iff_toNat_lt, hsum, toNat_bits]
    omega
  by_cases hc : 2 ^ 29 ≤ length % 2 ^ 29 + inputlen.toNat % 2 ^ 29
  · rw [if_pos (hcarry.2 hc), UInt32.toNat_add, UInt32.toNat_add, toNat_high, h1]
    change ((length / 2 ^ 29 % 2 ^ 32 + 1) % 2 ^ 32 + inputlen.toNat / 2 ^ 29) % 2 ^ 32 = _
    omega
  · rw [if_neg fun h => hc (hcarry.1 h), UInt32.toNat_add, toNat_high, h1]
    omega

/-! ## The functions on messages -/

/-- A part of this many bytes does not make an index wrap, behind `length` bytes. -/
def Md5Fits (length inputlen : Nat) : Prop := inputlen + 64 < 2 ^ 32 + (64 - length % 64) % 64

section Update
variable {context : Md5Ctx} {message : List UInt8}

theorem Md5Ctx.Has.index (h : context.Has message) :
    ((context.count0 >>> 3) &&& 0x3F).toNat = message.length % 64 := by
  rw [toNat_index, h.count0]
  omega

theorem Md5Ctx.Has.partlen (h : context.Has message) :
    ((64 : UInt32) - ((context.count0 >>> 3) &&& 0x3F)).toNat = 64 - message.length % 64 := by
  have hle : (context.count0 >>> 3) &&& 0x3F ≤ 64 := by
    rw [UInt32.le_iff_toNat_le, h.index]
    change message.length % 64 ≤ 64
    omega
  rw [UInt32.toNat_sub_of_le _ _ hle, h.index]
  rfl

/-- A part that fits is taken. -/
theorem update_has (h : context.Has message) (input : Nat → UInt8) {inputlen : UInt32}
    (hfits : Md5Fits message.length inputlen.toNat) : ∃ context', md5Update context input inputlen = some context' ∧
      context'.Has (message ++ slice input 0 inputlen.toNat) := by
  obtain ⟨hcount0, hcount1⟩ := counts_add h.count0 h.count1 inputlen
  have hindex := h.index
  have hpartlen := h.partlen
  have hlen : (message ++ slice input 0 inputlen.toNat).length = message.length + inputlen.toNat := by
    rw [List.length_append, length_slice]
  have hfold : blockFold md5Transform 64 md5Iv (message ++ slice input 0 inputlen.toNat) =
      blockFold md5Transform 64 context.state
        (slice context.buffer 0 (message.length % 64) ++ slice input 0 inputlen.toNat) := by
    rw [blockFold_append (by decide), h.folded]
  unfold md5Update
  dsimp only
  generalize (context.count0 >>> 3) &&& 0x3F = index at *
  generalize (64 : UInt32) - index = partlen at *
  have happend : ∀ n, slice (store context.buffer index.toNat (slice input 0 n)) 0 (message.length % 64 + n) =
      slice context.buffer 0 (message.length % 64) ++ slice input 0 n := by
    intro n
    rw [hindex]
    have hcat := slice_store_append context.buffer 0 (message.length % 64) (slice input 0 n)
    rwa [Nat.zero_add, length_slice] at hcat
  split
  · rename_i hge
    have hle : partlen.toNat ≤ inputlen.toNat := UInt32.le_iff_toNat_le.1 hge
    have hblock : message.length % 64 + partlen.toNat = 64 := by omega
    obtain ⟨j, state, hrun, hj, htakes⟩ := md5Loop_takes input (inputlen.toNat / 64 + 1)
      (md5Transform context.state (slice (store context.buffer index.toNat (slice input 0 partlen.toNat)) 0 64)) hle
      (by unfold Md5Fits at hfits; rw [hpartlen]; exact hfits) (by omega)
    refine ⟨_, by rw [md5Loop, hrun]; rfl, by rw [hlen]; exact hcount0, by rw [hlen]; exact hcount1, ?_⟩
    obtain ⟨k, hk⟩ := Nat.exists_eq_add_of_le hle
    have hcut : slice input 0 inputlen.toNat =
        slice input 0 partlen.toNat ++ slice input partlen.toNat (inputlen.toNat - partlen.toNat) := by
      rw [hk, slice_add, Nat.zero_add, Nat.add_sub_cancel_left]
    have hfolded : blockFold md5Transform 64 md5Iv (message ++ slice input 0 inputlen.toNat) =
        (state, slice input j.toNat (inputlen.toNat - j.toNat)) := by
      rw [hfold, hcut, ← List.append_assoc, ← happend, hblock, blockFold_block (by decide) (length_slice _ _ _), htakes]
    have hrest : inputlen.toNat - j.toNat = (message ++ slice input 0 inputlen.toNat).length % 64 := by
      have hlength : (blockFold md5Transform 64 md5Iv (message ++ slice input 0 inputlen.toNat)).2.length = _ :=
        length_rest (by decide) _ _
      rwa [hfolded, length_slice] at hlength
    rw [hfolded, ← hrest]
    dsimp only
    rw [UInt32.toNat_sub_of_le _ _ (UInt32.le_iff_toNat_le.2 hj)]
    have hself := slice_store_self (store context.buffer index.toNat (slice input 0 partlen.toNat)) 0
      (slice input j.toNat (inputlen.toNat - j.toNat))
    rw [length_slice] at hself
    rw [hself]
  · rename_i hlt
    have hshort : message.length % 64 + inputlen.toNat < 64 := by
      have hnot : ¬ partlen.toNat ≤ inputlen.toNat := fun hle => hlt (UInt32.le_iff_toNat_le.2 hle)
      omega
    refine ⟨_, rfl, by rw [hlen]; exact hcount0, by rw [hlen]; exact hcount1, ?_⟩
    have hmod : (message ++ slice input 0 inputlen.toNat).length % 64 = message.length % 64 + inputlen.toNat := by
      rw [hlen]
      omega
    rw [hfold, hmod, happend, blockFold_short]
    rw [List.length_append, length_slice, length_slice]
    exact hshort

/-- A part that does not fit is never taken. -/
theorem update_none (h : context.Has message) (input : Nat → UInt8) {inputlen : UInt32}
    (hfits : ¬ Md5Fits message.length inputlen.toNat) : md5Update context input inputlen = none := by
  have hpartlen := h.partlen
  unfold Md5Fits at hfits
  unfold md5Update
  dsimp only
  generalize (context.count0 >>> 3) &&& 0x3F = index at *
  generalize (64 : UInt32) - index = partlen at *
  have hge : inputlen ≥ partlen := by
    rw [ge_iff_le, UInt32.le_iff_toNat_le]
    omega
  have hwrap : 2 ^ 32 + partlen.toNat % 64 ≤ inputlen.toNat + 64 := by
    rw [hpartlen]
    omega
  rw [if_pos hge, md5Loop, md5Loop_wraps hwrap]
  rfl

end Update

theorem padLength_le (length : Nat) : md5PadLength length ≤ 64 := by
  unfold md5PadLength
  split <;> omega

/-- The length that `MD5Final` computes. -/
theorem toNat_padlen {index : UInt32} {length : Nat} (h : index.toNat = length % 64) :
    (if index < 56 then 56 - index else 120 - index : UInt32).toNat = md5PadLength length := by
  have htest : index < 56 ↔ length % 64 < 56 := by
    rw [UInt32.lt_iff_toNat_lt, h]
    rfl
  unfold md5PadLength
  by_cases hlt : length % 64 < 56
  · have hle : index ≤ 56 := by
      rw [UInt32.le_iff_toNat_le, h]
      exact Nat.le_of_lt hlt
    rw [if_pos (htest.2 hlt), if_pos hlt, UInt32.toNat_sub_of_le _ _ hle, h]
    rfl
  · have hle : index ≤ 120 := by
      rw [UInt32.le_iff_toNat_le, h]
      change length % 64 ≤ 120
      omega
    rw [if_neg fun hi => hlt (htest.1 hi), if_neg hlt, UInt32.toNat_sub_of_le _ _ hle, h]
    rfl

theorem bits_eq {context : Md5Ctx} {message : List UInt8} (h : context.Has message) :
    md5Encode [context.count0, context.count1] = md5Bits message.length := by
  have h0 : context.count0 = UInt32.ofNat (8 * message.length) :=
    UInt32.toNat_inj.1 (h.count0.trans UInt32.toNat_ofNat'.symm)
  have h1 : context.count1 = UInt32.ofNat (message.length / 2 ^ 29) :=
    UInt32.toNat_inj.1 (h.count1.trans UInt32.toNat_ofNat'.symm)
  rw [h0, h1]
  rfl

/-- `MD5Final` pads the message and gives its digest. -/
theorem final_eq {context : Md5Ctx} {message : List UInt8} (h : context.Has message) :
    md5Final context = some (md5 message) := by
  have hpadlen := toNat_padlen h.index
  have hpad := padLength_le message.length
  unfold md5Final
  rw [bits_eq h]
  dsimp only
  generalize (context.count0 >>> 3) &&& 0x3F = index at hpadlen ⊢
  generalize (if index < 56 then 56 - index else 120 - index : UInt32) = padlen at hpadlen ⊢
  have hfits₁ : Md5Fits message.length padlen.toNat := by
    unfold Md5Fits
    omega
  obtain ⟨context₁, hupdate₁, h₁⟩ := update_has h md5Padding hfits₁
  have hfits₂ : Md5Fits (message ++ slice md5Padding 0 padlen.toNat).length (8 : UInt32).toNat := by
    change 8 + 64 < 2 ^ 32 + _
    omega
  obtain ⟨context₂, hupdate₂, h₂⟩ := update_has h₁ (fun i => (md5Bits message.length).getD i 0) hfits₂
  rw [hupdate₁, Option.bind_some, hupdate₂, Option.map_some]
  have hmessage : message ++ slice md5Padding 0 padlen.toNat ++
      slice (fun i => (md5Bits message.length).getD i 0) 0 (8 : UInt32).toNat = md5Padded message := by
    rw [hpadlen]
    rfl
  have hstate : (blockFold md5Transform 64 md5Iv (md5Padded message)).1 = context₂.state := by
    rw [← hmessage, h₂.folded]
  rw [md5, hstate]

/-! ## A message in parts -/

/-- `MD5Init`, `MD5Update` for each of the parts in memory, and `MD5Final`. -/
def md5Parts (context : Md5Ctx) (parts : List ((Nat → UInt8) × UInt32)) : Option (List UInt8) :=
  (parts.foldlM (fun context part => md5Update context part.1 part.2) (md5Init context)).bind md5Final

/-- The bytes of the parts. -/
def md5Message (parts : List ((Nat → UInt8) × UInt32)) : List UInt8 :=
  parts.flatMap fun part => slice part.1 0 part.2.toNat

/-- Every part fits behind the `length` bytes and the parts in front of it. -/
def Md5FitAll : Nat → List ((Nat → UInt8) × UInt32) → Prop
  | _, [] => True
  | length, part :: parts => Md5Fits length part.2.toNat ∧ Md5FitAll (length + part.2.toNat) parts

instance instDecidableMd5FitAll : ∀ length parts, Decidable (Md5FitAll length parts)
  | _, [] => .isTrue trivial
  | length, part :: parts =>
    have := instDecidableMd5FitAll (length + part.2.toNat) parts
    inferInstanceAs (Decidable (part.2.toNat + 64 < 2 ^ 32 + (64 - length % 64) % 64 ∧ _))

theorem foldlM_update {context : Md5Ctx} {message : List UInt8} (h : context.Has message)
    (parts : List ((Nat → UInt8) × UInt32)) :
    (parts.foldlM (fun context part => md5Update context part.1 part.2) context).bind md5Final =
      if Md5FitAll message.length parts then some (md5 (message ++ md5Message parts)) else none := by
  induction parts generalizing context message with
  | nil =>
    rw [if_pos (show Md5FitAll message.length [] from trivial), md5Message, List.flatMap_nil, List.append_nil]
    exact final_eq h
  | cons part parts ih =>
    rw [List.foldlM_cons]
    by_cases hfits : Md5Fits message.length part.2.toNat
    · obtain ⟨context', hupdate, h'⟩ := update_has h part.1 hfits
      have hlen : (message ++ slice part.1 0 part.2.toNat).length = message.length + part.2.toNat := by
        rw [List.length_append, length_slice]
      rw [hupdate, Option.bind_eq_bind, Option.bind_some, ih h', hlen, List.append_assoc]
      exact if_congr (and_iff_right hfits).symm rfl rfl
    · rw [update_none h part.1 hfits, if_neg fun hall => hfits hall.1]
      rfl

/-- However a message is cut into parts, the digest is that of the whole message. One of the
calls does not return exactly if a part is so long that the index of its last block wraps. -/
theorem md5_of_parts (context : Md5Ctx) (parts : List ((Nat → UInt8) × UInt32)) :
    md5Parts context parts = if Md5FitAll 0 parts then some (md5 (md5Message parts)) else none :=
  foldlM_update (init_has context) parts

/-- The example in the source, "admin", in two parts. -/
example : md5Parts ⟨0, 0, ⟨0, 0, 0, 0⟩, fun _ => 7⟩
    [(fun i => [97, 100].getD i 0, 2), (fun i => [109, 105, 110].getD i 0, 3)] =
      some [0x21, 0x23, 0x2f, 0x29, 0x7a, 0x57, 0xa5, 0xa7, 0x43, 0x89, 0x4a, 0x0e, 0x4a, 0x80, 0x1f, 0xc3] := by
  decide +kernel

end CmdAgent

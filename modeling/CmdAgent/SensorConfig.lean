import CmdAgent.Cmdset
/-!
# The configuration of a sensor

A SAVECONF body is a flag, a length and data, 56 bytes in all. Neither end tests the
length against the 54 bytes there are for data: `l0006_cmdset_save_sensorconfig` copies
what it is given, `l0006_netcmd_ex_general_action` what the device says. Here both work
on the memory around the packet.
-/
open StreamLib.Mem

namespace CmdAgent

/-! ## Saving -/

/-- The memory from `netcmd.c` on with the request in it. -/
def saveMem (c : Nat → UInt8) (config : List UInt8) : Nat → UInt8 :=
  store (store c 0 [l0006NetcmdSaveconfFlagWrite, UInt8.ofNat config.length]) 2 config

theorem body_save (chnlIndex nodeIndex : Int) (config : List UInt8) (c : Nat → UInt8) :
    (l0006CmdsetSaveSensorconfig chnlIndex nodeIndex config c).body = slice (saveMem c config) 0 56 := rfl

/-- Building the request changes nothing behind `netcmd.c`. -/
def SaveInside (config : List UInt8) : Prop := ∀ c i, 56 ≤ i → saveMem c config i = c i

theorem saveMem_data (c : Nat → UInt8) (config : List UInt8) : slice (saveMem c config) 2 config.length = config :=
  slice_store_self _ _ _

theorem saveMem_length (c : Nat → UInt8) (config : List UInt8) : saveMem c config 1 = UInt8.ofNat config.length := by
  rw [saveMem, store_before _ (by decide)]
  rfl

theorem exists_byte_ne (b : UInt8) : ∃ x : UInt8, x ≠ b := by
  by_cases hb : b = 0
  · exact ⟨1, fun he => absurd (he.trans hb) (by decide)⟩
  · exact ⟨0, fun he => hb he.symm⟩

theorem saveInside_iff (config : List UInt8) : SaveInside config ↔ config.length ≤ 54 := by
  constructor
  · intro hin
    by_contra hlong
    have hlt : 54 < config.length := Nat.not_le.1 hlong
    obtain ⟨x, hx⟩ := exists_byte_ne config[54]
    have hstored : saveMem (fun _ => x) config (2 + 54) = config[54] := store_inside hlt
    exact hx ((hin (fun _ => x) (2 + 54) (Nat.le_refl _)).symm.trans hstored)
  · intro hle c i hi
    rw [saveMem, store_after _ (by omega), store_after]
    simp only [List.length_cons, List.length_nil]
    omega

/-! ## The acknowledgement -/

/-- `l0006_netcmd_ex_general_action` for SAVECONF on the packet at address `p`. -/
def exGeneralActionAt (sz : UInt8) (m : Nat → UInt8) (p : Nat) : Acted :=
  netcmdAction (fun pkt =>
    if cmdOf pkt = l0006NetcmdSaveconfack then
      let flag := pkt.getD 8 0
      let length := pkt.getD 9 0
      if flag = l0006NetcmdSaveconfFlagSuccess then
        if sz = 0 then (l0006NetcomAckSuccess, none)
        else if length < sz then (l0006NetcomAckSuccess, some (slice m (p + 10) length.toNat))
        else (l0006NetcomAckFail, none)
      else (l0006NetcomAckFail, none)
    else (l0006NetcomAckSuccess, none)) l0006NetcmdSaveconf (some (slice m p l0006NetcmdExHeaderSize))

/-- What is copied comes from the packet. -/
def CopiesInside (sz : UInt8) (m : Nat → UInt8) (p : Nat) : Prop :=
  ∀ m', (∀ i < 64, m' (p + i) = m (p + i)) → exGeneralActionAt sz m' p = exGeneralActionAt sz m p

/-- The device reports success with more than a packet holds, and the caller has room
for it. -/
def Overlong (sz : UInt8) (pkt : List UInt8) : Prop :=
  pkt.getD 8 0 = l0006NetcmdSaveconfFlagSuccess ∧ 54 < (pkt.getD 9 0).toNat ∧ pkt.getD 9 0 < sz

instance (sz : UInt8) (pkt : List UInt8) : Decidable (Overlong sz pkt) := inferInstanceAs (Decidable (_ ∧ _ ∧ _))

/-- What the callback makes of a SAVECONFACK. -/
theorem exGeneralActionAt_ack {sz : UInt8} {m : Nat → UInt8} {p : Nat}
    (hack : cmdOf (slice m p 64) = l0006NetcmdSaveconfack) :
    exGeneralActionAt sz m p =
      if (slice m p 64).getD 8 0 = l0006NetcmdSaveconfFlagSuccess then
        if sz = 0 then ⟨l0006NetcomAckSuccess, none, true, 0⟩
        else if (slice m p 64).getD 9 0 < sz then
          ⟨l0006NetcomAckSuccess, some (slice m (p + 10) ((slice m p 64).getD 9 0).toNat), true, 0⟩
        else ⟨l0006NetcomAckFail, none, true, 0⟩
      else ⟨l0006NetcomAckFail, none, true, 0⟩ := by
  have hcmd : (l0006NetcmdSaveconfack.toNat : Int) = l0006NetcmdGetackcmd l0006NetcmdSaveconf := by decide
  unfold exGeneralActionAt netcmdAction
  simp only [l0006NetcmdExHeaderSize, hack, hcmd, if_true]
  split
  · split
    · rfl
    · split <;> rfl
  · rfl

theorem netcmdAction_congr {f g : List UInt8 → Int × Option (List UInt8)} (cmd : UInt8) {pkt : List UInt8}
    (h : f pkt = g pkt) : netcmdAction f cmd (some pkt) = netcmdAction g cmd (some pkt) := by
  simp only [netcmdAction, h]

/-- As long as it copies no more than the packet holds, the callback only needs the packet. -/
theorem exGeneralActionAt_eq {sz : UInt8} {m : Nat → UInt8} {p : Nat} (h : ¬ Overlong sz (slice m p 64)) :
    exGeneralActionAt sz m p = l0006NetcmdExGeneralAction sz l0006NetcmdSaveconf (some (slice m p 64)) := by
  apply netcmdAction_congr
  have hcopy : (slice m p 64).getD 8 0 = l0006NetcmdSaveconfFlagSuccess → (slice m p 64).getD 9 0 < sz →
      slice m (p + 10) ((slice m p 64).getD 9 0).toNat =
        ((slice m p 64).drop 10).take ((slice m p 64).getD 9 0).toNat := by
    intro hflag hlt
    have hle : ((slice m p 64).getD 9 0).toNat ≤ 54 := Nat.not_lt.1 fun hlong => h ⟨hflag, hlong, hlt⟩
    rw [drop_slice _ (by decide), take_slice _ hle]
  dsimp only
  by_cases hflag : (slice m p 64).getD 8 0 = l0006NetcmdSaveconfFlagSuccess
  · by_cases hlt : (slice m p 64).getD 9 0 < sz
    · rw [hcopy hflag hlt]
    · rw [if_neg hlt, if_neg hlt]
  · rw [if_neg hflag, if_neg hflag]

theorem copiesInside_iff {sz : UInt8} {m : Nat → UInt8} {p : Nat}
    (hack : cmdOf (slice m p 64) = l0006NetcmdSaveconfack) :
    CopiesInside sz m p ↔ ¬ Overlong sz (slice m p 64) := by
  have hpacket : ∀ m' : Nat → UInt8, (∀ i < 64, m' (p + i) = m (p + i)) → slice m' p 64 = slice m p 64 := by
    intro m' hsame
    apply slice_congr
    intro i hi hi'
    obtain ⟨k, rfl⟩ := Nat.exists_eq_add_of_le hi
    exact hsame k (by omega)
  constructor
  · rintro hin ⟨hflag, hlong, hlt⟩
    -- A change of the first byte behind the packet shows in what is copied.
    obtain ⟨x, hx⟩ := exists_byte_ne (m (p + 64))
    have hsame : ∀ i < 64, Function.update m (p + 64) x (p + i) = m (p + i) :=
      fun i hi => Function.update_of_ne (by omega) _ _
    have hpkt := hpacket _ hsame
    have hsz : sz ≠ 0 := by
      rintro rfl
      exact absurd hlt (by simp)
    have hact := hin (Function.update m (p + 64) x) hsame
    rw [exGeneralActionAt_ack hack, exGeneralActionAt_ack (hpkt.symm ▸ hack), hpkt, if_pos hflag, if_neg hsz, if_pos hlt,
      if_pos hflag, if_neg hsz, if_pos hlt] at hact
    injection hact with _ hout
    have hbyte := congrArg (fun out => out[54]?) (Option.some.inj hout)
    simp only [getElem?_slice _ hlong, Option.some.injEq] at hbyte
    rw [show p + 10 + 54 = p + 64 by omega, Function.update_self] at hbyte
    exact hx hbyte
  · intro hfit m' hsame
    have hpkt := hpacket m' hsame
    rw [exGeneralActionAt_eq hfit, exGeneralActionAt_eq (hpkt.symm ▸ hfit), hpkt]

/-! ## Loading -/

/-- The SAVECONFACK in which the device says what it has got with a request with the body
`body`. -/
structure Answers (body pkt : List UInt8) : Prop where
  cmd : cmdOf pkt = l0006NetcmdSaveconfack
  flag : pkt.getD 8 0 = l0006NetcmdSaveconfFlagSuccess
  length : pkt.getD 9 0 = body.getD 1 0
  data : (pkt.drop 10).take (body.getD 1 0).toNat = (body.drop 2).take (body.getD 1 0).toNat

/-- `*config`: 64 zeros, with what the callback has stored over their start. -/
def loadedConfig (out : Option (List UInt8)) : List UInt8 := slice (store (fun _ => 0) 0 (out.getD [])) 0 64

/-- What has been saved is loaded, wherever the answer lies in memory. -/
def RoundTrip (config : List UInt8) : Prop :=
  ∀ chnlIndex nodeIndex c m p,
    Answers (l0006CmdsetSaveSensorconfig chnlIndex nodeIndex config c).body (slice m p 64) →
      let acted := exGeneralActionAt 64 m p
      (∀ rdsz c' header, (l0006CmdsetLoadSensorconfig chnlIndex nodeIndex true rdsz c').after header acted.outret
        acted.out = .value 0 none) ∧
      loadedConfig acted.out = config ++ List.replicate (64 - config.length) 0

theorem loadedConfig_some {config : List UInt8} (hle : config.length ≤ 64) :
    loadedConfig (some config) = config ++ List.replicate (64 - config.length) 0 := by
  have hsplit : 64 = config.length + (64 - config.length) := by omega
  rw [loadedConfig, Option.getD_some, hsplit, slice_add, slice_store_self, slice_store_after _ _ (Nat.le_refl _),
    ← hsplit]
  apply congrArg (config ++ ·)
  apply List.eq_replicate_iff.2
  refine ⟨length_slice .., fun b hb => ?_⟩
  obtain ⟨_, _, rfl⟩ := List.mem_map.1 hb
  rfl

/-- The device has got the whole block, and says so. -/
theorem Answers.block {chnlIndex nodeIndex : Int} {config pkt : List UInt8} {c : Nat → UInt8}
    (hans : Answers (l0006CmdsetSaveSensorconfig chnlIndex nodeIndex config c).body pkt) (hle : config.length ≤ 54) :
    (pkt.getD 9 0).toNat = config.length ∧ (pkt.drop 10).take config.length = config := by
  rcases hans with ⟨_, _, hlength, hdata⟩
  have hone : (slice (saveMem c config) 0 56).getD 1 0 = UInt8.ofNat config.length := by
    rw [List.getD_eq_getElem?_getD, getElem?_slice _ (by decide)]
    exact saveMem_length c config
  have htoNat : (UInt8.ofNat config.length).toNat = config.length := by
    rw [UInt8.toNat_ofNat']
    omega
  rw [body_save, hone] at hlength hdata
  rw [htoNat, drop_slice _ (by decide), take_slice _ (by omega)] at hdata
  exact ⟨hlength ▸ htoNat, hdata.trans (saveMem_data c config)⟩

theorem roundTrip {config : List UInt8} (hle : config.length ≤ 54) : RoundTrip config := by
  intro chnlIndex nodeIndex c m p hans
  obtain ⟨hlength, hdata⟩ := hans.block hle
  have hlt : (slice m p 64).getD 9 0 < 64 := by
    rw [UInt8.lt_iff_toNat_lt, hlength]
    exact Nat.lt_of_le_of_lt hle (by decide)
  rw [drop_slice _ (by decide), take_slice _ (by omega)] at hdata
  have hacted : exGeneralActionAt 64 m p = ⟨l0006NetcomAckSuccess, some config, true, 0⟩ := by
    rw [exGeneralActionAt_ack hans.cmd, if_pos hans.flag, if_neg (by decide), if_pos hlt, hlength, hdata]
  simp only [hacted]
  exact ⟨fun _ _ _ => rfl, loadedConfig_some (by omega)⟩

/-- Saving and loading are in step for what fits in a packet, and every SAVECONFACK is
read inside the packet as long as the device does not claim more. -/
theorem sensorconfig_iff (config : List UInt8) {sz : UInt8} {m : Nat → UInt8} {p : Nat}
    (hack : cmdOf (slice m p 64) = l0006NetcmdSaveconfack) :
    SaveInside config ∧ RoundTrip config ∧ CopiesInside sz m p ↔
      config.length ≤ 54 ∧ ¬ Overlong sz (slice m p 64) := by
  rw [saveInside_iff, copiesInside_iff hack]
  exact ⟨fun ⟨hle, _, hfit⟩ => ⟨hle, hfit⟩, fun ⟨hle, hfit⟩ => ⟨hle, roundTrip hle, hfit⟩⟩

/-- A SAVECONFACK that reports success with `length` bytes, and zeros behind `stored`. -/
def exampleSaveconfack (length : UInt8) (stored : List UInt8) : Nat → UInt8 :=
  store (fun _ => 0) 0 ([0xEF, 0xBE, l0006NetcmdSaveconfack, 0, 0, 0, 0, 0, l0006NetcmdSaveconfFlagSuccess, length] ++
    stored)

theorem sensorconfig_three :
    Answers (l0006CmdsetSaveSensorconfig 0 1 [7, 8, 9] fun _ => 0).body (slice (exampleSaveconfack 3 [7, 8, 9]) 0 64) ∧
      SaveInside [7, 8, 9] ∧ RoundTrip [7, 8, 9] ∧ CopiesInside 64 (exampleSaveconfack 3 [7, 8, 9]) 0 :=
  ⟨⟨rfl, rfl, rfl, rfl⟩, (sensorconfig_iff [7, 8, 9] rfl).2 ⟨by decide, by decide⟩⟩

/-- The 55th byte of a block is stored behind the packet, and 63 bytes are copied out of
the 54 of an acknowledgement. -/
theorem sensorconfig_outside :
    (saveMem (fun _ => 0) (List.replicate 55 1) 56 = 1 ∧ ¬ SaveInside (List.replicate 55 1)) ∧
      ¬ CopiesInside 64 (exampleSaveconfack 63 []) 0 := by
  refine ⟨⟨by decide, ?_⟩, ?_⟩
  · rw [saveInside_iff, List.length_replicate]
    decide
  · rw [copiesInside_iff rfl]
    decide

end CmdAgent

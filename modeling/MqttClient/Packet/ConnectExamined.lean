/-
# `MQTTDeserialize_connect` with its accesses recorded

The parser moves one pointer through strings, whose reader respects the end of the
data, and through single bytes, whose reader knows no end.  It is written here a
second time as a computation that can get at the buffer only by examining bytes, and
that carries the examined indices with it.  What it stores for its caller is left out,
since no later step looks at it.  The second version ends with a result exactly where
the first returns 1.
-/

import MqttClient.Packet.Server
import MqttClient.Semantics.Footprint

namespace MqttClient

open Semantics

namespace Examine

/-- A parser of the bytes at and after a pointer. -/
@[reducible]
def Bytes : Type → Type := Parse Nat UInt8

/-- `readChar`. -/
def readChar (ptr : Nat) : Bytes (Int × Nat) := do
  let b ← Parse.peek ptr
  pure (toChar b, ptr + 1)

/-- `readInt`. -/
def readInt (ptr : Nat) : Bytes (Nat × Nat) := do
  let hi ← Parse.peek ptr
  let lo ← Parse.peek (ptr + 1)
  pure (256 * hi.toNat + lo.toNat, ptr + 2)

/-- `readMQTTLenString`: where the string starts, and the pointer behind it. -/
def readMQTTLenString (ptr enddata : Nat) : Bytes (Nat × Nat) :=
  if 1 < (enddata : Int) - ptr then do
    let (len, ptr) ← readInt ptr
    if ptr + len ≤ enddata then pure (ptr, ptr + len) else Parse.stop
  else Parse.stop

/-- `bufchar`. -/
def bufchar : StateT Nat Bytes (Int × UInt8) := fun bufptr => do
  let c ← Parse.peek bufptr
  pure ((1, c), bufptr + 1)

/-- `MQTTPacket_decodeBuf`: the number of length bytes. -/
def mqttPacketDecodeBuf (ptr : Nat) : Bytes Nat := do
  let ((rc, _), _) ← (mqttPacketDecode bufchar).run ptr
  pure rc

/-- `memcmp` over the first bytes of a string that lies between two pointers. -/
def startsLike (start stop : Nat) (name : CString) : Bytes Bool := do
  let n := min name.bytes.length (stop - start)
  let shown ← Parse.peekAll ((List.range n).map (start + ·))
  pure (shown == name.bytes.take n)

/-- `MQTTPacket_checkVersion`.  The name is looked at only with a matching version. -/
def mqttPacketCheckVersion (start stop : Nat) (version : Int) : Bytes Bool :=
  if version = 3 then startsLike start stop mqIsdpProtocolName
  else if version = 4 then startsLike start stop mqttProtocolName
  else pure false

section Connect

variable (flags : MQTTConnectFlags) (curdata enddata : Nat)

/-- The will: the pointer behind it. -/
def mqttDeserializeConnectWill : Bytes Nat :=
  if flags.will = 0 then pure curdata
  else do
    let (_, curdata) ← readMQTTLenString curdata enddata
    let (_, curdata) ← readMQTTLenString curdata enddata
    pure curdata

/-- User name and password. -/
def mqttDeserializeConnectCredentials : Bytes Unit :=
  if flags.username ≠ 0 then
    if (enddata : Int) - curdata < 3 then Parse.stop
    else do
      let (_, curdata) ← readMQTTLenString curdata enddata
      if flags.password ≠ 0 then
        if (enddata : Int) - curdata < 3 then Parse.stop
        else do
          let _ ← readMQTTLenString curdata enddata
          pure ()
      else pure ()
  else if flags.password ≠ 0 then Parse.stop
  else pure ()

/-- What follows protocol name and level. -/
def mqttDeserializeConnectFields : Bytes Unit := do
  let (all, curdata) ← readChar curdata
  let flags := MQTTConnectFlags.ofByte (toUnsignedChar all)
  let (_, curdata) ← readInt curdata
  let (_, curdata) ← readMQTTLenString curdata enddata
  let curdata ← mqttDeserializeConnectWill flags curdata enddata
  mqttDeserializeConnectCredentials flags curdata enddata

end Connect

/-- What follows the protocol name, which starts at `start`. -/
def mqttDeserializeConnectLevel (start curdata enddata : Nat) : Bytes Unit := do
  let (version, behind) ← readChar curdata
  let recognised ← mqttPacketCheckVersion start curdata version
  if recognised then mqttDeserializeConnectFields behind enddata else Parse.stop

/-- `MQTTDeserialize_connect`: it ends with a result where the code returns 1. -/
def mqttDeserializeConnect (len : Nat) : Bytes Unit := do
  let (c, curdata) ← readChar 0
  if (MQTTHeader.ofByte (toUnsignedChar c)).type ≠ MsgType.connect.code then Parse.stop
  else do
    let lengthBytes ← mqttPacketDecodeBuf curdata
    let (start, curdata) ← readMQTTLenString (curdata + lengthBytes) len
    if (len : Int) - curdata < 0 then Parse.stop
    else mqttDeserializeConnectLevel start curdata len

/-! ## It is the same code -/

variable {buf : Memory}

theorem result_readChar (ptr : Nat) :
    (readChar ptr).result buf = some (MqttClient.readChar buf ptr) := rfl

theorem result_readInt (ptr : Nat) :
    (readInt ptr).result buf = some (MqttClient.readInt buf ptr) := rfl

/-- The string between the pointers, as `readMQTTLenString` leaves it. -/
def span (buf : Memory) (start behind : Nat) : MQTTString :=
  ⟨none, (behind - start : Nat), .into buf start⟩

theorem readMQTTLenString_of_result {ptr enddata start behind : Nat}
    (h : (readMQTTLenString ptr enddata).result buf = some (start, behind)) (old : MQTTString) :
    MqttClient.readMQTTLenString old buf ptr enddata =
      (1, span buf start behind, behind) := by
  unfold readMQTTLenString at h
  unfold MqttClient.readMQTTLenString
  rw [Parse.result_ite] at h
  by_cases hroom : 1 < (enddata : Int) - ptr
  · rw [if_pos hroom] at h ⊢
    rw [Parse.result_bind, result_readInt, Option.bind_some, Parse.result_ite] at h
    dsimp only at h ⊢
    by_cases hfits : (MqttClient.readInt buf ptr).2 + (MqttClient.readInt buf ptr).1 ≤ enddata
    · rw [if_pos hfits] at h ⊢
      cases h
      rw [span, Nat.add_sub_cancel_left]
    · rw [if_neg hfits] at h
      cases h
  · rw [if_neg hroom] at h
    cases h

theorem readMQTTLenString_of_stop {ptr enddata : Nat}
    (h : (readMQTTLenString ptr enddata).result buf = none) (old : MQTTString) :
    (MqttClient.readMQTTLenString old buf ptr enddata).1 = 0 := by
  unfold readMQTTLenString at h
  unfold MqttClient.readMQTTLenString
  rw [Parse.result_ite] at h
  by_cases hroom : 1 < (enddata : Int) - ptr
  · rw [if_pos hroom] at h ⊢
    rw [Parse.result_bind, result_readInt, Option.bind_some, Parse.result_ite] at h
    dsimp only at h ⊢
    by_cases hfits : (MqttClient.readInt buf ptr).2 + (MqttClient.readInt buf ptr).1 ≤ enddata
    · rw [if_pos hfits] at h
      cases h
    · rw [if_neg hfits]
  · rw [if_neg hroom]

/-- One step of the loop: the next byte is examined, and only that. -/
theorem decodeLoop_succ (left len value multiplier ptr : Nat) :
    ((decodeLoop bufchar (left + 1) len value multiplier).run ptr).result buf =
      if buf ptr &&& 128 ≠ 0 then
        ((decodeLoop bufchar left (len + 1) (value + (buf ptr &&& 127).toNat * multiplier)
          (multiplier * 128)).run (ptr + 1)).result buf
      else some ((len + 1, value + (buf ptr &&& 127).toNat * multiplier), ptr + 1) := by
  rw [decodeLoop, StateT.run_bind]
  by_cases hcont : buf ptr &&& 128 ≠ 0
  · rw [if_pos hcont]
    show Parse.result (StateT.run
      (if (1 : Int) ≠ 1 then _ else if buf ptr &&& 128 ≠ 0 then _ else _) (ptr + 1)) buf = _
    rw [if_neg (by decide), if_pos hcont]
  · rw [if_neg hcont]
    show Parse.result (StateT.run
      (if (1 : Int) ≠ 1 then _ else if buf ptr &&& 128 ≠ 0 then _ else _) (ptr + 1)) buf = _
    rw [if_neg (by decide), if_neg hcont]
    rfl

theorem within_decodeLoop_succ {P : Nat → Prop} (left len value multiplier ptr : Nat) :
    ((decodeLoop bufchar (left + 1) len value multiplier).run ptr).Within buf P ↔
      P ptr ∧ (buf ptr &&& 128 ≠ 0 →
        ((decodeLoop bufchar left (len + 1) (value + (buf ptr &&& 127).toNat * multiplier)
          (multiplier * 128)).run (ptr + 1)).Within buf P) := by
  rw [decodeLoop, StateT.run_bind, Parse.within_bind_of_some (a := ((1, buf ptr), ptr + 1)) rfl]
  refine and_congr ?_ ?_
  · show Parse.Within (Parse.peek ptr >>= _) buf P ↔ P ptr
    rw [Parse.within_bind_of_some (a := buf ptr) rfl, Parse.within_peek]
    exact and_iff_left (Parse.within_pure _)
  · show Parse.Within (StateT.run
      (if (1 : Int) ≠ 1 then _ else if buf ptr &&& 128 ≠ 0 then _ else _) (ptr + 1)) buf P ↔ _
    rw [if_neg (by decide)]
    by_cases hcont : buf ptr &&& 128 ≠ 0
    · rw [if_pos hcont]
      exact ⟨fun h _ => h, fun h => h hcont⟩
    · rw [if_neg hcont]
      exact iff_of_true (Parse.within_pure _) fun h => absurd h hcont

theorem result_decodeLoop (offset : Nat) :
    ∀ left len value multiplier ptr : Nat,
      ((decodeLoop bufchar left len value multiplier).run (offset + ptr)).result buf =
        some (((decodeLoop (MqttClient.bufchar (buf.shift offset)) left len value multiplier).run
          ptr).1, offset + ((decodeLoop (MqttClient.bufchar (buf.shift offset)) left len value
            multiplier).run ptr).2)
  | 0, _, _, _, _ => rfl
  | left + 1, len, value, multiplier, ptr => by
      have ih := result_decodeLoop offset left
      rw [decodeLoop_succ, decodeLoop_bufchar_succ, Memory.shift_apply]
      split
      · rw [Nat.add_assoc, ih]
      · rfl

theorem result_mqttPacketDecodeBuf (ptr : Nat) :
    (mqttPacketDecodeBuf ptr).result buf =
      some (MqttClient.mqttPacketDecodeBuf (buf.shift ptr)).1 := by
  show (((decodeLoop bufchar 4 0 0 1).run (ptr + 0)).result buf).bind _ = _
  rw [result_decodeLoop ptr 4 0 0 1 0]
  rfl

theorem result_startsLike (start behind : Nat) (name : CString) :
    (startsLike start behind name).result buf =
      some ((span buf start behind).startsLike name) := by
  have hmin : (min (name.bytes.length : Int) ((behind - start : Nat) : Int)).toNat =
      min name.bytes.length (behind - start) := by omega
  simp only [startsLike, MQTTString.startsLike, span, hmin, Parse.result_bind,
    Parse.result_peekAll, Option.bind_some, Parse.result_pure, List.map_map]
  simp only [Pointer.deref_into, Memory.load, Memory.shift_apply, Nat.zero_add]
  rfl

theorem result_mqttPacketCheckVersion (start behind : Nat) (version : Int) :
    (mqttPacketCheckVersion start behind version).result buf =
      some (MqttClient.mqttPacketCheckVersion (span buf start behind) version) := by
  simp only [mqttPacketCheckVersion, MqttClient.mqttPacketCheckVersion, Parse.result_ite,
    result_startsLike, Parse.result_pure]
  by_cases hthree : version = 3
  · subst hthree
    simp
  · by_cases hfour : version = 4
    · subst hfour
      simp
    · simp [hthree, hfour]

/-- The return code of a call that ends with a result or stops. -/
def returnCode {α : Type} : Option α → Int
  | some _ => 1
  | none => 0

section Connect

variable (flags : MQTTConnectFlags) (data : MQTTPacketConnectData) (curdata enddata : Nat)

theorem mqttDeserializeConnectWill_of_result {behind : Nat}
    (h : (mqttDeserializeConnectWill flags curdata enddata).result buf = some behind) :
    ∃ data', MqttClient.mqttDeserializeConnectWill flags data buf curdata enddata =
      (1, data', behind) := by
  unfold mqttDeserializeConnectWill at h
  unfold MqttClient.mqttDeserializeConnectWill
  by_cases hwill : flags.will = 0
  · rw [if_pos hwill] at h ⊢
    cases h
    exact ⟨data, rfl⟩
  · rw [if_neg hwill] at h ⊢
    obtain ⟨⟨start, middle⟩, htopic, h⟩ := Option.bind_eq_some_iff.mp h
    obtain ⟨⟨start', behind'⟩, hmessage, h⟩ := Option.bind_eq_some_iff.mp h
    cases h
    rw [readMQTTLenString_of_result htopic]
    dsimp only
    rw [if_neg one_ne_zero, readMQTTLenString_of_result hmessage]
    exact ⟨_, rfl⟩

theorem mqttDeserializeConnectWill_of_stop
    (h : (mqttDeserializeConnectWill flags curdata enddata).result buf = none) :
    (MqttClient.mqttDeserializeConnectWill flags data buf curdata enddata).1 = 0 := by
  unfold mqttDeserializeConnectWill at h
  unfold MqttClient.mqttDeserializeConnectWill
  by_cases hwill : flags.will = 0
  · rw [if_pos hwill] at h
    cases h
  · rw [if_neg hwill] at h ⊢
    dsimp only
    cases htopic : (readMQTTLenString curdata enddata).result buf with
    | none =>
        rw [if_pos (readMQTTLenString_of_stop htopic _)]
    | some s =>
        obtain ⟨start, middle⟩ := s
        rw [readMQTTLenString_of_result htopic]
        dsimp only
        rw [if_neg one_ne_zero]
        cases hmessage : (readMQTTLenString middle enddata).result buf with
        | none => exact readMQTTLenString_of_stop hmessage _
        | some s' =>
            rw [Parse.result_bind, htopic, Option.bind_some, Parse.result_bind, hmessage] at h
            cases h

theorem returnCode_mqttDeserializeConnectCredentials :
    (MqttClient.mqttDeserializeConnectCredentials flags data buf curdata enddata).1 =
      returnCode ((mqttDeserializeConnectCredentials flags curdata enddata).result buf) := by
  unfold mqttDeserializeConnectCredentials MqttClient.mqttDeserializeConnectCredentials
  by_cases huser : flags.username ≠ 0
  · rw [if_pos huser, if_pos huser]
    by_cases hroom : (enddata : Int) - curdata < 3
    · rw [if_pos hroom, if_pos hroom]
      rfl
    · rw [if_neg hroom, if_neg hroom, Parse.result_bind]
      cases hname : (readMQTTLenString curdata enddata).result buf with
      | none =>
          dsimp only
          rw [if_pos (readMQTTLenString_of_stop hname _)]
          rfl
      | some s =>
          obtain ⟨start, middle⟩ := s
          rw [readMQTTLenString_of_result hname]
          dsimp only [Option.bind_some]
          rw [if_neg one_ne_zero]
          by_cases hpassword : flags.password ≠ 0
          · rw [if_pos hpassword, if_pos hpassword]
            by_cases hroom' : (enddata : Int) - middle < 3
            · rw [if_pos hroom', if_pos hroom']
              rfl
            · rw [if_neg hroom', if_neg hroom', Parse.result_bind]
              cases hsecret : (readMQTTLenString middle enddata).result buf with
              | none => exact readMQTTLenString_of_stop hsecret _
              | some s' =>
                  rw [readMQTTLenString_of_result hsecret]
                  rfl
          · rw [if_neg hpassword, if_neg hpassword]
            rfl
  · rw [if_neg huser, if_neg huser]
    by_cases hpassword : flags.password ≠ 0
    · rw [if_pos hpassword, if_pos hpassword]
      rfl
    · rw [if_neg hpassword, if_neg hpassword]
      rfl

end Connect

theorem returnCode_mqttDeserializeConnectFields (data : MQTTPacketConnectData)
    (curdata enddata : Nat) :
    (MqttClient.mqttDeserializeConnectFields data buf curdata enddata).1 =
      returnCode ((mqttDeserializeConnectFields curdata enddata).result buf) := by
  unfold mqttDeserializeConnectFields MqttClient.mqttDeserializeConnectFields
  rw [Parse.result_bind, result_readChar, Option.bind_some]
  dsimp only
  rw [Parse.result_bind, result_readInt, Option.bind_some]
  rw [Parse.result_bind]
  cases hid : (readMQTTLenString (MqttClient.readInt buf
      (MqttClient.readChar buf curdata).2).2 enddata).result buf with
  | none =>
      rw [if_pos (readMQTTLenString_of_stop hid _)]
      rfl
  | some s =>
      obtain ⟨start, behind⟩ := s
      rw [readMQTTLenString_of_result hid]
      dsimp only [Option.bind_some]
      rw [if_neg one_ne_zero, Parse.result_bind]
      cases hwill : (mqttDeserializeConnectWill (MQTTConnectFlags.ofByte
          (toUnsignedChar (MqttClient.readChar buf curdata).1)) behind enddata).result buf with
      | none =>
          rw [if_pos (mqttDeserializeConnectWill_of_stop _ _ _ _ hwill)]
          rfl
      | some behind' =>
          obtain ⟨data', hdata⟩ := mqttDeserializeConnectWill_of_result _
            { data with
              cleansession := UInt8.ofNat (MQTTConnectFlags.ofByte
                (toUnsignedChar (MqttClient.readChar buf curdata).1)).cleansession
              keepAliveInterval := UInt16.ofNat (MqttClient.readInt buf
                (MqttClient.readChar buf curdata).2).1
              clientID := span buf start behind
              willFlag := UInt8.ofNat (MQTTConnectFlags.ofByte
                (toUnsignedChar (MqttClient.readChar buf curdata).1)).will } _ _ hwill
          rw [hdata]
          dsimp only [Option.bind_some]
          rw [if_neg one_ne_zero]
          exact returnCode_mqttDeserializeConnectCredentials _ _ _ _

/-- The examined code ends with a result exactly where the code returns 1, and the code
returns 0 otherwise. -/
theorem returnCode_mqttDeserializeConnect (data : MQTTPacketConnectData) (len : Nat) :
    (MqttClient.mqttDeserializeConnect data buf len).1 =
      returnCode ((mqttDeserializeConnect len).result buf) := by
  unfold mqttDeserializeConnect MqttClient.mqttDeserializeConnect
  rw [Parse.result_bind, result_readChar, Option.bind_some]
  dsimp only
  by_cases htype : (MQTTHeader.ofByte (toUnsignedChar (MqttClient.readChar buf 0).1)).type ≠
      MsgType.connect.code
  · rw [if_pos htype, if_pos htype]
    rfl
  rw [if_neg htype, if_neg htype, Parse.result_bind, result_mqttPacketDecodeBuf,
    Option.bind_some, Parse.result_bind]
  cases hname : (readMQTTLenString ((MqttClient.readChar buf 0).2 +
      (MqttClient.mqttPacketDecodeBuf (buf.shift (MqttClient.readChar buf 0).2)).1) len).result
      buf with
  | none =>
      rw [if_pos (.inl (readMQTTLenString_of_stop hname _))]
      rfl
  | some s =>
      obtain ⟨start, behind⟩ := s
      rw [readMQTTLenString_of_result hname]
      dsimp only [Option.bind_some]
      by_cases hend : (len : Int) - behind < 0
      · rw [if_pos (.inr hend), if_pos hend]
        rfl
      · rw [if_neg (fun h => h.elim one_ne_zero hend), if_neg hend, mqttDeserializeConnectLevel,
          Parse.result_bind, result_readChar, Option.bind_some]
        rw [Parse.result_bind, result_mqttPacketCheckVersion, Option.bind_some]
        by_cases hversion : MqttClient.mqttPacketCheckVersion (span buf start behind)
            (MqttClient.readChar buf behind).1 = true
        · rw [if_pos hversion, if_pos hversion]
          exact returnCode_mqttDeserializeConnectFields _ _ _
        · rw [if_neg hversion, if_neg hversion]
          rfl

end Examine

end MqttClient

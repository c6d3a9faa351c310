/-
# Which bytes `MQTTDeserialize_connect` may be given

Whether the parser keeps within the bytes it was given, and whether what it accepts is
a CONNECT of one of the two protocols, is decided by these bytes.  They are described
here as a list, part by part: header, length field, protocol name, level, flags and
interval, strings.  The parser is followed along the list.

It leaves the bytes where it does not compare the pointer with their end: at the
header, within the length field, at the level, and at flags and interval.  The
comparison of the name ends with the shorter of the two names, so every beginning of a
right name is taken for it, and everything that begins with one.
-/

import MqttClient.Packet.ConnectExamined

namespace MqttClient

open Semantics

/-! ## What stands in the bytes -/

/-- The bytes `rest` are what the `len` bytes of the buffer hold from `ptr` on. -/
structure Stands (buf : Memory) (len ptr : Nat) (rest : List UInt8) : Prop where
  hasAt : buf.HasAt ptr rest
  length_eq : rest.length = len - ptr

namespace Stands

variable {buf : Memory} {len ptr : Nat} {rest : List UInt8}

theorem all (buf : Memory) (len : Nat) : Stands buf len 0 (buf.load 0 len) where
  hasAt := congrArg (buf.load 0) (buf.load_length 0 len)
  length_eq := buf.load_length 0 len

theorem drop (h : Stands buf len ptr rest) (n : Nat) : Stands buf len (ptr + n) (rest.drop n) where
  hasAt := h.hasAt.drop n
  length_eq := by
    rw [List.length_drop, h.length_eq]
    omega

theorem tail {b : UInt8} (h : Stands buf len ptr (b :: rest)) : Stands buf len (ptr + 1) rest :=
  h.drop 1

theorem head {b : UInt8} (h : Stands buf len ptr (b :: rest)) : buf ptr = b :=
  (Memory.hasAt_cons.mp h.hasAt).1

theorem lt_iff (h : Stands buf len ptr rest) : ptr < len ↔ rest ≠ [] := by
  rw [← List.length_pos_iff, h.length_eq]
  omega

end Stands

/-- How far the length field moves the pointer, or `none` where the bytes end within it.
Behind four bytes that all announce another one, one more is skipped unseen. -/
def fieldSpan? : (left : Nat) → List UInt8 → Option Nat
  | 0, _ => some 1
  | _ + 1, [] => none
  | left + 1, b :: rest => if b.toNat < 128 then some 1 else (fieldSpan? left rest).map (· + 1)

/-- The string at the front of the bytes and what follows it, if all of it is there. -/
def splitString? (rest : List UInt8) : Option (List UInt8 × List UInt8) :=
  (leadingInt? rest).bind fun n =>
    if 2 + n ≤ rest.length then some ((rest.drop 2).take n, rest.drop (2 + n)) else none

/-- What follows the string at the front. -/
def skipString? (rest : List UInt8) : Option (List UInt8) := (splitString? rest).map Prod.snd

/-- What follows the will, which is there only if announced. -/
def skipWill? (flags : MQTTConnectFlags) (rest : List UInt8) : Option (List UInt8) :=
  if flags.will = 0 then some rest else (skipString? rest).bind skipString?

/-- User name and password as they are accepted: the user name comes first, and in front
of either there are three bytes left. -/
def credentialsAccepted (flags : MQTTConnectFlags) (rest : List UInt8) : Bool :=
  if flags.username = 0 then flags.password = 0
  else
    3 ≤ rest.length && (skipString? rest).any fun rest =>
      flags.password = 0 || (3 ≤ rest.length && (skipString? rest).isSome)

/-- Client identifier, will and credentials as they are accepted. -/
def stringsAccepted (flags : MQTTConnectFlags) (rest : List UInt8) : Bool :=
  ((skipString? rest).bind (skipWill? flags)).any (credentialsAccepted flags)

/-- The comparison of `MQTTPacket_checkVersion`, which ends with the shorter of the two
names. -/
def nameTaken (name : List UInt8) (version : UInt8) : Bool :=
  (version = 3 && (name <+: mqIsdpProtocolName.bytes || mqIsdpProtocolName.bytes <+: name)) ||
  (version = 4 && (name <+: mqttProtocolName.bytes || mqttProtocolName.bytes <+: name))

/-- A protocol name and its level, as they are assigned. -/
def nameExact (name : List UInt8) (version : UInt8) : Bool :=
  (version = 3 && name = mqIsdpProtocolName.bytes) || (version = 4 && name = mqttProtocolName.bytes)

/-! ### The bytes that are examined within their end

Whether the parser keeps within the bytes and accepts none but a right name is seen from
the bytes alone. -/

/-- Behind the level: flags and interval are there, and a wrong name is not followed by
strings that are all accepted. -/
def fieldsExaminable (exact : Bool) : List UInt8 → Bool
  | flags :: _ :: _ :: rest => exact || !stringsAccepted (MQTTConnectFlags.ofByte flags) rest
  | _ => false

/-- Behind the name: the level is there. -/
def levelExaminable (name : List UInt8) : List UInt8 → Bool
  | [] => false
  | version :: rest =>
      !nameTaken name version || fieldsExaminable (nameExact name version) rest

/-- Behind the length field. -/
def protocolExaminable (body : List UInt8) : Bool :=
  (splitString? body).all fun s => levelExaminable s.1 s.2

/-- The whole packet: the header is there and, if it is a CONNECT, the length field. -/
def connectExaminable : List UInt8 → Bool
  | [] => false
  | header :: rest =>
      (MQTTHeader.ofByte header).type ≠ MsgType.connect.code ||
        (fieldSpan? 4 rest).any fun n => protocolExaminable (rest.drop n)

/-! ## The parser on the bytes -/

namespace Examine

variable {buf : Memory} {len ptr : Nat} {rest : List UInt8}

theorem within_readChar : (readChar ptr).Within buf (· < len) ↔ ptr < len := by
  rw [readChar, Parse.within_bind_of_some rfl, Parse.within_peek]
  exact and_iff_left (Parse.within_pure _)

theorem within_readInt : (readInt ptr).Within buf (· < len) ↔ ptr + 1 < len := by
  rw [readInt, Parse.within_bind_of_some rfl, Parse.within_bind_of_some rfl, Parse.within_peek,
    Parse.within_peek, and_iff_left (Parse.within_pure _)]
  omega

/-- Strings are read within the end of the data. -/
theorem within_readMQTTLenString : (readMQTTLenString ptr len).Within buf (· < len) := by
  unfold readMQTTLenString
  split
  · rw [Parse.within_bind_of_some (result_readInt ptr), within_readInt]
    refine ⟨by omega, ?_⟩
    dsimp only
    split
    · exact Parse.within_pure _
    · exact Parse.within_stop
  · exact Parse.within_stop

theorem result_readMQTTLenString (h : Stands buf len ptr rest) :
    (readMQTTLenString ptr len).result buf =
      (splitString? rest).map fun s => (ptr + 2, ptr + 2 + s.1.length) := by
  have hlength := h.length_eq
  unfold readMQTTLenString splitString?
  cases hlead : leadingInt? rest with
  | none =>
      have hshort := leadingInt?_eq_none_iff.mp hlead
      rw [if_neg (by omega)]
      rfl
  | some n =>
      have hlong : ¬ rest.length < 2 := by
        rw [← leadingInt?_eq_none_iff, hlead]
        exact fun hnone => by cases hnone
      rw [if_pos (by omega), Parse.result_bind, result_readInt,
        readInt_of_leadingInt? h.hasAt hlead, Option.bind_some, Option.bind_some]
      dsimp only
      by_cases hfits : 2 + n ≤ rest.length
      · rw [if_pos hfits, if_pos (by omega), Option.map_some, List.length_take, List.length_drop,
          Nat.min_eq_left (by omega)]
        rfl
      · rw [if_neg hfits, if_neg (by omega)]
        rfl

/-- The name read, and what stands behind it. -/
theorem splitString?_stands (h : Stands buf len ptr rest) {name behind : List UInt8}
    (hsplit : splitString? rest = some (name, behind)) :
    buf.HasAt (ptr + 2) name ∧ ptr + 2 + name.length ≤ len ∧
      Stands buf len (ptr + 2 + name.length) behind := by
  obtain ⟨n, hlead, hif⟩ := Option.bind_eq_some_iff.mp hsplit
  rw [Option.ite_none_right_eq_some, Option.some.injEq, Prod.mk.injEq] at hif
  obtain ⟨hfits, rfl, rfl⟩ := hif
  have hlength : ((rest.drop 2).take n).length = n := by
    rw [List.length_take, List.length_drop]
    omega
  have hstands := h.length_eq
  refine ⟨?_, by omega, ?_⟩
  · have hat := h.hasAt.drop 2
    rw [← List.take_append_drop n (rest.drop 2)] at hat
    exact (Memory.hasAt_append.mp hat).1
  · rw [hlength, Nat.add_assoc]
    exact h.drop (2 + n)

theorem skipString?_stands (h : Stands buf len ptr rest) {behind : List UInt8}
    (hskip : skipString? rest = some behind) :
    ∃ start ptr', (readMQTTLenString ptr len).result buf = some (start, ptr') ∧
      Stands buf len ptr' behind := by
  obtain ⟨⟨name, behind'⟩, hsplit, rfl⟩ := Option.map_eq_some_iff.mp hskip
  refine ⟨ptr + 2, ptr + 2 + name.length, ?_, (splitString?_stands h hsplit).2.2⟩
  rw [result_readMQTTLenString h, hsplit]
  rfl

theorem skipString?_stop (h : Stands buf len ptr rest) (hskip : skipString? rest = none) :
    (readMQTTLenString ptr len).result buf = none := by
  rw [result_readMQTTLenString h, Option.map_eq_none_iff]
  exact Option.map_eq_none_iff.mp hskip

/-! ### The length field -/

theorem decodeLoop_stands :
    ∀ (left : Nat) {rest : List UInt8} (n value multiplier : Nat) {ptr : Nat},
      Stands buf len ptr rest →
      (((decodeLoop bufchar left n value multiplier).run ptr).Within buf (· < len) ↔
          (fieldSpan? left rest).isSome) ∧
        ∀ k, fieldSpan? left rest = some k →
          ∃ r, ((decodeLoop bufchar left n value multiplier).run ptr).result buf = some r ∧
            r.1.1 = n + k := by
  intro left
  induction left with
  | zero =>
      intro rest n value multiplier ptr _
      refine ⟨iff_of_true (Parse.within_pure _) rfl, fun k hk => ?_⟩
      cases hk
      exact ⟨_, rfl, rfl⟩
  | succ left ih =>
      intro rest n value multiplier ptr h
      have hcont := and_128_ne_zero_iff (buf ptr)
      rw [within_decodeLoop_succ, decodeLoop_succ]
      cases rest with
      | nil =>
          have hend : ¬ ptr < len := fun hlt => h.lt_iff.mp hlt rfl
          exact ⟨iff_of_false (fun hin => hend hin.1) Bool.false_ne_true, fun k hk => by cases hk⟩
      | cons b rest =>
          have hlt : ptr < len := h.lt_iff.mpr (List.cons_ne_nil b rest)
          rw [h.head] at hcont ⊢
          rw [fieldSpan?]
          by_cases hlast : b.toNat < 128
          · have hstop : ¬ b &&& 128 ≠ 0 := fun hne => absurd (hcont.mp hne) (Nat.not_le.mpr hlast)
            rw [if_pos hlast, if_neg hstop]
            refine ⟨iff_of_true ⟨hlt, fun hne => absurd hne hstop⟩ rfl, fun k hk => ?_⟩
            cases hk
            exact ⟨_, rfl, rfl⟩
          · have hge : b &&& 128 ≠ 0 := hcont.mpr (Nat.not_lt.mp hlast)
            obtain ⟨hin, hvalue⟩ := ih (n + 1) (value + (b &&& 127).toNat * multiplier)
              (multiplier * 128) h.tail
            rw [if_neg hlast, if_pos hge, Option.isSome_map]
            refine ⟨⟨fun hw => hin.mp (hw.2 hge), fun hs => ⟨hlt, fun _ => hin.mpr hs⟩⟩, ?_⟩
            intro k hk
            obtain ⟨k', hk', rfl⟩ := Option.map_eq_some_iff.mp hk
            obtain ⟨r, hr, hlen⟩ := hvalue k' hk'
            exact ⟨r, hr, by omega⟩

theorem within_mqttPacketDecodeBuf (h : Stands buf len ptr rest) :
    (mqttPacketDecodeBuf ptr).Within buf (· < len) ↔ (fieldSpan? 4 rest).isSome := by
  rw [← (decodeLoop_stands 4 0 0 1 h).1, mqttPacketDecodeBuf, Parse.within_bind]
  exact and_iff_left fun _ _ => Parse.within_pure _

theorem result_mqttPacketDecodeBuf_of_span (h : Stands buf len ptr rest) {k : Nat}
    (hk : fieldSpan? 4 rest = some k) : (mqttPacketDecodeBuf ptr).result buf = some k := by
  obtain ⟨r, hr, hlen⟩ := (decodeLoop_stands 4 0 0 1 h).2 k hk
  show (((decodeLoop bufchar 4 0 0 1).run ptr).result buf).bind _ = _
  rw [hr, Option.bind_some]
  exact congrArg some (hlen.trans (Nat.zero_add k))

/-! ### Name and level -/

/-- The comparison up to the end of the shorter list. -/
theorem take_min_eq_iff {first second : List UInt8} :
    first.take (min second.length first.length) = second.take (min second.length first.length) ↔
      first <+: second ∨ second <+: first := by
  rcases Nat.le_total first.length second.length with hle | hle
  · rw [Nat.min_eq_right hle, List.take_length, ← List.prefix_iff_eq_take]
    refine ⟨.inl, fun h => h.elim id fun hother => ?_⟩
    exact hother.eq_of_length_le hle ▸ List.prefix_refl _
  · rw [Nat.min_eq_left hle, List.take_length, eq_comm, ← List.prefix_iff_eq_take]
    refine ⟨.inr, fun h => h.elim (fun hother => ?_) id⟩
    exact hother.eq_of_length_le hle ▸ List.prefix_refl _

theorem startsLike_span {start : Nat} {name : List UInt8} (hat : buf.HasAt start name)
    (expected : CString) :
    (span buf start (start + name.length)).startsLike expected =
      (name <+: expected.bytes || expected.bytes <+: name) := by
  have hmin : (min (expected.bytes.length : Int)
      ((start + name.length - start : Nat) : Int)).toNat =
        min expected.bytes.length name.length := by omega
  have hload : buf.load start (min expected.bytes.length name.length) =
      name.take (min expected.bytes.length name.length) :=
    hat.load_take (Nat.min_le_right _ _)
  rw [Bool.eq_iff_iff, Bool.or_eq_true, decide_eq_true_iff, decide_eq_true_iff,
    ← take_min_eq_iff]
  simp only [MQTTString.startsLike, span, hmin, Pointer.deref_into, Memory.load_shift,
    Nat.add_zero, hload, beq_iff_eq]

theorem mqttPacketCheckVersion_span {start : Nat} {name : List UInt8} (hat : buf.HasAt start name)
    (version : UInt8) :
    MqttClient.mqttPacketCheckVersion (span buf start (start + name.length)) (toChar version) =
      nameTaken name version := by
  have hthree : toChar version = 3 ↔ version = 3 := toChar_eq_iff (by decide)
  have hfour : toChar version = 4 ↔ version = 4 := toChar_eq_iff (by decide)
  rw [MqttClient.mqttPacketCheckVersion, startsLike_span hat, startsLike_span hat, nameTaken]
  simp only [hthree, hfour]
  by_cases h : version = 3
  · subst h
    simp
  · simp [h]

theorem within_mqttPacketCheckVersion {start behind : Nat} (hend : behind ≤ len) (version : Int) :
    (mqttPacketCheckVersion start behind version).Within buf (· < len) := by
  have hname : ∀ name : CString, (startsLike start behind name).Within buf (· < len) := by
    intro name
    rw [startsLike, Parse.within_bind_of_some rfl, Parse.within_peekAll]
    refine ⟨fun i hi => ?_, Parse.within_pure _⟩
    obtain ⟨k, hk, rfl⟩ := List.mem_map.mp hi
    rw [List.mem_range] at hk
    omega
  unfold mqttPacketCheckVersion
  split
  · exact hname _
  · split
    · exact hname _
    · exact Parse.within_pure _

/-! ### The fields behind the level -/

section Fields

variable (flags : MQTTConnectFlags)

theorem within_mqttDeserializeConnectWill :
    (mqttDeserializeConnectWill flags ptr len).Within buf (· < len) := by
  unfold mqttDeserializeConnectWill
  split
  · exact Parse.within_pure _
  · refine Parse.within_bind.mpr ⟨within_readMQTTLenString, fun s _ => ?_⟩
    exact Parse.within_bind.mpr ⟨within_readMQTTLenString, fun s _ => Parse.within_pure _⟩

theorem within_mqttDeserializeConnectCredentials :
    (mqttDeserializeConnectCredentials flags ptr len).Within buf (· < len) := by
  unfold mqttDeserializeConnectCredentials
  split
  · split
    · exact Parse.within_stop
    · refine Parse.within_bind.mpr ⟨within_readMQTTLenString, fun s _ => ?_⟩
      dsimp only
      split
      · split
        · exact Parse.within_stop
        · exact Parse.within_bind.mpr ⟨within_readMQTTLenString, fun _ _ => Parse.within_pure _⟩
      · exact Parse.within_pure _
  · split
    · exact Parse.within_stop
    · exact Parse.within_pure _

theorem skipWill?_stands (h : Stands buf len ptr rest) {behind : List UInt8}
    (hskip : skipWill? flags rest = some behind) :
    ∃ ptr', (mqttDeserializeConnectWill flags ptr len).result buf = some ptr' ∧
      Stands buf len ptr' behind := by
  unfold skipWill? at hskip
  unfold mqttDeserializeConnectWill
  by_cases hwill : flags.will = 0
  · rw [if_pos hwill] at hskip ⊢
    cases hskip
    exact ⟨ptr, rfl, h⟩
  · rw [if_neg hwill] at hskip ⊢
    obtain ⟨middle, htopic, hmessage⟩ := Option.bind_eq_some_iff.mp hskip
    obtain ⟨start, ptr', hread, h'⟩ := skipString?_stands h htopic
    obtain ⟨start', ptr'', hread', h''⟩ := skipString?_stands h' hmessage
    refine ⟨ptr'', ?_, h''⟩
    rw [Parse.result_bind, hread, Option.bind_some, Parse.result_bind, hread']
    rfl

theorem skipWill?_stop (h : Stands buf len ptr rest) (hskip : skipWill? flags rest = none) :
    (mqttDeserializeConnectWill flags ptr len).result buf = none := by
  unfold skipWill? at hskip
  unfold mqttDeserializeConnectWill
  by_cases hwill : flags.will = 0
  · rw [if_pos hwill] at hskip
    cases hskip
  · rw [if_neg hwill] at hskip ⊢
    rw [Parse.result_bind]
    cases htopic : skipString? rest with
    | none =>
        rw [skipString?_stop h htopic]
        rfl
    | some middle =>
        obtain ⟨start, ptr', hread, h'⟩ := skipString?_stands h htopic
        rw [htopic, Option.bind_some] at hskip
        rw [hread, Option.bind_some, Parse.result_bind, skipString?_stop h' hskip]
        rfl

theorem isSome_mqttDeserializeConnectCredentials (h : Stands buf len ptr rest) :
    ((mqttDeserializeConnectCredentials flags ptr len).result buf).isSome =
      credentialsAccepted flags rest := by
  have hlength := h.length_eq
  unfold mqttDeserializeConnectCredentials credentialsAccepted
  by_cases huser : flags.username = 0
  · rw [if_neg (not_not.mpr huser), if_pos huser]
    by_cases hpassword : flags.password = 0
    · rw [if_neg (not_not.mpr hpassword), decide_eq_true hpassword]
      rfl
    · rw [if_pos hpassword, decide_eq_false hpassword]
      rfl
  · rw [if_pos huser, if_neg huser]
    by_cases hroom : 3 ≤ rest.length
    · rw [if_neg (by omega), decide_eq_true hroom, Bool.true_and, Parse.result_bind]
      cases hname : skipString? rest with
      | none =>
          rw [skipString?_stop h hname]
          rfl
      | some middle =>
          obtain ⟨start, ptr', hread, h'⟩ := skipString?_stands h hname
          have hlength' := h'.length_eq
          rw [hread, Option.bind_some, Option.any_some]
          dsimp only
          by_cases hpassword : flags.password = 0
          · rw [if_neg (not_not.mpr hpassword), decide_eq_true hpassword, Bool.true_or]
            rfl
          · rw [if_pos hpassword, decide_eq_false hpassword, Bool.false_or]
            by_cases hroom' : 3 ≤ middle.length
            · rw [if_neg (by omega), decide_eq_true hroom', Bool.true_and, Parse.result_bind]
              cases hsecret : skipString? middle with
              | none =>
                  rw [skipString?_stop h' hsecret]
                  rfl
              | some behind =>
                  obtain ⟨start', ptr'', hread', _⟩ := skipString?_stands h' hsecret
                  rw [hread']
                  rfl
            · rw [if_pos (by omega), decide_eq_false hroom', Bool.false_and]
              rfl
    · rw [if_pos (by omega), decide_eq_false hroom, Bool.false_and]
      rfl

end Fields

theorem within_mqttDeserializeConnectFields (h : Stands buf len ptr rest) :
    (mqttDeserializeConnectFields ptr len).Within buf (· < len) ↔ 3 ≤ rest.length := by
  have hlength := h.length_eq
  rw [mqttDeserializeConnectFields, Parse.within_bind_of_some (result_readChar ptr),
    within_readChar]
  dsimp only
  rw [Parse.within_bind_of_some (result_readInt _), within_readInt]
  refine (and_congr_right fun _ => and_iff_left ?_).trans ?_
  · -- everything behind flags and interval is a string
    refine Parse.within_bind.mpr ⟨within_readMQTTLenString, fun _ _ => ?_⟩
    exact Parse.within_bind.mpr ⟨within_mqttDeserializeConnectWill _,
      fun _ _ => within_mqttDeserializeConnectCredentials _⟩
  · show ptr < len ∧ ptr + 1 + 1 < len ↔ _
    omega

theorem isSome_mqttDeserializeConnectFields {flags hi lo : UInt8}
    (h : Stands buf len ptr (flags :: hi :: lo :: rest)) :
    ((mqttDeserializeConnectFields ptr len).result buf).isSome =
      stringsAccepted (MQTTConnectFlags.ofByte flags) rest := by
  have hstrings : Stands buf len (ptr + 3) rest := h.drop 3
  have hflags : toUnsignedChar (toChar (buf ptr)) = flags := by
    rw [toUnsignedChar_toChar, h.head]
  rw [mqttDeserializeConnectFields, Parse.result_bind, result_readChar, Option.bind_some]
  dsimp only [MqttClient.readChar]
  rw [hflags, Parse.result_bind, result_readInt, Option.bind_some, Parse.result_bind]
  dsimp only [MqttClient.readInt]
  unfold stringsAccepted
  cases hid : skipString? rest with
  | none =>
      rw [skipString?_stop hstrings hid]
      rfl
  | some middle =>
      obtain ⟨start, ptr', hread, h'⟩ := skipString?_stands hstrings hid
      rw [hread, Option.bind_some, Option.bind_some, Parse.result_bind]
      cases hwill : skipWill? (MQTTConnectFlags.ofByte flags) middle with
      | none =>
          rw [skipWill?_stop _ h' hwill]
          rfl
      | some behind =>
          obtain ⟨ptr'', hread', h''⟩ := skipWill?_stands _ h' hwill
          rw [hread', Option.bind_some, Option.any_some]
          exact isSome_mqttDeserializeConnectCredentials _ h''

end Examine

/-! ## A checked CONNECT -/

/-- That many strings stand one behind the other at the front of the bytes. -/
def stringsFit : (count : Nat) → List UInt8 → Bool
  | 0, _ => true
  | count + 1, rest => (skipString? rest).any (stringsFit count)

/-- The number of strings that the flags announce, the client identifier among them. -/
def announcedStrings (flags : MQTTConnectFlags) : Nat :=
  (if flags.password = 0 then 0 else 1) + (if flags.username = 0 then 0 else 1) +
    (if flags.will = 0 then 0 else 2) + 1

/-- Behind the name stand its level, the flags, the keep-alive interval and every announced
string. -/
def LevelWellFormed (name rest : List UInt8) : Prop :=
  ∃ version flags hi lo strings, rest = version :: flags :: hi :: lo :: strings ∧
    nameExact name version = true ∧
    stringsFit (announcedStrings (MQTTConnectFlags.ofByte flags)) strings = true

/-- Header and length field, one of the two names, and what belongs behind it. -/
def ConnectWellFormed (bytes : List UInt8) : Prop :=
  ∃ header rest n name behind, bytes = header :: rest ∧ fieldSpan? 4 rest = some n ∧
    splitString? (rest.drop n) = some (name, behind) ∧ LevelWellFormed name behind

/-- On the first `len` bytes of the buffer `MQTTDeserialize_connect` looks at no byte
behind them, and it returns 1 only for a well-formed packet. -/
structure ConnectIsChecked (data : MQTTPacketConnectData) (buf : Memory) (len : Nat) : Prop where
  inside : (Examine.mqttDeserializeConnect len).Within buf (· < len)
  accepts : (mqttDeserializeConnect data buf len).1 = 1 → ConnectWellFormed (buf.load 0 len)

theorem stringsFit_succ {rest behind : List UInt8} (h : skipString? rest = some behind)
    (count : Nat) : stringsFit (count + 1) rest = stringsFit count behind := by
  rw [stringsFit, h, Option.any_some]

/-- What is accepted has every announced string. -/
theorem stringsFit_of_stringsAccepted {flags : MQTTConnectFlags} {rest : List UInt8}
    (h : stringsAccepted flags rest = true) : stringsFit (announcedStrings flags) rest = true := by
  obtain ⟨behind, hskip, hcredentials⟩ := (Option.any_eq_true _ _).mp h
  obtain ⟨middle, hid, hwill⟩ := Option.bind_eq_some_iff.mp hskip
  have hlast : stringsFit ((if flags.password = 0 then 0 else 1) +
      (if flags.username = 0 then 0 else 1)) behind = true := by
    unfold credentialsAccepted at hcredentials
    by_cases huser : flags.username = 0
    · rw [if_pos huser, decide_eq_true_eq] at hcredentials
      rw [if_pos huser, if_pos hcredentials]
      rfl
    · rw [if_neg huser, Bool.and_eq_true] at hcredentials
      obtain ⟨next, hname, hpassword⟩ := (Option.any_eq_true _ _).mp hcredentials.2
      rw [if_neg huser, stringsFit_succ hname]
      split
      · rfl
      · rename_i hflag
        rw [decide_eq_false hflag, Bool.false_or, Bool.and_eq_true] at hpassword
        obtain ⟨last, hsecret⟩ := Option.isSome_iff_exists.mp hpassword.2
        exact stringsFit_succ hsecret 0
  rw [announcedStrings, stringsFit_succ hid]
  unfold skipWill? at hwill
  by_cases hflag : flags.will = 0
  · rw [if_pos hflag] at hwill ⊢
    cases hwill
    exact hlast
  · rw [if_neg hflag] at hwill ⊢
    obtain ⟨topic, htopic, hmessage⟩ := Option.bind_eq_some_iff.mp hwill
    rw [stringsFit_succ htopic, stringsFit_succ hmessage]
    exact hlast

section Level

variable {buf : Memory} {len start : Nat} {name rest : List UInt8} (hat : buf.HasAt start name)

include hat

theorem Examine.within_level {version : UInt8}
    (h : Stands buf len (start + name.length) (version :: rest)) :
    (mqttDeserializeConnectLevel start (start + name.length) len).Within buf (· < len) ↔
      (nameTaken name version = true → 3 ≤ rest.length) := by
  have hlt : start + name.length < len := h.lt_iff.mpr (List.cons_ne_nil version rest)
  have hversion : MqttClient.readChar buf (start + name.length) =
      (toChar version, start + name.length + 1) := by
    rw [MqttClient.readChar, h.head]
  rw [mqttDeserializeConnectLevel, Parse.within_bind_of_some (result_readChar _), within_readChar,
    and_iff_right hlt, hversion]
  dsimp only
  rw [Parse.within_bind_of_some (result_mqttPacketCheckVersion _ _ _),
    and_iff_right (within_mqttPacketCheckVersion hlt.le _), mqttPacketCheckVersion_span hat]
  by_cases htaken : nameTaken name version = true
  · rw [if_pos htaken, within_mqttDeserializeConnectFields h.tail]
    exact ⟨fun hin _ => hin, fun hin => hin htaken⟩
  · rw [if_neg htaken]
    exact iff_of_true Parse.within_stop fun htaken' => absurd htaken' htaken

theorem Examine.isSome_level {version : UInt8}
    (h : Stands buf len (start + name.length) (version :: rest)) :
    ((mqttDeserializeConnectLevel start (start + name.length) len).result buf).isSome =
      (nameTaken name version &&
        ((mqttDeserializeConnectFields (start + name.length + 1) len).result buf).isSome) := by
  have hversion : MqttClient.readChar buf (start + name.length) =
      (toChar version, start + name.length + 1) := by
    rw [MqttClient.readChar, h.head]
  rw [mqttDeserializeConnectLevel, Parse.result_bind, result_readChar, Option.bind_some, hversion]
  dsimp only
  rw [Parse.result_bind, result_mqttPacketCheckVersion, Option.bind_some,
    mqttPacketCheckVersion_span hat]
  cases nameTaken name version <;> rfl

/-- Behind the name, the parser keeps within the bytes and takes no wrong name exactly if
the bytes are of that kind. -/
theorem levelExaminable_iff (h : Stands buf len (start + name.length) rest) :
    ((Examine.mqttDeserializeConnectLevel start (start + name.length) len).Within buf (· < len) ∧
        (((Examine.mqttDeserializeConnectLevel start (start + name.length) len).result
          buf).isSome = true → LevelWellFormed name rest)) ↔
      levelExaminable name rest = true := by
  cases rest with
  | nil =>
      have hend : ¬ start + name.length < len := fun hlt => h.lt_iff.mp hlt rfl
      refine iff_of_false (fun hin => hend ?_) Bool.false_ne_true
      rw [Examine.mqttDeserializeConnectLevel, Parse.within_bind, Examine.within_readChar] at hin
      exact hin.1.1
  | cons version rest =>
      rw [Examine.within_level hat h, Examine.isSome_level hat h, levelExaminable]
      by_cases htaken : nameTaken name version = true
      swap
      · rw [Bool.eq_false_iff.mpr htaken]
        exact iff_of_true ⟨fun hf => absurd hf Bool.false_ne_true, fun hf => absurd hf
          Bool.false_ne_true⟩ rfl
      rw [htaken, Bool.true_and]
      show _ ↔ fieldsExaminable (nameExact name version) rest = true
      rcases rest with _ | ⟨flags, _ | ⟨hi, _ | ⟨lo, strings⟩⟩⟩
      · exact iff_of_false (fun hin => absurd (hin.1 rfl) (show ¬ 3 ≤ 0 by decide))
          Bool.false_ne_true
      · exact iff_of_false (fun hin => absurd (hin.1 rfl) (show ¬ 3 ≤ 1 by decide))
          Bool.false_ne_true
      · exact iff_of_false (fun hin => absurd (hin.1 rfl) (show ¬ 3 ≤ 2 by decide))
          Bool.false_ne_true
      · rw [Examine.isSome_mqttDeserializeConnectFields h.tail, fieldsExaminable, Bool.or_eq_true,
          Bool.not_eq_true', and_iff_right (fun _ => by simp)]
        constructor
        · intro hwell
          by_cases haccepted : stringsAccepted (MQTTConnectFlags.ofByte flags) strings = true
          · obtain ⟨version', _, _, _, _, heq, hexact, _⟩ := hwell haccepted
            cases heq
            exact .inl hexact
          · exact .inr (Bool.eq_false_iff.mpr haccepted)
        · intro hor haccepted
          have hexact := hor.resolve_right (by rw [haccepted]; decide)
          exact ⟨version, flags, hi, lo, strings, rfl, hexact,
            stringsFit_of_stringsAccepted haccepted⟩

end Level

/-- The parts of a well-formed packet are found where they are looked for. -/
theorem connectWellFormed_iff {header : UInt8} {rest name behind : List UInt8} {n : Nat}
    (hspan : fieldSpan? 4 rest = some n)
    (hsplit : splitString? (rest.drop n) = some (name, behind)) :
    ConnectWellFormed (header :: rest) ↔ LevelWellFormed name behind := by
  constructor
  · rintro ⟨header', rest', n', name', behind', heq, hspan', hsplit', hlevel⟩
    cases heq
    rw [hspan, Option.some.injEq] at hspan'
    subst hspan'
    rw [hsplit, Option.some.injEq, Prod.mk.injEq] at hsplit'
    obtain ⟨rfl, rfl⟩ := hsplit'
    exact hlevel
  · exact fun hlevel => ⟨header, rest, n, name, behind, rfl, hspan, hsplit, hlevel⟩

/-- The check in terms of the parser that records what it examines. -/
theorem connectIsChecked_iff_examine (data : MQTTPacketConnectData) (buf : Memory) (len : Nat) :
    ConnectIsChecked data buf len ↔
      (Examine.mqttDeserializeConnect len).Within buf (· < len) ∧
        (((Examine.mqttDeserializeConnect len).result buf).isSome = true →
          ConnectWellFormed (buf.load 0 len)) := by
  have hrc : (mqttDeserializeConnect data buf len).1 = 1 ↔
      ((Examine.mqttDeserializeConnect len).result buf).isSome = true := by
    rw [Examine.returnCode_mqttDeserializeConnect]
    cases (Examine.mqttDeserializeConnect len).result buf with
    | none => exact iff_of_false (by decide) Bool.false_ne_true
    | some _ => exact iff_of_true rfl rfl
  exact ⟨fun h => ⟨h.inside, fun hsome => h.accepts (hrc.mpr hsome)⟩,
    fun h => ⟨h.1, fun hone => h.2 (hrc.mp hone)⟩⟩

/-- `MQTTDeserialize_connect` is checked on a buffer exactly if its bytes are of the kind
that needs no check where there is none. -/
theorem connectIsChecked_iff (data : MQTTPacketConnectData) (buf : Memory) (len : Nat) :
    ConnectIsChecked data buf len ↔ connectExaminable (buf.load 0 len) = true := by
  have hstands := Stands.all buf len
  rw [connectIsChecked_iff_examine, Examine.mqttDeserializeConnect,
    Parse.within_bind_of_some (Examine.result_readChar 0), Examine.within_readChar,
    Parse.result_bind, Examine.result_readChar, Option.bind_some]
  generalize buf.load 0 len = bytes at hstands
  cases bytes with
  | nil =>
      have hend : ¬ 0 < len := fun hlt => hstands.lt_iff.mp hlt rfl
      exact iff_of_false (fun h => hend h.1.1) Bool.false_ne_true
  | cons header rest =>
      have hlt : 0 < len := hstands.lt_iff.mpr (List.cons_ne_nil header rest)
      have hread : readChar buf 0 = (toChar header, 1) := by
        rw [readChar, hstands.head]
      rw [and_iff_right hlt, hread]
      dsimp only
      rw [toUnsignedChar_toChar, connectExaminable]
      by_cases htype : (MQTTHeader.ofByte header).type ≠ MsgType.connect.code
      · rw [if_pos htype, decide_eq_true htype, Bool.true_or]
        exact iff_of_true ⟨Parse.within_stop, fun hsome => absurd hsome Bool.false_ne_true⟩ rfl
      rw [if_neg htype, decide_eq_false htype, Bool.false_or]
      have hfield := Examine.within_mqttPacketDecodeBuf hstands.tail
      cases hspan : fieldSpan? 4 rest with
      | none =>
          rw [hspan] at hfield
          exact iff_of_false (fun h => absurd (hfield.mp (Parse.within_bind.mp h.1).1)
            Bool.false_ne_true) Bool.false_ne_true
      | some n =>
          have hfound := Examine.result_mqttPacketDecodeBuf_of_span hstands.tail hspan
          have hbody := hstands.tail.drop n
          rw [Nat.zero_add] at hbody
          have hname := Examine.result_readMQTTLenString hbody
          rw [hspan] at hfield
          rw [Parse.within_bind_of_some hfound, and_iff_right (hfield.mpr rfl), Parse.result_bind,
            hfound, Option.bind_some, Option.any_some, protocolExaminable]
          cases hparts : splitString? (rest.drop n) with
          | none =>
              rw [hparts] at hname
              have hnone : (Examine.readMQTTLenString (1 + n) len).result buf = none := hname
              rw [Parse.within_bind, and_iff_right Examine.within_readMQTTLenString,
                Parse.result_bind, hnone]
              exact iff_of_true ⟨fun s hs => (by cases hs), fun hsome => absurd hsome
                Bool.false_ne_true⟩ rfl
          | some parts =>
              obtain ⟨name, behind⟩ := parts
              obtain ⟨hat, hle, hrest⟩ := Examine.splitString?_stands hbody hparts
              rw [hparts] at hname
              have hsome : (Examine.readMQTTLenString (1 + n) len).result buf =
                  some (1 + n + 2, 1 + n + 2 + name.length) := hname
              rw [Parse.within_bind_of_some hsome, and_iff_right Examine.within_readMQTTLenString,
                Parse.result_bind, hsome, Option.bind_some, Option.all_some]
              dsimp only
              rw [if_neg (by omega), connectWellFormed_iff hspan hparts]
              exact levelExaminable_iff hat hrest

/-- A CONNECT that ends with its protocol name has the byte behind it looked at. -/
def truncatedConnect : List UInt8 := [0x10, 6, 0, 4, 77, 81, 84, 84]

/-- A CONNECT for the protocol with the empty name. -/
def namelessConnect : List UInt8 := [0x10, 8, 0, 0, 4, 2, 0, 60, 0, 0]

theorem connect_examines_behind_and_accepts_nameless :
    ¬ ConnectIsChecked .initializer (Memory.store (fun _ => 0) 0 truncatedConnect) 8 ∧
      ¬ ConnectIsChecked .initializer (Memory.store (fun _ => 0) 0 namelessConnect) 10 := by
  constructor
  · intro h
    exact absurd (h.inside 8 (by decide)) (by decide)
  · intro h
    have hwell := h.accepts (by decide)
    have hlevel : LevelWellFormed [] [4, 2, 0, 60, 0, 0] :=
      (connectWellFormed_iff (n := 1) rfl rfl).mp hwell
    obtain ⟨version, flags, hi, lo, strings, heq, hexact, _⟩ := hlevel
    cases heq
    exact absurd hexact (by decide)

end MqttClient

/-
# The packet format: `MQTTPacket.h` and `MQTTPacket.c`

Packet types, the fixed header byte, the remaining-length field, and the
primitive readers and writers every serializer is built from.  A reader takes
the memory and the current pointer into it and returns the value together with
the advanced pointer; a writer returns the bytes it appends, since every
serializer writes one contiguous run from the start of its buffer.

The same length-decoding loop stands twice in the source, once over a function
pointer (`MQTTPacket_decode`) and once over the client's network
(`decodePacket`).  It is written here once, over any monad that can supply the
next character.
-/

import MqttClient.Semantics.Memory
import MqttClient.Semantics.Conversion

namespace MqttClient

open Semantics

/-- `enum errors`: a serializer's buffer does not hold the packet. -/
@[reducible]
def mqttPacketBufferTooShort : Int := -2

/-- `enum msgTypes`. -/
inductive MsgType
  | connect | connack | publish | puback | pubrec | pubrel | pubcomp
  | subscribe | suback | unsubscribe | unsuback | pingreq | pingresp | disconnect
  deriving DecidableEq, Repr

namespace MsgType

/-- The value of the enumerator, counted from `CONNECT = 1`. -/
def code : MsgType → Nat
  | connect => 1
  | connack => 2
  | publish => 3
  | puback => 4
  | pubrec => 5
  | pubrel => 6
  | pubcomp => 7
  | subscribe => 8
  | suback => 9
  | unsubscribe => 10
  | unsuback => 11
  | pingreq => 12
  | pingresp => 13
  | disconnect => 14

/-- The enumerator with a given value, as a `switch` over an `int` finds it. -/
def ofCode? : Int → Option MsgType
  | 1 => some connect
  | 2 => some connack
  | 3 => some publish
  | 4 => some puback
  | 5 => some pubrec
  | 6 => some pubrel
  | 7 => some pubcomp
  | 8 => some subscribe
  | 9 => some suback
  | 10 => some unsubscribe
  | 11 => some unsuback
  | 12 => some pingreq
  | 13 => some pingresp
  | 14 => some disconnect
  | _ => none

@[simp]
theorem ofCode?_code (t : MsgType) : ofCode? t.code = some t := by
  cases t <;> rfl

theorem ofCode?_eq_some {n : Int} {t : MsgType} (h : ofCode? n = some t) : n = t.code := by
  unfold ofCode? at h
  split at h <;> cases h <;> rfl

theorem code_pos (t : MsgType) : 0 < t.code := by
  cases t <;> decide

end MsgType

/-- The bit fields of `MQTTHeader`, in the little-endian layout. -/
structure MQTTHeader where
  type : Nat
  dup : Nat
  qos : Nat
  retain : Nat
  deriving DecidableEq, Repr

namespace MQTTHeader

/-- Read the union through its bit fields. -/
def ofByte (b : UInt8) : MQTTHeader where
  type := b.toNat / 16
  dup := b.toNat / 8 % 2
  qos := b.toNat / 2 % 4
  retain := b.toNat % 2

/-- Read the union as a byte: each assignment to a bit field keeps its low bits. -/
def byte (header : MQTTHeader) : UInt8 :=
  UInt8.ofNat (header.type % 16 * 16 + header.dup % 2 * 8 + header.qos % 4 * 2 +
    header.retain % 2)

/-- Writing bit fields in range and reading them back. -/
theorem ofByte_byte {header : MQTTHeader} (htype : header.type < 16) (hdup : header.dup < 2)
    (hqos : header.qos < 4) (hretain : header.retain < 2) : ofByte header.byte = header := by
  obtain ⟨type, dup, qos, retain⟩ := header
  simp only at htype hdup hqos hretain
  have hbyte : (byte ⟨type, dup, qos, retain⟩).toNat =
      type * 16 + dup * 8 + qos * 2 + retain := by
    simp only [byte, UInt8.toNat_ofNat']
    omega
  simp only [ofByte, hbyte, MQTTHeader.mk.injEq]
  refine ⟨?_, ?_, ?_, ?_⟩ <;> omega

/-- The bit field `type` survives whatever is assigned to the others. -/
theorem ofByte_byte_type {header : MQTTHeader} (h : header.type < 16) :
    (ofByte header.byte).type = header.type := by
  simp only [ofByte, byte, UInt8.toNat_ofNat']
  omega

theorem ofByte_byte_dup (header : MQTTHeader) : (ofByte header.byte).dup = header.dup % 2 := by
  simp only [ofByte, byte, UInt8.toNat_ofNat']
  omega

end MQTTHeader

/-- A C string: the bytes before the terminating zero. -/
structure CString where
  bytes : List UInt8
  noNul : 0 ∉ bytes
  deriving DecidableEq

theorem zero_notMem_a : (0 : UInt8) ∉ [97] := by decide

namespace CString

/-- Two C strings with the same bytes are the same string. -/
@[ext]
theorem ext {s t : CString} (h : s.bytes = t.bytes) : s = t := by
  cases s
  cases t
  cases h
  rfl

/-- The bytes a pointer to the string sees up to its terminating zero. -/
def memory (s : CString) : Memory := fun i => s.bytes.getD i 0

theorem load_memory (s : CString) {len : Nat} (h : len ≤ s.bytes.length) :
    s.memory.load 0 len = s.bytes.take len :=
  Memory.load_getD s.bytes h

/-- `strlen`, assigned to an `int`. -/
def strlen (s : CString) : Int := toInt s.bytes.length

end CString

/-- `MQTTLenString`. -/
structure MQTTLenString where
  len : Int
  data : Pointer

/-- `MQTTString`: a C string or, when that pointer is null, a delimited one. -/
structure MQTTString where
  cstring : Option CString
  lenstring : MQTTLenString

/-- `MQTTString_initializer`. -/
def MQTTString.initializer : MQTTString := ⟨none, 0, .null⟩

/-! ## The remaining-length field -/

/-- One digit per step of the `do` loop of `MQTTPacket_encode`.  An `int` has at
most five base-128 digits, so five steps are enough for every argument. -/
def mqttPacketEncodeLoop : Nat → Int → List UInt8
  | 0, _ => []
  | steps + 1, length =>
      let d := toUnsignedChar (length.tmod 128)
      let length := length.tdiv 128
      if 0 < length then (d ||| 0x80) :: mqttPacketEncodeLoop steps length else [d]

/-- `MQTTPacket_encode`: the bytes written; their number is the return value. -/
def mqttPacketEncode (length : Int) : List UInt8 := mqttPacketEncodeLoop 5 length

/-- `MAX_NO_OF_REMAINING_LENGTH_BYTES`. -/
def maxNoOfRemainingLengthBytes : Nat := 4

/-- The loop shared by `MQTTPacket_decode` and `decodePacket`.  `left` counts the
bytes still allowed; `getchar` reports how many bytes it supplied and the byte.
The result is the returned `len` and the final `*value`. -/
def decodeLoop {m : Type → Type} [Monad m] (getchar : m (Int × UInt8)) :
    (left len value multiplier : Nat) → m (Nat × Nat)
  | 0, len, value, _ => pure (len + 1, value) -- bad data
  | left + 1, len, value, multiplier => do
      let (rc, c) ← getchar
      if rc ≠ 1 then pure (len + 1, value)
      else
        let value := value + (c &&& 127).toNat * multiplier
        if c &&& 128 ≠ 0 then decodeLoop getchar left (len + 1) value (multiplier * 128)
        else pure (len + 1, value)

/-- `MQTTPacket_decode`. -/
def mqttPacketDecode {m : Type → Type} [Monad m] (getcharfn : m (Int × UInt8)) : m (Nat × Nat) :=
  decodeLoop getcharfn maxNoOfRemainingLengthBytes 0 0 1

/-- `bufchar` for a single character: the next byte at `bufptr`. -/
def bufchar (buf : Memory) : StateM Nat (Int × UInt8) := fun bufptr => ((1, buf bufptr), bufptr + 1)

/-- `MQTTPacket_decodeBuf`: the number of length bytes read, and the value. -/
def mqttPacketDecodeBuf (buf : Memory) : Nat × Nat :=
  ((mqttPacketDecode (bufchar buf)).run 0).1

/-- `MQTTPacket_len`. -/
def mqttPacketLen (remLen : Int) : Int :=
  let remLen := remLen + 1 -- header byte
  -- now the remaining-length field
  if remLen < 128 then remLen + 1
  else if remLen < 16384 then remLen + 2
  else if remLen < 2097151 then remLen + 3
  else remLen + 4

/-! ## Primitive readers and writers -/

/-- `readInt`: a big-endian pair of bytes. -/
def readInt (m : Memory) (ptr : Nat) : Nat × Nat :=
  (256 * (m ptr).toNat + (m (ptr + 1)).toNat, ptr + 2)

/-- `readChar`, which returns a signed `char`. -/
def readChar (m : Memory) (ptr : Nat) : Int × Nat := (toChar (m ptr), ptr + 1)

/-- `writeInt`. -/
def writeInt (anInt : Int) : List UInt8 :=
  [toUnsignedChar (anInt.tdiv 256), toUnsignedChar (anInt.tmod 256)]

/-- `writeCString`.  The length is an `int`, which `memcpy` reads as a `size_t`. -/
def writeCString (string : CString) : List UInt8 :=
  writeInt string.strlen ++ string.memory.load 0 (toSizeT string.strlen)

/-- A string whose length is an `int` is written as its length and its bytes. -/
theorem writeCString_of_lt {string : CString} (h : string.bytes.length < 2 ^ 31) :
    writeCString string = writeInt string.bytes.length ++ string.bytes := by
  rw [writeCString, CString.strlen, toInt_of_lt h, toSizeT_of_lt (by omega),
    string.load_memory (le_refl _), List.take_length]

/-- `writeMQTTString`: the delimited form is preferred as soon as it is not empty. -/
def writeMQTTString (mqttstring : MQTTString) : List UInt8 :=
  if 0 < mqttstring.lenstring.len then
    writeInt mqttstring.lenstring.len ++
      mqttstring.lenstring.data.deref.load 0 mqttstring.lenstring.len.toNat
  else
    match mqttstring.cstring with
    | some cstring => writeCString cstring
    | none => writeInt 0

/-- `readMQTTLenString`: the return code, the string as left behind, and the
advanced pointer.  When the announced bytes do not fit before `enddata` only the
length field has been stored. -/
def readMQTTLenString (mqttstring : MQTTString) (m : Memory) (ptr enddata : Nat) :
    Int × MQTTString × Nat :=
  if 1 < (enddata : Int) - ptr then
    let (len, ptr) := readInt m ptr
    if ptr + len ≤ enddata then
      (1, ⟨none, len, .into m ptr⟩, ptr + len)
    else
      (0, ⟨none, len, mqttstring.lenstring.data⟩, ptr)
  else
    (0, ⟨none, mqttstring.lenstring⟩, ptr)

/-- The string read has the delimited form, whether or not the bytes were there. -/
theorem readMQTTLenString_cstring (old : MQTTString) (m : Memory) (ptr enddata : Nat) :
    (readMQTTLenString old m ptr enddata).2.1.cstring = none := by
  unfold readMQTTLenString
  dsimp only
  split
  · split <;> rfl
  · rfl

/-- `MQTTstrlen`. -/
def mqttStrlen (mqttstring : MQTTString) : Int :=
  match mqttstring.cstring with
  | some cstring => cstring.strlen
  | none => mqttstring.lenstring.len

/-- `MQTTPacket_equals`: the lengths agree, and `strncmp` finds no difference in
that many bytes.  A C string has no zero among its bytes, so `strncmp` cannot
stop early at equal zeros. -/
def mqttPacketEquals (a : MQTTString) (b : CString) : Bool :=
  let (aptr, alen) :=
    match a.cstring with
    | some cstring => (cstring.memory, cstring.strlen)
    | none => (a.lenstring.data.deref, a.lenstring.len)
  alen == b.strlen && aptr.load 0 alen.toNat == b.memory.load 0 alen.toNat

end MqttClient

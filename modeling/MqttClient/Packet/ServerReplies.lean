/-
# The replies of the server's side, read by the client

`MQTTSerialize_connack`, `MQTTSerialize_suback`, `MQTTSerialize_unsuback` and
`MQTTSerialize_ack` write what `MQTTDeserialize_connack`, `MQTTDeserialize_suback`,
`MQTTDeserialize_unsuback` and `MQTTDeserialize_ack` read.  Both halves meet at the header
byte and the body of the reply.  Identifiers and the return code of a CONNACK come back as
they were passed.  Of the session flag and of `dup` only the lowest bit is written.  The
codes of a SUBACK are read through a signed `char`, so that the failure code 128 comes
back as -128, and one code more than `maxcount` is let through.
-/

import MqttClient.Packet.Replies
import MqttClient.Packet.Subscriptions

namespace MqttClient

open Semantics

/-- A reply, by the arguments of its serializer. -/
inductive ServerReply
  | connack (connackRc sessionPresent : UInt8)
  | suback (packetid : UInt16) (grantedQoSs : List Int)
  | unsuback (packetid : UInt16)
  | ack (packettype : MsgType) (dup : UInt8) (packetid : UInt16)

namespace ServerReply

/-- The serializer of the reply. -/
def serialize (buflen : Int) : ServerReply → Serialized
  | connack connackRc sessionPresent => mqttSerializeConnack buflen connackRc sessionPresent
  | suback packetid grantedQoSs =>
      mqttSerializeSuback buflen packetid grantedQoSs.length fun i => grantedQoSs.getD i 0
  | unsuback packetid => mqttSerializeUnsuback buflen packetid
  | ack packettype dup packetid => mqttSerializeAck buflen packettype dup packetid

/-- The type of the packet. -/
def packettype : ServerReply → MsgType
  | connack _ _ => .connack
  | suback _ _ => .suback
  | unsuback _ => .unsuback
  | ack packettype _ _ => packettype

/-- The header of the packet. -/
def header : ServerReply → MQTTHeader
  | ack packettype dup _ => ⟨packettype.code, dup.toNat, if packettype = .pubrel then 1 else 0, 0⟩
  | reply => ⟨reply.packettype.code, 0, 0, 0⟩

/-- The body of the packet. -/
def body : ServerReply → List UInt8
  | connack connackRc sessionPresent => [sessionPresent &&& 1, connackRc]
  | suback packetid grantedQoSs => writeInt packetid.toNat ++ grantedQoSs.map toUnsignedChar
  | unsuback packetid | ack _ _ packetid => writeInt packetid.toNat

/-- The minimum with which the serializer compares its buffer. -/
def minimum : ServerReply → Int
  | suback _ grantedQoSs => toInt (2 + grantedQoSs.length)
  | ack _ _ _ => 4
  | connack _ _ | unsuback _ => 2

/-- The serializers have one shape. -/
theorem serialize_eq (reply : ServerReply) (buflen : Int) (hlt : reply.body.length < 268435456) :
    reply.serialize buflen = if buflen < reply.minimum then .tooShort
      else .ofBytes (reply.header.byte :: (mqttPacketEncode reply.body.length ++ reply.body)) := by
  cases reply with
  | connack connackRc sessionPresent => rfl
  | unsuback packetid => rfl
  | ack packettype dup packetid => rfl
  | suback packetid grantedQoSs =>
      simp only [body, List.length_append, writeInt_length, List.length_map] at hlt
      have hlen : toInt (2 + grantedQoSs.length) = ((2 + grantedQoSs.length : Nat) : Int) :=
        toInt_of_mem (by omega) (by omega)
      have hcodes : (List.range grantedQoSs.length).map
          (fun i => toUnsignedChar (grantedQoSs.getD i 0)) = grantedQoSs.map toUnsignedChar := by
        apply List.ext_getElem
        · simp
        · intro i hi _
          simp at hi
          simp [hi]
      simp only [serialize, mqttSerializeSuback, minimum, hlen, Int.toNat_natCast, hcodes, body,
        List.length_append, writeInt_length, List.length_map, header, packettype,
        List.cons_append, List.append_assoc]

end ServerReply

/-! ## Reading a SUBACK -/

/-- A code as it is read through a signed `char`. -/
def ReadAsChar (read code : Int) : Prop := read = toChar (toUnsignedChar code)

theorem ReadAsChar.eq {read code : Int} (h : ReadAsChar read code) :
    read = if code % 256 < 128 then code % 256 else code % 256 - 256 := by
  rw [h, toChar, toUnsignedChar, UInt8.toNat_ofNat']
  split_ifs <;> omega

/-- The loop stores the codes that stand in the buffer, and stops behind `maxcount + 1` of
them. -/
theorem mqttDeserializeSubackLoop_of_hasAt {buf : Memory} {maxcount : Nat} :
    ∀ {codes : List Int} {curdata : Nat} {out : SubackOut},
      buf.HasAt curdata (codes.map toUnsignedChar) → out.count + codes.length ≤ maxcount + 1 →
      ∃ grantedQoSs, mqttDeserializeSubackLoop buf maxcount codes.length curdata out =
          (1, { out with count := out.count + codes.length, grantedQoSs }) ∧
        Filled ReadAsChar out.grantedQoSs grantedQoSs out.count codes := by
  intro codes
  induction codes with
  | nil =>
      intro curdata out _ _
      exact ⟨out.grantedQoSs, rfl, .nil _ _⟩
  | cons code codes ih =>
      intro curdata out hat hfits
      rw [List.map_cons, Memory.hasAt_cons] at hat
      rw [List.length_cons] at hfits
      obtain ⟨grantedQoSs, hloop, hfilled⟩ := @ih (curdata + 1)
        { out with
          count := out.count + 1
          grantedQoSs := Function.update out.grantedQoSs out.count (toChar (buf curdata)) }
        hat.2 (by dsimp only; omega)
      refine ⟨grantedQoSs, ?_, .cons (by rw [ReadAsChar, hat.1]) hfilled⟩
      rw [List.length_cons, mqttDeserializeSubackLoop, if_neg (by omega)]
      refine hloop.trans ?_
      simp only [Nat.add_assoc, Nat.add_comm 1]

/-! ## Reading a reply -/

section Frames

variable {buf : Memory} {header : UInt8}

theorem HoldsFrame.mqttDeserializeConnack_eq {flags code : UInt8}
    (h : HoldsFrame buf header [flags, code])
    (htype : (MQTTHeader.ofByte header).type = MsgType.connack.code) (out : ConnackOut) :
    mqttDeserializeConnack buf out = (1, ⟨flags &&& 1, code⟩) := by
  have hflags := h.body_apply (i := 0) rfl
  have hcode := h.body_apply (i := 1) rfl
  rw [HoldsFrame.bodyStart] at hflags hcode
  simp only [mqttDeserializeConnack, readChar, Nat.zero_add, h.readChar_header, h.decodeBuf, htype]
  rw [if_neg (by simp), if_neg (by simp), ← Nat.add_zero (1 + _), hflags]
  rw [Nat.add_zero, hcode, toUnsignedChar_toChar, toUnsignedChar_toChar]

theorem HoldsFrame.mqttDeserializeUnsuback_eq {body : List UInt8} {id : Nat}
    (h : HoldsFrame buf header body) (hid : leadingInt? body = some id)
    (htype : (MQTTHeader.ofByte header).type = MsgType.unsuback.code) (packetid : UInt16) :
    mqttDeserializeUnsuback buf packetid = (1, UInt16.ofNat id) := by
  simp [mqttDeserializeUnsuback, h.mqttDeserializeAck_eq, htype, hid]

/-- A SUBACK whose codes `maxcount` lets through. -/
theorem HoldsFrame.mqttDeserializeSuback_of_codes {packetid : UInt16} {codes : List Int}
    (h : HoldsFrame buf header (writeInt packetid.toNat ++ codes.map toUnsignedChar))
    (htype : (MQTTHeader.ofByte header).type = MsgType.suback.code) {maxcount : Nat}
    (hfits : codes.length ≤ maxcount + 1) (out : SubackOut) :
    ∃ grantedQoSs, mqttDeserializeSuback buf maxcount out =
        (1, ⟨packetid, codes.length, grantedQoSs⟩) ∧
      Filled ReadAsChar out.grantedQoSs grantedQoSs 0 codes := by
  have hlen : (writeInt packetid.toNat ++ codes.map toUnsignedChar).length = 2 + codes.length := by
    rw [List.length_append, writeInt_length, List.length_map]
  have hid := h.readInt_eq (leadingInt?_writeInt packetid.toNat_lt _)
  have hat := h.hasAt_body
  rw [HoldsFrame.bodyStart] at hid hat
  obtain ⟨grantedQoSs, hloop, hfilled⟩ := @mqttDeserializeSubackLoop_of_hasAt buf maxcount codes _
    ⟨packetid, 0, out.grantedQoSs⟩ (Memory.hasAt_append.mp hat).2 (by dsimp only; omega)
  refine ⟨grantedQoSs, ?_, hfilled⟩
  simp only [mqttDeserializeSuback, readChar, Nat.zero_add, h.readChar_header, h.decodeBuf, htype]
  rw [if_neg (by simp), if_neg (by omega), hid, hlen, Nat.add_sub_cancel_left]
  rw [hlen, writeInt_length, Nat.zero_add] at hloop
  rw [UInt16.ofNat_toNat]
  exact hloop

/-- A SUBACK with more codes than that is refused. -/
theorem HoldsFrame.mqttDeserializeSuback_of_excess {packetid : UInt16} {codes : List Int}
    (h : HoldsFrame buf header (writeInt packetid.toNat ++ codes.map toUnsignedChar))
    (htype : (MQTTHeader.ofByte header).type = MsgType.suback.code) {maxcount : Nat}
    (hexcess : maxcount + 1 < codes.length) (out : SubackOut) :
    (mqttDeserializeSuback buf maxcount out).1 = -1 := by
  have hlen : (writeInt packetid.toNat ++ codes.map toUnsignedChar).length = 2 + codes.length := by
    rw [List.length_append, writeInt_length, List.length_map]
  simp only [mqttDeserializeSuback, readChar, Nat.zero_add, h.readChar_header, h.decodeBuf, htype]
  rw [if_neg (by simp), if_neg (by omega), mqttDeserializeSubackLoop_rc _ _ _ _ _ (Nat.zero_le _)]
  rw [if_neg (by dsimp only; omega)]

end Frames

/-- What the client's function for the reply makes of the buffer. -/
def ServerReply.IsReadBack (buf : Memory) : ServerReply → Prop
  | connack connackRc sessionPresent =>
      ∀ out, mqttDeserializeConnack buf out = (1, ⟨sessionPresent &&& 1, connackRc⟩)
  | suback packetid grantedQoSs => ∀ maxcount out,
      if grantedQoSs.length ≤ maxcount + 1 then
        ∃ out', mqttDeserializeSuback buf maxcount out = (1, out') ∧ out'.packetid = packetid ∧
          out'.count = grantedQoSs.length ∧
          (∀ i code, grantedQoSs[i]? = some code → out'.grantedQoSs i =
            if code % 256 < 128 then code % 256 else code % 256 - 256) ∧
          ∀ i, grantedQoSs.length ≤ i → out'.grantedQoSs i = out.grantedQoSs i
      else (mqttDeserializeSuback buf maxcount out).1 = -1
  | unsuback packetid => ∀ old, mqttDeserializeUnsuback buf old = (1, packetid)
  | ack packettype dup packetid =>
      ∀ out, mqttDeserializeAck buf out = (1, ⟨UInt8.ofNat packettype.code, dup &&& 1, packetid⟩)

theorem ServerReply.header_type (reply : ServerReply) :
    (MQTTHeader.ofByte reply.header.byte).type = reply.packettype.code := by
  have hheader : reply.header.type = reply.packettype.code := by cases reply <;> rfl
  rw [MQTTHeader.ofByte_byte_type (hheader ▸ reply.packettype.code_lt), hheader]

/-- Whatever the server's side has written for a reply is read back by the client's side
from the front of any buffer: the return code and the lowest bit of the session flag, the
identifier and the lowest bit of `dup`, and every code in its place as a signed `char`, with
no element behind the codes touched.  Only a SUBACK with more than `maxcount + 1` codes is
refused. -/
theorem serverReply_isReadBack (reply : ServerReply) (buflen : Int)
    (hlt : reply.body.length < 268435456)
    (hrc : 0 < (reply.serialize buflen).rc) (buf : Memory)
    (hbuf : buf.HasAt 0 (reply.serialize buflen).written) : reply.IsReadBack buf := by
  rw [reply.serialize_eq buflen hlt] at hrc hbuf
  have hframe := HoldsFrame.of_serialized hlt hrc hbuf
  have htype := reply.header_type
  cases reply with
  | connack connackRc sessionPresent =>
      intro out
      rw [hframe.mqttDeserializeConnack_eq htype, UInt8.and_assoc]
      rfl
  | suback packetid grantedQoSs =>
      intro maxcount out
      split
      · rename_i hfits
        obtain ⟨granted, hout, hfilled⟩ := hframe.mqttDeserializeSuback_of_codes htype hfits out
        refine ⟨_, hout, rfl, rfl, fun i code hget => ?_, fun i hi => ?_⟩
        · have hshown := hfilled.shown i code hget
          rw [Nat.zero_add] at hshown
          exact hshown.eq
        · exact hfilled.kept i (.inr (by omega))
      · rename_i hexcess
        exact hframe.mqttDeserializeSuback_of_excess htype (by omega) out
  | unsuback packetid =>
      intro old
      rw [hframe.mqttDeserializeUnsuback_eq (leadingInt?_writeInt packetid.toNat_lt []) htype]
      rw [UInt16.ofNat_toNat]
  | ack packettype dup packetid =>
      intro out
      have hid : leadingInt? (writeInt packetid.toNat) = some packetid.toNat :=
        leadingInt?_writeInt packetid.toNat_lt []
      have hdup : UInt8.ofNat (dup.toNat % 2) = dup &&& 1 := by
        rw [← UInt8.toNat_inj, UInt8.toNat_ofNat', UInt8.toNat_and]
        have hone := Nat.and_one_is_mod dup.toNat
        simp only [UInt8.toNat_one] at hone ⊢
        omega
      rw [hframe.mqttDeserializeAck_eq, htype, MQTTHeader.ofByte_byte_dup, ServerReply.body, hid]
      simp [ServerReply.header, ServerReply.packettype, hdup]

/-- A SUBACK that grants QoS 1 and refuses a second filter, in a buffer that was full of
other bytes and read for two codes. -/
theorem serverReply_isReadBack_refused :
    0 < (ServerReply.serialize 16 (.suback 300 [1, 128])).rc ∧
      (ServerReply.suback 300 [1, 128]).IsReadBack
        (Memory.store (fun _ => 255) 0 (ServerReply.serialize 16 (.suback 300 [1, 128])).written) :=
  have hrc : 0 < (ServerReply.serialize 16 (.suback 300 [1, 128])).rc := by decide
  ⟨hrc, serverReply_isReadBack _ 16 (by decide) hrc _ (Memory.hasAt_store _ 0 _)⟩

end MqttClient

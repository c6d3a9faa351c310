/-
# Client-side deserializers

`MQTTDeserializePublish.c` and the client halves of `MQTTConnectClient.c`,
`MQTTSubscribeClient.c` and `MQTTUnsubscribeClient.c`.  An output parameter that
a path does not assign keeps what the caller had there, so every deserializer
takes the outputs as they were and returns them as they are left.

All of them reuse one variable: `rc` holds the number of length bytes from the
moment the remaining length is decoded until it is overwritten, so an exit in
between reports that number, which is `1` for every short packet.
-/

import MqttClient.Packet.RemainingLength

namespace MqttClient

open Semantics

/-- The output parameters of `MQTTDeserialize_publish`. -/
structure PublishOut where
  dup : UInt8
  qos : Int
  retained : UInt8
  packetid : UInt16
  topicName : MQTTString
  payload : Pointer
  payloadlen : Int

/-- `MQTTDeserialize_publish`. -/
def mqttDeserializePublish (buf : Memory) (out : PublishOut) : Int × PublishOut :=
  let (c, curdata) := readChar buf 0
  let header := MQTTHeader.ofByte (toUnsignedChar c)
  if header.type ≠ MsgType.publish.code then (0, out)
  else
    let out := { out with
      dup := UInt8.ofNat header.dup
      qos := header.qos
      retained := UInt8.ofNat header.retain }
    let (rc, mylen) := mqttPacketDecodeBuf (buf.shift curdata)
    let curdata := curdata + rc
    let enddata := curdata + mylen
    let (ok, topicName, curdata) := readMQTTLenString out.topicName buf curdata enddata
    let out := { out with topicName }
    if ok = 0 ∨ enddata < curdata then (rc, out)
    else if 0 < out.qos then
      -- nothing checks that the packet identifier lies before `enddata`
      let (packetid, curdata) := readInt buf curdata
      (1, { out with
        packetid := UInt16.ofNat packetid
        payload := .into buf curdata
        payloadlen := enddata - curdata })
    else
      (1, { out with payload := .into buf curdata, payloadlen := enddata - curdata })

/-- The output parameters of `MQTTDeserialize_ack`. -/
structure AckOut where
  packettype : UInt8
  dup : UInt8
  packetid : UInt16
  deriving DecidableEq, Repr

/-- `MQTTDeserialize_ack`. -/
def mqttDeserializeAck (buf : Memory) (out : AckOut) : Int × AckOut :=
  let (c, curdata) := readChar buf 0
  let header := MQTTHeader.ofByte (toUnsignedChar c)
  let out := { out with dup := UInt8.ofNat header.dup, packettype := UInt8.ofNat header.type }
  let (rc, mylen) := mqttPacketDecodeBuf (buf.shift curdata)
  let curdata := curdata + rc
  if mylen < 2 then (rc, out)
  else (1, { out with packetid := UInt16.ofNat (readInt buf curdata).1 })

/-- The output parameters of `MQTTDeserialize_connack`. -/
structure ConnackOut where
  sessionPresent : UInt8
  connackRc : UInt8
  deriving DecidableEq, Repr

/-- `MQTTDeserialize_connack`. -/
def mqttDeserializeConnack (buf : Memory) (out : ConnackOut) : Int × ConnackOut :=
  let (c, curdata) := readChar buf 0
  let header := MQTTHeader.ofByte (toUnsignedChar c)
  if header.type ≠ MsgType.connack.code then (0, out)
  else
    let (rc, mylen) := mqttPacketDecodeBuf (buf.shift curdata)
    let curdata := curdata + rc
    if mylen < 2 then (rc, out)
    else
      let (flags, curdata) := readChar buf curdata
      let (connackRc, _) := readChar buf curdata
      (1, ⟨toUnsignedChar flags &&& 1, toUnsignedChar connackRc⟩)

/-- The output parameters of `MQTTDeserialize_suback`; the array is what lies at
and after `grantedQoSs`, in units of `int`. -/
structure SubackOut where
  packetid : UInt16
  count : Nat
  grantedQoSs : Nat → Int

/-- The `while` loop of `MQTTDeserialize_suback` over the `left` bytes still to be
read.  Its bound lets `*count` reach `maxcount + 1`. -/
def mqttDeserializeSubackLoop (buf : Memory) (maxcount : Nat) :
    (left curdata : Nat) → SubackOut → Int × SubackOut
  | 0, _, out => (1, out)
  | left + 1, curdata, out =>
      if maxcount < out.count then (-1, out)
      else
        let (c, curdata) := readChar buf curdata
        mqttDeserializeSubackLoop buf maxcount left curdata
          { out with
            count := out.count + 1
            grantedQoSs := Function.update out.grantedQoSs out.count c }

/-- `MQTTDeserialize_suback`. -/
def mqttDeserializeSuback (buf : Memory) (maxcount : Nat) (out : SubackOut) : Int × SubackOut :=
  let (c, curdata) := readChar buf 0
  let header := MQTTHeader.ofByte (toUnsignedChar c)
  if header.type ≠ MsgType.suback.code then (0, out)
  else
    let (rc, mylen) := mqttPacketDecodeBuf (buf.shift curdata)
    let curdata := curdata + rc
    if mylen < 2 then (rc, out)
    else
      let (packetid, curdata) := readInt buf curdata
      mqttDeserializeSubackLoop buf maxcount (mylen - 2) curdata
        { out with packetid := UInt16.ofNat packetid, count := 0 }

/-- `MQTTDeserialize_unsuback`. -/
def mqttDeserializeUnsuback (buf : Memory) (packetid : UInt16) : Int × UInt16 :=
  let (rc, out) := mqttDeserializeAck buf ⟨0, 0, packetid⟩
  if out.packettype = UInt8.ofNat MsgType.unsuback.code then (1, out.packetid)
  else (rc, out.packetid)

/-! ## Buffers that hold a frame -/

/-- The buffer starts with a header byte, the minimal length field of the body,
and the body: what `readPacket` leaves behind. -/
structure HoldsFrame (buf : Memory) (header : UInt8) (body : List UInt8) : Prop where
  length_lt : body.length < 268435456
  header_eq : buf 0 = header
  field_eq : buf.load 1 (mqttPacketEncode body.length).length = mqttPacketEncode body.length
  body_eq : buf.load (1 + (mqttPacketEncode body.length).length) body.length = body

namespace HoldsFrame

variable {buf : Memory} {header : UInt8} {body : List UInt8}

/-- The offset of the body in the buffer. -/
def bodyStart (body : List UInt8) : Nat := 1 + (mqttPacketEncode body.length).length

/-- The number of bytes of the frame in the buffer. -/
def frameLength (body : List UInt8) : Nat := bodyStart body + body.length

/-- Header, field and body, stored one after the other. -/
theorem of_stores (m : Memory) (header : UInt8) (body : List UInt8)
    (hlt : body.length < 268435456) :
    HoldsFrame (((m.store 0 [header]).store 1 (mqttPacketEncode body.length)).store
      (bodyStart body) body) header body where
  length_lt := hlt
  header_eq := by
    rw [Memory.store_apply_of_lt _ _ (by unfold bodyStart; omega),
      Memory.store_apply_of_lt _ _ (by decide)]
    rfl
  field_eq := by
    rw [Memory.load_store_of_le _ _ (by unfold bodyStart; omega), Memory.load_store_self]
  body_eq := Memory.load_store_self _ _ _

/-- The frame as one run of bytes. -/
theorem of_hasAt (hlt : body.length < 268435456)
    (h : buf.HasAt 0 (header :: (mqttPacketEncode body.length ++ body))) :
    HoldsFrame buf header body := by
  obtain ⟨hheader, hrest⟩ := Memory.hasAt_cons.mp h
  obtain ⟨hfield, hbody⟩ := Memory.hasAt_append.mp hrest
  exact ⟨hlt, hheader, hfield, hbody⟩

theorem hasAt_body (h : HoldsFrame buf header body) : buf.HasAt (bodyStart body) body := h.body_eq

theorem decodeBuf (h : HoldsFrame buf header body) :
    mqttPacketDecodeBuf (buf.shift 1) =
      ((mqttPacketEncode body.length).length, body.length) := by
  apply mqttPacketDecodeBuf_encode h.length_lt
  rw [Memory.load_shift]
  exact h.field_eq

/-- A byte of the body, read where the body stands. -/
theorem body_apply (h : HoldsFrame buf header body) {i : Nat} {b : UInt8}
    (hi : body[i]? = some b) : buf (bodyStart body + i) = b := by
  have hlt : i < body.length := (List.getElem?_eq_some_iff.mp hi).1
  have hread := Memory.getElem?_load buf (bodyStart body) hlt
  rw [show buf.load (bodyStart body) body.length = body from h.body_eq, hi] at hread
  exact (Option.some.inj hread).symm

/-- A range of the body, read where the body stands. -/
theorem load_body (h : HoldsFrame buf header body) {start len : Nat}
    (hle : start + len ≤ body.length) :
    buf.load (bodyStart body + start) len = (body.drop start).take len := by
  have hsplit : body.length = start + (len + (body.length - (start + len))) := by omega
  have hbody :
      buf.load (bodyStart body) (start + (len + (body.length - (start + len)))) = body := by
    rw [← hsplit]
    exact h.body_eq
  rw [Memory.load_add, Memory.load_add] at hbody
  conv_rhs => rw [← hbody]
  rw [List.drop_left' (by simp), List.take_left' (by simp)]

/-- The header as every deserializer reads it, through a signed `char`. -/
theorem readChar_header (h : HoldsFrame buf header body) :
    toUnsignedChar (toChar (buf 0)) = header := by
  rw [toUnsignedChar_toChar, h.header_eq]

end HoldsFrame

/-- The number in the first two bytes of a body: the packet identifier of an
acknowledgement, the length of the topic of a PUBLISH. -/
def leadingInt? : List UInt8 → Option Nat
  | hi :: lo :: _ => some (256 * hi.toNat + lo.toNat)
  | _ => none

theorem leadingInt?_eq_none_iff {body : List UInt8} :
    leadingInt? body = none ↔ body.length < 2 := by
  match body with
  | [] => simp [leadingInt?]
  | [_] => simp [leadingInt?]
  | _ :: _ :: _ => simp [leadingInt?]

/-- The number at the front of bytes that stand in memory. -/
theorem readInt_of_leadingInt? {buf : Memory} {ptr n : Nat} {rest : List UInt8}
    (hat : buf.HasAt ptr rest) (hlead : leadingInt? rest = some n) :
    readInt buf ptr = (n, ptr + 2) := by
  match rest, hlead with
  | hi :: lo :: rest, hlead =>
      obtain ⟨hhi, hat⟩ := Memory.hasAt_cons.mp hat
      obtain ⟨hlo, _⟩ := Memory.hasAt_cons.mp hat
      rw [readInt, hhi, hlo]
      exact Prod.ext (Option.some.inj hlead) rfl

namespace HoldsFrame

variable {buf : Memory} {header : UInt8} {body : List UInt8}

/-- A number that stands in the body is read as it stands there. -/
theorem readInt_at (h : HoldsFrame buf header body) {i id : Nat}
    (hid : leadingInt? (body.drop i) = some id) :
    readInt buf (bodyStart body + i) = (id, bodyStart body + i + 2) :=
  readInt_of_leadingInt? (h.hasAt_body.drop i) hid

theorem readInt_eq (h : HoldsFrame buf header body) {id : Nat} (hid : leadingInt? body = some id) :
    readInt buf (bodyStart body) = (id, bodyStart body + 2) :=
  h.readInt_at (i := 0) hid

/-- A body shorter than two bytes has a length field of one byte. -/
theorem field_length_of_short (hshort : body.length < 2) :
    (mqttPacketEncode body.length).length = 1 := by
  rw [mqttPacketEncode_of_lt (by omega)]
  rfl

/-- On a frame `MQTTDeserialize_ack` always reports success; the identifier is
assigned only if the body has one. -/
theorem mqttDeserializeAck_eq (h : HoldsFrame buf header body) (out : AckOut) :
    mqttDeserializeAck buf out =
      (1, ⟨UInt8.ofNat (MQTTHeader.ofByte header).type, UInt8.ofNat (MQTTHeader.ofByte header).dup,
        ((leadingInt? body).map UInt16.ofNat).getD out.packetid⟩) := by
  simp only [mqttDeserializeAck, readChar, Nat.zero_add, h.readChar_header, h.decodeBuf]
  cases hid : leadingInt? body with
  | none =>
      have hshort := leadingInt?_eq_none_iff.mp hid
      simp [hshort, field_length_of_short hshort]
  | some id =>
      have hlong : ¬ body.length < 2 := by
        rw [← leadingInt?_eq_none_iff, hid]
        simp
      have hread := h.readInt_eq hid
      rw [bodyStart] at hread
      simp [hlong, hread]

/-- A CONNACK whose body is too short leaves the outputs as they were and is
reported as decoded. -/
theorem mqttDeserializeConnack_of_short (h : HoldsFrame buf header body)
    (htype : (MQTTHeader.ofByte header).type = MsgType.connack.code) (hshort : body.length < 2)
    (out : ConnackOut) : mqttDeserializeConnack buf out = (1, out) := by
  simp [mqttDeserializeConnack, readChar, h.readChar_header, h.decodeBuf, htype, hshort,
    field_length_of_short hshort]

theorem mqttDeserializeConnack_of_le (h : HoldsFrame buf header body)
    (htype : (MQTTHeader.ofByte header).type = MsgType.connack.code) {code : UInt8}
    (hcode : body[1]? = some code) (out : ConnackOut) :
    ∃ sessionPresent, mqttDeserializeConnack buf out = (1, ⟨sessionPresent, code⟩) := by
  have hbyte := h.body_apply hcode
  have hlong : ¬ body.length < 2 := by
    have := (List.getElem?_eq_some_iff.mp hcode).1
    omega
  rw [bodyStart] at hbyte
  refine ⟨toUnsignedChar (toChar (buf (bodyStart body))) &&& 1, ?_⟩
  simp [mqttDeserializeConnack, readChar, h.readChar_header, h.decodeBuf, htype, hlong, hbyte,
    toUnsignedChar_toChar, bodyStart]

end HoldsFrame

/-! ## `MQTTDeserialize_publish` on a frame -/

/-- The topic of a PUBLISH lies within its body. -/
def TopicFits (body : List UInt8) : Prop := ∃ n, leadingInt? body = some n ∧ 2 + n ≤ body.length

namespace HoldsFrame

variable {buf : Memory} {header : UInt8} {body : List UInt8}

/-- Where the topic does not fit, the decoder returns the number of length bytes. -/
theorem mqttDeserializePublish_of_not_fits (h : HoldsFrame buf header body)
    (htype : (MQTTHeader.ofByte header).type = MsgType.publish.code) (hfits : ¬ TopicFits body)
    (out : PublishOut) :
    (mqttDeserializePublish buf out).1 = (mqttPacketEncode body.length).length := by
  simp only [mqttDeserializePublish, readChar, Nat.zero_add, h.readChar_header, h.decodeBuf, htype,
    ne_eq, not_true_eq_false, if_false, readMQTTLenString]
  cases hlead : leadingInt? body with
  | none =>
      have hshort := leadingInt?_eq_none_iff.mp hlead
      have hroom : ¬ (1 : Int) <
          ((1 + (mqttPacketEncode body.length).length + body.length : Nat) : Int) -
          (1 + (mqttPacketEncode body.length).length : Nat) := by omega
      simp only [hroom, if_false]
      simp
  | some n =>
      have hlong : ¬ body.length < 2 := by
        rw [← leadingInt?_eq_none_iff, hlead]
        simp
      have hread := h.readInt_eq hlead
      rw [bodyStart] at hread
      have hroom : (1 : Int) <
          ((1 + (mqttPacketEncode body.length).length + body.length : Nat) : Int) -
          (1 + (mqttPacketEncode body.length).length : Nat) := by omega
      have hover : ¬ 1 + (mqttPacketEncode body.length).length + 2 + n ≤
          1 + (mqttPacketEncode body.length).length + body.length := by
        intro hle
        exact hfits ⟨n, hlead, by omega⟩
      simp only [hroom, if_true, hread, hover, if_false]
      simp

/-- Where the payload of a PUBLISH starts, for a topic of `n` bytes. -/
def payloadStart (header : UInt8) (body : List UInt8) (n : Nat) : Nat :=
  bodyStart body + 2 + n + if 0 < (MQTTHeader.ofByte header).qos then 2 else 0

/-- Where the topic fits, the payload is what follows, up to the end of the frame.
With an identifier the start may lie behind that end. -/
theorem mqttDeserializePublish_of_fits (h : HoldsFrame buf header body)
    (htype : (MQTTHeader.ofByte header).type = MsgType.publish.code) {n : Nat}
    (hlead : leadingInt? body = some n) (hn : 2 + n ≤ body.length) (out : PublishOut) :
    mqttDeserializePublish buf out =
      (1, { dup := UInt8.ofNat (MQTTHeader.ofByte header).dup
            qos := (MQTTHeader.ofByte header).qos
            retained := UInt8.ofNat (MQTTHeader.ofByte header).retain
            packetid := if 0 < (MQTTHeader.ofByte header).qos then
              UInt16.ofNat (readInt buf (bodyStart body + 2 + n)).1 else out.packetid
            topicName := ⟨none, n, .into buf (bodyStart body + 2)⟩
            payload := .into buf (payloadStart header body n)
            payloadlen := (frameLength body : Int) - payloadStart header body n }) := by
  have hread := h.readInt_eq hlead
  rw [bodyStart] at hread
  have hroom : (1 : Int) < ((1 + (mqttPacketEncode body.length).length + body.length : Nat) : Int) -
      (1 + (mqttPacketEncode body.length).length : Nat) := by omega
  have hin : 1 + (mqttPacketEncode body.length).length + 2 + n ≤
      1 + (mqttPacketEncode body.length).length + body.length := by omega
  simp only [mqttDeserializePublish, readChar, Nat.zero_add, h.readChar_header, h.decodeBuf, htype,
    ne_eq, not_true_eq_false, if_false, readMQTTLenString, hroom, if_true, hread, hin]
  rw [if_neg (by omega)]
  by_cases hqos : 0 < (MQTTHeader.ofByte header).qos
  · rw [if_pos (by omega)]
    simp [hqos, readInt, payloadStart, bodyStart, frameLength]
  · rw [if_neg (by omega)]
    simp [hqos, payloadStart, bodyStart, frameLength]

end HoldsFrame

/-! ## `MQTTDeserialize_suback` on a frame -/

/-- The loop takes one more code than `maxcount` before it gives up. -/
theorem mqttDeserializeSubackLoop_rc (buf : Memory) (maxcount : Nat) :
    ∀ (left curdata : Nat) (out : SubackOut), out.count ≤ maxcount + 1 →
      (mqttDeserializeSubackLoop buf maxcount left curdata out).1 =
        if out.count + left ≤ maxcount + 1 then 1 else -1 := by
  intro left
  induction left with
  | zero =>
      intro curdata out hcount
      rw [mqttDeserializeSubackLoop, if_pos (by omega)]
  | succ left ih =>
      intro curdata out hcount
      rw [mqttDeserializeSubackLoop]
      by_cases hfull : maxcount < out.count
      · rw [if_pos hfull, if_neg (by omega)]
      · rw [if_neg hfull, ih _ _ (by simp only; omega)]
        simp only [Nat.add_assoc, Nat.add_comm 1 left]

/-- Every code the loop stores has passed through a signed `char`. -/
theorem mqttDeserializeSubackLoop_grantedQoSs (buf : Memory) (maxcount : Nat) :
    ∀ (left curdata : Nat) (out : SubackOut), (∀ i, toUnsignedInt (out.grantedQoSs i) ≠ 0x80) →
      ∀ i, toUnsignedInt
        ((mqttDeserializeSubackLoop buf maxcount left curdata out).2.grantedQoSs i) ≠ 0x80 := by
  intro left
  induction left with
  | zero => intro curdata out hout; exact hout
  | succ left ih =>
      intro curdata out hout
      rw [mqttDeserializeSubackLoop]
      split
      · exact hout
      · apply ih
        intro i
        dsimp only
        by_cases hi : i = out.count
        · rw [hi, Function.update_self]
          exact toUnsignedInt_toChar_ne _
        · rw [Function.update_of_ne hi]
          exact hout i

namespace HoldsFrame

variable {buf : Memory} {header : UInt8} {body : List UInt8}

/-- Asked for one code, the decoder takes every SUBACK of at most four bytes, the
empty one included, and refuses longer ones. -/
theorem mqttDeserializeSuback_rc (h : HoldsFrame buf header body)
    (htype : (MQTTHeader.ofByte header).type = MsgType.suback.code) (out : SubackOut) :
    (mqttDeserializeSuback buf 1 out).1 = if body.length ≤ 4 then 1 else -1 := by
  simp only [mqttDeserializeSuback, readChar, Nat.zero_add, h.readChar_header, h.decodeBuf, htype,
    ne_eq, not_true_eq_false, if_false]
  by_cases hshort : body.length < 2
  · simp [hshort, field_length_of_short hshort, show body.length ≤ 4 by omega]
  · rw [if_neg hshort, mqttDeserializeSubackLoop_rc _ _ _ _ _ (Nat.zero_le _)]
    have hiff : 0 + (body.length - 2) ≤ 1 + 1 ↔ body.length ≤ 4 := by omega
    simp only [hiff]

end HoldsFrame

/-- No code comes out as `0x80`: the failure code of a SUBACK is seen as `-128`. -/
theorem mqttDeserializeSuback_grantedQoSs_ne (buf : Memory) (maxcount : Nat) (out : SubackOut)
    (hout : ∀ i, toUnsignedInt (out.grantedQoSs i) ≠ 0x80) (i : Nat) :
    toUnsignedInt ((mqttDeserializeSuback buf maxcount out).2.grantedQoSs i) ≠ 0x80 := by
  unfold mqttDeserializeSuback
  dsimp only
  split
  · exact hout i
  · split
    · exact hout i
    · exact mqttDeserializeSubackLoop_grantedQoSs _ _ _ _ _ (by exact hout) i

end MqttClient

/-
# Client-side serializers

`MQTTSerializePublish.c`, `MQTTConnectClient.c`, `MQTTSubscribeClient.c` and
`MQTTUnsubscribeClient.c`.  Each function first compares the length it computes
with the buffer it was given, an `int`, and only then writes.  What it writes is
one run of bytes from the start of the buffer, so a call is described by its
return value and that run.
-/

import MqttClient.Packet.Format

namespace MqttClient

open Semantics

/-- What one call of a serializer returns and writes. -/
structure Serialized where
  rc : Int
  written : List UInt8
  deriving DecidableEq, Repr

/-- The early exit of every serializer. -/
def Serialized.tooShort : Serialized := ⟨mqttPacketBufferTooShort, []⟩

/-- The ordinary exit: `rc = ptr - buf`. -/
def Serialized.ofBytes (written : List UInt8) : Serialized := ⟨written.length, written⟩

/-! ## `MQTTSerializePublish.c` -/

/-- `MQTTSerialize_publishLength`. -/
def mqttSerializePublishLength (qos : Int) (topicName : MQTTString) (payloadlen : Int) : Int :=
  let len := 2 + mqttStrlen topicName + payloadlen
  if 0 < qos then len + 2 else len -- packetid

/-- `MQTTSerialize_publish`.  The payload length is an `int`: `memcpy` reads it
as a `size_t`, while the pointer moves by the signed value. -/
def mqttSerializePublish (buflen : Int) (dup : UInt8) (qos : Int) (retained : UInt8)
    (packetid : UInt16) (topicName : MQTTString) (payload : Pointer) (payloadlen : Int) :
    Serialized :=
  let remLen := mqttSerializePublishLength qos topicName payloadlen
  if buflen < mqttPacketLen remLen then .tooShort
  else
    let header : MQTTHeader := ⟨MsgType.publish.code, dup.toNat, (qos % 4).toNat, retained.toNat⟩
    let start := header.byte :: mqttPacketEncode remLen ++ writeMQTTString topicName ++
      (if 0 < qos then writeInt packetid.toNat else [])
    ⟨start.length + payloadlen, start ++ payload.deref.load 0 (toSizeT payloadlen)⟩

/-- `MQTTSerialize_ack`. -/
def mqttSerializeAck (buflen : Int) (packettype : MsgType) (dup : UInt8) (packetid : UInt16) :
    Serialized :=
  if buflen < 4 then .tooShort
  else
    let header : MQTTHeader :=
      ⟨packettype.code, dup.toNat, if packettype = .pubrel then 1 else 0, 0⟩
    .ofBytes (header.byte :: mqttPacketEncode 2 ++ writeInt packetid.toNat)

/-! ## `MQTTSubscribeClient.c` and `MQTTUnsubscribeClient.c` -/

/-- `MQTTSerialize_subscribeLength`. -/
def mqttSerializeSubscribeLength (topicFilters : List MQTTString) : Int :=
  topicFilters.foldl (fun len filter => len + (2 + mqttStrlen filter + 1)) 2

/-- `MQTTSerialize_subscribe`, with the two argument arrays as one list. -/
def mqttSerializeSubscribe (buflen : Int) (dup : UInt8) (packetid : UInt16)
    (requests : List (MQTTString × Int)) : Serialized :=
  let remLen := mqttSerializeSubscribeLength (requests.map Prod.fst)
  if buflen < mqttPacketLen remLen then .tooShort
  else
    let header : MQTTHeader := ⟨MsgType.subscribe.code, dup.toNat, 1, 0⟩
    .ofBytes (header.byte :: mqttPacketEncode remLen ++ writeInt packetid.toNat ++
      requests.flatMap fun request => writeMQTTString request.1 ++ [toUnsignedChar request.2])

/-- `MQTTSerialize_unsubscribeLength`. -/
def mqttSerializeUnsubscribeLength (topicFilters : List MQTTString) : Int :=
  topicFilters.foldl (fun len filter => len + (2 + mqttStrlen filter)) 2

/-- `MQTTSerialize_unsubscribe`. -/
def mqttSerializeUnsubscribe (buflen : Int) (dup : UInt8) (packetid : UInt16)
    (topicFilters : List MQTTString) : Serialized :=
  let remLen := mqttSerializeUnsubscribeLength topicFilters
  if buflen < mqttPacketLen remLen then .tooShort
  else
    let header : MQTTHeader := ⟨MsgType.unsubscribe.code, dup.toNat, 1, 0⟩
    .ofBytes (header.byte :: mqttPacketEncode remLen ++ writeInt packetid.toNat ++
      topicFilters.flatMap writeMQTTString)

/-! ## `MQTTConnectClient.c` -/

/-- `MQTTPacket_willOptions`, without its eyecatcher and version. -/
structure MQTTPacketWillOptions where
  topicName : MQTTString
  message : MQTTString
  retained : UInt8
  qos : Int

/-- `MQTTPacket_connectData`, without its eyecatcher and version. -/
structure MQTTPacketConnectData where
  mqttVersion : Nat
  clientID : MQTTString
  keepAliveInterval : UInt16
  cleansession : UInt8
  willFlag : UInt8
  will : MQTTPacketWillOptions
  username : MQTTString
  password : MQTTString

/-- `MQTTPacket_connectData_initializer`. -/
def MQTTPacketConnectData.initializer : MQTTPacketConnectData where
  mqttVersion := 4
  clientID := .initializer
  keepAliveInterval := 60
  cleansession := 1
  willFlag := 0
  will := ⟨.initializer, .initializer, 0, 0⟩
  username := .initializer
  password := .initializer

/-- `s.cstring || s.lenstring.data`. -/
def MQTTString.isPresent (s : MQTTString) : Bool := s.cstring.isSome || !s.lenstring.data.isNull

/-- `MQTTSerialize_connectLength`. -/
def mqttSerializeConnectLength (options : MQTTPacketConnectData) : Int :=
  (if options.mqttVersion = 3 then 12 -- variable depending on MQTT or MQIsdp
    else if options.mqttVersion = 4 then 10 else 0) +
  (mqttStrlen options.clientID + 2) +
  (if options.willFlag ≠ 0 then
    mqttStrlen options.will.topicName + 2 + mqttStrlen options.will.message + 2 else 0) +
  (if options.username.isPresent then mqttStrlen options.username + 2 else 0) +
  (if options.password.isPresent then mqttStrlen options.password + 2 else 0)

/-- The flag byte of `MQTTConnectFlags` as `MQTTSerialize_connect` fills it. -/
def mqttConnectFlags (options : MQTTPacketConnectData) : UInt8 :=
  UInt8.ofNat (
    options.cleansession.toNat % 2 * 2 +
    (if options.willFlag ≠ 0 then
      4 + (options.will.qos % 4).toNat * 8 + options.will.retained.toNat % 2 * 32 else 0) +
    (if options.password.isPresent then 64 else 0) +
    (if options.username.isPresent then 128 else 0))

/-- The protocol name `"MQTT"`. -/
def mqttProtocolName : CString := ⟨[77, 81, 84, 84], by decide⟩

/-- The protocol name `"MQIsdp"`. -/
def mqIsdpProtocolName : CString := ⟨[77, 81, 73, 115, 100, 112], by decide⟩

/-- `MQTTSerialize_connect`. -/
def mqttSerializeConnect (buflen : Int) (options : MQTTPacketConnectData) : Serialized :=
  let len := mqttSerializeConnectLength options
  if buflen < mqttPacketLen len then .tooShort
  else
    let header : MQTTHeader := ⟨MsgType.connect.code, 0, 0, 0⟩
    .ofBytes (header.byte :: mqttPacketEncode len ++
      (if options.mqttVersion = 4 then writeCString mqttProtocolName ++ [4]
        else writeCString mqIsdpProtocolName ++ [3]) ++
      [mqttConnectFlags options] ++
      writeInt options.keepAliveInterval.toNat ++
      writeMQTTString options.clientID ++
      (if options.willFlag ≠ 0 then
        writeMQTTString options.will.topicName ++ writeMQTTString options.will.message else []) ++
      (if options.username.isPresent then writeMQTTString options.username else []) ++
      (if options.password.isPresent then writeMQTTString options.password else []))

/-- `MQTTSerialize_zero`. -/
def mqttSerializeZero (buflen : Int) (packettype : MsgType) : Serialized :=
  if buflen < 2 then .tooShort
  else
    let header : MQTTHeader := ⟨packettype.code, 0, 0, 0⟩
    .ofBytes (header.byte :: mqttPacketEncode 0)

/-- `MQTTSerialize_disconnect`. -/
def mqttSerializeDisconnect (buflen : Int) : Serialized := mqttSerializeZero buflen .disconnect

/-- `MQTTSerialize_pingreq`. -/
def mqttSerializePingreq (buflen : Int) : Serialized := mqttSerializeZero buflen .pingreq

/-! ## What the acknowledgements look like on the wire -/

/-- The bytes of an acknowledgement: only a PUBREL carries the flag bits 0010. -/
def ackBytes (packettype : MsgType) (packetid : UInt16) : List UInt8 :=
  [MQTTHeader.byte ⟨packettype.code, 0, if packettype = .pubrel then 1 else 0, 0⟩, 2,
    UInt8.ofNat (packetid.toNat / 256), UInt8.ofNat (packetid.toNat % 256)]

theorem writeInt_natCast {n : Nat} (h : n < 65536) :
    writeInt n = [UInt8.ofNat (n / 256), UInt8.ofNat (n % 256)] := by
  have hquot : Int.tdiv (n : Int) 256 = ((n / 256 : Nat) : Int) := by
    rw [Int.tdiv_eq_ediv_of_nonneg (by omega)]
    omega
  have hrem : Int.tmod (n : Int) 256 = ((n % 256 : Nat) : Int) := by
    rw [Int.tmod_eq_emod_of_nonneg (by omega)]
    omega
  have hbyte : ∀ k : Nat, k < 256 → toUnsignedChar (k : Int) = UInt8.ofNat k := by
    intro k hk
    apply UInt8.toNat_inj.mp
    rw [toUnsignedChar_natCast_toNat hk, UInt8.toNat_ofNat']
    omega
  rw [writeInt, hquot, hrem, hbyte _ (by omega), hbyte _ (by omega)]

theorem mqttSerializeAck_of_le {buflen : Int} (h : 4 ≤ buflen) (packettype : MsgType)
    (packetid : UInt16) :
    mqttSerializeAck buflen packettype 0 packetid = ⟨4, ackBytes packettype packetid⟩ := by
  have hlt := packetid.toNat_lt
  rw [mqttSerializeAck, if_neg (by omega), writeInt_natCast (by omega)]
  rfl

end MqttClient

/-
# The server's side of `MQTTPacket`

`MQTTDeserialize_subscribe`, `MQTTDeserialize_unsubscribe` and
`MQTTDeserialize_connect`, and the serializers of the replies.  The client does not
call them; they stand beside its own functions in `MQTTPacket` and read what those
write.  As on the client's side an output parameter that a path does not assign keeps
what the caller had there, and an array is what lies at and after its pointer.
-/

import MqttClient.Packet.Deserialize
import MqttClient.Packet.Serialize

namespace MqttClient

open Semantics

/-! ## `MQTTSubscribeServer.c` and `MQTTUnsubscribeServer.c` -/

/-- The output parameters of `MQTTDeserialize_subscribe`. -/
structure SubscribeOut where
  dup : UInt8
  packetid : UInt16
  count : Nat
  topicFilters : Nat → MQTTString
  requestedQoSs : Nat → Int

/-- The `while` loop of `MQTTDeserialize_subscribe`, with the value of `rc` before it.
Every pass that goes on takes at least three bytes, so as many passes as there are
bytes are enough.  The parameter `maxcount` is not looked at. -/
def mqttDeserializeSubscribeLoop (buf : Memory) (rc : Int) (enddata : Nat) :
    (passes curdata : Nat) → SubscribeOut → Int × SubscribeOut
  | 0, _, out => (1, out)
  | passes + 1, curdata, out =>
      if curdata < enddata then
        let (ok, filter, curdata) :=
          readMQTTLenString (out.topicFilters out.count) buf curdata enddata
        let out := { out with topicFilters := Function.update out.topicFilters out.count filter }
        if ok = 0 then (rc, out)
        else if enddata ≤ curdata then (rc, out) -- not enough data for the requested QoS
        else
          let (c, curdata) := readChar buf curdata
          mqttDeserializeSubscribeLoop buf rc enddata passes curdata
            { out with
              requestedQoSs := Function.update out.requestedQoSs out.count c
              count := out.count + 1 }
      else (1, out)

/-- `MQTTDeserialize_subscribe`. -/
def mqttDeserializeSubscribe (buf : Memory) (_maxcount : Nat) (out : SubscribeOut) :
    Int × SubscribeOut :=
  let (c, curdata) := readChar buf 0
  let header := MQTTHeader.ofByte (toUnsignedChar c)
  if header.type ≠ MsgType.subscribe.code then (-1, out)
  else
    let (rc, mylen) := mqttPacketDecodeBuf (buf.shift curdata)
    let curdata := curdata + rc
    let enddata := curdata + mylen
    -- nothing checks that the packet identifier lies before `enddata`
    let (packetid, curdata) := readInt buf curdata
    mqttDeserializeSubscribeLoop buf rc enddata mylen curdata
      { out with
        dup := UInt8.ofNat header.dup
        packetid := UInt16.ofNat packetid
        count := 0 }

/-- The output parameters of `MQTTDeserialize_unsubscribe`. -/
structure UnsubscribeOut where
  dup : UInt8
  packetid : UInt16
  count : Nat
  topicFilters : Nat → MQTTString

/-- The `while` loop of `MQTTDeserialize_unsubscribe`: the same without the byte for
the QoS. -/
def mqttDeserializeUnsubscribeLoop (buf : Memory) (rc : Int) (enddata : Nat) :
    (passes curdata : Nat) → UnsubscribeOut → Int × UnsubscribeOut
  | 0, _, out => (1, out)
  | passes + 1, curdata, out =>
      if curdata < enddata then
        let (ok, filter, curdata) :=
          readMQTTLenString (out.topicFilters out.count) buf curdata enddata
        let out := { out with topicFilters := Function.update out.topicFilters out.count filter }
        if ok = 0 then (rc, out)
        else
          mqttDeserializeUnsubscribeLoop buf rc enddata passes curdata
            { out with count := out.count + 1 }
      else (1, out)

/-- `MQTTDeserialize_unsubscribe`. -/
def mqttDeserializeUnsubscribe (buf : Memory) (_maxcount : Nat) (out : UnsubscribeOut) :
    Int × UnsubscribeOut :=
  let (c, curdata) := readChar buf 0
  let header := MQTTHeader.ofByte (toUnsignedChar c)
  if header.type ≠ MsgType.unsubscribe.code then (0, out)
  else
    let (rc, mylen) := mqttPacketDecodeBuf (buf.shift curdata)
    let curdata := curdata + rc
    let enddata := curdata + mylen
    let (packetid, curdata) := readInt buf curdata
    mqttDeserializeUnsubscribeLoop buf rc enddata mylen curdata
      { out with
        dup := UInt8.ofNat header.dup
        packetid := UInt16.ofNat packetid
        count := 0 }

/-! ## The replies -/

/-- `MQTTSerialize_suback`.  The remaining length is an `int`. -/
def mqttSerializeSuback (buflen : Int) (packetid : UInt16) (count : Int) (grantedQoSs : Nat → Int) :
    Serialized :=
  if buflen < toInt (2 + count) then .tooShort
  else
    let header : MQTTHeader := ⟨MsgType.suback.code, 0, 0, 0⟩
    .ofBytes (header.byte :: mqttPacketEncode (toInt (2 + count)) ++ writeInt packetid.toNat ++
      (List.range count.toNat).map fun i => toUnsignedChar (grantedQoSs i))

/-- `MQTTSerialize_unsuback`. -/
def mqttSerializeUnsuback (buflen : Int) (packetid : UInt16) : Serialized :=
  if buflen < 2 then .tooShort
  else
    let header : MQTTHeader := ⟨MsgType.unsuback.code, 0, 0, 0⟩
    .ofBytes (header.byte :: mqttPacketEncode 2 ++ writeInt packetid.toNat)

/-- `MQTTSerialize_connack`.  The session flag is a bit field of one bit. -/
def mqttSerializeConnack (buflen : Int) (connackRc sessionPresent : UInt8) : Serialized :=
  if buflen < 2 then .tooShort
  else
    let header : MQTTHeader := ⟨MsgType.connack.code, 0, 0, 0⟩
    .ofBytes (header.byte :: mqttPacketEncode 2 ++ [sessionPresent &&& 1, connackRc])

/-! ## `MQTTConnectServer.c` -/

/-- The bit fields of `MQTTConnectFlags`, in the little-endian layout. -/
structure MQTTConnectFlags where
  cleansession : Nat
  will : Nat
  willQoS : Nat
  willRetain : Nat
  password : Nat
  username : Nat
  deriving DecidableEq, Repr

/-- Read the union through its bit fields. -/
def MQTTConnectFlags.ofByte (b : UInt8) : MQTTConnectFlags where
  cleansession := b.toNat / 2 % 2
  will := b.toNat / 4 % 2
  willQoS := b.toNat / 8 % 4
  willRetain := b.toNat / 32 % 2
  password := b.toNat / 64 % 2
  username := b.toNat / 128

/-- `memcmp` finds no difference in the first `min(strlen(name), len)` bytes. -/
def MQTTString.startsLike (protocol : MQTTString) (name : CString) : Bool :=
  let n := (min (name.bytes.length : Int) protocol.lenstring.len).toNat
  protocol.lenstring.data.deref.load 0 n == name.bytes.take n

/-- `MQTTPacket_checkVersion`. -/
def mqttPacketCheckVersion (protocol : MQTTString) (version : Int) : Bool :=
  if version = 3 ∧ protocol.startsLike mqIsdpProtocolName then true
  else if version = 4 ∧ protocol.startsLike mqttProtocolName then true
  else false

section Connect

variable (flags : MQTTConnectFlags) (data : MQTTPacketConnectData) (buf : Memory)
  (curdata enddata : Nat)

/-- The will in `MQTTDeserialize_connect`: whether to go on, the data and the pointer. -/
def mqttDeserializeConnectWill : Int × MQTTPacketConnectData × Nat :=
  if flags.will = 0 then (1, data, curdata)
  else
    let (ok, topicName, curdata) := readMQTTLenString data.will.topicName buf curdata enddata
    let will :=
      { data.will with
        qos := flags.willQoS
        retained := UInt8.ofNat flags.willRetain
        topicName := topicName }
    if ok = 0 then (0, { data with will }, curdata)
    else
      let (ok, message, curdata) := readMQTTLenString data.will.message buf curdata enddata
      (ok, { data with will := { will with message } }, curdata)

/-- User name and password in `MQTTDeserialize_connect`.  Each must have three bytes
before `enddata`, so a string without bytes is refused where nothing follows it. -/
def mqttDeserializeConnectCredentials : Int × MQTTPacketConnectData :=
  if flags.username ≠ 0 then
    if (enddata : Int) - curdata < 3 then (0, data)
    else
      let (ok, username, curdata) := readMQTTLenString data.username buf curdata enddata
      let data := { data with username }
      if ok = 0 then (0, data) -- username flag set, but no username supplied
      else if flags.password ≠ 0 then
        if (enddata : Int) - curdata < 3 then (0, data)
        else
          let (ok, password, _) := readMQTTLenString data.password buf curdata enddata
          (ok, { data with password }) -- password flag set, but no password supplied
      else (1, data)
  else if flags.password ≠ 0 then (0, data) -- password flag set without username
  else (1, data)

/-- `MQTTDeserialize_connect` behind protocol name and level. -/
def mqttDeserializeConnectFields : Int × MQTTPacketConnectData :=
  let (all, curdata) := readChar buf curdata
  let flags := MQTTConnectFlags.ofByte (toUnsignedChar all)
  let (keepAliveInterval, curdata) := readInt buf curdata
  let (ok, clientID, curdata) := readMQTTLenString data.clientID buf curdata enddata
  let data :=
    { data with
      cleansession := UInt8.ofNat flags.cleansession
      keepAliveInterval := UInt16.ofNat keepAliveInterval
      clientID := clientID }
  if ok = 0 then (0, data)
  else
    let data := { data with willFlag := UInt8.ofNat flags.will }
    let (ok, data, curdata) := mqttDeserializeConnectWill flags data buf curdata enddata
    if ok = 0 then (0, data)
    else mqttDeserializeConnectCredentials flags data buf curdata enddata

end Connect

/-- `MQTTDeserialize_connect` on a buffer of `len` bytes. -/
def mqttDeserializeConnect (data : MQTTPacketConnectData) (buf : Memory) (len : Nat) :
    Int × MQTTPacketConnectData :=
  let (c, curdata) := readChar buf 0
  let header := MQTTHeader.ofByte (toUnsignedChar c)
  if header.type ≠ MsgType.connect.code then (0, data)
  else
    let (lengthBytes, _) := mqttPacketDecodeBuf (buf.shift curdata)
    let curdata := curdata + lengthBytes
    -- the local `Protocol` is used only once it has been read
    let (ok, protocol, curdata) := readMQTTLenString .initializer buf curdata len
    if ok = 0 ∨ (len : Int) - curdata < 0 then (0, data)
    else
      let (version, curdata) := readChar buf curdata
      -- a version that is not recognised is not parsed
      if mqttPacketCheckVersion protocol version then
        mqttDeserializeConnectFields data buf curdata len
      else (0, data)

end MqttClient

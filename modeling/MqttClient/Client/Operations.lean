/-
# The client's interface: the upper half of `MQTTClient.c`

`MQTTConnect`, `MQTTSubscribe`, `MQTTUnsubscribe`, `MQTTPublish` and
`MQTTDisconnect`.  The four requests that are answered start alike: a command
timer, a serializer on the send buffer, and `sendPacket`; any failure there ends
the call with `FAILURE`.  They then wait for their answer and decode it.

`MQTT_TASK` is not defined in this program, so no function takes a mutex.
-/

import MqttClient.Client.Cycle

namespace MqttClient

open Semantics

variable {σ H : Type} (P : Platform σ) (fuel : Nat)

/-- `MQTTClientInit`.  The keepalive interval and the function pointers of the
slots keep whatever they held. -/
def mqttClientInit (c : MQTTClient H) (commandTimeoutMs : Nat) (sendbuf : Memory)
    (sendbufSize : Nat) (readbuf : Memory) (readbufSize : Nat) : MQTTClient H :=
  { c with
    messageHandlers := fun i => { c.messageHandlers i with topicFilter := none }
    commandTimeoutMs := commandTimeoutMs
    buf := sendbuf
    bufSize := sendbufSize
    readbuf := readbuf
    readbufSize := readbufSize
    isconnected := false
    cleansession := false
    pingOutstanding := false
    defaultMessageHandler := none
    nextPacketid := 1
    lastSent := .init
    lastReceived := .init }

/-- `MQTTIsConnected`. -/
def mqttIsConnected : Action σ H Bool := .gets fun w => w.client.isconnected

/-- The common start of a request: start the command timer, prepare the
serializer, fill the send buffer and send it.  The timer when all went out. -/
def sendRequest (prepare : Action σ H (Int → Serialized)) : Action σ H (Option Timer) := do
  let c ← client
  let timer ← timerCountdownMS P c.commandTimeoutMs
  let serializer ← prepare
  let len ← serialize serializer
  if len ≤ 0 then pure none
  else do
    let rc ← sendPacket P fuel len.toNat timer
    if rc ≠ mqttSuccess then pure none -- there was a problem
    else pure (some timer)

/-! ## `MQTTConnect` -/

/-- The assignments between the command timer and the CONNECT packet. -/
def prepareConnect (options : MQTTPacketConnectData) : Action σ H (Int → Serialized) := do
  modifyClient fun c => { c with
    keepAliveInterval := options.keepAliveInterval.toNat
    cleansession := options.cleansession ≠ 0 }
  let c ← client
  let lastReceived ← timerCountdown P c.keepAliveInterval
  modifyClient fun c => { c with lastReceived }
  pure fun buflen => mqttSerializeConnect buflen options

/-- The label `exit` of `MQTTConnectWithResults`. -/
def finishConnect (rc : Int) : Action σ H Int :=
  if rc = mqttSuccess then do
    modifyClient fun c => { c with isconnected := true, pingOutstanding := false }
    pure rc
  else pure rc

/-- `MQTTConnectWithResults`, with the results as they are left behind. -/
def mqttConnectWithResults (options : Option MQTTPacketConnectData) (data : ConnackOut) :
    Action σ H (Int × ConnackOut) := do
  let c ← client
  if c.isconnected then do -- don't send connect packet again if we are already connected
    let rc ← finishConnect failure
    pure (rc, data)
  else do
    let sent ← sendRequest P fuel (prepareConnect P (options.getD .initializer))
    match sent with
    | none => do
        let rc ← finishConnect failure
        pure (rc, data)
    | some connectTimer => do
        -- this will be a blocking call, wait for the connack
        let answer ← waitfor P fuel .connack connectTimer
        if answer = MsgType.connack.code then do
          let c ← client
          let (ok, data) := mqttDeserializeConnack c.readbuf ⟨0, 0⟩
          let rc ← finishConnect (if ok = 1 then data.connackRc.toNat else failure)
          pure (rc, data)
        else do
          let rc ← finishConnect failure
          pure (rc, data)

/-- `MQTTConnect`. -/
def mqttConnect (options : Option MQTTPacketConnectData) (data : ConnackOut) : Action σ H Int := do
  let (rc, _) ← mqttConnectWithResults P fuel options data
  pure rc

/-! ## `MQTTSetMessageHandler` -/

/-- The table of `struct MessageHandlers`. -/
abbrev HandlerTable (H : Type) : Type := Fin maxMessageHandlers → MessageHandlers H

/-- The first slot, in slot order, with this filter field. -/
def HandlerTable.slotOf (table : HandlerTable H) (topicFilter : Option CString) :
    Option (Fin maxMessageHandlers) :=
  (List.finRange maxMessageHandlers).find? fun i => (table i).topicFilter = topicFilter

/-- `MQTTSetMessageHandler` on the table: the return code and the new table. -/
def HandlerTable.setMessageHandler (table : HandlerTable H) (topicFilter : CString)
    (messageHandler : Option H) : Int × HandlerTable H :=
  match table.slotOf (some topicFilter), messageHandler with
  | some i, none => (mqttSuccess, Function.update table i ⟨none, none⟩) -- remove existing
  | some i, some fp => (mqttSuccess, Function.update table i ⟨some topicFilter, some fp⟩)
  | none, none => (failure, table)
  | none, some fp =>
      -- if no existing, look for empty slot (unless we are removing)
      match table.slotOf none with
      | some i => (mqttSuccess, Function.update table i ⟨some topicFilter, some fp⟩)
      | none => (failure, table)

/-- `MQTTSetMessageHandler`. -/
def mqttSetMessageHandler (topicFilter : CString) (messageHandler : Option H) : Action σ H Int := do
  let c ← client
  let (rc, messageHandlers) :=
    HandlerTable.setMessageHandler c.messageHandlers topicFilter messageHandler
  modifyClient fun c => { c with messageHandlers }
  pure rc

/-! ## Requests of a connected client -/

/-- The label `exit` of the requests. -/
def finishRequest (rc : Int) : Action σ H Int :=
  if rc = failure then do
    mqttCloseSession
    pure rc
  else pure rc

/-- A topic given as a C string. -/
def MQTTString.ofCString (topic : CString) : MQTTString :=
  { MQTTString.initializer with cstring := some topic }

/-- The SUBSCRIBE packet under the next identifier. -/
def prepareSubscribe (topicFilter : CString) (qos : Int) : Action σ H (Int → Serialized) := do
  let id ← getNextPacketId
  pure fun buflen =>
    mqttSerializeSubscribe buflen 0 (UInt16.ofNat id) [(.ofCString topicFilter, qos)]

/-- What `MQTTSubscribeWithResults` does with the SUBACK in the read buffer: the
new `rc` and the granted QoS.  `rc` still holds `MQTT_SUCCESS` from `sendPacket`
when the packet is refused. -/
def acceptSuback (topicFilter : CString) (messageHandler : Option H) : Action σ H (Int × Int) := do
  let c ← client
  let (ok, out) := mqttDeserializeSuback c.readbuf 1 ⟨0, 0, fun _ => 0⟩
  let grantedQoS := out.grantedQoSs 0
  if ok = 1 ∧ toUnsignedInt grantedQoS ≠ 0x80 then do
    let rc ← mqttSetMessageHandler topicFilter messageHandler
    pure (rc, grantedQoS)
  else pure (mqttSuccess, grantedQoS)

/-- `MQTTSubscribeWithResults`, with the granted QoS as it is left behind. -/
def mqttSubscribeWithResults (topicFilter : CString) (qos : Int) (messageHandler : Option H)
    (grantedQoS : Int) : Action σ H (Int × Int) := do
  let c ← client
  if c.isconnected then do
    let sent ← sendRequest P fuel (prepareSubscribe topicFilter qos)
    match sent with
    | none => do
        let rc ← finishRequest failure
        pure (rc, grantedQoS)
    | some timer => do
        let answer ← waitfor P fuel .suback timer -- wait for suback
        if answer = MsgType.suback.code then do
          let (rc, grantedQoS) ← acceptSuback topicFilter messageHandler
          let rc ← finishRequest rc
          pure (rc, grantedQoS)
        else do
          let rc ← finishRequest failure
          pure (rc, grantedQoS)
  else do
    let rc ← finishRequest failure
    pure (rc, grantedQoS)

/-- `MQTTSubscribe`. -/
def mqttSubscribe (topicFilter : CString) (qos : Int) (messageHandler : Option H)
    (grantedQoS : Int) : Action σ H Int := do
  let (rc, _) ← mqttSubscribeWithResults P fuel topicFilter qos messageHandler grantedQoS
  pure rc

/-- The UNSUBSCRIBE packet under the next identifier. -/
def prepareUnsubscribe (topicFilter : CString) : Action σ H (Int → Serialized) := do
  let id ← getNextPacketId
  pure fun buflen => mqttSerializeUnsubscribe buflen 0 (UInt16.ofNat id) [.ofCString topicFilter]

/-- What `MQTTUnsubscribe` does with the UNSUBACK in the read buffer. -/
def acceptUnsuback (topicFilter : CString) : Action σ H Int := do
  let c ← client
  if (mqttDeserializeUnsuback c.readbuf 0).1 = 1 then do
    -- remove the subscription message handler associated with this topic, if there is one
    let _ ← mqttSetMessageHandler topicFilter none
    pure mqttSuccess
  else pure mqttSuccess

/-- `MQTTUnsubscribe`. -/
def mqttUnsubscribe (topicFilter : CString) : Action σ H Int := do
  let c ← client
  if c.isconnected then do
    let sent ← sendRequest P fuel (prepareUnsubscribe topicFilter)
    match sent with
    | none => finishRequest failure
    | some timer => do
        let answer ← waitfor P fuel .unsuback timer
        if answer = MsgType.unsuback.code then do
          let rc ← acceptUnsuback topicFilter
          finishRequest rc
        else finishRequest failure
  else finishRequest failure

/-- The value of `message->id`: a fresh identifier at QoS 1 and 2, else the caller's. -/
def publishId (message : MQTTMessage) : Action σ H UInt16 :=
  if message.qos = 1 ∨ message.qos = 2 then do
    let id ← getNextPacketId
    pure (UInt16.ofNat id)
  else pure message.id

/-- The PUBLISH packet under its identifier. -/
def preparePublish (topicName : CString) (message : MQTTMessage) :
    Action σ H (Int → Serialized) := do
  let id ← publishId message
  pure fun buflen => mqttSerializePublish buflen 0 message.qos message.retained id
    (.ofCString topicName) message.payload (toInt message.payloadlen)

/-- Wait for the acknowledgement of a PUBLISH and decode it. -/
def awaitAck (packetType : MsgType) (timer : Timer) : Action σ H Int := do
  let answer ← waitfor P fuel packetType timer
  if answer = packetType.code then do
    let c ← client
    if (mqttDeserializeAck c.readbuf ⟨0, 0, 0⟩).1 ≠ 1 then pure failure else pure mqttSuccess
  else pure failure

/-- `MQTTPublish`.  The identifier it stores into `*message` is the client's
`next_packetid` after the call. -/
def mqttPublish (topicName : CString) (message : MQTTMessage) : Action σ H Int := do
  let c ← client
  if c.isconnected then do
    let sent ← sendRequest P fuel (preparePublish topicName message)
    match sent with
    | none => finishRequest failure
    | some timer =>
        if message.qos = 1 then do
          let rc ← awaitAck P fuel .puback timer
          finishRequest rc
        else if message.qos = 2 then do
          let rc ← awaitAck P fuel .pubcomp timer
          finishRequest rc
        else finishRequest mqttSuccess
  else finishRequest failure

/-- `MQTTDisconnect`. -/
def mqttDisconnect : Action σ H Int := do
  let c ← client
  let timer ← timerCountdownMS P c.commandTimeoutMs
  let len ← serialize mqttSerializeDisconnect
  if 0 < len then do
    let rc ← sendPacket P fuel len.toNat timer -- send the disconnect packet
    mqttCloseSession
    pure rc
  else do
    mqttCloseSession
    pure failure

end MqttClient

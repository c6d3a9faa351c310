/-
# One turn of the client: the middle of `MQTTClient.c`

`cycle` reads one packet, acts on it, and checks the keepalive; `MQTTYield` and
`waitfor` repeat it.  The `goto exit` of `cycle` skips the keepalive check, and
every path then meets the same block at the end, so a branch of the `switch`
yields the value of `rc` and where it goes.
-/

import MqttClient.Client.Transport

namespace MqttClient

open Semantics

variable {σ H : Type} (P : Platform σ) (fuel : Nat)

/-! ## Topic filters -/

/-- The byte `'/'`. -/
@[reducible]
def slash : UInt8 := 47

/-- The byte `'+'`. -/
@[reducible]
def plus : UInt8 := 43

/-- The byte `'#'`. -/
@[reducible]
def hash : UInt8 := 35

/-- The `while` loop of `isTopicMatched`, on what is left of the filter and of the
name; the result is what is left of both when the loop ends. -/
def isTopicMatchedLoop : (curf curn : List UInt8) → List UInt8 × List UInt8
  | [], curn => ([], curn)
  | f :: curf, [] => (f :: curf, [])
  | f :: curf, n :: curn =>
      if n = slash ∧ f ≠ slash then (f :: curf, n :: curn)
      else if f ≠ plus ∧ f ≠ hash ∧ f ≠ n then (f :: curf, n :: curn)
      else if f = plus then
        -- skip until we meet the next separator, or end of string
        isTopicMatchedLoop curf (curn.dropWhile (· ≠ slash))
      else if f = hash then isTopicMatchedLoop curf [] -- skip until end of string
      else isTopicMatchedLoop curf curn

/-- `isTopicMatched`.  With a negative length the name ends before it starts: the
loop is not entered and the two pointers differ. -/
def isTopicMatched (topicFilter : CString) (topicName : MQTTString) : Bool :=
  if topicName.lenstring.len < 0 then false
  else
    let name := topicName.lenstring.data.deref.load 0 topicName.lenstring.len.toNat
    let (curf, curn) := isTopicMatchedLoop topicFilter.bytes name
    curn.isEmpty && curf.isEmpty

/-- The test `deliverMessage` applies to a slot. -/
def filterAccepts (topicFilter : CString) (topicName : MQTTString) : Bool :=
  mqttPacketEquals topicName topicFilter || isTopicMatched topicFilter topicName

/-- The handler a slot contributes for a topic, if any. -/
def MessageHandlers.handlerFor (slot : MessageHandlers H) (topicName : MQTTString) : Option H :=
  match slot.topicFilter with
  | some topicFilter => if filterAccepts topicFilter topicName then slot.fp else none
  | none => none

/-- The `for` loop of `deliverMessage` over the remaining slots: whether a handler
was called. -/
def deliverLoop (data : MessageData) : List (MessageHandlers H) → Bool → Action σ H Bool
  | [], delivered => pure delivered
  | slot :: slots, delivered =>
      match slot.handlerFor data.topicName with
      | some fp => do
          logEvent (.call fp data)
          deliverLoop data slots true
      | none => deliverLoop data slots delivered

/-- `deliverMessage`.  A handler is outside the client and does not call back. -/
def deliverMessage (topicName : MQTTString) (message : MQTTMessage) : Action σ H Int := do
  let data : MessageData := ⟨message, topicName⟩
  let c ← client
  let delivered ← deliverLoop data (List.ofFn c.messageHandlers) false
  if delivered then pure mqttSuccess
  else
    match c.defaultMessageHandler with
    | some fp => do
        logEvent (.call fp data)
        pure mqttSuccess
    | none => pure failure

/-! ## Keepalive and the end of a session -/

/-- `TimerIsExpired(&c->last_sent) || TimerIsExpired(&c->last_received)`. -/
def keepaliveDue : Action σ H Bool := do
  let c ← client
  let sentExpired ← timerIsExpired P c.lastSent
  if sentExpired then pure true
  else timerIsExpired P c.lastReceived

/-- The sending branch of `keepalive`.  When the buffer is too small for the
PINGREQ nothing is sent and the result is still `MQTT_SUCCESS`. -/
def sendPing : Action σ H Int := do
  let timer ← timerCountdownMS P 1000
  let len ← serialize mqttSerializePingreq
  if 0 < len then do
    let rc ← sendPacket P fuel len.toNat timer
    if rc = mqttSuccess then do
      modifyClient fun c => { c with pingOutstanding := true }
      pure rc
    else pure rc
  else pure mqttSuccess

/-- `keepalive`. -/
def keepalive : Action σ H Int := do
  let c ← client
  if c.keepAliveInterval = 0 then pure mqttSuccess
  else do
    let due ← keepaliveDue P
    if due then
      if c.pingOutstanding then pure failure -- PINGRESP not received in keepalive interval
      else sendPing P fuel
    else pure mqttSuccess

/-- `MQTTCleanSession`: every filter is cleared, the function pointers stay. -/
def MQTTClient.cleanSession (c : MQTTClient H) : MQTTClient H :=
  { c with messageHandlers := fun i => { c.messageHandlers i with topicFilter := none } }

/-- `MQTTCloseSession`. -/
def MQTTClient.closeSession (c : MQTTClient H) : MQTTClient H :=
  let c := { c with pingOutstanding := false, isconnected := false }
  if c.cleansession then c.cleanSession else c

/-- `MQTTCloseSession`, as an action. -/
def mqttCloseSession : Action σ H Unit := modifyClient MQTTClient.closeSession

/-! ## `cycle` -/

/-- Where a branch of the `switch` leaves: to the keepalive check, or to `exit`. -/
inductive Jump
  | next (rc : Int)
  | exit (rc : Int)
  deriving DecidableEq, Repr

/-- Serialize an acknowledgement and send it. -/
def sendAck (packettype : MsgType) (id : UInt16) (timer : Timer) : Action σ H Int := do
  let len ← serialize fun buflen => mqttSerializeAck buflen packettype 0 id
  if len ≤ 0 then pure failure
  else sendPacket P fuel len.toNat timer

/-- The message handed to `deliverMessage`.  The length was written as an `int`
over the low half of a `size_t` that was zero before. -/
def PublishOut.message (out : PublishOut) : MQTTMessage where
  qos := out.qos
  retained := out.retained
  dup := out.dup
  id := out.packetid
  payload := out.payload
  payloadlen := toUnsignedInt out.payloadlen

/-- The reply to a PUBLISH: no reply at QoS 0, and no packet for QoS 3. -/
def acknowledgePublish (message : MQTTMessage) (timer : Timer) : Action σ H Int :=
  if message.qos = 1 then sendAck P fuel .puback message.id timer
  else if message.qos = 2 then sendAck P fuel .pubrec message.id timer
  else pure failure

/-- `case PUBLISH` of `cycle`. -/
def handlePublish (timer : Timer) : Action σ H Jump := do
  let locals ← cycleLocals P
  let c ← client
  let (rc, out) := mqttDeserializePublish c.readbuf { locals.publish with payloadlen := 0 }
  if rc ≠ 1 then pure (.exit mqttSuccess)
  else do
    let _ ← deliverMessage out.topicName out.message
    if out.qos ≠ 0 then do
      let rc ← acknowledgePublish P fuel out.message timer
      if rc = failure then pure (.exit rc) -- there was a problem
      else pure (.next rc)
    else pure (.next mqttSuccess)

/-- `case PUBREC` and `case PUBREL` of `cycle`, with the type of their reply. -/
def handleHandshake (reply : MsgType) (timer : Timer) : Action σ H Jump := do
  let locals ← cycleLocals P
  let c ← client
  let (rc, out) := mqttDeserializeAck c.readbuf locals.ack
  if rc ≠ 1 then pure (.exit failure)
  else do
    let rc ← sendAck P fuel reply out.packetid timer
    if rc ≠ mqttSuccess then pure (.exit failure) -- there was a problem
    else pure (.next mqttSuccess)

/-- The `switch` of `cycle`. -/
def dispatch (packetType : Int) (timer : Timer) : Action σ H Jump :=
  match MsgType.ofCode? packetType with
  | some .connack | some .puback | some .suback | some .unsuback => pure (.next mqttSuccess)
  | some .publish => handlePublish P fuel timer
  | some .pubrec => handleHandshake P fuel .pubrel timer
  | some .pubrel => handleHandshake P fuel .pubcomp timer
  | some .pubcomp => pure (.next mqttSuccess)
  | some .pingresp => do
      modifyClient fun c => { c with pingOutstanding := false }
      pure (.next mqttSuccess)
  | _ =>
      if packetType = 0 then pure (.next mqttSuccess) -- timed out reading packet
      else pure (.exit packetType) -- no more data to read, unrecoverable

/-- From the end of the `switch` to the label `exit`. -/
def checkKeepalive : Jump → Action σ H Int
  | .exit rc => pure rc
  | .next rc => do
      let kept ← keepalive P fuel
      if kept ≠ mqttSuccess then pure failure else pure rc

/-- The block at the label `exit`. -/
def finishCycle (packetType rc : Int) : Action σ H Int :=
  if rc = mqttSuccess then pure packetType
  else do
    let c ← client
    if c.isconnected then do
      mqttCloseSession
      pure rc
    else pure rc

/-- `cycle`. -/
def cycle (timer : Timer) : Action σ H Int := do
  let packetType ← readPacket P timer
  let jump ← dispatch P fuel packetType timer
  let rc ← checkKeepalive P fuel jump
  finishCycle packetType rc

/-! ## Loops over `cycle` -/

/-- The `do` loop of `MQTTYield`. -/
def mqttYieldLoop (timer : Timer) : Nat → Action σ H Int
  | 0 => .diverge
  | steps + 1 => do
      let rc ← cycle P fuel timer
      if rc < 0 then pure failure
      else do
        let expired ← timerIsExpired P timer
        if expired then pure mqttSuccess
        else mqttYieldLoop timer steps

/-- `MQTTYield`. -/
def mqttYield (timeoutMs : Int) : Action σ H Int := do
  let timer ← timerCountdownMS P (toUnsignedInt timeoutMs)
  mqttYieldLoop P fuel timer fuel

/-- The `do` loop of `waitfor`, with the value of `rc` before the iteration. -/
def waitforLoop (packetType : MsgType) (timer : Timer) : (steps : Nat) → (rc : Int) → Action σ H Int
  | 0, _ => .diverge
  | steps + 1, rc => do
      let expired ← timerIsExpired P timer
      if expired then pure rc -- we timed out
      else do
        let rc ← cycle P fuel timer
        if rc ≠ packetType.code ∧ 0 ≤ rc then waitforLoop packetType timer steps rc
        else pure rc

/-- `waitfor`. -/
def waitfor (packetType : MsgType) (timer : Timer) : Action σ H Int :=
  waitforLoop P fuel packetType timer fuel failure

end MqttClient

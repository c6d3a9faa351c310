/-
# The client and the world it runs in

`MQTTClient` with the fields its functions use, and the environment of a call.
Everything the client does not decide is answered by a `Platform`: the clock, the
two network functions, and what an uninitialised local variable happens to hold.
The platform keeps a state of its own, so quantifying over platforms quantifies
over every sequence of answers, including answers that depend on what the client
has written.  A call of the platform that does not come back is `none`.

The world also carries the trace of the run: clock readings, timer answers, reads
and writes on the network, and the handlers called.  No function of the client
looks at it.
-/

import MqttClient.Semantics.Program
import MqttClient.Packet.Serialize
import MqttClient.Packet.Deserialize
import MqttClient.Platform.Timer

namespace MqttClient

open Semantics

/-- `enum returnCode`: all failure return codes are negative. -/
@[reducible]
def mqttSuccess : Int := 0

@[inherit_doc mqttSuccess, reducible]
def failure : Int := -1

@[inherit_doc mqttSuccess, reducible]
def bufferOverflow : Int := -2

/-- `MAX_PACKET_ID`. -/
def maxPacketId : Nat := 65535

/-- `MAX_MESSAGE_HANDLERS`. -/
def maxMessageHandlers : Nat := 5

/-- `MQTTMessage`.  The enumerator `qos` is kept as the `int` it is passed as. -/
structure MQTTMessage where
  qos : Int
  retained : UInt8
  dup : UInt8
  id : UInt16
  payload : Pointer
  payloadlen : Nat

/-- `MessageData`. -/
structure MessageData where
  message : MQTTMessage
  topicName : MQTTString

/-- `struct MessageHandlers`: a slot is free when its filter is null. -/
structure MessageHandlers (H : Type) where
  topicFilter : Option CString
  fp : Option H

/-- `MQTTClient`, over a type `H` of message handlers.  The two buffers are
separate memories; the two timers and the flags are the struct's own. -/
structure MQTTClient (H : Type) where
  nextPacketid : Nat
  commandTimeoutMs : Nat
  bufSize : Nat
  readbufSize : Nat
  buf : Memory
  readbuf : Memory
  keepAliveInterval : Nat
  pingOutstanding : Bool
  isconnected : Bool
  cleansession : Bool
  messageHandlers : Fin maxMessageHandlers → MessageHandlers H
  defaultMessageHandler : Option H
  lastSent : Timer
  lastReceived : Timer

/-- The outcome of one `mqttread` of `len` bytes: the returned value and the
bytes stored.  At most the requested bytes are stored, and a positive result
counts bytes that really were. -/
structure ReadResult (len : Nat) where
  rc : Int
  stored : List UInt8
  stored_le : stored.length ≤ len
  rc_le : rc ≤ stored.length

/-- What the uninitialised locals of one call of `cycle` hold. -/
structure CycleLocals where
  publish : PublishOut
  ack : AckOut

/-- The environment of the client, over states `σ` of its own. -/
structure Platform (σ : Type) where
  gettimeofday : σ → Timeval × σ
  mqttread : σ → (len : Nat) → (timeoutMs : Int) → Option (ReadResult len × σ)
  mqttwrite : σ → (offered : List UInt8) → (timeoutMs : Int) → Option (Int × σ)
  cycleLocals : σ → CycleLocals × σ

/-- The record of one `mqttread`. -/
structure ReadLog where
  len : Nat
  rc : Int
  stored : List UInt8
  deriving DecidableEq, Repr

/-- One entry of the trace of a run. -/
inductive Event (H : Type)
  /-- `gettimeofday` reported this time. -/
  | clock (now : Timeval)
  /-- `TimerIsExpired` gave this answer. -/
  | timerIsExpired (answer : Bool)
  /-- `mqttread` was called. -/
  | read (log : ReadLog)
  /-- `readPacket` returned this value. -/
  | packet (rc : Int)
  /-- `mqttwrite` was offered these bytes and returned this value. -/
  | write (offered : List UInt8) (rc : Int)
  /-- A message handler was called. -/
  | call (handler : H) (data : MessageData)

/-- The client, its environment, and the trace of the run so far. -/
structure World (σ H : Type) where
  client : MQTTClient H
  env : σ
  trace : List (Event H)

/-- A function of the client: a program over worlds. -/
abbrev Action (σ H α : Type) : Type := Program (World σ H) α

namespace World

variable {σ H : Type}

/-- Append to the trace. -/
def log (w : World σ H) (event : Event H) : World σ H := { w with trace := w.trace ++ [event] }

/-- Change the client. -/
def update (w : World σ H) (f : MQTTClient H → MQTTClient H) : World σ H :=
  { w with client := f w.client }

end World

section Primitives

variable {σ H : Type} (P : Platform σ)

/-- The client as it is now. -/
def client : Action σ H (MQTTClient H) := .gets World.client

/-- Assign to fields of the client. -/
def modifyClient (f : MQTTClient H → MQTTClient H) : Action σ H Unit := .modify (·.update f)

/-- Record an event. -/
def logEvent (event : Event H) : Action σ H Unit := .modify (·.log event)

/-- `gettimeofday`. -/
def gettimeofday : Action σ H Timeval :=
  ⟨fun w =>
    let (now, env) := P.gettimeofday w.env
    some (now, { w with env, trace := w.trace ++ [.clock now] })⟩

/-- `c->ipstack->mqttread`, without the store into the caller's buffer. -/
def mqttread (len : Nat) (timeoutMs : Int) : Action σ H (ReadResult len) :=
  ⟨fun w =>
    (P.mqttread w.env len timeoutMs).map fun (result, env) =>
      (result, { w with
        env
        trace := w.trace ++ [.read ⟨len, result.rc, result.stored⟩] })⟩

/-- `c->ipstack->mqttwrite`. -/
def mqttwrite (offered : List UInt8) (timeoutMs : Int) : Action σ H Int :=
  ⟨fun w =>
    (P.mqttwrite w.env offered timeoutMs).map fun (rc, env) =>
      (rc, { w with env, trace := w.trace ++ [.write offered rc] })⟩

/-- The indeterminate values of the locals of `cycle`. -/
def cycleLocals : Action σ H CycleLocals :=
  ⟨fun w =>
    let (locals, env) := P.cycleLocals w.env
    some (locals, { w with env })⟩

/-- `TimerIsExpired`. -/
def timerIsExpired (timer : Timer) : Action σ H Bool := do
  let now ← gettimeofday P
  logEvent (.timerIsExpired (timer.isExpiredAt now))
  pure (timer.isExpiredAt now)

/-- `TimerLeftMS`. -/
def timerLeftMS (timer : Timer) : Action σ H Int := do
  let now ← gettimeofday P
  pure (timer.leftMSAt now)

/-- `TimerCountdownMS`: the timer's new value. -/
def timerCountdownMS (timeout : Nat) : Action σ H Timer := do
  let now ← gettimeofday P
  pure (.countdownMSAt now timeout)

/-- `TimerCountdown`: the timer's new value. -/
def timerCountdown (timeout : Nat) : Action σ H Timer := do
  let now ← gettimeofday P
  pure (.countdownAt now timeout)

end Primitives

end MqttClient

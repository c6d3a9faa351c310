/-
# Packets in and out: the lower half of `MQTTClient.c`

`sendPacket` offers the send buffer to the network until it has gone out or the
timer has expired; `readPacket` takes one packet off the network into the read
buffer.  Loops that the environment can prolong at will are cut off after `fuel`
iterations, and then the call does not return.
-/

import MqttClient.Client.State

namespace MqttClient

open Semantics

variable {σ H : Type} (P : Platform σ) (fuel : Nat)

/-- The value `getNextPacketId` assigns and returns. -/
def MQTTClient.nextId (c : MQTTClient H) : Nat :=
  if c.nextPacketid = maxPacketId then 1 else (c.nextPacketid + 1) % 2 ^ 32

/-- `getNextPacketId`. -/
def getNextPacketId : Action σ H Nat := do
  let c ← client
  modifyClient fun c => { c with nextPacketid := c.nextId }
  pure c.nextId

/-- Call a serializer on the send buffer, whose size is passed as an `int`. -/
def serialize (serializer : Int → Serialized) : Action σ H Int := do
  let c ← client
  let result := serializer (toInt c.bufSize)
  modifyClient fun c => { c with buf := c.buf.store 0 result.written }
  pure result.rc

/-- The `while` loop of `sendPacket`: the final value of `sent`.  Every call of
`mqttwrite` is passed the whole `length`, whatever has been sent before. -/
def sendPacketLoop (length : Nat) (timer : Timer) : (fuel sent : Nat) → Action σ H Nat
  | 0, _ => .diverge
  | fuel + 1, sent =>
      if sent < length then do
        let expired ← timerIsExpired P timer
        if expired then pure sent
        else do
          let left ← timerLeftMS P timer
          let c ← client
          let rc ← mqttwrite P (c.buf.load sent length) left
          if rc < 0 then pure sent -- there was an error writing the data
          else sendPacketLoop length timer fuel (sent + rc.toNat)
      else pure sent

/-- `sendPacket`. -/
def sendPacket (length : Nat) (timer : Timer) : Action σ H Int := do
  let sent ← sendPacketLoop P length timer fuel 0
  if sent = length then do
    let c ← client
    let lastSent ← timerCountdown P c.keepAliveInterval
    modifyClient fun c => { c with lastSent }
    pure mqttSuccess
  else pure failure

/-- The `getchar` of `decodePacket`: one byte off the network. -/
def networkChar (timeoutMs : Int) : Action σ H (Int × UInt8) := do
  let result ← mqttread P 1 timeoutMs
  pure (result.rc, result.stored.headD 0)

/-- `decodePacket`. -/
def decodePacket (timeoutMs : Int) : Action σ H (Nat × Nat) :=
  decodeLoop (networkChar P timeoutMs) maxNoOfRemainingLengthBytes 0 0 1

/-- `mqttread` into the read buffer from offset `start` on. -/
def readInto (start len : Nat) (timeoutMs : Int) : Action σ H Int := do
  let result ← mqttread P len timeoutMs
  modifyClient fun c => { c with readbuf := c.readbuf.store start result.stored }
  pure result.rc

/-- The end of `readPacket`: the type from the stored header byte, and the
keepalive timer of the receiving side. -/
def finishPacket : Action σ H Int := do
  let c ← client
  let type := (MQTTHeader.ofByte (c.readbuf 0)).type
  if 0 < c.keepAliveInterval then do
    let lastReceived ← timerCountdown P c.keepAliveInterval
    modifyClient fun c => { c with lastReceived }
    pure type
  else pure type

/-- Step 3 of `readPacket`: the body, after `len` bytes of header and length. -/
def readBody (timer : Timer) (len remLen : Nat) : Action σ H Int := do
  let c ← client
  -- a `size_t` difference, compared with an `int` that is never negative
  if toSizeT (c.readbufSize - len) < remLen then pure bufferOverflow
  else if 0 < remLen then do
    let left ← timerLeftMS P timer
    let rc ← readInto P len remLen left
    if rc ≠ remLen then pure 0
    else finishPacket P
  else finishPacket P

/-- `readPacket` up to its return. -/
def readPacketBody (timer : Timer) : Action σ H Int := do
  -- 1. read the header byte
  let left ← timerLeftMS P timer
  let rc ← readInto P 0 1 left
  if rc ≠ 1 then pure rc
  else do
    -- 2. read the remaining length; what `decodePacket` returns is dropped
    let left ← timerLeftMS P timer
    let (_, remLen) ← decodePacket P left
    let field := mqttPacketEncode remLen
    modifyClient fun c => { c with readbuf := c.readbuf.store 1 field }
    readBody P timer (1 + field.length) remLen

/-- `readPacket`. -/
def readPacket (timer : Timer) : Action σ H Int := do
  let rc ← readPacketBody P timer
  logEvent (.packet rc)
  pure rc

end MqttClient

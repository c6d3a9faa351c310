/-
# Two tasks and one send buffer

`mqtt_sub_task` and `mqtt_pub_task` send through the same client and so through the
same `buf`.  `MQTT_TASK` is not defined, hence nothing keeps one task from filling
the buffer between the moment the other has filled it and the moment it writes.
The system below interleaves the two halves of a send, each half a run of the
client's own functions: `serialize`, and the first `mqttwrite` of `sendPacket`.
-/

import MqttClient.Client.Inbound
import MqttClient.Client.Session
import MqttClient.Semantics.Transition

namespace MqttClient

open Semantics Program

variable {σ H : Type}

/-- The two threads of the application. -/
inductive Task
  | sub
  | pub
  deriving DecidableEq, Repr

/-- The task that runs beside this one. -/
def Task.other : Task → Task
  | sub => pub
  | pub => sub

/-! ## What the tasks send -/

/-- The packets of the two tasks: replies and pings from `cycle`, and the requests of
`mqtt_pub_task`. -/
inductive Outgoing
  | ack (packettype : MsgType) (id : UInt16)
  | pingreq
  | publish (topicName : CString) (message : MQTTMessage)
  | subscribe (topicFilter : CString) (qos : Int)

/-- The size of `str` in `mqtt_pub_task`, which holds the payload as a C string. -/
def strSize : Nat := 256

/-- Both tasks run `cycle`, the publishing one inside `waitfor`; only that one makes
requests, and its payloads are C strings in `str`. -/
def Task.sends : Task → Outgoing → Bool
  | _, .ack packettype _ =>
      packettype = .puback || packettype = .pubrec || packettype = .pubrel || packettype = .pubcomp
  | _, .pingreq => true
  | .pub, .publish _ message => message.payloadlen < strSize
  | .pub, .subscribe _ _ => true
  | .sub, _ => false

/-- The serializer call the client makes for a packet, and what it does before it. -/
def Outgoing.prepare : Outgoing → Action σ H (Int → Serialized)
  | ack packettype id => pure fun buflen => mqttSerializeAck buflen packettype 0 id
  | pingreq => pure mqttSerializePingreq
  | publish topicName message => preparePublish topicName message
  | subscribe topicFilter qos => prepareSubscribe topicFilter qos

/-- Fill the send buffer: what was written to it, with the length returned. -/
def Outgoing.serialize (packet : Outgoing) : Action σ H Serialized := do
  let serializer ← packet.prepare
  let c ← client
  let rc ← MqttClient.serialize serializer
  pure { serializer (toInt c.bufSize) with rc }

/-! ## The interleaving -/

/-- The client the tasks share, and for each task the packet it has serialized and
not yet written. -/
structure SharedClient (σ H : Type) where
  world : World σ H
  held : Task → Option Serialized

/-- Half a send of one task. -/
inductive HalfSend
  | serialise (task : Task) (packet : Outgoing)
  | write (task : Task) (timeoutMs : Int)

/-- One step of one task.  A task whose packet did not fit has nothing to write, and
a task writes as many bytes of the buffer as it has serialized, whoever filled it. -/
def SharedClient.step (P : Platform σ) (s : SharedClient σ H) : HalfSend → Option (SharedClient σ H)
  | .serialise task packet =>
      if task.sends packet then
        (packet.serialize.run s.world).map fun (packet, world) =>
          ⟨world, Function.update s.held task (if 0 < packet.rc then some packet else none)⟩
      else none
  | .write task timeoutMs =>
      (s.held task).bind fun packet =>
        ((mqttwrite P (s.world.client.buf.load 0 packet.rc.toNat) timeoutMs).run s.world).map
          fun (_, world) => ⟨world, Function.update s.held task none⟩

/-- The step, if it is a write, transmits the packet its task has serialized last. -/
def TransmitsOwn (tr : Transition (SharedClient σ H) HalfSend) : Prop :=
  match tr.label with
  | .serialise _ _ => True
  | .write task _ => ∃ packet rc, tr.source.held task = some packet ∧
      tr.target.world.trace = tr.source.world.trace ++ [.write packet.written rc]

/-- Such a write adds that packet to what is seen on the network. -/
theorem TransmitsOwn.writes_eq {s t : SharedClient σ H} {task : Task} {timeoutMs : Int}
    (h : TransmitsOwn ⟨s, .write task timeoutMs, t⟩) :
    writes t.world.trace =
      writes s.world.trace ++ ((s.held task).map Serialized.written).toList := by
  obtain ⟨packet, rc, hheld, htrace⟩ := h
  simp only at hheld htrace
  rw [htrace, hheld, writes_append]
  rfl

/-- The step does not fill the buffer while the other task has its packet there. -/
def LeavesBufferAlone (tr : Transition (SharedClient σ H) HalfSend) : Bool :=
  match tr.label with
  | .serialise task _ => (tr.source.held task.other).isNone
  | .write _ _ => true

/-- Every packet that is still to be written stands in the buffer. -/
def SharedClient.Intact (s : SharedClient σ H) : Prop :=
  ∀ task packet, s.held task = some packet →
    packet.rc = packet.written.length ∧
      s.world.client.buf.load 0 packet.written.length = packet.written

/-! ## Serialized packets -/

/-- The length a serializer returns is the number of bytes it wrote. -/
def Serialized.CountsBytes (s : Serialized) : Prop := 0 < s.rc → s.rc = s.written.length

theorem countsBytes_tooShort : Serialized.tooShort.CountsBytes := by
  intro hpos
  exact absurd hpos (by decide)

/-- The shape of every serializer but that of PUBLISH. -/
theorem countsBytes_ite (c : Prop) [Decidable c] (written : List UInt8) :
    (if c then .tooShort else .ofBytes written : Serialized).CountsBytes := by
  split
  · exact countsBytes_tooShort
  · exact fun _ => rfl

theorem countsBytes_mqttSerializePublish (buflen : Int) (dup : UInt8) (qos : Int) (retained : UInt8)
    (id : UInt16) (topicName : MQTTString) (payload : Pointer) {payloadlen : Nat}
    (h : payloadlen < strSize) :
    (mqttSerializePublish buflen dup qos retained id topicName payload
      (toInt payloadlen)).CountsBytes := by
  have hsmall : payloadlen < 256 := h
  rw [toInt_of_lt (by omega)]
  unfold mqttSerializePublish
  dsimp only
  split
  · exact countsBytes_tooShort
  · intro _
    simp only [List.length_append, Memory.load_length,
      toSizeT_of_lt (show payloadlen < 2 ^ 64 by omega)]
    push_cast
    rfl

theorem countsBytes_mqttSerializeSubscribe (buflen : Int) (dup : UInt8) (id : UInt16)
    (requests : List (MQTTString × Int)) :
    (mqttSerializeSubscribe buflen dup id requests).CountsBytes := by
  unfold mqttSerializeSubscribe
  exact countsBytes_ite _ _

theorem getNextPacketId_buf {id : Nat} {w w' : World σ H}
    (h : getNextPacketId.run w = some (id, w')) : w'.client.buf = w.client.buf := by
  cases h
  rfl

/-- What the client does before it serializes leaves the send buffer alone, and the
serializer it then calls counts its bytes. -/
theorem Outgoing.prepare_spec {task : Task} {packet : Outgoing} {w w' : World σ H}
    {serializer : Int → Serialized} (hsends : task.sends packet = true)
    (h : packet.prepare.run w = some (serializer, w')) :
    w'.client.buf = w.client.buf ∧ ∀ buflen, (serializer buflen).CountsBytes := by
  cases packet with
  | ack packettype id =>
      obtain ⟨rfl, rfl⟩ := run_pure_eq_some.mp h
      exact ⟨rfl, fun buflen => countsBytes_ite _ _⟩
  | pingreq =>
      obtain ⟨rfl, rfl⟩ := run_pure_eq_some.mp h
      exact ⟨rfl, fun buflen => countsBytes_ite _ _⟩
  | publish topicName message =>
      have hlen : message.payloadlen < strSize := by
        cases task with
        | sub => cases hsends
        | pub => exact of_decide_eq_true hsends
      obtain ⟨id, w₁, hid, h⟩ := run_bind_eq_some.mp h
      obtain ⟨rfl, rfl⟩ := run_pure_eq_some.mp h
      refine ⟨?_, fun buflen => countsBytes_mqttSerializePublish _ _ _ _ _ _ _ hlen⟩
      unfold publishId at hid
      split at hid
      · obtain ⟨_, _, hnext, hid⟩ := run_bind_eq_some.mp hid
        obtain ⟨_, rfl⟩ := run_pure_eq_some.mp hid
        exact getNextPacketId_buf hnext
      · obtain ⟨_, rfl⟩ := run_pure_eq_some.mp hid
        rfl
  | subscribe topicFilter qos =>
      obtain ⟨id, w₁, hid, h⟩ := run_bind_eq_some.mp h
      obtain ⟨rfl, rfl⟩ := run_pure_eq_some.mp h
      exact ⟨getNextPacketId_buf hid, fun buflen => countsBytes_mqttSerializeSubscribe _ _ _ _⟩

/-- Filling the buffer stores the packet at its start and nothing else there. -/
theorem Outgoing.serialize_spec {task : Task} {packet : Outgoing} {w w' : World σ H}
    {result : Serialized} (hsends : task.sends packet = true)
    (h : packet.serialize.run w = some (result, w')) :
    w'.client.buf = w.client.buf.store 0 result.written ∧ result.CountsBytes := by
  obtain ⟨serializer, w₁, hprepare, h⟩ := run_bind_eq_some.mp h
  obtain ⟨hbuf, hcounts⟩ := prepare_spec hsends hprepare
  cases h
  refine ⟨?_, hcounts _⟩
  rw [← hbuf]
  rfl

/-! ## Steps and runs -/

variable {P : Platform σ}

/-- Everything a step can do. -/
theorem SharedClient.step_cases {s t : SharedClient σ H} {label : HalfSend}
    (h : s.step P label = some t) :
    (∃ task packet result, label = .serialise task packet ∧
      t.world.client.buf = s.world.client.buf.store 0 result.written ∧ result.CountsBytes ∧
      t.held = Function.update s.held task (if 0 < result.rc then some result else none)) ∨
    (∃ task timeoutMs packet rc, label = .write task timeoutMs ∧ s.held task = some packet ∧
      t.world.client = s.world.client ∧
      t.world.trace =
        s.world.trace ++ [.write (s.world.client.buf.load 0 packet.rc.toNat) rc] ∧
      t.held = Function.update s.held task none) := by
  cases label with
  | serialise task packet =>
      simp only [step] at h
      split at h
      · rename_i hsends
        obtain ⟨⟨result, world⟩, hrun, rfl⟩ := Option.map_eq_some_iff.mp h
        obtain ⟨hbuf, hcounts⟩ := packet.serialize_spec hsends hrun
        exact .inl ⟨task, packet, result, rfl, hbuf, hcounts, rfl⟩
      · cases h
  | write task timeoutMs =>
      obtain ⟨packet, hheld, h⟩ := Option.bind_eq_some_iff.mp h
      obtain ⟨⟨rc, world⟩, hrun, rfl⟩ := Option.map_eq_some_iff.mp h
      obtain ⟨env, _, rfl⟩ := run_mqttwrite_eq_some hrun
      exact .inr ⟨task, timeoutMs, packet, rc, rfl, hheld, rfl, rfl, rfl⟩

theorem Task.eq_other_of_ne {task task' : Task} (h : task' ≠ task) : task' = task.other := by
  cases task <;> cases task' <;> first | rfl | exact absurd rfl h

/-- A step that leaves the other task's packet alone keeps every packet intact. -/
theorem SharedClient.intact_step (tr : Transition (SharedClient σ H) HalfSend)
    (hstep : tr.source.step P tr.label = some tr.target) (halone : LeavesBufferAlone tr = true)
    (h : tr.source.Intact) : tr.target.Intact := by
  intro task' packet' hheld'
  obtain ⟨task, packet, result, hlabel, hbuf, hcounts, hheld⟩ |
    ⟨task, timeoutMs, packet, rc, hlabel, _, hclient, _, hheld⟩ := step_cases hstep
  · rw [hheld] at hheld'
    by_cases htask : task' = task
    · rw [htask, Function.update_self] at hheld'
      split at hheld'
      · rename_i hpos
        cases hheld'
        exact ⟨hcounts hpos, by rw [hbuf, Memory.load_store_self]⟩
      · cases hheld'
    · rw [Function.update_of_ne htask, Task.eq_other_of_ne htask] at hheld'
      rw [LeavesBufferAlone, hlabel] at halone
      rw [Option.isNone_iff_eq_none.mp halone] at hheld'
      cases hheld'
  · rw [hheld] at hheld'
    by_cases htask : task' = task
    · rw [htask, Function.update_self] at hheld'
      cases hheld'
    · rw [Function.update_of_ne htask] at hheld'
      rw [hclient]
      exact h task' packet' hheld'

/-- A write of an intact packet transmits it. -/
theorem SharedClient.transmitsOwn_of_intact (tr : Transition (SharedClient σ H) HalfSend)
    (hstep : tr.source.step P tr.label = some tr.target) (h : tr.source.Intact) :
    TransmitsOwn tr := by
  obtain ⟨task, packet, result, hlabel, _⟩ |
    ⟨task, timeoutMs, packet, rc, hlabel, hheld, _, htrace, _⟩ := step_cases hstep
  · rw [TransmitsOwn, hlabel]
    trivial
  · rw [TransmitsOwn, hlabel]
    obtain ⟨hrc, hload⟩ := h task packet hheld
    rw [hrc, Int.toNat_natCast, hload] at htrace
    exact ⟨packet, rc, hheld, htrace⟩

/-- What the other task finds in the buffer once its packet has been written over: the
new bytes, and behind them the end of its own packet if that is longer. -/
theorem SharedClient.overwritten {s t : SharedClient σ H} {task : Task} {packet : Outgoing}
    {own : Serialized} (h : s.Intact) (hheld : s.held task.other = some own)
    (hstep : s.step P (.serialise task packet) = some t) :
    t.held task.other = some own ∧ ∃ written : List UInt8,
      t.world.client.buf = s.world.client.buf.store 0 written ∧
      t.world.client.buf.load 0 own.rc.toNat =
        written.take own.written.length ++ own.written.drop written.length := by
  rcases step_cases hstep with ⟨task', _, result, hlabel, hbuf, _, hheld'⟩ | ⟨_, _, _, _, hlabel, _⟩
  · cases hlabel
    obtain ⟨hrc, hload⟩ := h task.other own hheld
    refine ⟨?_, result.written, hbuf, ?_⟩
    · rw [hheld', Function.update_of_ne (by cases task <;> decide), hheld]
    · rw [hbuf, hrc, Int.toNat_natCast, Memory.load_store_same, hload]
  · cases hlabel

/-- Over every interleaving in which no task fills the buffer while the other has a
packet there to write, every write transmits the packet its task serialized last. -/
theorem interleaving_transmits_own (P : Platform σ) (s t : SharedClient σ H)
    (hidle : ∀ task, s.held task = none) (run : List (Transition (SharedClient σ H) HalfSend))
    (hrun : Run (fun s label t => s.step P label = some t) s run t)
    (halone : ∀ tr ∈ run, LeavesBufferAlone tr = true) :
    ∀ tr ∈ run, TransmitsOwn tr := by
  have hinit : s.Intact := by
    intro task packet hheld
    rw [hidle task] at hheld
    cases hheld
  obtain ⟨_, hall⟩ := hrun.invariant SharedClient.Intact hinit halone
    fun tr hstep halone h => SharedClient.intact_step tr hstep halone h
  intro tr htr
  obtain ⟨hstep, hintact, _⟩ := hall tr htr
  exact SharedClient.transmitsOwn_of_intact tr hstep hintact

/-- The application's client, connected, with nothing to send. -/
def idleClient : SharedClient Recording Unit := ⟨connectedWorld [], fun _ => none⟩

/-- A message without payload at QoS 0. -/
def emptyMessage : MQTTMessage := ⟨0, 0, 0, 0, .null, 0⟩

/-- One send after the other: a PUBACK of `mqtt_sub_task`, then a PUBLISH of
`mqtt_pub_task`. -/
theorem interleaving_transmits_own_in_turn :
    ∃ run t,
      Run (fun s label t => SharedClient.step (linuxPlatform Recording.host 8) s label = some t)
        idleClient run t ∧ run.length = 4 ∧ ∀ tr ∈ run, TransmitsOwn tr := by
  obtain ⟨⟨run, t⟩, hreplay, hobs⟩ := Option.map_eq_some_iff.mp
    (show (replay (SharedClient.step (linuxPlatform Recording.host 8)) idleClient
      [.serialise .sub (.ack .puback 1), .write .sub 0,
        .serialise .pub (.publish ⟨[97], by decide⟩ emptyMessage), .write .pub 0]).map
      (fun r => (r.1.length, r.1.all LeavesBufferAlone)) = some (4, true) by decide)
  obtain ⟨hlength, halone⟩ := Prod.mk.inj hobs
  have hrun := run_of_replay hreplay
  exact ⟨run, t, hrun, hlength,
    interleaving_transmits_own _ idleClient t (fun _ => rfl) run hrun (List.all_eq_true.mp halone)⟩

/-- `mqtt_pub_task` serializes a PUBLISH between the two halves of a PUBACK of
`mqtt_sub_task`: the first four bytes of the PUBLISH go out in place of the PUBACK. -/
theorem puback_replaced_by_publish :
    ∃ s₁ s₂ s₃, SharedClient.step (linuxPlatform Recording.host 8) idleClient
        (.serialise .sub (.ack .puback 1)) = some s₁ ∧
      s₁.step (linuxPlatform Recording.host 8)
        (.serialise .pub (.publish ⟨[97], by decide⟩ emptyMessage)) = some s₂ ∧
      s₂.step (linuxPlatform Recording.host 8) (.write .sub 0) = some s₃ ∧
      (s₂.held .sub).map Serialized.written = some [0x40, 2, 0, 1] ∧
      writes s₃.world.trace = [[0x30, 3, 0, 1]] ∧ ¬ TransmitsOwn ⟨s₂, .write .sub 0, s₃⟩ := by
  refine ⟨_, _, _, rfl, rfl, rfl, by decide, by decide, fun h => ?_⟩
  exact absurd h.writes_eq (by decide)

end MqttClient

/-
# The client as a transducer

What the receiving half of the client is for, without buffers, timers or a network:
a packet from the broker goes in, and out come calls of message handlers and at most
one reply.  `Frame.packet?` reads a packet off a complete frame, and
`Event.delivery?` and `Event.written?` are what an observer of a run sees of the two
outputs.
-/

import MqttClient.Client.Framing

namespace MqttClient

open Semantics

variable {H : Type}

/-! ## Packets -/

/-- The packets a client expects from its broker.  A notice is a packet that calls
for no reaction: CONNACK, PUBACK, PUBCOMP, SUBACK, UNSUBACK or PINGRESP. -/
inductive Inbound
  | publish (dup qos retain : Nat) (id : UInt16) (topic payload : List UInt8)
  | pubrec (id : UInt16)
  | pubrel (id : UInt16)
  | notice (type : MsgType)
  deriving DecidableEq, Repr

/-- The topic, identifier and payload in the body of a PUBLISH.  At QoS 0 there is
no identifier and 0 stands for it. -/
def publishParts? (qos : Nat) (body : List UInt8) : Option (List UInt8 × Nat × List UInt8) :=
  match leadingInt? body with
  | none => none
  | some n =>
      if 2 + n ≤ body.length then
        let topic := (body.drop 2).take n
        let rest := body.drop (2 + n)
        if qos = 0 then some (topic, 0, rest)
        else
          match leadingInt? rest with
          | none => none
          | some id => some (topic, id, rest.drop 2)
      else none

/-- The packet in a frame, if it is well formed: a PUBLISH has its parts and a QoS
below 3, and a PUBREC or PUBREL has its identifier. -/
def Frame.packet? (F : Frame) : Option Inbound :=
  match MsgType.ofCode? F.type with
  | some .publish =>
      let header := MQTTHeader.ofByte F.header
      if header.qos < 3 then
        (publishParts? header.qos F.body).map fun (topic, id, payload) =>
          .publish header.dup header.qos header.retain (UInt16.ofNat id) topic payload
      else none
  | some .pubrec => (leadingInt? F.body).map fun id => .pubrec (UInt16.ofNat id)
  | some .pubrel => (leadingInt? F.body).map fun id => .pubrel (UInt16.ofNat id)
  | some .connack => some (.notice .connack)
  | some .puback => some (.notice .puback)
  | some .pubcomp => some (.notice .pubcomp)
  | some .suback => some (.notice .suback)
  | some .unsuback => some (.notice .unsuback)
  | some .pingresp => some (.notice .pingresp)
  | _ => none

/-! ## Reactions -/

/-- What a message handler is told. -/
structure Delivery where
  topic : List UInt8
  payload : List UInt8
  qos : Nat
  dup : Nat
  retained : Nat
  deriving DecidableEq, Repr

/-- A topic as the delimited string in which `deliverMessage` gets it. -/
def topicString (topic : List UInt8) : MQTTString :=
  ⟨none, topic.length, .into (fun i => topic.getD i 0) 0⟩

/-- The handlers a topic is delivered to: those of the slots that accept it, in slot
order, and the default handler if there is none. -/
def MQTTClient.handlersFor (c : MQTTClient H) (topicName : MQTTString) : List H :=
  match (List.ofFn c.messageHandlers).filterMap (·.handlerFor topicName) with
  | [] => c.defaultMessageHandler.toList
  | handlers => handlers

/-- The calls a packet causes. -/
def Inbound.deliveries (c : MQTTClient H) : Inbound → List (H × Delivery)
  | publish dup qos retain _ topic payload =>
      (c.handlersFor (topicString topic)).map fun fp => (fp, ⟨topic, payload, qos, dup, retain⟩)
  | pubrec _ | pubrel _ | notice _ => []

/-- The reply a packet calls for. -/
def Inbound.reply? : Inbound → Option (List UInt8)
  | publish _ qos _ id _ _ =>
      if qos = 1 then some (ackBytes .puback id)
      else if qos = 2 then some (ackBytes .pubrec id)
      else none
  | pubrec id => some (ackBytes .pubrel id)
  | pubrel id => some (ackBytes .pubcomp id)
  | notice _ => none

/-! ## Observing a run -/

/-- The message as the handler reads it. -/
def MessageData.delivery (data : MessageData) : Delivery where
  topic := data.topicName.lenstring.data.deref.load 0 data.topicName.lenstring.len.toNat
  payload := data.message.payload.deref.load 0 data.message.payloadlen
  qos := data.message.qos.toNat
  dup := data.message.dup.toNat
  retained := data.message.retained.toNat

/-- The call of a handler, as an observer sees it. -/
def Event.delivery? : Event H → Option (H × Delivery)
  | .call fp data => some (fp, data.delivery)
  | _ => none

/-- The bytes of a write, as an observer sees it. -/
def Event.written? : Event H → Option (List UInt8)
  | .write offered _ => some offered
  | _ => none

/-- The calls in a trace, in order. -/
def deliveries (trace : List (Event H)) : List (H × Delivery) := trace.filterMap Event.delivery?

/-- The writes in a trace, in order. -/
def writes (trace : List (Event H)) : List (List UInt8) := trace.filterMap Event.written?

/-- A timer was found expired. -/
def Event.isExpiry : Event H → Bool
  | .timerIsExpired answer => answer
  | _ => false

/-- No timer was found expired. -/
def NoExpiry (trace : List (Event H)) : Prop := ∀ e ∈ trace, e.isExpiry = false

instance (trace : List (Event H)) : Decidable (NoExpiry trace) :=
  inferInstanceAs (Decidable (∀ e ∈ trace, e.isExpiry = false))

@[simp]
theorem deliveries_append (a b : List (Event H)) :
    deliveries (a ++ b) = deliveries a ++ deliveries b :=
  List.filterMap_append

@[simp]
theorem writes_append (a b : List (Event H)) : writes (a ++ b) = writes a ++ writes b :=
  List.filterMap_append

theorem noExpiry_append {a b : List (Event H)} :
    NoExpiry (a ++ b) ↔ NoExpiry a ∧ NoExpiry b :=
  List.forall_mem_append

/-- Reading packets shows neither calls nor writes. -/
theorem observe_of_reading {trace : List (Event H)} (h : ∀ e ∈ trace, e.IsReading) :
    deliveries trace = [] ∧ writes trace = [] := by
  constructor
  · refine List.filterMap_eq_nil_iff.mpr fun e he => ?_
    have hreading := h e he
    cases e <;> first | rfl | exact hreading.elim
  · refine List.filterMap_eq_nil_iff.mpr fun e he => ?_
    have hreading := h e he
    cases e <;> first | rfl | exact hreading.elim

/-! ## Topics -/

theorem load_topicString (topic : List UInt8) :
    (topicString topic).lenstring.data.deref.load 0 topic.length = topic := by
  rw [topicString, Pointer.deref_into, Memory.load_shift, Memory.load_getD _ le_rfl,
    List.take_length]

/-- The test of a slot looks at the bytes of the topic and nothing else. -/
theorem filterAccepts_eq_topicString {topicFilter : CString} {topicName : MQTTString}
    {topic : List UInt8} (hcstring : topicName.cstring = none)
    (hlen : topicName.lenstring.len = topic.length)
    (hdata : topicName.lenstring.data.deref.load 0 topic.length = topic) :
    filterAccepts topicFilter topicName = filterAccepts topicFilter (topicString topic) := by
  have hview := load_topicString topic
  have hview_len : (topicString topic).lenstring.len = topic.length := rfl
  have hview_cstring : (topicString topic).cstring = none := rfl
  simp only [filterAccepts, mqttPacketEquals, isTopicMatched, hcstring, hlen, hdata, hview,
    hview_len, hview_cstring, Int.toNat_natCast]

theorem handlersFor_eq_topicString (c : MQTTClient H) {topicName : MQTTString}
    {topic : List UInt8} (hcstring : topicName.cstring = none)
    (hlen : topicName.lenstring.len = topic.length)
    (hdata : topicName.lenstring.data.deref.load 0 topic.length = topic) :
    c.handlersFor topicName = c.handlersFor (topicString topic) := by
  have hslot : ∀ slot : MessageHandlers H,
      slot.handlerFor topicName = slot.handlerFor (topicString topic) := by
    intro slot
    unfold MessageHandlers.handlerFor
    split
    · rw [filterAccepts_eq_topicString hcstring hlen hdata]
    · rfl
  simp only [MQTTClient.handlersFor, hslot]

end MqttClient

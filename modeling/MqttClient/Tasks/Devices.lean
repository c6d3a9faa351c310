/-
# From device to device

Every device publishes its register under a topic and subscribes to that topic itself, so
what one device reads from its PLC is printed by all of them.  Here two copies of the program
run against one broker: the first publishes, the broker hands each publication on with the
same topic and payload, and the second receives.

On neither device do calls of the client overlap.  Whatever else the tasks of the first device,
its PLC and its network have done, the handler of the second is called once for each
publication, and what it leaves in `msgBuffer` is the text of a value that the PLC of the first
has answered, in the order in which the values were read.
-/

import MqttClient.Client.Delivery
import MqttClient.Client.TopicFilter
import MqttClient.Client.Transducer
import MqttClient.Tasks.Gateway

namespace MqttClient

open Semantics Program

variable {σ τ ρ : Type}

/-! ## A publication on the wire -/

/-- Of the retained flag one bit is written. -/
theorem MQTTHeader.ofByte_byte_retain (type : MsgType) {qos : Nat} (hqos : qos < 4)
    (retain : Nat) :
    ofByte (byte ⟨type.code, 0, qos, retain⟩) = ⟨type.code, 0, qos, retain % 2⟩ := by
  have hbyte : byte ⟨type.code, 0, qos, retain⟩ = byte ⟨type.code, 0, qos, retain % 2⟩ := by
    simp only [byte, Nat.mod_mod]
  rw [hbyte]
  exact ofByte_byte type.code_lt (show 0 < 2 by decide) hqos (Nat.mod_lt _ (by decide))

/-- The body of a PUBLISH is taken apart as it was put together. -/
theorem publishParts?_publishBody (qos : Nat) (packetid : UInt16) {topicName : MQTTString}
    (htopic : topicName.IsPlain) (payload : Pointer) (size : Nat) :
    ∃ id, publishParts? qos (publishBody qos packetid topicName payload size) =
      some (topicName.bytes, id, payload.deref.load 0 size) := by
  have hle := htopic.length_bytes_le
  have hlead : leadingInt? (publishBody qos packetid topicName payload size) =
      some topicName.bytes.length := by
    rw [publishBody, htopic.writeMQTTString_eq, List.append_assoc]
    exact leadingInt?_writeInt (by omega) _
  have hdrop : (publishBody qos packetid topicName payload size).drop 2 = topicName.bytes ++
      ((if (0 : Int) < qos then writeInt packetid.toNat else []) ++ payload.deref.load 0 size) := by
    rw [publishBody, htopic.writeMQTTString_eq, List.append_assoc]
    exact List.drop_left' (writeInt_length _)
  have hlength : 2 + topicName.bytes.length ≤
      (publishBody qos packetid topicName payload size).length := by
    rw [publishBody, htopic.writeMQTTString_eq, List.length_append, List.length_append,
      writeInt_length]
    omega
  rw [publishParts?, hlead]
  simp only [if_pos hlength, ← List.drop_drop, hdrop, List.take_left', List.drop_left']
  by_cases hqos : qos = 0
  · subst hqos
    exact ⟨0, by simp⟩
  · have hpos : (0 : Int) < qos := by omega
    refine ⟨packetid.toNat, ?_⟩
    rw [if_neg hqos, if_pos hpos, leadingInt?_writeInt packetid.toNat_lt]
    simp [List.drop_left' (writeInt_length _)]

theorem Frame.packet?_of_parts {F : Frame} {dup qos retain id : Nat} {topic payload : List UInt8}
    (hheader : MQTTHeader.ofByte F.header = ⟨MsgType.publish.code, dup, qos, retain⟩)
    (hqos : qos < 3) (hparts : publishParts? qos F.body = some (topic, id, payload)) :
    F.packet? = some (.publish dup qos retain (UInt16.ofNat id) topic payload) := by
  have htype : MsgType.ofCode? F.type = some .publish := by
    rw [Frame.type, hheader]
    rfl
  simp only [Frame.packet?, htype, hheader, if_pos hqos, hparts, Option.map_some]

/-- What a broker reads in the packet of a publication. -/
theorem Request.IsWrittenAs.exists_frame {topicName : CString} {message : MQTTMessage} {size : Nat}
    (htopic : topicName.bytes.length ≤ 65535) (hsize : toInt message.payloadlen = size)
    (hle : mqttSerializePublishLength message.qos (.ofCString topicName) size ≤ 268435455)
    (hqos : 0 ≤ message.qos ∧ message.qos ≤ 2) {packet : List UInt8}
    (h : (Request.publish topicName message).IsWrittenAs packet) :
    ∃ F : Frame, F.bytes = packet ∧ ∃ qos retain id, F.packet? =
      some (.publish 0 qos retain id topicName.bytes (message.payload.deref.load 0 size)) := by
  obtain ⟨⟨header, body, hcons, _⟩, s, buflen, hwritten⟩ := h
  have hplain : (MQTTString.ofCString topicName).IsPlain := ofCString_isPlain htopic
  obtain ⟨qos, hnat⟩ := Int.eq_ofNat_of_zero_le hqos.1
  simp only [serializer, hsize] at hwritten
  rw [mqttSerializePublish_eq hplain hle] at hwritten
  generalize (if message.qos = 1 ∨ message.qos = 2 then UInt16.ofNat s.nextId
    else message.id) = packetid at hwritten
  rw [hnat] at hle hqos hwritten
  have hlt : (publishBody qos packetid (.ofCString topicName) message.payload size).length <
      268435456 := by
    rw [mqttSerializePublishLength_eq hplain qos packetid message.payload size] at hle
    omega
  have hbits : ((qos : Int) % 4).toNat = qos := by omega
  split at hwritten
  · -- nothing is written into a buffer that is too short
    rw [hwritten] at hcons
    cases hcons
  · rw [hwritten, hbits]
    obtain ⟨id, hparts⟩ := publishParts?_publishBody qos packetid hplain message.payload size
    have hheader := MQTTHeader.ofByte_byte_retain .publish (show qos < 4 by omega)
      message.retained.toNat
    exact ⟨.ofBody _ _ hlt, rfl, _, _, _, Frame.packet?_of_parts hheader (by omega) hparts⟩

/-! ## The broker between two devices -/

/-- A broker reads a PUBLISH in the packet and sends a subscriber at QoS 0 one with the same
topic and payload. -/
inductive Relays : List UInt8 → Frame → Prop
  | intro {F G : Frame} {dup qos retain dup' retain' : Nat} {id id' : UInt16}
      {topic payload : List UInt8}
      (hread : F.packet? = some (.publish dup qos retain id topic payload))
      (hsent : G.packet? = some (.publish dup' 0 retain' id' topic payload)) : Relays F.bytes G

/-- A PUBLISH at QoS 0 that brings the text of the value. -/
def BringsValue (config : MqttConfig) (p : Inbound) (value : Nat) : Prop :=
  ∃ dup retain id,
    p = .publish dup 0 retain id config.topic.bytes (publishText config value).bytes

variable {config : MqttConfig}

/-- What is sent on for the publication of a text brings this text.  Stated for any text: that
of a value would be computed. -/
theorem Relays.brings_text {topic text : CString} (htopic : topic.bytes.length ≤ 65535)
    (htext : text.bytes.length ≤ 255) {message : MQTTMessage}
    (hqos : 0 ≤ message.qos ∧ message.qos ≤ 2) {packet : List UInt8}
    (hpacket : (Request.publish topic (composeMessage message text)).IsWrittenAs packet)
    {G : Frame} (h : Relays packet G) :
    ∃ dup retain id, G.packet? = some (.publish dup 0 retain id topic.bytes text.bytes) := by
  have hsize : toInt (composeMessage message text).payloadlen = text.bytes.length :=
    toInt_of_lt (Nat.lt_of_le_of_lt htext (by decide))
  have hstrlen := Request.mqttStrlen_ofCString htopic
  have hle := mqttSerializePublishLength_le message.qos (.ofCString topic) text.bytes.length
  obtain ⟨F, hbytes, _, _, _, hF⟩ := hpacket.exists_frame htopic hsize
    (Int.le_trans hle (by omega)) hqos
  obtain ⟨hread, hsent⟩ := h
  obtain rfl := Frame.bytes_injective hbytes
  rw [hF] at hread
  cases hread
  rw [composeMessage, Pointer.deref_into, Memory.load_shift, text.load_memory le_rfl,
    List.take_length] at hsent
  exact ⟨_, _, _, hsent⟩

theorem Relays.brings (htopic : config.topic.bytes.length ≤ 65535) {value : Nat}
    {message : MQTTMessage} (hqos : 0 ≤ message.qos ∧ message.qos ≤ 2) {packet : List UInt8}
    (hpacket : (valueRequest config value message).IsWrittenAs packet) {G : Frame}
    (h : Relays packet G) : ∃ p, G.packet? = some p ∧ BringsValue config p value := by
  obtain ⟨dup, retain, id, hG⟩ := h.brings_text htopic (List.length_take_le _ _) hqos hpacket
  exact ⟨_, hG, dup, retain, id, rfl⟩

theorem exists_inbound {packets : List (List UInt8)} {values : List Nat} {frames : List Frame}
    (hvalues : List.Forall₂ (fun packet value => ∀ G, Relays packet G →
      ∃ p, G.packet? = some p ∧ BringsValue config p value) packets values)
    (hrelay : List.Forall₂ Relays packets frames) :
    ∃ inbound, List.Forall₂ (fun F p => F.packet? = some p) frames inbound ∧
      List.Forall₂ (BringsValue config) inbound values := by
  induction hvalues generalizing frames with
  | nil =>
      cases hrelay
      exact ⟨[], .nil, .nil⟩
  | cons hvalue _ ih =>
      cases hrelay with
      | cons hfirst hrest =>
          obtain ⟨p, hp, hbrings⟩ := hvalue _ hfirst
          obtain ⟨inbound, hinbound, hall⟩ := ih hrest
          exact ⟨p :: inbound, .cons hp hinbound, .cons hbrings hall⟩

/-! ## The subscriber -/

/-- Of all slots one contributes. -/
theorem filterMap_ofFn_eq_singleton {α β : Type} {n : Nat} {f : Fin n → α} {g : α → Option β}
    {i : Fin n} {b : β} (hi : g (f i) = some b) (hother : ∀ j, j ≠ i → g (f j) = none) :
    (List.ofFn f).filterMap g = [b] := by
  obtain ⟨before, after, hsplit⟩ := List.append_of_mem (List.mem_finRange i)
  have hnodup := List.nodup_finRange n
  rw [hsplit, List.nodup_middle, List.nodup_cons] at hnodup
  have hnone : ∀ l : List (Fin n), (∀ j ∈ l, j ∈ before ++ after) → l.filterMap (g ∘ f) = [] := by
    intro l hl
    refine List.filterMap_eq_nil_iff.mpr fun j hj => hother j ?_
    rintro rfl
    exact hnodup.1 (hl j hj)
  rw [List.ofFn_eq_map, List.filterMap_map, hsplit, List.filterMap_append, List.filterMap_cons,
    hnone before fun j hj => List.mem_append_left _ hj,
    hnone after fun j hj => List.mem_append_right _ hj, Function.comp_apply, hi]
  rfl

/-- A filter accepts itself as a topic, whatever wildcards it has. -/
theorem filterAccepts_self {topic : CString} (h : topic.bytes.length ≤ 65535) :
    filterAccepts topic (topicString topic.bytes) = true := by
  have hequals : mqttPacketEquals (topicString topic.bytes) topic = true := by
    refine (mqttPacketEquals_iff (topicString_delimits _)).mpr ⟨toInt_of_lt (by omega), ?_⟩
    rw [topic.load_memory le_rfl, List.take_length]
  rw [filterAccepts, hequals, Bool.true_or]

/-- A table that maps one topic, once, delivers it to its handler. -/
theorem handlersFor_topic {H : Type} {c : MQTTClient H} {topic : CString} {fp : H}
    (htopic : topic.bytes.length ≤ 65535) (hmaps : HandlerTable.Maps c.messageHandlers topic fp)
    (honly : ∀ {topicFilter fp'}, HandlerTable.Maps c.messageHandlers topicFilter fp' →
      topicFilter = topic) (hdistinct : HandlerTable.Distinct c.messageHandlers) :
    c.handlersFor (topicString topic.bytes) = [fp] := by
  obtain ⟨i, hi⟩ := hmaps
  have hslots : (List.ofFn c.messageHandlers).filterMap
      (·.handlerFor (topicString topic.bytes)) = [fp] := by
    refine filterMap_ofFn_eq_singleton (i := i) ?_ fun j hj => ?_
    · rw [hi, MessageHandlers.handlerFor]
      simp [filterAccepts_self htopic]
    · by_contra hsome
      obtain ⟨fp', hfp'⟩ := Option.ne_none_iff_exists'.mp hsome
      obtain ⟨topicFilter, hfilter, hhandler, _⟩ := handlerFor_eq_some hfp'
      have hslot : c.messageHandlers j = ⟨some topicFilter, some fp'⟩ := by
        rw [← hfilter, ← hhandler]
      obtain rfl := honly ⟨j, hslot⟩
      exact hj (hdistinct j i topicFilter hfilter (by rw [hi]))
  rw [MQTTClient.handlersFor, hslots]

theorem MQTTClient.closeSession_sameSizes {H : Type} (c : MQTTClient H) :
    SameSizes c c.closeSession := by
  unfold MQTTClient.closeSession
  dsimp only
  split <;> exact ⟨rfl, rfl⟩

theorem sendFrame_sameSizes {H : Type} {P : Platform σ} :
    SendFrame P fun w w' : World σ H => SameSizes w.client w'.client where
  refl _ := ⟨rfl, rfl⟩
  trans := .trans
  clock _ := ⟨rfl, rfl⟩
  timer _ _ := ⟨rfl, rfl⟩
  write _ := ⟨rfl, rfl⟩
  filled _ _ := ⟨rfl, rfl⟩
  sent _ := ⟨rfl, rfl⟩

/-- Apart from `MQTTClientInit`, no call changes the sizes of the buffers. -/
theorem callFrame_sameSizes {H : Type} {P : Platform σ} {fuel : Nat} (asks : Request → Prop)
    (sets : CString → Option H → Prop) :
    CallFrame P fuel asks sets fun w w' : World σ H => SameSizes w.client w'.client where
  toSendFrame := sendFrame_sameSizes
  turn _ _ _ _ h := cycle_sameSizes h
  prepare request _ := sendFrame_sameSizes.prepare (fun _ _ => ⟨rfl, rfl⟩)
    (fun _ _ _ => ⟨rfl, rfl⟩) (fun _ _ => ⟨rfl, rfl⟩) request
  setHandler _ w _ w' h := by
    cases h
    exact ⟨rfl, rfl⟩
  opened w _ w' h := by
    cases h
    exact ⟨rfl, rfl⟩
  closed w _ w' h := by
    cases h
    exact w.client.closeSession_sameSizes

/-- The points at which the client has been initialized. -/
def PubPoint.isInitialized : PubPoint → Bool
  | connecting _ | subscribing _ | closing _ | waiting | sleeping => true
  | attempting _ | initializing _ | disconnecting _ | returned => false

/-- What the application knows of its client besides the session. -/
structure IsEquipped (s : Application σ) : Prop where
  distinct : HandlerTable.Distinct s.world.client.messageHandlers
  sizes : s.pub.isInitialized = true →
    s.world.client.bufSize = mqttBufsize ∧ s.world.client.readbufSize = mqttBufsize

variable {P : Platform σ} {fuel : Nat}

/-- A call of the client, made after its initialization or by `mqtt_sub_task`. -/
theorem IsEquipped.call {s : Application σ} (h : IsEquipped s) {call : Call AppHandler}
    {world : World σ AppHandler} (hcall : CallStep P fuel s.world call world)
    (hinit : ∀ args, call ≠ .clientInit args) {pub : PubPoint} {yielding : Bool}
    (hpub : pub.isInitialized = true → s.pub.isInitialized = true) :
    IsEquipped { s with world, pub, yielding } := by
  have hsizes : SameSizes s.world.client world.client :=
    (hcall.keeps (callFrame_sameSizes _ _)).resolve_left fun ⟨args, heq, _⟩ => hinit args heq
  refine ⟨(hcall.enters hinit).distinct h.distinct, fun hat => ?_⟩
  obtain ⟨hbuf, hreadbuf⟩ := h.sizes (hpub hat)
  exact ⟨hsizes.bufSize.trans hbuf, hsizes.readbufSize.trans hreadbuf⟩

theorem AppStep.isEquipped {s t : Application σ} {move : AppMove σ}
    (hstep : AppStep P fuel config s move t) (h : IsEquipped s) : IsEquipped t := by
  cases hstep with
  | connected | notConnected => exact ⟨h.distinct, nofun⟩
  | disconnectNetwork =>
      refine ⟨h.distinct, fun hat => ?_⟩
      dsimp only at hat
      split at hat <;> cases hat
  | clientInit => exact ⟨nofun, fun _ => ⟨rfl, rfl⟩⟩
  | @connect _ data rc world hat hrun =>
      have hcall : CallStep P fuel s.world (.connect (some connectOptions) data) world := ⟨rc, hrun⟩
      exact h.call hcall nofun fun _ => by rw [hat]; rfl
  | @subscribe _ grantedQoS rc world hat hrun =>
      have hcall : CallStep P fuel s.world
        (.subscribe config.topic 0 (some .mqttMessageArrived) grantedQoS) world := ⟨rc, hrun⟩
      exact h.call hcall nofun fun _ => by rw [hat]; rfl
  | closeSession =>
      have hcall : CallStep P fuel s.world .closeSession (s.world.update MQTTClient.closeSession) :=
        ⟨⟨⟩, rfl⟩
      exact h.call hcall nofun nofun
  | @publish value message rc world hat hrun =>
      have hcall : CallStep P fuel s.world (.publish config.topic
        (composeMessage message (publishText config value))) world := ⟨rc, hrun⟩
      exact h.call hcall nofun fun _ => by rw [hat]; rfl
  | finishRound hat => exact ⟨h.distinct, fun _ => h.sizes (by rw [hat]; rfl)⟩
  | check => exact ⟨h.distinct, h.sizes⟩
  | @yield rc world _ hrun =>
      have hcall : CallStep P fuel s.world (.yield 500) world := ⟨rc, hrun⟩
      exact h.call hcall nofun id

/-- A client that has its topic in the table is one that delivers it to the handler, and has
room for packets of `MQTT_BUFSIZE` bytes. -/
theorem subscriber_delivers {env : σ} (htopic : config.topic.bytes.length ≤ 65535)
    {run : List (Transition (Application σ) (AppMove σ))} {s : Application σ}
    (hrun : Run (AppStep P fuel config) (.start env) run s)
    (hgranted : HandlerTable.Maps s.world.client.messageHandlers config.topic
      .mqttMessageArrived) :
    s.world.client.bufSize = mqttBufsize ∧ s.world.client.readbufSize = mqttBufsize ∧
      s.world.client.handlersFor (topicString config.topic.bytes) = [.mqttMessageArrived] := by
  have hsound : IsSound config run s :=
    hrun.history (IsSound config) ⟨rfl, ⟨rfl, fun _ => rfl⟩, nofun⟩ fun _ _ _ _ hstep h =>
      h.step hstep
  have hequipped : IsEquipped s :=
    hrun.history (fun _ => IsEquipped) ⟨nofun, nofun⟩ fun _ _ _ _ hstep h => hstep.isEquipped h
  have hexpects := hsound.expects
  -- where the client is offline its table is empty
  have hoffline : ¬ IsOffline s.world := fun h => h.isFree.not_maps _ _ hgranted
  have hpoint : s.pub.isInitialized = true ∧ s.pub.isOnline = true := by
    cases hat : s.pub with
    | attempting | initializing | connecting | disconnecting | returned =>
        rw [hat] at hexpects
        exact absurd hexpects hoffline
    | subscribing | closing | waiting | sleeping => exact ⟨rfl, rfl⟩
  obtain ⟨later, hlater⟩ := hsound.online hpoint.2
  obtain ⟨hbuf, hreadbuf⟩ := hequipped.sizes hpoint.1
  exact ⟨hbuf, hreadbuf, handlersFor_topic htopic hgranted
    (fun hmaps => (hlater.subscribed hmaps).1) hequipped.distinct⟩

/-! ## What the handler leaves -/

/-- The messages for which the handler was called, in order. -/
def arrivals (trace : List (Event AppHandler)) : List MessageData :=
  trace.filterMap fun
    | .call _ data => some data
    | _ => none

theorem deliveries_eq_arrivals (trace : List (Event AppHandler)) :
    deliveries trace = (arrivals trace).map fun data => (.mqttMessageArrived, data.delivery) := by
  rw [deliveries, arrivals, List.map_filterMap]
  refine List.filterMap_congr fun e _ => ?_
  cases e <;> rfl

/-- The handler leaves the text of the value in `msgBuffer`, as a string. -/
def LeavesValue (config : MqttConfig) (data : MessageData) (value : Nat) : Prop :=
  ∀ msgBuffer, (mqttMessageArrived msgBuffer data).HasAt 0
    ((publishText config value).bytes ++ [0])

/-- A text that fits `msgBuffer` is copied and terminated. -/
theorem mqttMessageArrived_hasAt {data : MessageData} {text : CString}
    (htext : text.bytes.length ≤ 255) (h : data.delivery.payload = text.bytes)
    (msgBuffer : Memory) : (mqttMessageArrived msgBuffer data).HasAt 0 (text.bytes ++ [0]) := by
  have hlength : data.message.payloadlen = text.bytes.length := by
    rw [← h, MessageData.delivery, Memory.load_length]
  have hfits : data.message.payloadlen ≤ mqttBufsize - 1 := by
    unfold mqttBufsize
    omega
  have hzero := (fitsMsgBuffer_of_le hfits).terminated msgBuffer
  rw [Memory.hasAt_append, Memory.hasAt_cons, Nat.zero_add, ← hlength]
  refine ⟨?_, hzero, Memory.hasAt_nil _ _⟩
  rw [← h]
  exact Memory.hasAt_store _ _ _

/-- The packets that bring values are delivered one by one, each with its text. -/
theorem leavesValue_of_deliveries {c : MQTTClient AppHandler}
    (hhandlers : c.handlersFor (topicString config.topic.bytes) = [.mqttMessageArrived])
    {inbound : List Inbound} {values : List Nat}
    (hinbound : List.Forall₂ (BringsValue config) inbound values) :
    ∀ {messages : List MessageData},
      (messages.map fun data => (AppHandler.mqttMessageArrived, data.delivery)) =
        inbound.flatMap (Inbound.deliveries c) →
      List.Forall₂ (LeavesValue config) messages values := by
  induction hinbound with
  | nil =>
      intro messages h
      obtain rfl := List.map_eq_nil_iff.mp h
      exact .nil
  | @cons _ value inbound values hbrings _ ih =>
      intro messages h
      obtain ⟨dup, retain, id, rfl⟩ := hbrings
      rw [List.flatMap_cons, Inbound.deliveries, hhandlers] at h
      obtain ⟨data, messages, rfl, hdata, hrest⟩ := List.map_eq_cons_iff.mp h
      refine .cons (mqttMessageArrived_hasAt (List.length_take_le _ _) ?_) (ih hrest)
      rw [(Prod.mk.inj hdata).2]

/-! ## The two devices -/

/-- Take any run of the program on one device, in which no calls of the client overlap, no wait
ends without a signal, no read of the register ends in a Modbus exception, and the QoS that is
found in `message` is one that MQTT has.  Let the broker hand its publications on to a second
device with the same topic, which may have done anything before but now has the topic in its
table.  One turn for each publication then returns, and unless a timer was found expired the
handler has been called as often as there were publications, and leaves in `msgBuffer` the texts
of values that the PLC of the first device has answered, in the order in which they were read. -/
theorem answers_reach_device {P : Platform σ} {fuel : Nat} {config : MqttConfig}
    {E : ModbusHost τ} {task : ModbusTaskConfig} {env : σ} {plcEnv : τ}
    (htopic : config.topic.bytes.length ≤ 65535)
    {run : List (Transition (Gateway σ τ) (GatewayMove σ))} {s : Gateway σ τ}
    (hrun : Run (GatewayStep P fuel config E task) (.start env plcEnv) run s)
    (hwake : ∀ tr ∈ run, tr.label ≠ .share .wakeUp)
    (hexception : ∀ tr ∈ run, ∀ register, tr.label ≠ .plc (.read .exception register))
    (hqos : ∀ tr ∈ run, ∀ value message, tr.label = .app (.publish value message) →
      0 ≤ message.qos ∧ message.qos ≤ 2)
    {Q : Platform ρ} {pending : ρ → List UInt8} {good : ρ → Prop} {limit fuel' : Nat}
    (hstream : Streams Q pending) (hsupply : Supplies Q pending good limit)
    (haccept : AcceptsWrites Q good) (hfuel : 2 ≤ fuel') (hlimit : mqttBufsize ≤ limit)
    {config' : MqttConfig} (hsame : config'.topic = config.topic) {env' : ρ}
    {run' : List (Transition (Application ρ) (AppMove ρ))} {t : Application ρ}
    (hrun' : Run (AppStep Q fuel' config') (.start env') run' t)
    (hgranted : HandlerTable.Maps t.world.client.messageHandlers config'.topic
      .mqttMessageArrived)
    {frames : List Frame} {rest : List UInt8}
    (hrelay : List.Forall₂ Relays ((sentPackets s.app.world.trace).filter isPublish) frames)
    (hfits : ∀ F ∈ frames, HoldsFrame.frameLength F.body ≤ mqttBufsize)
    (hpending : pending t.world.env = frames.flatMap Frame.bytes ++ rest)
    (hgood : good t.world.env) {timers : List Timer} (hcount : timers.length = frames.length) :
    ∃ values : List Nat, values.Sublist (run.filterMap answered?) ∧
      ∃ rcs w, (cycles Q fuel' timers).run t.world = some (rcs, w) ∧ pending w.env = rest ∧
        (NoExpiry (since t.world w) → (arrivals (since t.world w)).length = frames.length ∧
          List.Forall₂ (LeavesValue config) (arrivals (since t.world w)) values) := by
  obtain ⟨values, hsublist, hvalues⟩ := published_answered htopic hrun hwake hexception
    (fun tr htr value message packet hlabel hpacket G (hG : Relays packet G) =>
      hG.brings htopic (hqos tr htr value message hlabel) hpacket)
  obtain ⟨inbound, hinbound, hbrings⟩ := exists_inbound hvalues hrelay
  obtain ⟨hbuf, hreadbuf, hhandlers⟩ := subscriber_delivers (hsame ▸ htopic) hrun' hgranted
  rw [hsame] at hhandlers
  have hat : AtStream pending good (frames.flatMap Frame.bytes ++ rest) t.world :=
    ⟨hpending, hgood⟩
  obtain ⟨rcs, w, hcycles, hat', new, htrace, hshown⟩ :=
    cycles_returns hstream hsupply haccept hfuel hinbound hcount (by rw [hbuf]; decide)
      (hreadbuf ▸ hlimit) (by rw [hreadbuf]; decide) (by rwa [hreadbuf]) hat
  refine ⟨values, hsublist, rcs, w, hcycles, hat'.pending_eq, fun hquiet => ?_⟩
  rw [since_of_append htrace] at hquiet ⊢
  have hleaves : List.Forall₂ (LeavesValue config) (arrivals new) values := by
    refine leavesValue_of_deliveries hhandlers hbrings ?_
    rw [← deliveries_eq_arrivals]
    exact (hshown hquiet).1
  refine ⟨?_, hleaves⟩
  rw [hleaves.length_eq, ← hbrings.length_eq, ← hinbound.length_eq]

/-- A broker that accepts the connection and the subscription of the second device and then
hands on the publication of the first. -/
def relayingBroker : Recording :=
  ⟨[0x20, 2, 0, 0, 0x90, 3, 0, 2, 0] ++ publicationOfFive.bytes, []⟩

theorem publicationOfFive_packet? : publicationOfFive.packet? =
    some (.publish 0 0 0 0 [97] (publishText briefConfig 5).bytes) := by decide

theorem zero_lt_maxMessageHandlers : 0 < maxMessageHandlers := by decide

/-- The slot that the first subscription takes. -/
def firstSlot : Fin maxMessageHandlers := ⟨0, zero_lt_maxMessageHandlers⟩

/-- The value that the first device has read stands in the buffer of the second. -/
theorem answers_reach_device_five :
    ∃ run s, Run
        (GatewayStep (linuxPlatform Recording.host 1030) 8 briefConfig registerHost plcConfig)
        (.start briefBroker 5) run s ∧ run.filterMap answered? = [5] ∧
      ∃ run' t, Run (AppStep (linuxPlatform Recording.host 1030) 8 briefConfig)
          (.start relayingBroker) run' t ∧
        ∃ rcs w data, (cycles (linuxPlatform Recording.host 1030) 8 [second]).run t.world =
          some (rcs, w) ∧ arrivals (since t.world w) = [data] ∧ LeavesValue briefConfig data 5 := by
  obtain ⟨run, s, hrun, hwake, hexception, hmessage, hanswered, hpackets⟩ := exists_runOfFive
  have hcalls :
      ((mqttConnect (linuxPlatform Recording.host 1030) 8 (some connectOptions) ⟨0, 0⟩).run
        (World.update ⟨staticClient, relayingBroker, []⟩ appClientInit)).bind (fun connected =>
      ((mqttSubscribe (linuxPlatform Recording.host 1030) 8 briefConfig.topic 0
        (some AppHandler.mqttMessageArrived) 0).run connected.2).bind fun subscribed =>
      ((cycles (linuxPlatform Recording.host 1030) 8 [second]).run subscribed.2).map fun turned =>
        (connected.1, subscribed.1, decide ((subscribed.2.client.messageHandlers firstSlot).entry =
            some (briefConfig.topic, .mqttMessageArrived) ∧
          subscribed.2.env = ⟨publicationOfFive.bytes, []⟩ ∧
          NoExpiry (since subscribed.2 turned.2)))) = some (0, 0, true) := by
    decide
  obtain ⟨⟨rc₁, w₁⟩, hconnect, hcalls⟩ := Option.bind_eq_some_iff.mp hcalls
  obtain ⟨⟨rc₂, w₂⟩, hsubscribe, hcalls⟩ := Option.bind_eq_some_iff.mp hcalls
  obtain ⟨⟨rcs, w₃⟩, hturn, hcalls⟩ := Option.map_eq_some_iff.mp hcalls
  simp only [Prod.mk.injEq] at hcalls
  obtain ⟨rfl, rfl, hcalls⟩ := hcalls
  obtain ⟨hentry, henv, hquiet⟩ := of_decide_eq_true hcalls
  have hrun' : Run (AppStep (linuxPlatform Recording.host 1030) 8 briefConfig)
      (.start relayingBroker) _ _ :=
    .cons (@AppStep.connected _ _ _ _ _ 0 .allGood relayingBroker rfl (by decide))
    (.cons (.clientInit rfl) (.cons (.connect rfl hconnect) (.single (.subscribe rfl hsubscribe))))
  have hgranted : HandlerTable.Maps w₂.client.messageHandlers briefConfig.topic
      .mqttMessageArrived := by
    obtain ⟨hfilter, hfp⟩ := MessageHandlers.entry_eq_some.mp hentry
    exact ⟨firstSlot, by rw [← hfilter, ← hfp]⟩
  have hrelay : List.Forall₂ Relays ((sentPackets s.app.world.trace).filter isPublish)
      [publicationOfFive] := by
    rw [hpackets]
    exact .cons (.intro publicationOfFive_packet? publicationOfFive_packet?) .nil
  have hpending : w₂.env.inbound = [publicationOfFive].flatMap Frame.bytes ++ [] := by
    rw [henv]
    rfl
  have hgood : w₂.env.schedule.length + mqttBufsize < 1030 := by
    rw [henv]
    decide
  obtain ⟨values, hsublist, _, _, hcycles, _, hleaves⟩ := answers_reach_device (by decide) hrun
    hwake hexception (fun tr htr value message hlabel => by
      rw [hmessage tr htr value message hlabel]
      decide)
    (Recording.delivers.streams 1030) (Recording.delivers.supplies 1030 mqttBufsize)
    (Recording.acceptsWrites (by decide) _) (by decide) le_rfl rfl hrun' hgranted hrelay
    (by decide) hpending hgood (rfl : [second].length = _)
  obtain ⟨rfl, rfl⟩ := run_inj hturn hcycles
  obtain ⟨hone, hleaves⟩ := hleaves hquiet
  obtain ⟨data, hdata⟩ := List.length_eq_one_iff.mp hone
  refine ⟨run, s, hrun, hanswered, _, _, hrun', _, _, data, hturn, hdata, ?_⟩
  rw [hanswered] at hsublist
  rw [hdata] at hleaves
  cases hleaves with
  | @cons _ value _ _ hvalue =>
      obtain rfl : value = 5 := List.mem_singleton.mp (hsublist.subset List.mem_cons_self)
      exact hvalue

end MqttClient

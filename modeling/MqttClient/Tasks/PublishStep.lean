/-
# One publication of `mqtt_pub_task`

The publishing loop formats the register value into `str`, stores pointer and length of
the text into the local `message`, and calls `MQTTPublish`.  The other fields of
`message` are never assigned, and `MQTTPublish` reads three of them: `qos` and `retained`
go into the header byte, `qos` also decides whether the packet has an identifier and
which acknowledgement is awaited, and with a value of `qos` that is neither 1 nor 2 the
identifier is `id` as it was found.

Two publications that differ only in what they found in `message` are alike, for every
configuration, value, client and platform, exactly if the two contents agree in all of
this.
-/

import MqttClient.Client.Handshake
import MqttClient.Client.Waiting
import MqttClient.Packet.RoundTrip
import Mathlib.Data.Nat.Digits.Defs

namespace MqttClient

open Semantics Program

variable {σ H : Type}

/-! ## The text -/

/-- `%lu`. -/
def decimalBytes (n : Nat) : List UInt8 :=
  if n = 0 then [48] else (Nat.digits 10 n).reverse.map fun d => UInt8.ofNat (48 + d)

theorem zero_notMem_decimalBytes (n : Nat) : 0 ∉ decimalBytes n := by
  unfold decimalBytes
  split
  · decide
  · intro hmem
    obtain ⟨d, hd, hzero⟩ := List.mem_map.mp hmem
    have hlt := Nat.digits_lt_base (by decide) (List.mem_reverse.mp hd)
    have hnat := congrArg UInt8.toNat hzero
    rw [UInt8.toNat_ofNat', UInt8.toNat_zero] at hnat
    omega

/-- The fields of `mqtt_config_t` that a publication uses. -/
structure MqttConfig where
  deviceName : CString
  topic : CString
  deriving DecidableEq

/-- `"{\n  \"device\": \""`, `"\",\n  \"data\": "` and `"\n}"`, the fixed parts of the text. -/
def publishFormat : List UInt8 × List UInt8 × List UInt8 :=
  ([123, 10, 32, 32, 34, 100, 101, 118, 105, 99, 101, 34, 58, 32, 34],
    [34, 44, 10, 32, 32, 34, 100, 97, 116, 97, 34, 58, 32], [10, 125])

/-- What `snprintf` leaves in `str`, whose size is 256. -/
def publishText (config : MqttConfig) (value : Nat) : CString :=
  ⟨(publishFormat.1 ++ config.deviceName.bytes ++ publishFormat.2.1 ++ decimalBytes value ++
    publishFormat.2.2).take 255, by
      intro hmem
      have hmem := List.mem_of_mem_take hmem
      simp only [List.mem_append] at hmem
      rcases hmem with (((hmem | hmem) | hmem) | hmem) | hmem
      · exact absurd hmem (by decide)
      · exact config.deviceName.noNul hmem
      · exact absurd hmem (by decide)
      · exact zero_notMem_decimalBytes value hmem
      · exact absurd hmem (by decide)⟩

/-! ## The publication -/

/-- The assignments to `message` before the call; `message` is what it held before. -/
def composeMessage (message : MQTTMessage) (str : CString) : MQTTMessage :=
  { message with payload := .into str.memory 0, payloadlen := str.bytes.length }

/-- The body of the publishing loop up to the result of `MQTTPublish`. -/
def publishStep (P : Platform σ) (fuel : Nat) (config : MqttConfig) (value : Nat)
    (message : MQTTMessage) : Action σ H Int :=
  mqttPublish P fuel config.topic (composeMessage message (publishText config value))

/-- The result of the publication and the bytes it wrote. -/
def publishOutcome (P : Platform σ) (fuel : Nat) (config : MqttConfig) (value : Nat)
    (message : MQTTMessage) (w : World σ H) : Option (Int × List (List UInt8)) :=
  ((publishStep P fuel config value message).run w).map fun r => (r.1, writes (since w r.2))

/-- With these two contents of `message`, publications do not differ. -/
def PublishesAlike (message₁ message₂ : MQTTMessage) : Prop :=
  ∀ (σ H : Type) (P : Platform σ) (fuel : Nat) (config : MqttConfig) (value : Nat)
    (w : World σ H), publishOutcome P fuel config value message₁ w =
      publishOutcome P fuel config value message₂ w

/-- The two contents agree in everything that is looked at. -/
structure AgreesOnWire (message₁ message₂ : MQTTMessage) : Prop where
  retained : message₁.retained.toNat % 2 = message₂.retained.toNat % 2
  qos_bits : message₁.qos % 4 = message₂.qos % 4
  qos_pos : 0 < message₁.qos ↔ 0 < message₂.qos
  qos_one : message₁.qos = 1 ↔ message₂.qos = 1
  qos_two : message₁.qos = 2 ↔ message₂.qos = 2
  id : 0 < message₁.qos → message₁.qos ≠ 1 → message₁.qos ≠ 2 → message₁.id = message₂.id

/-- The header byte takes two bits of the QoS and one of the retained flag; the identifier
is written above QoS 0. -/
theorem mqttSerializePublish_congr {qos₁ qos₂ : Int} {retained₁ retained₂ : UInt8}
    {id₁ id₂ : UInt16} (hretained : retained₁.toNat % 2 = retained₂.toNat % 2)
    (hbits : qos₁ % 4 = qos₂ % 4) (hpos : 0 < qos₁ ↔ 0 < qos₂) (hid : 0 < qos₁ → id₁ = id₂)
    (buflen : Int) (dup : UInt8) (topicName : MQTTString) (payload : Pointer) (payloadlen : Int) :
    mqttSerializePublish buflen dup qos₁ retained₁ id₁ topicName payload payloadlen =
      mqttSerializePublish buflen dup qos₂ retained₂ id₂ topicName payload payloadlen := by
  have hlength : mqttSerializePublishLength qos₁ topicName payloadlen =
      mqttSerializePublishLength qos₂ topicName payloadlen := by
    simp only [mqttSerializePublishLength, hpos]
  have hheader :
      MQTTHeader.byte ⟨MsgType.publish.code, dup.toNat, (qos₁ % 4).toNat, retained₁.toNat⟩ =
        MQTTHeader.byte ⟨MsgType.publish.code, dup.toNat, (qos₂ % 4).toNat, retained₂.toNat⟩ := by
    simp only [MQTTHeader.byte, hbits, hretained]
  have hwritten : (if 0 < qos₁ then writeInt id₁.toNat else []) =
      (if 0 < qos₂ then writeInt id₂.toNat else []) := by
    by_cases h : 0 < qos₁
    · rw [if_pos h, if_pos (hpos.mp h), hid h]
    · rw [if_neg h, if_neg fun h' => h (hpos.mpr h')]
  simp only [mqttSerializePublish, hlength, hheader, hwritten]

/-- The identifier under which the message goes out: a fresh one at QoS 1 and 2. -/
def MQTTMessage.wireId (message : MQTTMessage) (c : MQTTClient H) : UInt16 :=
  if message.qos = 1 ∨ message.qos = 2 then UInt16.ofNat c.nextId else message.id

theorem run_preparePublish (topicName : CString) (message : MQTTMessage) (w : World σ H) :
    (preparePublish topicName message).run w =
      some (fun buflen => mqttSerializePublish buflen 0 message.qos message.retained
          (message.wireId w.client) (.ofCString topicName) message.payload
          (toInt message.payloadlen),
        if message.qos = 1 ∨ message.qos = 2 then
          w.update fun c => { c with nextPacketid := c.nextId }
        else w) := by
  unfold preparePublish publishId MQTTMessage.wireId
  split
  · rfl
  · rfl

theorem preparePublish_congr {message₁ message₂ : MQTTMessage} (h : AgreesOnWire message₁ message₂)
    (topicName str : CString) :
    (preparePublish topicName (composeMessage message₁ str) : Action σ H (Int → Serialized)) =
      preparePublish topicName (composeMessage message₂ str) := by
  ext1 w
  have hfresh : (message₁.qos = 1 ∨ message₁.qos = 2) ↔ (message₂.qos = 1 ∨ message₂.qos = 2) :=
    or_congr h.qos_one h.qos_two
  have hid : 0 < message₁.qos →
      (composeMessage message₁ str).wireId w.client =
        (composeMessage message₂ str).wireId w.client := by
    intro hpos
    by_cases hone : message₁.qos = 1 ∨ message₁.qos = 2
    · exact (if_pos hone).trans (if_pos (hfresh.mp hone)).symm
    · have hother := not_or.mp hone
      refine (if_neg hone).trans (Eq.trans ?_ (if_neg (hfresh.not.mp hone)).symm)
      exact h.id hpos hother.1 hother.2
  rw [run_preparePublish, run_preparePublish]
  congr 2
  · funext buflen
    exact mqttSerializePublish_congr h.retained h.qos_bits h.qos_pos hid ..
  · exact if_congr hfresh rfl rfl

theorem publishesAlike_of_agreesOnWire {message₁ message₂ : MQTTMessage}
    (h : AgreesOnWire message₁ message₂) : PublishesAlike message₁ message₂ := by
  intro σ H P fuel config value w
  have hone : (composeMessage message₁ (publishText config value)).qos = 1 ↔
    (composeMessage message₂ (publishText config value)).qos = 1 := h.qos_one
  have htwo : (composeMessage message₁ (publishText config value)).qos = 2 ↔
    (composeMessage message₂ (publishText config value)).qos = 2 := h.qos_two
  simp only [publishOutcome, publishStep, mqttPublish, preparePublish_congr h, hone, htwo]

/-! ## A publication that shows what was found -/

theorem neg_one_le_length_nil : (-1 : Int) ≤ ([] : List UInt8).length := by
  decide

/-- Nothing is ever read, every write is accepted, and the clock stands still. -/
def deafPlatform : Platform Unit where
  gettimeofday _ := (⟨0, 0⟩, ())
  mqttread _ _ _ := some (⟨-1, [], Nat.zero_le _, neg_one_le_length_nil⟩, ())
  mqttwrite _ offered _ := some (offered.length, ())
  cycleLocals _ := (⟨⟨0, 0, 0, 0, .initializer, .null, 0⟩, ⟨0, 0, 0⟩⟩, ())

/-- The application's client with its session open. -/
def publishWorld : World Unit Unit := ⟨{ brokerClient with isconnected := true }, (), []⟩

/-- A configuration with empty names. -/
def emptyConfig : MqttConfig := ⟨⟨[], by decide⟩, ⟨[], by decide⟩⟩

theorem deafPlatform_acceptsWrites : AcceptsWrites deafPlatform fun _ => True :=
  fun _ _ _ _ => ⟨_, rfl⟩

/-- The body of the PUBLISH packet of the value 0 under this configuration. -/
def wireBody (qos : Int) (id : UInt16) : List UInt8 :=
  publishBody qos id (.ofCString emptyConfig.topic) (.into (publishText emptyConfig 0).memory 0) 31

/-- The packet itself. -/
def wireBytes (message : MQTTMessage) (id : UInt16) : List UInt8 :=
  MQTTHeader.byte ⟨MsgType.publish.code, 0, (message.qos % 4).toNat, message.retained.toNat⟩ ::
    (mqttPacketEncode (wireBody message.qos id).length ++ wireBody message.qos id)

theorem emptyTopic_isPlain : (MQTTString.ofCString emptyConfig.topic).IsPlain :=
  ⟨rfl, Nat.zero_le _⟩

theorem wireBody_length (qos : Int) (id : UInt16) :
    (wireBody qos id).length = if 0 < qos then 35 else 33 := by
  have hlength := mqttSerializePublishLength_eq emptyTopic_isPlain qos id
    (.into (publishText emptyConfig 0).memory 0) 31
  have hstrlen : mqttStrlen (.ofCString emptyConfig.topic) = 0 := by decide
  rw [mqttSerializePublishLength, hstrlen, ← wireBody] at hlength
  split at hlength
  · rename_i hpos
    rw [if_pos hpos]
    omega
  · rename_i hpos
    rw [if_neg hpos]
    omega

theorem wireBody_length_lt (qos : Int) (id : UInt16) : (wireBody qos id).length < 128 := by
  rw [wireBody_length]
  split
  · decide
  · decide

/-- The packet fits the send buffer. -/
theorem mqttSerializePublish_wireBytes (message : MQTTMessage) (id : UInt16) :
    mqttSerializePublish 1024 0 message.qos message.retained id (.ofCString emptyConfig.topic)
        (.into (publishText emptyConfig 0).memory 0) (31 : Nat) =
      .ofBytes (wireBytes message id) := by
  have hlt := wireBody_length_lt message.qos id
  have hlength : mqttSerializePublishLength message.qos (.ofCString emptyConfig.topic) (31 : Nat) =
      (wireBody message.qos id).length :=
    mqttSerializePublishLength_eq emptyTopic_isPlain message.qos id _ 31
  have hfits : ¬ (1024 : Int) < mqttPacketLen (wireBody message.qos id).length := by
    rw [wireBody_length]
    split
    · decide
    · decide
  exact (mqttSerializePublish_eq emptyTopic_isPlain (by omega)).trans (if_neg hfits)

/-- The two bytes of an identifier determine it. -/
theorem writeInt_toNat_inj {id₁ id₂ : UInt16} (h : writeInt id₁.toNat = writeInt id₂.toNat) :
    id₁ = id₂ := by
  have hread₁ := leadingInt?_writeInt id₁.toNat_lt []
  rw [h, leadingInt?_writeInt id₂.toNat_lt []] at hread₁
  exact UInt16.toNat_inj.mp (Option.some.inj hread₁).symm

/-- Two such packets that are equal come from contents that agree in what is written. -/
theorem wireBytes_inj {message₁ message₂ : MQTTMessage} {id₁ id₂ : UInt16}
    (h : wireBytes message₁ id₁ = wireBytes message₂ id₂) :
    message₁.retained.toNat % 2 = message₂.retained.toNat % 2 ∧
      message₁.qos % 4 = message₂.qos % 4 ∧ (0 < message₁.qos ↔ 0 < message₂.qos) ∧
      (0 < message₁.qos → id₁ = id₂) := by
  have hlt₁ := wireBody_length_lt message₁.qos id₁
  have hlt₂ := wireBody_length_lt message₂.qos id₂
  rw [wireBytes, wireBytes, mqttPacketEncode_of_lt hlt₁, mqttPacketEncode_of_lt hlt₂] at h
  obtain ⟨hheader, hrest⟩ := List.cons.inj h
  obtain ⟨hfield, hbody⟩ := List.cons.inj hrest
  have hbits : message₁.retained.toNat % 2 = message₂.retained.toNat % 2 ∧
      message₁.qos % 4 = message₂.qos % 4 := by
    have hbyte := congrArg UInt8.toNat hheader
    simp only [MQTTHeader.byte, MsgType.code, UInt8.toNat_ofNat'] at hbyte
    clear hlt₁ hlt₂
    omega
  have hcount := congrArg UInt8.toNat hfield
  rw [UInt8.toNat_ofNat', UInt8.toNat_ofNat', wireBody_length, wireBody_length] at hcount
  have hpos : 0 < message₁.qos ↔ 0 < message₂.qos := by
    split at hcount <;> split at hcount <;> omega
  refine ⟨hbits.1, hbits.2, hpos, fun hpos₁ => ?_⟩
  have hbody : wireBody message₁.qos id₁ = wireBody message₂.qos id₂ := hbody
  rw [wireBody, wireBody, publishBody, publishBody, if_pos hpos₁, if_pos (hpos.mp hpos₁)] at hbody
  exact writeInt_toNat_inj (List.append_cancel_right (List.append_cancel_left hbody))

/-! ## Its run -/

/-- The first thing written from `w` to `w'`. -/
def WritesFirst (w w' : World σ H) (bytes : List UInt8) : Prop :=
  ∃ new, w'.trace = w.trace ++ new ∧ (writes new).head? = some bytes

theorem WritesFirst.append {w w' w'' : World σ H} {bytes : List UInt8}
    (h : WritesFirst w w' bytes) (hgrew : ∃ new, w''.trace = w'.trace ++ new) :
    WritesFirst w w'' bytes := by
  obtain ⟨new, htrace, hhead⟩ := h
  obtain ⟨new', htrace'⟩ := hgrew
  refine ⟨new ++ new', by rw [htrace', htrace, List.append_assoc], ?_⟩
  rw [writes_append, List.head?_append, hhead]
  rfl

/-- Waiting for an acknowledgement that cannot be read fails. -/
theorem awaitAck_deaf (packetType : MsgType) {timer : Timer}
    (hrunning : timer.isExpiredAt ⟨0, 0⟩ = false) (w : World Unit H) :
    (awaitAck deafPlatform 2 packetType timer).Returns w fun rc w' =>
      rc = failure ∧ ∃ new, w'.trace = w.trace ++ new := by
  have hpos := packetType.code_pos
  have hwait : (waitfor deafPlatform 2 packetType timer).Returns w fun answer _ => answer = -1 := by
    apply returns_bind_of_eq_some (run_timerIsExpired timer w)
    have hrunning : timer.isExpiredAt (deafPlatform.gettimeofday w.env).1 = false := hrunning
    rw [if_neg (Bool.eq_false_iff.mp hrunning)]
    have hread : (readPacket deafPlatform timer).run (w.asked deafPlatform timer) =
      some (-1, _) := rfl
    apply returns_bind_of_eq_some (run_cycle_of_neg hread (by decide))
    rw [if_neg fun h => absurd h.2 (by decide)]
    exact returns_pure rfl
  apply (hwait.and_keeps waitfor_idles).bind
  rintro answer w₁ ⟨rfl, hidles⟩
  obtain ⟨calls, new, htrace, _⟩ := hidles.received
  rw [if_neg (by omega)]
  exact returns_pure ⟨rfl, new, htrace⟩

/-- What is serialized goes out. -/
theorem sendRequest_deaf {prepare : Action Unit H (Int → Serialized)}
    {serializer : Int → Serialized} {bytes : List UInt8} {w w₂ : World Unit H}
    (htimeout : w.client.commandTimeoutMs = 1000)
    (hprepare : prepare.run (w.ticked deafPlatform) = some (serializer, w₂))
    (htrace : w₂.trace = (w.ticked deafPlatform).trace)
    (hbytes : serializer (toInt w₂.client.bufSize) = .ofBytes bytes) (hlength : 0 < bytes.length) :
    (sendRequest deafPlatform 2 prepare).Returns w fun sent w' =>
      sent = some second ∧ WritesFirst w w' bytes := by
  have hrunning : second.isExpiredAt ⟨0, 0⟩ = false := by decide
  have hticked : w₂.trace = w.trace ++ [.clock ⟨0, 0⟩] := htrace
  have htimer : (timerCountdownMS deafPlatform w.client.commandTimeoutMs).run w =
      some (second, w.ticked deafPlatform) := by
    rw [htimeout]
    rfl
  have hserialize : (serialize serializer).run w₂ = some ((bytes.length : Int),
      w₂.update fun c => { c with buf := c.buf.store 0 bytes }) := run_serialize serializer hbytes
  apply returns_bind_of_eq_some (run_client w)
  apply returns_bind_of_eq_some htimer
  apply returns_bind_of_eq_some hprepare
  apply returns_bind_of_eq_some hserialize
  rw [if_neg (by omega), Int.toNat_natCast]
  generalize hfilled : w₂.update (fun c => { c with buf := c.buf.store 0 bytes }) = w₃
  have hload : w₃.client.buf.load 0 bytes.length = bytes := by
    rw [← hfilled]
    exact Memory.load_store_self w₂.client.buf 0 bytes
  have htrace₃ : w₃.trace = w₂.trace := by rw [← hfilled, World.update]
  have hsends := sendPacket_sends deafPlatform_acceptsWrites.writesWhole (Nat.le_refl 2) hlength
    second (w := w₃)
  obtain ⟨rc, w₄, hsend, ⟨rfl, _⟩ | ⟨_, _, hhindered⟩⟩ := hsends
  · obtain ⟨new, t, htrace₄, hhead, _⟩ := sendPacket_success hlength hsend
    apply returns_bind_of_eq_some hsend
    rw [if_neg (not_not.mpr rfl)]
    refine returns_pure ⟨rfl, .clock ⟨0, 0⟩ :: new, ?_, ?_⟩
    · rw [htrace₄, htrace₃, hticked, List.append_assoc]
      rfl
    · rw [hload] at hhead
      exact hhead
  · refine absurd (hhindered (toInt w₃.client.bufSize)) ?_
    exact deafPlatform_acceptsWrites.not_hindered (Int.le_refl _) hrunning

theorem publishStep_deaf (message : MQTTMessage) :
    (publishStep deafPlatform 2 emptyConfig 0 message).Returns publishWorld fun rc w' =>
      rc = (if message.qos = 1 ∨ message.qos = 2 then failure else mqttSuccess) ∧
        WritesFirst publishWorld w' (wireBytes message (message.wireId publishWorld.client)) := by
  have hrunning : second.isExpiredAt ⟨0, 0⟩ = false := by decide
  have hprepare := run_preparePublish emptyConfig.topic
    (composeMessage message (publishText emptyConfig 0)) (publishWorld.ticked deafPlatform)
  obtain ⟨nextPacketid, htakes⟩ := takesId_preparePublish _ _ _ _ _ hprepare
  rw [htakes] at hprepare
  have hbytes : mqttSerializePublish (toInt mqttBufsize) 0 message.qos message.retained
      (message.wireId publishWorld.client) (.ofCString emptyConfig.topic)
      (.into (publishText emptyConfig 0).memory 0)
      (toInt (publishText emptyConfig 0).bytes.length) =
        .ofBytes (wireBytes message (message.wireId publishWorld.client)) := by
    have hroom : toInt mqttBufsize = 1024 := by decide
    have hpayload : toInt (publishText emptyConfig 0).bytes.length = (31 : Nat) := by decide
    rw [hroom, hpayload]
    exact mqttSerializePublish_wireBytes message _
  have hsent := sendRequest_deaf (w := publishWorld) rfl hprepare rfl hbytes (Nat.succ_pos _)
  apply returns_bind_of_eq_some (run_client publishWorld)
  rw [if_pos (show publishWorld.client.isconnected = true from rfl)]
  apply hsent.bind
  rintro _ w₁ ⟨rfl, hwrites⟩
  have hfails : ∀ packetType, (do
      let rc ← awaitAck deafPlatform 2 packetType second
      finishRequest rc : Action Unit Unit Int).Returns w₁ fun rc w' =>
        rc = failure ∧ WritesFirst publishWorld w'
          (wireBytes message (message.wireId publishWorld.client)) := by
    intro packetType
    apply (awaitAck_deaf packetType hrunning w₁).bind
    rintro rc w₂ ⟨rfl, hgrew⟩
    exact ⟨_, _, rfl, rfl, hwrites.append hgrew⟩
  dsimp only
  by_cases hone : (composeMessage message (publishText emptyConfig 0)).qos = 1
  · rw [if_pos hone, if_pos (show message.qos = 1 ∨ message.qos = 2 from .inl hone)]
    exact hfails .puback
  · rw [if_neg hone]
    by_cases htwo : (composeMessage message (publishText emptyConfig 0)).qos = 2
    · rw [if_pos htwo, if_pos (show message.qos = 1 ∨ message.qos = 2 from .inr htwo)]
      exact hfails .pubcomp
    · rw [if_neg htwo, if_neg (show ¬ (message.qos = 1 ∨ message.qos = 2) from
        not_or.mpr ⟨hone, htwo⟩)]
      exact ⟨_, _, rfl, rfl, hwrites⟩

theorem agreesOnWire_of_publishesAlike {message₁ message₂ : MQTTMessage}
    (h : PublishesAlike message₁ message₂) : AgreesOnWire message₁ message₂ := by
  obtain ⟨rc₁, w₁, hrun₁, hrc₁, new₁, htrace₁, hfirst₁⟩ := publishStep_deaf message₁
  obtain ⟨rc₂, w₂, hrun₂, hrc₂, new₂, htrace₂, hfirst₂⟩ := publishStep_deaf message₂
  have hsame := h Unit Unit deafPlatform 2 emptyConfig 0 publishWorld
  rw [publishOutcome, publishOutcome, hrun₁, hrun₂, Option.map_some, Option.map_some,
    since_of_append htrace₁, since_of_append htrace₂] at hsame
  obtain ⟨hrc, hwrites⟩ := Prod.mk.inj (Option.some.inj hsame)
  rw [hwrites, hfirst₂] at hfirst₁
  obtain ⟨hretained, hbits, hpos, hid⟩ := wireBytes_inj (Option.some.inj hfirst₁).symm
  have hfresh : (message₁.qos = 1 ∨ message₁.qos = 2) ↔ (message₂.qos = 1 ∨ message₂.qos = 2) := by
    have hne : failure ≠ mqttSuccess := by decide
    dsimp only at hrc
    rw [hrc₁, hrc₂] at hrc
    constructor
    · intro hfresh
      by_contra hother
      rw [if_pos hfresh, if_neg hother] at hrc
      exact hne hrc
    · intro hfresh
      by_contra hother
      rw [if_neg hother, if_pos hfresh] at hrc
      exact hne hrc.symm
  refine ⟨hretained, hbits, hpos, by omega, by omega, fun hpos₁ hone htwo => ?_⟩
  have hother : ¬ (message₁.qos = 1 ∨ message₁.qos = 2) := not_or.mpr ⟨hone, htwo⟩
  have hid := hid hpos₁
  rwa [MQTTMessage.wireId, MQTTMessage.wireId, if_neg hother, if_neg (hfresh.not.mp hother)] at hid

/-- Publications do not depend on what `message` held exactly as far as the contents agree
in the bits of the header byte, in the kind of QoS, and in the identifier that is sent. -/
theorem publishesAlike_iff (message₁ message₂ : MQTTMessage) :
    PublishesAlike message₁ message₂ ↔ AgreesOnWire message₁ message₂ :=
  ⟨agreesOnWire_of_publishesAlike, publishesAlike_of_agreesOnWire⟩

/-- A `message` with these two fields, the others zero. -/
def foundMessage (qos : Int) (retained : UInt8) : MQTTMessage := ⟨qos, retained, 0, 0, .null, 0⟩

/-- The header byte shows the retained flag that was found, and with a QoS of 1 that was
found the call waits for an acknowledgement and fails. -/
theorem not_publishesAlike_foundMessage :
    let outcome (message : MQTTMessage) :=
      (publishOutcome deafPlatform 2 emptyConfig 0 message publishWorld).map
        fun r => (r.1, r.2.map List.head?)
    outcome (foundMessage 0 0) = some (0, [some 0x30]) ∧
      outcome (foundMessage 0 1) = some (0, [some 0x31]) ∧
      outcome (foundMessage 1 0) = some (-1, [some 0x32]) ∧
      ¬ PublishesAlike (foundMessage 0 0) (foundMessage 0 1) ∧
      ¬ PublishesAlike (foundMessage 0 0) (foundMessage 1 0) := by
  refine ⟨by decide, by decide, by decide, fun h => ?_, fun h => ?_⟩
  · exact absurd (agreesOnWire_of_publishesAlike h).retained (by decide)
  · exact absurd (agreesOnWire_of_publishesAlike h).qos_bits (by decide)

end MqttClient

/-
# Packet identifiers

`getNextPacketId` steps a counter that `MQTTClientInit` sets to 1.  Of the calls of the
client's interface only a subscription, an unsubscription and a publish at QoS 1 or 2
draw from it, each once and before its packet is made, so that an identifier is used up
even if the packet is never sent.  Between two calls of `MQTTClientInit` the identifiers
follow each other through the whole range before one comes again.

The packets in which the client needs an identifier are those of these calls, and each
carries the identifier its call drew.  There is one exception: `MQTTPublish` compares
`message->qos` with 1 and 2 before it draws, but the header takes only the two lowest
bits of it.  A message whose `qos` nobody has set may so be sent at QoS 1 or 2 with
whatever stands in `message->id`.
-/

import MqttClient.Semantics.Counter
import MqttClient.Packet.RoundTrip
import MqttClient.Client.SentPackets
import MqttClient.Client.PingSessions

namespace MqttClient

open Semantics Program

variable {σ H : Type} {P : Platform σ} {fuel : Nat}

/-! ## The identifier of a call -/

/-- The packet carries the identifier behind its length field and `front`. -/
def CarriesId (front packet : List UInt8) (id : Nat) : Prop :=
  ∃ header remLen rest, packet = header :: (mqttPacketEncode remLen ++ (front ++ rest)) ∧
    leadingInt? rest = some id

/-- The packet carries the identifier that was taken, if it needs one. -/
def CarriesTaken (taken : Option Nat) (front packet : List UInt8) : Prop :=
  needsIdentifier packet = true → ∃ id ∈ taken, CarriesId front packet id

theorem Unnumbered.carriesTaken (taken : Option Nat) (front : List UInt8) {packet : List UInt8}
    (h : Unnumbered packet) : CarriesTaken taken front packet := by
  intro hneeds
  rw [h] at hneeds
  cases hneeds

namespace Request

/-- The requests whose packet carries an identifier. -/
def takesIdentifier : Request → Bool
  | connect _ => false
  | subscribe _ _ | unsubscribe _ => true
  | publish _ message => message.qos = 1 ∨ message.qos = 2

/-- What `getNextPacketId` returns for the request, if it is called. -/
def identifier (request : Request) (w : World σ H) : Option Nat :=
  if request.takesIdentifier then (getNextPacketId.run w).map Prod.fst else none

/-- What stands between the length field and the identifier of the packet. -/
def front : Request → List UInt8
  | publish topicName _ => writeMQTTString (.ofCString topicName)
  | connect _ | subscribe _ _ | unsubscribe _ => []

/-- A message whose QoS is 1 or 2 in the two bits of the header has that QoS, as every
message with one of `enum QoS` does; and the length of its payload is not negative as the
`int` that `MQTTSerialize_publish` takes and `memcpy` copies by. -/
def IsProper : Request → Prop
  | publish _ message =>
      (message.qos % 4 = 1 ∨ message.qos % 4 = 2 → message.qos = 1 ∨ message.qos = 2) ∧
        0 ≤ toInt message.payloadlen
  | connect _ | subscribe _ _ | unsubscribe _ => True

end Request

namespace Call

/-- What `getNextPacketId` returns in the call, if it is called. -/
def identifier (call : Call H) (w : World σ H) : Option Nat :=
  (call.request w).bind fun request => request.identifier w

/-- What stands in front of the identifier in the call's packet. -/
def front (call : Call H) (w : World σ H) : List UInt8 := (call.request w).elim [] Request.front

/-- `MQTTClientInit`, which sets the counter back. -/
def isInit : Call H → Bool
  | clientInit _ => true
  | _ => false

end Call

/-- The next identifier is the next value of a counter from 1 to 65535. -/
theorem nextId_eq {c : MQTTClient H} (h : InCount maxPacketId c.nextPacketid) :
    c.nextId = wrapSucc maxPacketId c.nextPacketid := by
  have hle := h.le
  unfold maxPacketId at hle
  unfold MQTTClient.nextId wrapSucc
  split
  · rfl
  · exact Nat.mod_eq_of_lt (by omega)

theorem nextId_lt {c : MQTTClient H} (h : InCount maxPacketId c.nextPacketid) :
    c.nextId < 65536 := by
  have hle := h.wrapSucc.le
  rw [nextId_eq h]
  unfold maxPacketId at hle ⊢
  omega

/-! ## What a call sends and draws -/

/-- From `w` to `w'` no packet was sent that needs an identifier, and the counter was
left alone. -/
structure Quiet (w w' : World σ H) : Prop where
  sends : SendsOnly Unnumbered w w'
  nextPacketid : w'.client.nextPacketid = w.client.nextPacketid

namespace Quiet

variable {w w' w'' : World σ H}

theorem refl (w : World σ H) : Quiet w w := ⟨.refl w, rfl⟩

theorem trans (h : Quiet w w') (h' : Quiet w' w'') : Quiet w w'' :=
  ⟨h.sends.trans h'.sends, h'.nextPacketid.trans h.nextPacketid⟩

/-- Assignments to other fields. -/
theorem of_update {f : MQTTClient H → MQTTClient H}
    (h : (f w.client).nextPacketid = w.client.nextPacketid) : Quiet w (w.update f) :=
  ⟨.of_sends_nil (.of_trace_eq rfl), h⟩

theorem of_emits {A : Event H → Prop} (hsends : SendsOnly Unnumbered w w') (h : Emits A w w') :
    Quiet w w' := by
  obtain ⟨⟨_, _, _, hclient⟩, _⟩ := h
  exact ⟨hsends, by rw [hclient]⟩

theorem closeSession (w : World σ H) : Quiet w (w.update MQTTClient.closeSession) := by
  apply of_update
  unfold MQTTClient.closeSession MQTTClient.cleanSession
  dsimp only
  split
  · rfl
  · rfl

end Quiet

theorem quiet_timerIsExpired (timer : Timer) :
    Keeps Quiet (timerIsExpired P timer : Action σ H _) := by
  intro w expired w' h
  have hemits := sendFrame_emits.timerIsExpired timer _ _ _ h
  exact .of_emits (sends_timerIsExpired timer _ _ _ h) hemits

theorem quiet_timerCountdownMS (timeout : Nat) :
    Keeps Quiet (timerCountdownMS P timeout : Action σ H _) := by
  intro w timer w' h
  have hemits := sendFrame_emits.timerCountdownMS timeout _ _ _ h
  exact .of_emits (sends_timerCountdownMS timeout _ _ _ h) hemits

theorem quiet_cycle (timer : Timer) : Keeps Quiet (cycle P fuel timer : Action σ H _) := by
  intro w rc w' h
  refine ⟨unnumbered_cycle timer _ _ _ h, ?_⟩
  obtain ⟨packetType, w₁, w₂, hread, ⟨⟨_, _, _, hreact⟩, _⟩, hend⟩ := cycle_cases h
  obtain ⟨_, w₀, ⟨⟨_, _, hfetch⟩, _⟩, rfl, _⟩ := readPacket_cases hread
  have hsame : w₂.client.nextPacketid = w.client.nextPacketid := by
    rw [hreact, World.log, hfetch]
  rcases hend with ⟨_, _, rfl⟩ | ⟨_, rfl⟩
  · exact hsame
  · obtain ⟨_, _, _, hdrop⟩ := w₂.client.dropSession_eq
    rw [World.update, hdrop]
    exact hsame

theorem turnFrame_quiet : TurnFrame P fuel (Quiet (σ := σ) (H := H)) where
  refl := .refl
  trans := .trans
  timer := quiet_timerIsExpired
  turn := quiet_cycle

theorem quiet_serialize (serializer : Int → Serialized) :
    Keeps Quiet (serialize serializer : Action σ H _) := by
  intro w len w' h
  cases h
  exact ⟨.of_sends_nil (.of_trace_eq rfl), rfl⟩

theorem quiet_setMessageHandler (topicFilter : CString) (messageHandler : Option H) :
    Keeps Quiet (mqttSetMessageHandler topicFilter messageHandler : Action σ H _) := by
  intro w rc w' h
  cases h
  exact ⟨.of_sends_nil (.of_trace_eq rfl), rfl⟩

theorem endFrame_quiet : EndFrame (Quiet (σ := σ) (H := H)) where
  refl := .refl
  trans := .trans
  setHandler := quiet_setMessageHandler
  suback _ _ := keeps_acceptSuback .refl (quiet_setMessageHandler _ _)
  unsuback _ := keeps_acceptUnsuback .refl (quiet_setMessageHandler _ _)
  opened := by
    intro w rc w' h
    cases h
    exact ⟨.of_sends_nil (.of_trace_eq rfl), rfl⟩
  closed := by
    intro w rc w' h
    cases h
    exact .closeSession w

/-- From `w` to `w'` this identifier was drawn, if any, and if the message is proper, every
packet that needs one carries it behind `front`. -/
structure Draws (proper : Prop) (taken : Option Nat) (front : List UInt8) (w w' : World σ H) :
    Prop where
  sends : proper → SendsOnly (CarriesTaken taken front) w w'
  nextPacketid : w'.client.nextPacketid = taken.getD w.client.nextPacketid

namespace Draws

variable {proper proper' : Prop} {taken : Option Nat} {front : List UInt8} {w w' w'' : World σ H}

theorem of_quiet (h : Quiet w w') : Draws proper none front w w' :=
  ⟨fun _ => h.sends.mono fun _ => Unnumbered.carriesTaken none front, h.nextPacketid⟩

theorem quiet (h : Draws proper taken front w w') (h' : Quiet w' w'') :
    Draws proper taken front w w'' where
  sends hproper :=
    (h.sends hproper).trans (h'.sends.mono fun _ => Unnumbered.carriesTaken taken front)
  nextPacketid := h'.nextPacketid.trans h.nextPacketid

theorem imp (h : Draws proper taken front w w') (himp : proper' → proper) :
    Draws proper' taken front w w' :=
  ⟨fun hproper => h.sends (himp hproper), h.nextPacketid⟩

end Draws

/-! ## Serializers -/

theorem Serialized.Writes.carriesTaken {s : Serialized} (h : s.Writes Unnumbered)
    (taken : Option Nat) (front : List UInt8) : s.Writes (CarriesTaken taken front) :=
  h.mono fun _ => Unnumbered.carriesTaken taken front

theorem carriesId_of_writeInt (header : UInt8) (remLen : Int) (front : List UInt8) {id : Nat}
    (hid : id < 65536) (rest : List UInt8) :
    CarriesId front (header :: (mqttPacketEncode remLen ++
      (front ++ (writeInt (UInt16.ofNat id).toNat ++ rest)))) id := by
  refine ⟨header, remLen, _, rfl, ?_⟩
  rw [UInt16.toNat_ofNat', Nat.mod_eq_of_lt hid, leadingInt?_writeInt hid]

/-- The shape of a serializer that writes the identifier first. -/
theorem writes_carriesTaken_ite {refused : Prop} [Decidable refused] (header : UInt8) (remLen : Int)
    {id : Nat} (hid : id < 65536) (rest : List UInt8) :
    (if refused then .tooShort
      else .ofBytes (header :: mqttPacketEncode remLen ++ writeInt (UInt16.ofNat id).toNat ++
        rest) : Serialized).Writes (CarriesTaken (some id) []) := by
  intro hpos
  split at hpos
  · exact absurd hpos (by decide)
  · rw [if_neg ‹_›]
    refine ⟨rfl, fun _ => ⟨id, rfl, ?_⟩⟩
    have hcarries := carriesId_of_writeInt header remLen [] hid rest
    rwa [List.nil_append, ← List.append_assoc, ← List.cons_append, ← List.cons_append] at hcarries

theorem mqttSerializeSubscribe_carriesTaken (buflen : Int) (dup : UInt8) {id : Nat}
    (hid : id < 65536) (requests : List (MQTTString × Int)) :
    (mqttSerializeSubscribe buflen dup (UInt16.ofNat id) requests).Writes
      (CarriesTaken (some id) []) :=
  writes_carriesTaken_ite _ _ hid _

theorem mqttSerializeUnsubscribe_carriesTaken (buflen : Int) (dup : UInt8) {id : Nat}
    (hid : id < 65536) (topicFilters : List MQTTString) :
    (mqttSerializeUnsubscribe buflen dup (UInt16.ofNat id) topicFilters).Writes
      (CarriesTaken (some id) []) :=
  writes_carriesTaken_ite _ _ hid _

theorem mqttSerializeConnect_unnumbered (buflen : Int) (options : MQTTPacketConnectData) :
    (mqttSerializeConnect buflen options).Writes Unnumbered :=
  @writes_unnumbered_ite ⟨MsgType.connect.code, 0, 0, 0⟩ .connect rfl rfl _ _ _

theorem mqttSerializeDisconnect_unnumbered (buflen : Int) :
    (mqttSerializeDisconnect buflen).Writes Unnumbered :=
  mqttSerializeZero_unnumbered rfl buflen

theorem unnumbered_publish {qos : Nat} (hqos : qos = 0 ∨ qos = 3) (dup retain : Nat)
    (rest : List UInt8) :
    Unnumbered (MQTTHeader.byte ⟨MsgType.publish.code, dup, qos, retain⟩ :: rest) := by
  simp only [Unnumbered, needsIdentifier, List.head?_cons, Option.any_some, MQTTHeader.ofByte,
    MQTTHeader.byte, MsgType.code, UInt8.toNat_ofNat', decide_eq_false_iff_not]
  omega

section Publish

variable (buflen : Int) (dup retained : UInt8) (topicName : MQTTString) (payload : Pointer)
  {qos payloadlen : Int}

/-- The length is right if the payload's is no other as a `size_t`. -/
theorem mqttSerializePublish_rc (packetid : UInt16) (hlen : (toSizeT payloadlen : Int) = payloadlen)
    (hpos : 0 < (mqttSerializePublish buflen dup qos retained packetid topicName payload
      payloadlen).rc) :
    ∃ rest, mqttSerializePublish buflen dup qos retained packetid topicName payload payloadlen =
      .ofBytes (MQTTHeader.byte
          ⟨MsgType.publish.code, dup.toNat, (qos % 4).toNat, retained.toNat⟩ ::
        (mqttPacketEncode (mqttSerializePublishLength qos topicName payloadlen) ++
          (writeMQTTString topicName ++
            ((if 0 < qos then writeInt packetid.toNat else []) ++ rest)))) := by
  rw [mqttSerializePublish] at hpos ⊢
  dsimp only at hpos ⊢
  split at hpos
  · exact absurd hpos (by decide)
  · rw [if_neg ‹_›]
    refine ⟨payload.deref.load 0 (toSizeT payloadlen), ?_⟩
    simp only [Serialized.ofBytes, Serialized.mk.injEq, List.cons_append, List.append_assoc,
      List.length_cons, List.length_append, Memory.load_length, and_true]
    push_cast
    omega

theorem mqttSerializePublish_carriesTaken (hqos : 0 < qos) {id : Nat} (hid : id < 65536)
    (hlen : (toSizeT payloadlen : Int) = payloadlen) :
    (mqttSerializePublish buflen dup qos retained (UInt16.ofNat id) topicName payload
      payloadlen).Writes (CarriesTaken (some id) (writeMQTTString topicName)) := by
  intro hpos
  obtain ⟨rest, heq⟩ := mqttSerializePublish_rc buflen dup retained topicName payload _ hlen hpos
  rw [if_pos hqos] at heq
  rw [heq]
  exact ⟨rfl, fun _ => ⟨id, rfl, carriesId_of_writeInt _ _ _ hid rest⟩⟩

/-- The header shows neither QoS 1 nor QoS 2. -/
theorem mqttSerializePublish_unnumbered (hqos : ¬ (qos % 4 = 1 ∨ qos % 4 = 2)) (packetid : UInt16)
    (hlen : (toSizeT payloadlen : Int) = payloadlen) :
    (mqttSerializePublish buflen dup qos retained packetid topicName payload
      payloadlen).Writes Unnumbered := by
  intro hpos
  obtain ⟨rest, heq⟩ := mqttSerializePublish_rc buflen dup retained topicName payload _ hlen hpos
  rw [heq]
  exact ⟨rfl, unnumbered_publish (by omega) _ _ _⟩

end Publish

/-! ## Requests -/

/-- What a request sends is what its serializer wrote, if it wrote anything. -/
theorem sendRequest_draws {prepare : Action σ H (Int → Serialized)}
    {serializer : Int → Serialized} {sent : Option Timer} {w w₁ w' : World σ H}
    {proper : Prop} {taken : Option Nat} {front : List UInt8}
    (hprepare : prepare.run (w.ticked P) = some (serializer, w₁))
    (hquiet : SendsPackets [] (w.ticked P) w₁)
    (hid : w₁.client.nextPacketid = taken.getD w.client.nextPacketid)
    (hserializer : proper → ∀ buflen, (serializer buflen).Writes (CarriesTaken taken front))
    (h : (sendRequest P fuel prepare).run w = some (sent, w')) :
    Draws proper taken front w w' := by
  rw [sendRequest, run_bind_of_eq_some (run_client w),
    run_bind_of_eq_some (run_timerCountdownMS _ w), run_bind_of_eq_some hprepare] at h
  obtain ⟨len, w₂, hserialize, h⟩ := run_bind_eq_some.mp h
  have hstart : SendsPackets [] w w₁ := (SendsPackets.of_writes_nil rfl rfl).trans hquiet
  have hfilled : SendsPackets [] w₁ w₂ ∧ w₂.client.nextPacketid = w₁.client.nextPacketid := by
    rw [run_serialize serializer rfl] at hserialize
    cases hserialize
    exact ⟨.of_trace_eq rfl, rfl⟩
  split at h
  · obtain ⟨_, rfl⟩ := run_pure_eq_some.mp h
    exact ⟨fun _ => .of_sends_nil (hstart.trans hfilled.1), hfilled.2.trans hid⟩
  · rename_i hpos
    obtain ⟨rc, w₃, hsend, h⟩ := run_bind_eq_some.mp h
    obtain rfl : w₃ = w' := by
      split at h
      · exact (run_pure_eq_some.mp h).2
      · exact (run_pure_eq_some.mp h).2
    have hid' : w₃.client.nextPacketid = taken.getD w.client.nextPacketid := by
      obtain ⟨⟨_, _, _, hclient⟩, _⟩ := sendFrame_emits.sendPacket _ _ _ _ _ hsend
      rw [hclient]
      exact hfilled.2.trans hid
    refine ⟨fun hproper => (SendsOnly.of_sends_nil hstart).trans ?_, hid'⟩
    exact sends_of_serialized (hserializer hproper) hserialize (by omega) hsend

/-- Drawing an identifier changes the counter only. -/
def World.drawn (w : World σ H) : World σ H :=
  w.update fun c => { c with nextPacketid := c.nextId }

theorem sends_drawn (w : World σ H) : SendsPackets [] w w.drawn := .of_trace_eq rfl

theorem sendPublish_draws {topicName : CString} {message : MQTTMessage} {sent : Option Timer}
    {w w' : World σ H} (hid : w.client.nextId < 65536)
    (h : (sendRequest P fuel (preparePublish topicName message)).run w = some (sent, w')) :
    Draws (Request.publish topicName message).IsProper
      (if message.qos = 1 ∨ message.qos = 2 then some w.client.nextId else none)
      (writeMQTTString (.ofCString topicName)) w w' := by
  have hlen : 0 ≤ toInt message.payloadlen →
      (toSizeT (toInt message.payloadlen) : Int) = toInt message.payloadlen :=
    (toSizeT_eq_iff (toInt_mem_range _).1 (toInt_mem_range _).2).mpr
  by_cases hdraws : message.qos = 1 ∨ message.qos = 2
  · have hprepare : (preparePublish topicName message).run (w.ticked P) =
        some (fun buflen => mqttSerializePublish buflen 0 message.qos message.retained
          (UInt16.ofNat w.client.nextId) (.ofCString topicName) message.payload
          (toInt message.payloadlen), (w.ticked P).drawn) := by
      rw [preparePublish, publishId, if_pos hdraws]
      rfl
    rw [if_pos hdraws]
    refine sendRequest_draws hprepare (sends_drawn _) rfl (fun hproper _ => ?_) h
    exact mqttSerializePublish_carriesTaken _ _ _ _ _ (by omega) hid (hlen hproper.2)
  · have hprepare : (preparePublish topicName message).run (w.ticked P) =
        some (fun buflen => mqttSerializePublish buflen 0 message.qos message.retained
          message.id (.ofCString topicName) message.payload
          (toInt message.payloadlen), w.ticked P) := by
      rw [preparePublish, publishId, if_neg hdraws]
      rfl
    rw [if_neg hdraws]
    refine sendRequest_draws hprepare (.of_trace_eq rfl) rfl (fun hproper _ => ?_) h
    have hqos : ¬ (message.qos % 4 = 1 ∨ message.qos % 4 = 2) := fun h => hdraws (hproper.1 h)
    exact (mqttSerializePublish_unnumbered _ _ _ _ _ hqos _ (hlen hproper.2)).carriesTaken _ _

theorem Request.identifier_eq (request : Request) (w : World σ H) :
    request.identifier w = if request.takesIdentifier then some w.client.nextId else none := rfl

/-- A request draws its identifier, and its packet carries it. -/
theorem Request.draws {request : Request} {sent : Option Timer} {w w' : World σ H}
    (hid : w.client.nextId < 65536)
    (h : (sendRequest P fuel (request.prepare P)).run w = some (sent, w')) :
    Draws request.IsProper (request.identifier w) request.front w w' := by
  rw [identifier_eq]
  cases request with
  | connect options =>
      obtain ⟨w₁, hprepare, hquiet, hsame⟩ : ∃ w₁, (prepareConnect P options).run (w.ticked P) =
          some (fun buflen => mqttSerializeConnect buflen options, w₁) ∧
            SendsPackets [] (w.ticked P) w₁ ∧ w₁.client.nextPacketid = w.client.nextPacketid :=
        ⟨_, rfl, .of_writes_nil rfl rfl, rfl⟩
      exact sendRequest_draws hprepare hquiet hsame
        (fun _ _ => (mqttSerializeConnect_unnumbered _ _).carriesTaken _ _) h
  | subscribe topicFilter qos =>
      have hprepare : (prepareSubscribe topicFilter qos).run (w.ticked P) =
          some (fun buflen => mqttSerializeSubscribe buflen 0 (UInt16.ofNat w.client.nextId)
            [(.ofCString topicFilter, qos)], (w.ticked P).drawn) := rfl
      exact sendRequest_draws hprepare (sends_drawn _) rfl
        (fun _ _ => mqttSerializeSubscribe_carriesTaken _ _ hid _) h
  | unsubscribe topicFilter =>
      have hprepare : (prepareUnsubscribe topicFilter).run (w.ticked P) =
          some (fun buflen => mqttSerializeUnsubscribe buflen 0 (UInt16.ofNat w.client.nextId)
            [.ofCString topicFilter], (w.ticked P).drawn) := rfl
      exact sendRequest_draws hprepare (sends_drawn _) rfl
        (fun _ _ => mqttSerializeUnsubscribe_carriesTaken _ _ hid _) h
  | publish topicName message =>
      have hdraws := sendPublish_draws hid h
      simpa only [takesIdentifier, front, decide_eq_true_eq] using hdraws

/-! ## Calls -/

theorem quiet_disconnect : Keeps Quiet (mqttDisconnect P fuel : Action σ H _) := by
  intro w rc w' h
  rw [mqttDisconnect, run_bind_of_eq_some (run_client w)] at h
  obtain ⟨timer, w₀, htimer, h⟩ := run_bind_eq_some.mp h
  refine (quiet_timerCountdownMS _ _ _ _ htimer).trans ?_
  obtain ⟨len, w₁, hserialize, h⟩ := run_bind_eq_some.mp h
  have hfilled := quiet_serialize _ _ _ _ hserialize
  split at h
  · rename_i hpos
    obtain ⟨sent, w₂, hsend, h⟩ := run_bind_eq_some.mp h
    cases h
    have hid : w₂.client.nextPacketid = w₁.client.nextPacketid := by
      obtain ⟨⟨_, _, _, hclient⟩, _⟩ := sendFrame_emits.sendPacket _ _ _ _ _ hsend
      rw [hclient]
    have hsent := sends_of_serialized mqttSerializeDisconnect_unnumbered hserialize hpos hsend
    exact Quiet.trans ⟨hsent, hid.trans hfilled.nextPacketid⟩ (.closeSession w₂)
  · cases h
    exact hfilled.trans (.closeSession w₁)

theorem quiet_yield (timeoutMs : Int) :
    Keeps Quiet (mqttYield P fuel timeoutMs : Action σ H _) := by
  have hR : TurnFrame P fuel (Quiet (σ := σ) (H := H)) := turnFrame_quiet
  exact hR.bind (quiet_timerCountdownMS _) fun timer => hR.mqttYieldLoop timer fuel

/-- All but the request of a call is quiet. -/
theorem Requested.draws {request : Option Request} {w w' : World σ H}
    (h : Requested P fuel Quiet request w w') (hid : w.client.nextId < 65536) :
    Draws (∀ r ∈ request, r.IsProper) (request.bind fun r => r.identifier w)
      (request.elim [] Request.front) w w' := by
  cases h with
  | refused hend => exact .of_quiet hend
  | sent hsend hend =>
      exact ((Request.draws hid hsend).quiet hend).imp fun hproper => hproper _ rfl
  | awaited hsend _ hwait hend =>
      have hwaited := turnFrame_quiet.waitfor _ _ _ _ _ hwait
      have hdraws := (Request.draws hid hsend).quiet (hwaited.trans hend)
      exact hdraws.imp fun hproper => hproper _ rfl

/-- A call of the interface, other than `MQTTClientInit`, draws its identifier. -/
theorem CallStep.draws {w w' : World σ H} {call : Call H} (h : CallStep P fuel w call w')
    (hinit : call.isInit = false) (hcount : InCount maxPacketId w.client.nextPacketid) :
    Draws (∀ request ∈ call.request w, request.IsProper) (call.identifier w) (call.front w)
      w w' := by
  obtain ⟨args, rfl, _⟩ | ⟨rfl, _, h⟩ | ⟨timeoutMs, rfl, _, h⟩ | h := h.cases endFrame_quiet
  · cases hinit
  · exact .of_quiet (quiet_disconnect _ _ _ h)
  · exact .of_quiet (quiet_yield _ _ _ _ h)
  · exact h.draws (nextId_lt hcount)

end MqttClient

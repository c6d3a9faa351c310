/-
# The client implements the transducer

On a platform that supplies the stream and accepts every write, turn after turn of
the client returns, and what it shows is what the transducer says, as long as no
timer was found expired.  A timer that expires takes a turn off that path but not
off its return, so every specification here is total and states its result under
the proviso: `Shown` carries it along, and it is discharged once at the end.
-/

import MqttClient.Client.Inbound
import MqttClient.Client.Stream
import MqttClient.Client.Session

namespace MqttClient

open Semantics Program

variable {σ H : Type}

/-! ## What a run shows -/

/-- From `w` to `w'` the trace grew and, unless a timer was found expired, it shows
these calls and these writes, and `post` holds. -/
def Shown (w w' : World σ H) (calls : List (H × Delivery)) (sent : List (List UInt8))
    (post : Prop) : Prop :=
  ∃ new, w'.trace = w.trace ++ new ∧
    (NoExpiry new → deliveries new = calls ∧ writes new = sent ∧ post)

namespace Shown

variable {w w' w'' : World σ H} {calls calls' : List (H × Delivery)}
  {sent sent' : List (List UInt8)} {p q : Prop}

theorem of_trace_eq (htrace : w'.trace = w.trace) (hp : p) : Shown w w' [] [] p :=
  ⟨[], by simp [htrace], fun _ => ⟨rfl, rfl, hp⟩⟩

/-- The second part may rely on what holds after the first unless a timer expired. -/
theorem trans (h : Shown w w' calls sent p) (h' : Shown w' w'' calls' sent' (p → q)) :
    Shown w w'' (calls ++ calls') (sent ++ sent') q := by
  obtain ⟨new, htrace, hnew⟩ := h
  obtain ⟨new', htrace', hnew'⟩ := h'
  refine ⟨new ++ new', by rw [htrace', htrace, List.append_assoc], fun hquiet => ?_⟩
  obtain ⟨hfirst, hsecond⟩ := noExpiry_append.mp hquiet
  obtain ⟨hcalls, hsent, hp⟩ := hnew hfirst
  obtain ⟨hcalls', hsent', hq⟩ := hnew' hsecond
  exact ⟨by rw [deliveries_append, hcalls, hcalls'], by rw [writes_append, hsent, hsent'], hq hp⟩

/-- What can only hold if a timer expired says nothing about what is shown. -/
theorem of_not (h : Shown w w' calls sent p) (hp : ¬ p) : Shown w w' calls' sent' q := by
  obtain ⟨new, htrace, hnew⟩ := h
  exact ⟨new, htrace, fun hquiet => absurd (hnew hquiet).2.2 hp⟩

theorem mono (h : Shown w w' calls sent p) (hpq : p → q) : Shown w w' calls sent q := by
  obtain ⟨new, htrace, hnew⟩ := h
  exact ⟨new, htrace, fun hquiet => ⟨(hnew hquiet).1, (hnew hquiet).2.1, hpq (hnew hquiet).2.2⟩⟩

theorem grew (h : Shown w w' calls sent p) : ∃ new, w'.trace = w.trace ++ new :=
  ⟨h.choose, h.choose_spec.1⟩

/-- Behind a part that went wrong the rest may show anything. -/
theorem trans_of_not (h : Shown w w' calls sent p) (hp : ¬ p)
    (hgrew : ∃ new, w''.trace = w'.trace ++ new) : Shown w w'' calls' sent' q := by
  obtain ⟨new, htrace, hnew⟩ := h
  obtain ⟨new', htrace'⟩ := hgrew
  refine ⟨new ++ new', by rw [htrace', htrace, List.append_assoc], fun hquiet => ?_⟩
  exact absurd (hnew (noExpiry_append.mp hquiet).1).2.2 hp

end Shown

/-- Receiving shows nothing. -/
theorem Fetches.shown {logs : List ReadLog} {w w' : World σ H} (h : Fetches logs w w') :
    Shown w w' [] [] True := by
  obtain ⟨_, new, htrace, hreading, _⟩ := h
  obtain ⟨hcalls, hsent⟩ := observe_of_reading hreading
  exact ⟨new, htrace, fun _ => ⟨hcalls, hsent, trivial⟩⟩

/-! ## Sending -/

theorem serialize_returns (serializer : Int → Serialized) {result : Serialized}
    {pending : σ → List UInt8} {good : σ → Prop} {bytes : List UInt8} {w : World σ H}
    (hresult : serializer (toInt w.client.bufSize) = result) (h : AtStream pending good bytes w) :
    (serialize serializer).Returns w fun rc w' => rc = result.rc ∧
      w'.client.buf = w.client.buf.store 0 result.written ∧ w'.trace = w.trace ∧
      AtStream pending good bytes w' := by
  subst hresult
  exact ⟨_, _, rfl, rfl, rfl, rfl, h.pending_eq, h.good⟩

/-- Every write is accepted in full. -/
def AcceptsWrites (P : Platform σ) (good : σ → Prop) : Prop :=
  ∀ s offered timeoutMs, good s →
    ∃ s', P.mqttwrite s offered timeoutMs = some ((offered.length : Int), s')

section Sending

variable {P : Platform σ} {pending : σ → List UInt8} {good : σ → Prop} {limit fuel : Nat}
  (hstream : Streams P pending) (hsupply : Supplies P pending good limit)
  (haccept : AcceptsWrites P good) {bytes : List UInt8} {w : World σ H}

include hstream hsupply

theorem timerIsExpired_returns (timer : Timer) (h : AtStream pending good bytes w) :
    (timerIsExpired P timer).Returns w fun expired w' => w'.client = w.client ∧
      AtStream pending good bytes w' ∧ Shown w w' [] [] (expired = false) := by
  refine ⟨_, _, rfl, rfl, ⟨(hstream.clock w.env).trans h.pending_eq, hsupply.clock h.good⟩,
    [.clock (P.gettimeofday w.env).1,
      .timerIsExpired (timer.isExpiredAt (P.gettimeofday w.env).1)],
    by simp [World.log], fun hquiet => ⟨rfl, rfl, ?_⟩⟩
  exact hquiet (.timerIsExpired (timer.isExpiredAt (P.gettimeofday w.env).1)) (by simp)

include haccept

theorem mqttwrite_returns (offered : List UInt8) (timeoutMs : Int)
    (h : AtStream pending good bytes w) :
    (mqttwrite P offered timeoutMs).Returns w fun rc w' => rc = offered.length ∧
      w'.client = w.client ∧ AtStream pending good bytes w' ∧ Shown w w' [] [offered] True := by
  obtain ⟨env, hwrite⟩ := haccept w.env offered timeoutMs h.good
  refine ⟨offered.length, { w with env, trace := w.trace ++ [.write offered offered.length] }, ?_,
    rfl, rfl, ⟨(hstream.write hwrite).trans h.pending_eq, hsupply.write h.good hwrite⟩,
    [.write offered offered.length], rfl, fun _ => ⟨rfl, rfl, trivial⟩⟩
  simp [mqttwrite, hwrite]

/-- Two iterations are enough: one writes everything, the next finds nothing left. -/
theorem sendPacketLoop_returns {length : Nat} (hlength : 0 < length) (timer : Timer) (fuel : Nat)
    (h : AtStream pending good bytes w) :
    (sendPacketLoop P length timer (fuel + 2) 0).Returns w fun sent w' =>
      AtStream pending good bytes w' ∧
        Shown w w' [] [w.client.buf.load 0 length] (sent = length) := by
  unfold sendPacketLoop
  rw [if_pos hlength]
  apply (timerIsExpired_returns hstream hsupply timer h).bind
  rintro expired w₁ ⟨hsame, hat, hshown⟩
  cases expired with
  | true =>
      refine returns_pure ⟨hat, hshown.of_not (by decide)⟩
  | false =>
      rw [if_neg (by decide)]
      refine ((timerLeftMS_returns hstream hsupply timer hat).and_keeps
        fun _ _ _ => Fetches.of_timerLeftMS).bind ?_
      rintro left w₂ ⟨⟨hsame₂, hat₂⟩, _, hfetch⟩
      apply returns_bind_of_eq_some (run_client w₂)
      apply (mqttwrite_returns hstream hsupply haccept _ left hat₂).bind
      rintro rc w₃ ⟨rfl, hsame₃, hat₃, hshown₃⟩
      rw [if_neg (by simp), sendPacketLoop, if_neg (by simp)]
      have hbuf : w₂.client.buf = w.client.buf := by rw [hsame₂, hsame]
      rw [hbuf] at hshown₃ ⊢
      refine returns_pure ⟨hat₃, (hshown.trans (hfetch.shown.mono fun _ _ => trivial)).trans
        (hshown₃.mono fun _ _ => ?_)⟩
      simp

theorem sendPacket_returns (hfuel : 2 ≤ fuel) {length : Nat} (hlength : 0 < length) (timer : Timer)
    (h : AtStream pending good bytes w) :
    (sendPacket P fuel length timer).Returns w fun rc w' => AtStream pending good bytes w' ∧
      Shown w w' [] [w.client.buf.load 0 length] (rc = mqttSuccess) := by
  obtain ⟨fuel, rfl⟩ : ∃ k, fuel = k + 2 := ⟨fuel - 2, by omega⟩
  apply (sendPacketLoop_returns hstream hsupply haccept hlength timer fuel h).bind
  rintro sent w₁ ⟨hat, hshown⟩
  split
  · apply returns_bind_of_eq_some (run_client w₁)
    refine ((timerCountdown_returns hstream hsupply _ hat).and_keeps
      fun _ _ _ => Fetches.of_timerCountdown).bind ?_
    rintro lastSent w₂ ⟨⟨_, hat₂⟩, _, hfetch⟩
    refine ⟨_, _, rfl, ⟨hat₂.pending_eq, hat₂.good⟩, ?_⟩
    have hset : Shown w₂ (w₂.update fun c => { c with lastSent }) [] []
        (True → mqttSuccess = mqttSuccess) := .of_trace_eq rfl fun _ => rfl
    simpa using (hshown.trans (hfetch.shown.mono fun _ _ => trivial)).trans hset
  · rename_i hne
    exact returns_pure ⟨hat, hshown.of_not hne⟩

omit hstream hsupply haccept in
theorem ackBytes_length (packettype : MsgType) (id : UInt16) :
    (ackBytes packettype id).length = 4 := rfl

/-- An acknowledgement goes out if the send buffer, its size taken as an `int`, has
room for its four bytes. -/
theorem sendAck_returns (hfuel : 2 ≤ fuel) (hsize : 4 ≤ toInt w.client.bufSize)
    (packettype : MsgType) (id : UInt16) (timer : Timer) (h : AtStream pending good bytes w) :
    (sendAck P fuel packettype id timer).Returns w fun rc w' => AtStream pending good bytes w' ∧
      Shown w w' [] [ackBytes packettype id] (rc = mqttSuccess) := by
  have hack := mqttSerializeAck_of_le hsize packettype id
  refine (serialize_returns (fun buflen => mqttSerializeAck buflen packettype 0 id) hack h).bind ?_
  rintro len w₁ ⟨hlen, hbuf, htrace, hat⟩
  obtain rfl : len = 4 := hlen
  rw [if_neg (by decide)]
  have hload : w₁.client.buf.load 0 4 = ackBytes packettype id := by
    rw [hbuf, ← ackBytes_length packettype id]
    exact Memory.load_store_self _ 0 _
  have hsend := sendPacket_returns hstream hsupply haccept hfuel (show 0 < 4 by decide) timer hat
  rw [hload] at hsend
  apply hsend.mono
  rintro rc w' ⟨hat', new, htrace', hnew⟩
  exact ⟨hat', new, htrace ▸ htrace', hnew⟩

theorem sendPing_returns (hfuel : 2 ≤ fuel) (h : AtStream pending good bytes w) :
    (sendPing P fuel).Returns w fun _ w' => AtStream pending good bytes w' := by
  have htimer : (timerCountdownMS P 1000).Returns w fun _ w' => AtStream pending good bytes w' :=
    (gettimeofday_returns hstream hsupply h).bind fun _ _ hmid => returns_pure hmid.2
  refine htimer.bind fun timer w₁ hat => ?_
  apply (serialize_returns _ rfl hat).bind
  rintro len w₂ ⟨_, _, _, hat₂⟩
  split
  · rename_i hlen
    apply (sendPacket_returns hstream hsupply haccept hfuel (by omega) timer hat₂).bind
    rintro rc w₃ ⟨hat₃, _⟩
    split
    · exact ⟨_, _, rfl, hat₃.pending_eq, hat₃.good⟩
    · exact returns_pure hat₃
  · exact returns_pure hat₂

omit haccept in
theorem keepaliveDue_returns (h : AtStream pending good bytes w) :
    (keepaliveDue P).Returns w fun due w' => AtStream pending good bytes w' ∧
      Shown w w' [] [] (due = false) := by
  apply returns_bind_of_eq_some (run_client w)
  apply (timerIsExpired_returns hstream hsupply _ h).bind
  rintro expired w₁ ⟨_, hat, hshown⟩
  split
  · rename_i htrue
    exact returns_pure ⟨hat, hshown.of_not (by simp [htrue])⟩
  · apply (timerIsExpired_returns hstream hsupply _ hat).mono
    rintro due w₂ ⟨_, hat₂, hshown₂⟩
    exact ⟨hat₂, hshown.trans (hshown₂.mono fun hdue _ => hdue)⟩

/-- Unless a timer expired, the keepalive check is silent and content. -/
theorem keepalive_returns (hfuel : 2 ≤ fuel) (h : AtStream pending good bytes w) :
    (keepalive P fuel).Returns w fun rc w' => AtStream pending good bytes w' ∧
      Shown w w' [] [] (rc = mqttSuccess) := by
  apply returns_bind_of_eq_some (run_client w)
  split
  · exact returns_pure ⟨h, .of_trace_eq rfl rfl⟩
  · apply (keepaliveDue_returns hstream hsupply h).bind
    rintro due w₁ ⟨hat, hshown⟩
    cases due with
    | false => exact returns_pure ⟨hat, hshown.mono fun _ => rfl⟩
    | true =>
        rw [if_pos rfl]
        split
        · exact returns_pure ⟨hat, hshown.of_not (by decide)⟩
        · refine ((sendPing_returns hstream hsupply haccept hfuel hat).and_keeps
            (sendFrame_emits.sendPing emits_pingOutstanding)).mono ?_
          rintro rc w₂ ⟨hat₂, hemits⟩
          obtain ⟨new, htrace, _⟩ := hemits.trace_eq
          exact ⟨hat₂, hshown.trans_of_not (by decide) ⟨new, htrace⟩⟩

end Sending

/-! ## Calling the handlers -/

theorem run_deliverLoop (data : MessageData) :
    ∀ (slots : List (MessageHandlers H)) (delivered : Bool) (w : World σ H),
      (deliverLoop data slots delivered).run w =
        some (delivered || !(slots.filterMap (·.handlerFor data.topicName)).isEmpty,
          { w with trace := w.trace ++
              (slots.filterMap (·.handlerFor data.topicName)).map (.call · data) }) := by
  intro slots
  induction slots with
  | nil =>
      intro delivered w
      simp [deliverLoop]
  | cons slot slots ih =>
      intro delivered w
      unfold deliverLoop
      cases hslot : slot.handlerFor data.topicName with
      | none =>
          simp only [ih, List.filterMap_cons, hslot]
      | some fp =>
          simp only [run_bind_of_eq_some (run_logEvent _ w), ih, List.filterMap_cons, hslot]
          simp [World.log]

/-- `deliverMessage` calls the handlers of the topic, in order, and does nothing else. -/
theorem run_deliverMessage (topicName : MQTTString) (message : MQTTMessage) (w : World σ H) :
    ∃ rc, (deliverMessage topicName message).run w =
      some (rc, { w with trace := w.trace ++
        (w.client.handlersFor topicName).map (.call · ⟨message, topicName⟩) }) := by
  unfold deliverMessage
  rw [run_bind_of_eq_some (run_client w), run_bind_of_eq_some (run_deliverLoop _ _ _ w)]
  unfold MQTTClient.handlersFor
  cases hslots : (List.ofFn w.client.messageHandlers).filterMap (·.handlerFor topicName) with
  | cons fp fps =>
      refine ⟨mqttSuccess, ?_⟩
      simp
  | nil =>
      cases hdefault : w.client.defaultMessageHandler with
      | none =>
          refine ⟨failure, ?_⟩
          simp
      | some fp =>
          refine ⟨mqttSuccess, ?_⟩
          simp [run_bind_of_eq_some (run_logEvent _ _), World.log]

/-! ## What the decoder makes of a well-formed PUBLISH -/

theorem publishParts?_eq_some {qos id : Nat} {body topic payload : List UInt8}
    (h : publishParts? qos body = some (topic, id, payload)) :
    ∃ n, leadingInt? body = some n ∧ 2 + n ≤ body.length ∧ topic = (body.drop 2).take n ∧
      if qos = 0 then payload = body.drop (2 + n)
      else leadingInt? (body.drop (2 + n)) = some id ∧ payload = body.drop (2 + n + 2) := by
  unfold publishParts? at h
  split at h
  · cases h
  · rename_i n hlead
    split at h
    · rename_i hn
      refine ⟨n, hlead, hn, ?_⟩
      dsimp only at h
      split at h
      · rename_i hqos
        cases h
        rw [if_pos hqos]
        exact ⟨rfl, rfl⟩
      · rename_i hqos
        rw [if_neg hqos]
        split at h
        · cases h
        · rename_i id' hid
          cases h
          exact ⟨rfl, hid, by rw [List.drop_drop]⟩
    · cases h

/-- The outputs of the decoder carry this message. -/
structure PublishOut.Carries (out : PublishOut) (header : MQTTHeader) (topic : List UInt8)
    (id : Nat) (payload : List UInt8) : Prop where
  qos_eq : out.qos = header.qos
  packetid_eq : header.qos ≠ 0 → out.packetid = UInt16.ofNat id
  cstring_eq : out.topicName.cstring = none
  topic_length : out.topicName.lenstring.len = topic.length
  topic_eq : out.topicName.lenstring.data.deref.load 0 topic.length = topic
  delivery_eq : MessageData.delivery ⟨out.message, out.topicName⟩ =
    ⟨topic, payload, header.qos, header.dup, header.retain⟩

/-- A well-formed PUBLISH comes out of the decoder as it stands in the frame. -/
theorem HoldsFrame.carries {buf : Memory} {header : UInt8} {body topic payload : List UInt8}
    {id : Nat} (h : HoldsFrame buf header body)
    (htype : (MQTTHeader.ofByte header).type = MsgType.publish.code)
    (hparts : publishParts? (MQTTHeader.ofByte header).qos body = some (topic, id, payload))
    (out : PublishOut) :
    ∃ out', mqttDeserializePublish buf out = (1, out') ∧
      out'.Carries (MQTTHeader.ofByte header) topic id payload := by
  obtain ⟨n, hlead, hn, htopic, hrest⟩ := publishParts?_eq_some hparts
  have htopic_length : topic.length = n := by
    rw [htopic, List.length_take, List.length_drop]
    omega
  have hload : buf.load (HoldsFrame.bodyStart body + 2) n = topic := by
    rw [h.load_body hn, htopic]
  -- the payload is the rest of the body behind topic and identifier
  have hpayload : ∃ start,
      HoldsFrame.payloadStart header body n = HoldsFrame.bodyStart body + start ∧
      start ≤ body.length ∧ payload = body.drop start := by
    by_cases hqos : (MQTTHeader.ofByte header).qos = 0
    · rw [if_pos hqos] at hrest
      refine ⟨2 + n, ?_, hn, hrest⟩
      simp only [HoldsFrame.payloadStart, hqos]
      simp [Nat.add_assoc]
    · rw [if_neg hqos] at hrest
      refine ⟨2 + n + 2, ?_, ?_, hrest.2⟩
      · simp only [HoldsFrame.payloadStart, Nat.pos_of_ne_zero hqos, if_true, Nat.add_assoc]
      · have hlong : ¬ (body.drop (2 + n)).length < 2 := by
          rw [← leadingInt?_eq_none_iff, hrest.1]
          simp
        rw [List.length_drop] at hlong
        omega
  obtain ⟨start, hstart, hle, hdrop⟩ := hpayload
  have hlt := h.length_lt
  have hlen : toUnsignedInt ((HoldsFrame.frameLength body : Int) -
      HoldsFrame.payloadStart header body n) = payload.length := by
    rw [hstart, hdrop, List.length_drop, HoldsFrame.frameLength, toUnsignedInt]
    omega
  refine ⟨_, h.mqttDeserializePublish_of_fits htype hlead hn out, rfl, ?_, rfl, ?_, ?_, ?_⟩
  · intro hqos
    rw [if_neg hqos] at hrest
    dsimp only
    rw [if_pos (Nat.pos_of_ne_zero hqos), Nat.add_assoc, (h.readInt_at hrest.1)]
  · simp [htopic_length]
  · simp [htopic_length, Memory.load_shift, hload]
  · simp only [MessageData.delivery, PublishOut.message, hlen, Pointer.deref_into,
      Memory.load_shift, Nat.add_zero, Int.toNat_natCast, hload, Delivery.mk.injEq, true_and]
    refine ⟨?_, ?_, ?_⟩
    · rw [hstart, h.load_body (by rw [hdrop, List.length_drop]; omega), ← hdrop, List.take_length]
    · exact UInt8.toNat_ofNat_of_lt (show header.toNat / 8 % 2 < 256 by omega)
    · exact UInt8.toNat_ofNat_of_lt (show header.toNat % 2 < 256 by omega)

/-- The handlers of the topic are called, and each is told the message. -/
theorem deliverMessage_returns {out : PublishOut} {header : MQTTHeader} {topic payload : List UInt8}
    {id : Nat} (hcarries : out.Carries header topic id payload) (w : World σ H) :
    (deliverMessage out.topicName out.message).Returns w fun _ w' =>
      w'.client = w.client ∧ w'.env = w.env ∧
        Shown w w' ((w.client.handlersFor (topicString topic)).map fun fp =>
          (fp, ⟨topic, payload, header.qos, header.dup, header.retain⟩)) [] True := by
  obtain ⟨rc, hrun⟩ := run_deliverMessage out.topicName out.message w
  refine ⟨rc, _, hrun, rfl, rfl, _, rfl, fun _ => ⟨?_, ?_, trivial⟩⟩
  · rw [← handlersFor_eq_topicString w.client hcarries.cstring_eq hcarries.topic_length
      hcarries.topic_eq, ← hcarries.delivery_eq]
    simp [deliveries, List.filterMap_map, Function.comp_def, Event.delivery?]
  · simp [writes, List.filterMap_map, Function.comp_def, Event.written?]

/-! ## One turn -/

/-- The session is as it was: open or not, and with the same handlers. -/
structure SameSession (c c' : MQTTClient H) : Prop where
  isconnected : c'.isconnected = c.isconnected
  messageHandlers : c'.messageHandlers = c.messageHandlers
  defaultMessageHandler : c'.defaultMessageHandler = c.defaultMessageHandler

theorem Emits.sameSession {A : Event H → Prop} {w w' : World σ H} (h : Emits A w w') :
    SameSession w.client w'.client := by
  obtain ⟨⟨_, _, _, hclient⟩, _⟩ := h
  rw [hclient]
  exact ⟨rfl, rfl, rfl⟩

theorem SameSession.trans {c c' c'' : MQTTClient H} (h : SameSession c c')
    (h' : SameSession c' c'') : SameSession c c'' :=
  ⟨h'.isconnected.trans h.isconnected, h'.messageHandlers.trans h.messageHandlers,
    h'.defaultMessageHandler.trans h.defaultMessageHandler⟩

theorem shown_readPacket {P : Platform σ} (timer : Timer) :
    Keeps (fun w w' => Shown w w' [] [] True) (readPacket P timer : Action σ H _) := by
  intro w rc w' hrun
  obtain ⟨reads, w₀, hfetch, rfl, _⟩ := readPacket_cases hrun
  have hend : Shown w₀ (w₀.log (.packet rc)) [] [] (True → True) :=
    ⟨[.packet rc], rfl, fun _ => ⟨rfl, rfl, id⟩⟩
  exact hfetch.shown.trans hend

theorem Inbound.deliveries_congr {c c' : MQTTClient H} (h : SameSession c c') (p : Inbound) :
    p.deliveries c' = p.deliveries c := by
  cases p <;> simp only [Inbound.deliveries, MQTTClient.handlersFor, h.messageHandlers,
    h.defaultMessageHandler]

section Turns

variable {P : Platform σ} {pending : σ → List UInt8} {good : σ → Prop} {limit fuel : Nat}
  (hstream : Streams P pending) (hsupply : Supplies P pending good limit)
  (haccept : AcceptsWrites P good) (hfuel : 2 ≤ fuel) {bytes rest : List UInt8}

include hstream hsupply

theorem cycleLocals_returns {w : World σ H} (h : AtStream pending good bytes w) :
    (cycleLocals P).Returns w fun _ w' => w'.client = w.client ∧
      AtStream pending good bytes w' ∧ Shown w w' [] [] True :=
  ⟨_, _, rfl, rfl, ⟨(hstream.locals w.env).trans h.pending_eq, hsupply.locals h.good⟩,
    .of_trace_eq rfl trivial⟩

include haccept hfuel

theorem acknowledgePublish_returns {w : World σ H} {message : MQTTMessage} {reply : List UInt8}
    (hsize : 4 ≤ toInt w.client.bufSize)
    (hreply : message.qos = 1 ∧ reply = ackBytes .puback message.id ∨
      message.qos = 2 ∧ reply = ackBytes .pubrec message.id)
    (timer : Timer) (h : AtStream pending good bytes w) :
    (acknowledgePublish P fuel message timer).Returns w fun rc w' =>
      AtStream pending good bytes w' ∧ Shown w w' [] [reply] (rc = mqttSuccess) := by
  unfold acknowledgePublish
  rcases hreply with ⟨hqos, rfl⟩ | ⟨hqos, rfl⟩
  · rw [if_pos hqos]
    exact sendAck_returns hstream hsupply haccept hfuel hsize _ _ timer h
  · rw [if_neg (by omega), if_pos hqos]
    exact sendAck_returns hstream hsupply haccept hfuel hsize _ _ timer h

/-- A well-formed PUBLISH is delivered and then answered. -/
theorem handlePublish_returns {w : World σ H} {F : Frame} {p : Inbound}
    (hcode : MsgType.ofCode? F.type = some .publish) (hpacket : F.packet? = some p)
    (hholds : HoldsFrame w.client.readbuf F.header F.body) (hsize : 4 ≤ toInt w.client.bufSize)
    (timer : Timer) (h : AtStream pending good bytes w) :
    (handlePublish P fuel timer).Returns w fun jump w' => AtStream pending good bytes w' ∧
      Shown w w' (p.deliveries w.client) p.reply?.toList (jump = .next mqttSuccess) := by
  have htype : (MQTTHeader.ofByte F.header).type = MsgType.publish.code :=
    Int.natCast_inj.mp (MsgType.ofCode?_eq_some hcode)
  simp only [Frame.packet?, hcode] at hpacket
  split at hpacket
  case isFalse => cases hpacket
  rename_i hlt
  obtain ⟨⟨topic, id, payload⟩, hparts, rfl⟩ := Option.map_eq_some_iff.mp hpacket
  apply (cycleLocals_returns hstream hsupply h).bind
  rintro locals w₁ ⟨hsame, hat, hshown⟩
  apply returns_bind_of_eq_some (run_client w₁)
  obtain ⟨out, hdecoded, hcarries⟩ :=
    hholds.carries htype hparts { locals.publish with payloadlen := 0 }
  rw [hsame, hdecoded]
  dsimp only
  rw [if_neg (by decide)]
  apply (deliverMessage_returns hcarries w₁).bind
  rintro _ w₂ ⟨hsame₂, henv, hcalls⟩
  have hat₂ : AtStream pending good bytes w₂ := ⟨henv ▸ hat.pending_eq, henv ▸ hat.good⟩
  rw [hsame] at hcalls hsame₂
  have hshown₂ := hshown.trans (hcalls.mono fun htrue _ => htrue)
  rw [hcarries.qos_eq]
  by_cases hqos : (MQTTHeader.ofByte F.header).qos = 0
  · rw [if_neg (by simpa using hqos)]
    refine returns_pure ⟨hat₂, ?_⟩
    simpa [Inbound.deliveries, Inbound.reply?, hqos] using hshown₂
  · rw [if_pos (by simpa using hqos)]
    have hid : out.message.id = UInt16.ofNat id := hcarries.packetid_eq hqos
    have hmessage : out.message.qos = (MQTTHeader.ofByte F.header).qos := hcarries.qos_eq
    obtain ⟨reply, hreply, hsome⟩ : ∃ reply,
        (out.message.qos = 1 ∧ reply = ackBytes .puback out.message.id ∨
          out.message.qos = 2 ∧ reply = ackBytes .pubrec out.message.id) ∧
        (Inbound.publish (MQTTHeader.ofByte F.header).dup (MQTTHeader.ofByte F.header).qos
          (MQTTHeader.ofByte F.header).retain (UInt16.ofNat id) topic payload).reply? =
          some reply := by
      obtain hone | htwo : (MQTTHeader.ofByte F.header).qos = 1 ∨
          (MQTTHeader.ofByte F.header).qos = 2 := by omega
      · exact ⟨_, .inl ⟨by omega, rfl⟩, by simp [Inbound.reply?, hone, hid]⟩
      · exact ⟨_, .inr ⟨by omega, rfl⟩, by simp [Inbound.reply?, htwo, hid]⟩
    refine (acknowledgePublish_returns hstream hsupply haccept hfuel (hsame₂ ▸ hsize) hreply timer
      hat₂).bind ?_
    rintro rc w₃ ⟨hat₃, hsent⟩
    have hshown₃ := hshown₂.trans (hsent.mono fun hrc _ => hrc)
    rw [hsome]
    split
    · rename_i hfail
      exact returns_pure ⟨hat₃, hshown₃.of_not (by rw [hfail]; decide)⟩
    · refine returns_pure ⟨hat₃, ?_⟩
      simpa [Inbound.deliveries] using hshown₃

/-- A PUBREC or PUBREL with an identifier is answered with it. -/
theorem handleHandshake_returns {w : World σ H} {header : UInt8} {body : List UInt8} {id : Nat}
    (hid : leadingInt? body = some id) (hholds : HoldsFrame w.client.readbuf header body)
    (hsize : 4 ≤ toInt w.client.bufSize) (reply : MsgType) (timer : Timer)
    (h : AtStream pending good bytes w) :
    (handleHandshake P fuel reply timer).Returns w fun jump w' => AtStream pending good bytes w' ∧
      Shown w w' [] [ackBytes reply (UInt16.ofNat id)] (jump = .next mqttSuccess) := by
  apply (cycleLocals_returns hstream hsupply h).bind
  rintro locals w₁ ⟨hsame, hat, hshown⟩
  apply returns_bind_of_eq_some (run_client w₁)
  rw [hsame, hholds.mqttDeserializeAck_eq, hid]
  dsimp only
  rw [if_neg (by decide)]
  apply (sendAck_returns hstream hsupply haccept hfuel (hsame ▸ hsize) reply _ timer hat).bind
  rintro rc w₂ ⟨hat₂, hsent⟩
  have hshown₂ := hshown.trans (hsent.mono fun hrc _ => hrc)
  split
  · rename_i hne
    exact returns_pure ⟨hat₂, hshown₂.of_not hne⟩
  · exact returns_pure ⟨hat₂, hshown₂.mono fun _ => rfl⟩

/-- The `switch` on a well-formed packet. -/
theorem dispatch_returns {w : World σ H} {F : Frame} {p : Inbound} (hpacket : F.packet? = some p)
    (hholds : HoldsFrame w.client.readbuf F.header F.body) (hsize : 4 ≤ toInt w.client.bufSize)
    (timer : Timer) (h : AtStream pending good bytes w) :
    (dispatch P fuel F.type timer).Returns w fun jump w' => AtStream pending good bytes w' ∧
      Shown w w' (p.deliveries w.client) p.reply?.toList (jump = .next mqttSuccess) := by
  have hnotice : (pure (.next mqttSuccess) : Action σ H Jump).Returns w fun jump w' =>
      AtStream pending good bytes w' ∧ Shown w w' [] [] (jump = .next mqttSuccess) :=
    returns_pure ⟨h, .of_trace_eq rfl rfl⟩
  cases hcode : MsgType.ofCode? F.type with
  | none => simp [Frame.packet?, hcode] at hpacket
  | some t =>
      by_cases hpublish : t = .publish
      · subst hpublish
        simp only [dispatch, hcode]
        exact handlePublish_returns hstream hsupply haccept hfuel hcode hpacket hholds hsize timer h
      · simp only [Frame.packet?, hcode] at hpacket
        simp only [dispatch, hcode]
        cases t
        case publish => exact absurd rfl hpublish
        case pubrec =>
          obtain ⟨id, hid, rfl⟩ := Option.map_eq_some_iff.mp hpacket
          exact handleHandshake_returns hstream hsupply haccept hfuel hid hholds hsize _ timer h
        case pubrel =>
          obtain ⟨id, hid, rfl⟩ := Option.map_eq_some_iff.mp hpacket
          exact handleHandshake_returns hstream hsupply haccept hfuel hid hholds hsize _ timer h
        case pingresp =>
          cases hpacket
          exact ⟨_, _, rfl, ⟨h.pending_eq, h.good⟩, .of_trace_eq rfl rfl⟩
        case connack | puback | pubcomp | suback | unsuback =>
          cases hpacket
          exact hnotice
        all_goals cases hpacket

theorem checkKeepalive_returns {w : World σ H} (jump : Jump) (h : AtStream pending good bytes w) :
    (checkKeepalive P fuel jump).Returns w fun rc w' => AtStream pending good bytes w' ∧
      Shown w w' [] [] (jump = .next mqttSuccess → rc = mqttSuccess) := by
  cases jump with
  | exit rc => exact returns_pure ⟨h, .of_trace_eq rfl fun hjump => by cases hjump⟩
  | next rc =>
      apply (keepalive_returns hstream hsupply haccept hfuel h).bind
      rintro kept w₁ ⟨hat, hshown⟩
      split
      · rename_i hne
        exact returns_pure ⟨hat, hshown.of_not hne⟩
      · exact returns_pure ⟨hat, hshown.mono fun _ hjump => by cases hjump; rfl⟩

/-- One turn on a stream that starts with a well-formed packet: it takes the packet,
calls and replies as the transducer says, and keeps the session. -/
theorem cycle_returns {w : World σ H} {F : Frame} {p : Inbound} (hpacket : F.packet? = some p)
    (hsend : 4 ≤ toInt w.client.bufSize) (hlimit : w.client.readbufSize ≤ limit)
    (hread : w.client.readbufSize < 2 ^ 64)
    (hfits : HoldsFrame.frameLength F.body ≤ w.client.readbufSize) (timer : Timer)
    (h : AtStream pending good (F.bytes ++ rest) w) :
    (cycle P fuel timer).Returns w fun rc w' => AtStream pending good rest w' ∧
      Shown w w' (p.deliveries w.client) p.reply?.toList
        (rc = F.type ∧ SameSession w.client w'.client) := by
  refine ((readPacket_returns hstream hsupply timer hlimit hread hfits h).and_keeps
    (shown_readPacket timer)).bind ?_
  rintro packetType w₁ ⟨⟨rfl, ⟨readbuf, lastReceived, hclient⟩, hholds, hat₁⟩, hshown₁⟩
  have hsame₁ : SameSession w.client w₁.client := by rw [hclient]; exact ⟨rfl, rfl, rfl⟩
  have hsend₁ : 4 ≤ toInt w₁.client.bufSize := by rw [hclient]; exact hsend
  refine ((dispatch_returns hstream hsupply haccept hfuel hpacket hholds hsend₁ timer
    hat₁).and_keeps
      fun _ _ _ hrun => (dispatch_spec hrun).1.mono fun _ => Event.IsReaction.isSilent).bind ?_
  rintro jump w₂ ⟨⟨hat₂, hshown₂⟩, hemits₂⟩
  refine ((checkKeepalive_returns hstream hsupply haccept hfuel jump hat₂).and_keeps
    fun _ _ _ hrun => (checkKeepalive_spec hrun).1).bind ?_
  rintro rc w₃ ⟨⟨hat₃, hshown₃⟩, hemits₃⟩
  have hshown := (hshown₁.trans (hshown₂.mono fun hjump _ => hjump)).trans hshown₃
  rw [Inbound.deliveries_congr hsame₁, List.nil_append, List.nil_append, List.append_nil,
    List.append_nil] at hshown
  by_cases hrc : rc = mqttSuccess
  · refine ⟨F.type, w₃, (run_finishCycle _ _ _).trans (if_pos hrc), hat₃,
      hshown.mono fun _ => ⟨rfl, ?_⟩⟩
    exact (hsame₁.trans hemits₂.sameSession).trans hemits₃.sameSession
  · exact ⟨rc, _, (run_finishCycle _ _ _).trans (if_neg hrc), ⟨hat₃.pending_eq, hat₃.good⟩,
      hshown.trans_of_not hrc ⟨[], (List.append_nil _).symm⟩⟩

end Turns

/-! ## Turn after turn -/

/-- Successive turns, one for each timer, and what they returned. -/
def cycles (P : Platform σ) (fuel : Nat) : List Timer → Action σ H (List Int)
  | [] => pure []
  | timer :: timers => do
      let rc ← cycle P fuel timer
      let later ← cycles P fuel timers
      pure (rc :: later)

section Runs

variable {P : Platform σ} {pending : σ → List UInt8} {good : σ → Prop} {limit fuel : Nat}
  (hstream : Streams P pending) (hsupply : Supplies P pending good limit)
  (haccept : AcceptsWrites P good) (hfuel : 2 ≤ fuel) {rest : List UInt8}

include hstream hsupply haccept hfuel

/-- From one turn to a run of turns, by induction over the packets. -/
theorem cycles_returns :
    ∀ {frames : List Frame} {packets : List Inbound} {timers : List Timer} {w : World σ H},
      List.Forall₂ (fun F p => F.packet? = some p) frames packets →
      timers.length = frames.length → 4 ≤ toInt w.client.bufSize →
      w.client.readbufSize ≤ limit → w.client.readbufSize < 2 ^ 64 →
      (∀ F ∈ frames, HoldsFrame.frameLength F.body ≤ w.client.readbufSize) →
      AtStream pending good (frames.flatMap Frame.bytes ++ rest) w →
      (cycles P fuel timers).Returns w fun rcs w' => AtStream pending good rest w' ∧
        Shown w w' (packets.flatMap (Inbound.deliveries w.client))
          (packets.filterMap Inbound.reply?)
          (rcs = frames.map (fun F => (F.type : Int)) ∧ SameSession w.client w'.client) := by
  intro frames
  induction frames with
  | nil =>
      intro packets timers w hpackets hcount _ _ _ _ h
      cases hpackets
      obtain rfl : timers = [] := List.length_eq_zero_iff.mp hcount
      exact returns_pure ⟨h, .of_trace_eq rfl ⟨rfl, rfl, rfl, rfl⟩⟩
  | cons F frames ih =>
      intro packets timers w hpackets hcount hsend hlimit hread hfits h
      obtain ⟨timer, timers, rfl⟩ : ∃ t ts, timers = t :: ts :=
        List.exists_cons_of_length_pos (by simp [hcount])
      rcases hpackets with _ | ⟨hpacket, hpackets⟩
      rename_i p packets
      rw [List.flatMap_cons, List.append_assoc] at h
      refine ((cycle_returns hstream hsupply haccept hfuel hpacket hsend hlimit hread
        (hfits F List.mem_cons_self) timer h).and_keeps fun _ _ _ => cycle_sameSizes).bind ?_
      rintro rc w₁ ⟨⟨hat, hshown⟩, hsizes⟩
      refine (ih hpackets (by simpa using hcount) (hsizes.bufSize ▸ hsend)
        (hsizes.readbufSize ▸ hlimit) (hsizes.readbufSize ▸ hread)
        (fun G hG => hsizes.readbufSize ▸ hfits G (List.mem_cons_of_mem F hG)) hat).bind ?_
      rintro later w₂ ⟨hat₂, hshown₂⟩
      refine returns_pure ⟨hat₂, ?_⟩
      by_cases hkept : rc = F.type ∧ SameSession w.client w₁.client
      · obtain ⟨rfl, hsame⟩ := hkept
        rw [show Inbound.deliveries w₁.client = Inbound.deliveries w.client from
          funext (Inbound.deliveries_congr hsame)] at hshown₂
        have hall := hshown.trans (hshown₂.mono fun hlater _ =>
          (⟨congrArg _ hlater.1, hsame.trans hlater.2⟩ :
            (F.type : Int) :: later = _ ∧ SameSession w.client w₂.client))
        rw [List.filterMap_eq_flatMap_toList] at hall ⊢
        exact hall
      · -- a timer expired in the first turn, so nothing is left to show
        exact hshown.trans_of_not hkept hshown₂.grew

end Runs

/-- The receiving half of the client is the transducer.  Take any platform that
streams the broker's bytes, supplies them and accepts every write, an open session,
and well-formed packets that fit the read buffer.  One turn per packet then returns
its type, and unless a timer was found expired the handlers called and the replies
written are those of the packets, in order, and the session stays open. -/
theorem cycles_transducer (P : Platform σ) (pending : σ → List UInt8) (good : σ → Prop)
    (limit fuel : Nat) (hstream : Streams P pending) (hsupply : Supplies P pending good limit)
    (haccept : AcceptsWrites P good) (hfuel : 2 ≤ fuel) (frames : List Frame)
    (packets : List Inbound)
    (hpackets : List.Forall₂ (fun F p => F.packet? = some p) frames packets)
    (rest : List UInt8) (timers : List Timer) (hcount : timers.length = frames.length)
    (w : World σ H) (hconnected : w.client.isconnected = true)
    (hsend : 4 ≤ toInt w.client.bufSize) (hlimit : w.client.readbufSize ≤ limit)
    (hread : w.client.readbufSize < 2 ^ 64)
    (hfits : ∀ F ∈ frames, HoldsFrame.frameLength F.body ≤ w.client.readbufSize)
    (hpending : pending w.env = frames.flatMap Frame.bytes ++ rest) (hgood : good w.env) :
    ∃ rcs w', (cycles P fuel timers).run w = some (rcs, w') ∧ pending w'.env = rest ∧
      (NoExpiry (since w w') →
        rcs = frames.map (fun F => (F.type : Int)) ∧
        deliveries (since w w') = packets.flatMap (Inbound.deliveries w.client) ∧
        writes (since w w') = packets.filterMap Inbound.reply? ∧
        w'.client.isconnected = true) := by
  have hat : AtStream pending good (frames.flatMap Frame.bytes ++ rest) w := ⟨hpending, hgood⟩
  obtain ⟨rcs, w', hrun, hat, new, htrace, hshown⟩ :=
    cycles_returns hstream hsupply haccept hfuel hpackets hcount hsend hlimit hread hfits hat
  refine ⟨rcs, w', hrun, hat.pending_eq, ?_⟩
  rw [since_of_append htrace]
  intro hquiet
  obtain ⟨hcalls, hsent, hrcs, hsession⟩ := hshown hquiet
  exact ⟨hrcs, hcalls, hsent, hsession.isconnected.trans hconnected⟩

/-- A recording takes every write in one piece. -/
theorem Recording.acceptsWrites {fuel : Nat} (hfuel : 2 ≤ fuel) (good : Recording → Prop) :
    AcceptsWrites (linuxPlatform Recording.host fuel) good := by
  intro s offered timeoutMs _
  obtain ⟨fuel, rfl⟩ : ∃ k, fuel = k + 2 := ⟨fuel - 2, by omega⟩
  refine ⟨s, ?_⟩
  show mqttNetworkWriteLoop Recording.host offered (fuel + 2) 0 s = _
  unfold mqttNetworkWriteLoop
  by_cases hempty : 0 < offered.length
  · rw [if_pos hempty]
    simp [Recording.host, hempty, mqttNetworkWriteLoop]
  · rw [if_neg hempty]
    simp [show offered.length = 0 by omega]

/-- A PUBLISH at QoS 1 with identifier 7, on the topic `a` and without payload. -/
def publishAtLeastOnce : Frame := .ofBody 0x32 [0, 1, 97, 0, 7] (by decide)

/-- A PUBREL with identifier 7. -/
def pubrelSeven : Frame := .ofBody 0x62 [0, 7] (by decide)

theorem zero_notMem_b : (0 : UInt8) ∉ [98] := by decide

/-- The application's client with an open session and three handlers: the first two are
entered for the topics `a` and `b`, the third is the default. -/
def handledWorld (inbound : List UInt8) : World Recording Nat :=
  World.update ⟨brokerClient, ⟨inbound, []⟩, []⟩ fun c =>
    { c with
      isconnected := true
      messageHandlers := fun i =>
        if i.val = 0 then ⟨some ⟨[97], zero_notMem_a⟩, some 1⟩
        else if i.val = 1 then ⟨some ⟨[98], zero_notMem_b⟩, some 2⟩
        else ⟨none, none⟩
      defaultMessageHandler := some 3 }

/-- The PUBLISH is delivered to the handler of its topic and to no other, and answered with a
PUBACK, and the PUBREL with a PUBCOMP. -/
theorem cycles_transducer_publish_pubrel :
    ∃ rcs w', (cycles (linuxPlatform Recording.host 1030) 2 [second, second]).run
        (handledWorld [0x32, 5, 0, 1, 97, 0, 7, 0x62, 2, 0, 7]) = some (rcs, w') ∧
      w'.env.inbound = [] ∧ rcs = [3, 6] ∧
      deliveries w'.trace = [(1, ⟨[97], [], 1, 0, 0⟩)] ∧
      writes w'.trace = [[0x40, 2, 0, 7], [0x70, 2, 0, 7]] ∧ w'.client.isconnected = true := by
  obtain ⟨rcs, w', hrun, hrest, hshown⟩ := cycles_transducer _ Recording.inbound _ mqttBufsize 2
    (Recording.delivers.streams 1030) (Recording.delivers.supplies 1030 mqttBufsize)
    (Recording.acceptsWrites (by decide) _) (by decide) [publishAtLeastOnce, pubrelSeven]
    [.publish 0 1 0 7 [97] [], .pubrel 7] (.cons (by decide) (.cons (by decide) .nil)) []
    [second, second] rfl (handledWorld [0x32, 5, 0, 1, 97, 0, 7, 0x62, 2, 0, 7]) rfl (by decide)
    (Nat.le_refl _) (by decide) (by decide) rfl (by decide)
  have hquiet : ((cycles (linuxPlatform Recording.host 1030) 2 [second, second]).run
      (handledWorld [0x32, 5, 0, 1, 97, 0, 7, 0x62, 2, 0, 7])).map
      (fun r => decide (NoExpiry r.2.trace)) = some true := by decide
  rw [hrun] at hquiet
  exact ⟨rcs, w', hrun, hrest, hshown (of_decide_eq_true (Option.some.inj hquiet))⟩

/-- The application's client with an open session and a default handler. -/
def subscribedWorld (inbound : List UInt8) : World Recording Unit :=
  (connectedWorld inbound).update fun c => { c with defaultMessageHandler := some () }

/-- With a send buffer of 2 GiB, whose size is negative as an `int`, the same PUBLISH
is delivered but not answered, and the session ends. -/
theorem cycle_publish_huge_buffer :
    publishAtLeastOnce.packet? = some (.publish 0 1 0 7 [97] []) ∧
      ((cycle (linuxPlatform Recording.host 8) 8 second).run
        ((subscribedWorld publishAtLeastOnce.bytes).update fun c =>
          { c with bufSize := 2 ^ 31 })).map
        (fun r => (r.1, writes r.2.trace, decide (NoExpiry r.2.trace), r.2.client.isconnected)) =
        some (failure, [], true, false) := by
  decide

end MqttClient

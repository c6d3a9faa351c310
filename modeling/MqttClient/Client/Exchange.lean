/-
# A request and its answer

Turn after turn the client is the transducer.  A call is more than its turns: it sends a
request of its own first, and its wait ends on the packet it waits for.  This module
carries the specification of a turn over to requests and waits, on a platform that
supplies the stream and accepts every write.  A wait takes the packets before the answer
as the transducer takes them and leaves the answer in the read buffer, where the call
finds it.  What a call is about in the client, apart from buffers and timers, is its
session.
-/

import MqttClient.Client.Calls
import MqttClient.Client.Transducer

namespace MqttClient

open Semantics Program

variable {σ H : Type}

/-! ## The session of a client -/

/-- What the calls are about. -/
structure Session (H : Type) where
  isconnected : Bool
  cleansession : Bool
  nextPacketid : Nat
  messageHandlers : HandlerTable H
  defaultMessageHandler : Option H

/-- The session of a client. -/
def MQTTClient.session (c : MQTTClient H) : Session H where
  isconnected := c.isconnected
  cleansession := c.cleansession
  nextPacketid := c.nextPacketid
  messageHandlers := c.messageHandlers
  defaultMessageHandler := c.defaultMessageHandler

namespace Session

/-- The identifier that the next request takes. -/
def nextId (s : Session H) : Nat :=
  if s.nextPacketid = maxPacketId then 1 else (s.nextPacketid + 1) % 2 ^ 32

/-- The session after a request has taken its identifier. -/
def numbered (s : Session H) : Session H := { s with nextPacketid := s.nextId }

/-- The session after its end: the filters go if sessions are clean. -/
def closed (s : Session H) : Session H where
  isconnected := false
  cleansession := s.cleansession
  nextPacketid := s.nextPacketid
  messageHandlers i :=
    if s.cleansession then { s.messageHandlers i with topicFilter := none }
    else s.messageHandlers i
  defaultMessageHandler := s.defaultMessageHandler

/-- The calls a packet causes. -/
def deliveries (s : Session H) : Inbound → List (H × Delivery)
  | .publish dup qos retain _ topic payload =>
      let handlers :=
        match (List.ofFn s.messageHandlers).filterMap (·.handlerFor (topicString topic)) with
        | [] => s.defaultMessageHandler.toList
        | handlers => handlers
      handlers.map fun fp => (fp, ⟨topic, payload, qos, dup, retain⟩)
  | .pubrec _ | .pubrel _ | .notice _ => []

end Session

theorem MQTTClient.session_closeSession (c : MQTTClient H) :
    c.closeSession.session = c.session.closed := by
  unfold closeSession session Session.closed cleanSession
  cases c.cleansession <;> simp

theorem Inbound.deliveries_session (c : MQTTClient H) :
    Inbound.deliveries c = c.session.deliveries := by
  funext p
  cases p <;> rfl

theorem Emits.session {A : Event H → Prop} {w w' : World σ H} (h : Emits A w w') :
    w'.client.session = w.client.session := by
  obtain ⟨⟨_, _, _, hclient⟩, _⟩ := h
  rw [hclient]
  rfl

theorem Emits.sameSizes {A : Event H → Prop} {w w' : World σ H} (h : Emits A w w') :
    SameSizes w.client w'.client := by
  obtain ⟨⟨_, _, _, hclient⟩, _⟩ := h
  rw [hclient]
  exact ⟨rfl, rfl⟩

theorem SameSizes.trans {c c' c'' : MQTTClient H} (h : SameSizes c c') (h' : SameSizes c' c'') :
    SameSizes c c'' :=
  ⟨h'.bufSize.trans h.bufSize, h'.readbufSize.trans h.readbufSize⟩

/-! ## Requests -/

namespace Request

/-- The packet of a request. -/
def serializer (s : Session H) : Request → Int → Serialized
  | connect options => fun buflen => mqttSerializeConnect buflen options
  | subscribe topicFilter qos => fun buflen =>
      mqttSerializeSubscribe buflen 0 (UInt16.ofNat s.nextId) [(.ofCString topicFilter, qos)]
  | unsubscribe topicFilter => fun buflen =>
      mqttSerializeUnsubscribe buflen 0 (UInt16.ofNat s.nextId) [.ofCString topicFilter]
  | publish topicName message => fun buflen =>
      mqttSerializePublish buflen 0 message.qos message.retained
        (if message.qos = 1 ∨ message.qos = 2 then UInt16.ofNat s.nextId else message.id)
        (.ofCString topicName) message.payload (toInt message.payloadlen)

/-- The session in which a request waits for its answer. -/
def prepared (s : Session H) : Request → Session H
  | connect options => { s with cleansession := options.cleansession ≠ 0 }
  | subscribe _ _ | unsubscribe _ => s.numbered
  | publish _ message => if message.qos = 1 ∨ message.qos = 2 then s.numbered else s

end Request

/-- What a request leaves behind besides the packet on the wire. -/
structure Prepared (request : Request) (w w' : World σ H) : Prop where
  session_eq : w'.client.session = request.prepared w.client.session
  sizes : SameSizes w.client w'.client

section Sending

variable {P : Platform σ} {pending : σ → List UInt8} {good : σ → Prop} {limit fuel : Nat}
  (hstream : Streams P pending) (hsupply : Supplies P pending good limit)
  {bytes : List UInt8} {w : World σ H}

include hstream hsupply

/-- The command timer is started. -/
theorem ticked_returns (timeout : Nat) (h : AtStream pending good bytes w) :
    (timerCountdownMS P timeout).Returns w fun _ w' => w'.client = w.client ∧
      AtStream pending good bytes w' ∧ Shown w w' [] [] True :=
  ⟨_, _, rfl, rfl, ⟨(hstream.clock w.env).trans h.pending_eq, hsupply.clock h.good⟩,
    _, rfl, fun _ => ⟨rfl, rfl, trivial⟩⟩

theorem Request.prepare_returns (request : Request) (h : AtStream pending good bytes w) :
    (request.prepare P).Returns w fun serializer w' =>
      serializer = request.serializer w.client.session ∧ Prepared request w w' ∧
        AtStream pending good bytes w' ∧ Shown w w' [] [] True := by
  cases request with
  | subscribe topicFilter qos =>
      exact ⟨_, _, rfl, rfl, ⟨rfl, rfl, rfl⟩, ⟨h.pending_eq, h.good⟩, .of_trace_eq rfl trivial⟩
  | unsubscribe topicFilter =>
      exact ⟨_, _, rfl, rfl, ⟨rfl, rfl, rfl⟩, ⟨h.pending_eq, h.good⟩, .of_trace_eq rfl trivial⟩
  | publish topicName message =>
      by_cases hid : message.qos = 1 ∨ message.qos = 2
      · simp only [prepare, preparePublish, publishId, serializer, if_pos hid]
        exact ⟨_, _, rfl, rfl, ⟨(if_pos hid).symm, rfl, rfl⟩, ⟨h.pending_eq, h.good⟩,
          .of_trace_eq rfl trivial⟩
      · simp only [prepare, preparePublish, publishId, serializer, if_neg hid]
        exact ⟨_, _, rfl, rfl, ⟨(if_neg hid).symm, rfl, rfl⟩, h, .of_trace_eq rfl trivial⟩
  | connect options =>
      -- the clock is read once, for `last_received`
      have hclock : ∀ now : World σ H, Shown now (now.ticked P) [] [] True := fun now =>
        ⟨_, rfl, fun _ => ⟨rfl, rfl, trivial⟩⟩
      refine ⟨_, _, rfl, rfl, ⟨rfl, rfl, rfl⟩,
        ⟨(hstream.clock w.env).trans h.pending_eq, hsupply.clock h.good⟩, ?_⟩
      exact hclock w

/-- A packet that fits the send buffer is serialized and goes out in one write. -/
theorem transmit_returns (haccept : AcceptsWrites P good) (hfuel : 2 ≤ fuel)
    {serializer : Int → Serialized} {packet : List UInt8} (hpos : 0 < packet.length)
    (hpacket : serializer (toInt w.client.bufSize) = .ofBytes packet) (timer : Timer)
    (h : AtStream pending good bytes w) :
    ∃ w₁, (serialize serializer).run w = some ((packet.length : Int), w₁) ∧
      (sendPacket P fuel packet.length timer).Returns w₁ fun rc w' =>
        AtStream pending good bytes w' ∧ w'.client.session = w.client.session ∧
          SameSizes w.client w'.client ∧ Shown w w' [] [packet] (rc = mqttSuccess) := by
  obtain ⟨_, w₁, hrun, rfl, hbuf, htrace, hat⟩ := serialize_returns serializer hpacket h
  have hemits := (sendFrame_emits (P := P)).serialize serializer _ _ _ hrun
  refine ⟨w₁, hrun, ?_⟩
  have hload : w₁.client.buf.load 0 packet.length = packet := by
    rw [hbuf]
    exact Memory.load_store_self _ 0 _
  refine ((sendPacket_returns hstream hsupply haccept hfuel hpos timer hat).and_keeps
    (sendFrame_emits.sendPacket _ _)).mono ?_
  rintro rc w₂ ⟨⟨hat₂, hshown⟩, hemits₂⟩
  rw [hload] at hshown
  refine ⟨hat₂, hemits₂.session.trans hemits.session, hemits.sameSizes.trans hemits₂.sameSizes, ?_⟩
  have hserialized : Shown w w₁ [] [] True := .of_trace_eq htrace trivial
  exact hserialized.trans (hshown.mono fun hrc _ => hrc)

/-- A request whose packet fits goes out in one write, and unless a timer expired the
call goes on to its wait. -/
theorem sendRequest_returns (haccept : AcceptsWrites P good) (hfuel : 2 ≤ fuel)
    (request : Request) {packet : List UInt8} (hpos : 0 < packet.length)
    (hpacket : request.serializer w.client.session (toInt w.client.bufSize) = .ofBytes packet)
    (h : AtStream pending good bytes w) :
    (sendRequest P fuel (request.prepare P)).Returns w fun sent w' =>
      AtStream pending good bytes w' ∧ Prepared request w w' ∧
        Shown w w' [] [packet] (sent.isSome = true) := by
  apply returns_bind_of_eq_some (run_client w)
  apply (ticked_returns hstream hsupply _ h).bind
  rintro timer w₁ ⟨hsame, hat₁, hshown₁⟩
  apply (request.prepare_returns hstream hsupply hat₁).bind
  rintro _ w₂ ⟨rfl, ⟨hsession, hsizes⟩, hat₂, hshown₂⟩
  rw [hsame] at hsession hsizes
  have hresult : request.serializer w₁.client.session (toInt w₂.client.bufSize) =
      .ofBytes packet := by
    rw [hsizes.bufSize, hsame]
    exact hpacket
  obtain ⟨w₃, hserialize, hsend⟩ :=
    transmit_returns hstream hsupply haccept hfuel hpos hresult timer hat₂
  apply returns_bind_of_eq_some hserialize
  rw [if_neg (by omega), Int.toNat_natCast]
  apply hsend.bind
  rintro rc w₄ ⟨hat₄, hsession₄, hsizes₄, hshown₄⟩
  have hall := (hshown₁.trans (hshown₂.mono fun _ _ => trivial)).trans
    (hshown₄.mono fun hrc _ => hrc)
  have hprepared : Prepared request w w₄ := ⟨hsession₄.trans hsession, hsizes.trans hsizes₄⟩
  split
  · rename_i hne
    exact returns_pure ⟨hat₄, hprepared, hall.of_not hne⟩
  · exact returns_pure ⟨hat₄, hprepared, hall.mono fun _ => rfl⟩

end Sending

/-! ## Waits -/

/-- Every well-formed packet has a case in `cycle`. -/
theorem isHandled_of_packet? {F : Frame} {p : Inbound} (h : F.packet? = some p) :
    isHandled F.type = true := by
  unfold isHandled
  cases hcode : MsgType.ofCode? F.type with
  | none => simp [Frame.packet?, hcode] at h
  | some t =>
      simp only [Frame.packet?, hcode] at h
      cases t <;> first | rfl | cases h

section Waiting

variable {P : Platform σ} {pending : σ → List UInt8} {good : σ → Prop} {limit fuel : Nat}
  (hstream : Streams P pending) (hsupply : Supplies P pending good limit)
  {rest : List UInt8}

/-- The turn kept the session and left the packet in the read buffer. -/
structure Took (F : Frame) (w w' : World σ H) : Prop where
  session_eq : w'.client.session = w.client.session
  holds : HoldsFrame w'.client.readbuf F.header F.body

include hstream hsupply

/-- A turn on a packet it has a case for returns the packet's type or fails. -/
theorem cycle_took {F : Frame} (hhandled : isHandled F.type = true) {timer : Timer} {rc : Int}
    {w w' : World σ H} (hlimit : w.client.readbufSize ≤ limit)
    (hread : w.client.readbufSize < 2 ^ 64)
    (hfits : HoldsFrame.frameLength F.body ≤ w.client.readbufSize)
    (h : AtStream pending good (F.bytes ++ rest) w)
    (hrun : (cycle P fuel timer).run w = some (rc, w')) :
    rc = F.type ∧ Took F w w' ∨ rc = failure := by
  obtain ⟨packetType, w₁, w₂, hpacket, hreact, hend⟩ := cycle_cases hrun
  obtain ⟨_, _, hread', htype, ⟨_, _, hclient⟩, hholds, _⟩ :=
    readPacket_returns hstream hsupply timer hlimit hread hfits h
  obtain ⟨rfl, rfl⟩ := run_inj hpacket hread'
  subst htype
  rcases hend with ⟨_, rfl, rfl⟩ | ⟨hrc, _⟩
  · refine .inl ⟨rfl, ?_, ?_⟩
    · rw [hreact.session, hclient]
      rfl
    · obtain ⟨⟨_, _, _, hclient₂⟩, _⟩ := hreact
      rw [hclient₂]
      exact hholds
  · rw [if_pos hhandled] at hrc
    exact .inr hrc

variable (haccept : AcceptsWrites P good) (hfuel : 2 ≤ fuel)

include haccept hfuel

/-- The turn of the transducer, with what a wait needs to know of its end. -/
theorem cycle_took_returns {F : Frame} {p : Inbound} (hpacket : F.packet? = some p)
    {w : World σ H} (hsend : 4 ≤ toInt w.client.bufSize) (hlimit : w.client.readbufSize ≤ limit)
    (hread : w.client.readbufSize < 2 ^ 64)
    (hfits : HoldsFrame.frameLength F.body ≤ w.client.readbufSize) (timer : Timer)
    (h : AtStream pending good (F.bytes ++ rest) w) :
    (cycle P fuel timer).Returns w fun rc w' => AtStream pending good rest w' ∧
      SameSizes w.client w'.client ∧ (rc = F.type ∧ Took F w w' ∨ rc = failure) ∧
      Shown w w' (w.client.session.deliveries p) p.reply?.toList (rc = F.type) := by
  obtain ⟨rc, w', hrun, hat, hshown⟩ :=
    cycle_returns hstream hsupply haccept hfuel hpacket hsend hlimit hread hfits timer h
  rw [Inbound.deliveries_session] at hshown
  exact ⟨rc, w', hrun, hat, cycle_sameSizes hrun,
    cycle_took hstream hsupply (isHandled_of_packet? hpacket) hlimit hread hfits h hrun,
    hshown.mono And.left⟩

/-- One iteration of a wait on a well-formed packet: what remains is to continue, or to
stop, from wherever the turn leads.  If a timer expired the wait may stop early. -/
theorem waitforLoop_iteration {packetType : MsgType} {F : Frame} {p : Inbound}
    (hpacket : F.packet? = some p) {timer : Timer} {steps : Nat} {before : Int} {w : World σ H}
    (hsend : 4 ≤ toInt w.client.bufSize) (hlimit : w.client.readbufSize ≤ limit)
    (hread : w.client.readbufSize < 2 ^ 64)
    (hfits : HoldsFrame.frameLength F.body ≤ w.client.readbufSize)
    (h : AtStream pending good (F.bytes ++ rest) w) (calls : List (H × Delivery))
    (sent : List (List UInt8)) {post : Int → World σ H → Prop}
    (hnext : ∀ {w₁ : World σ H}, Took F w w₁ → SameSizes w.client w₁.client →
      AtStream pending good rest w₁ →
      (if (F.type : Int) ≠ packetType.code ∧ 0 ≤ (F.type : Int) then
        waitforLoop P fuel packetType timer steps F.type else pure (F.type : Int)).Returns w₁
          fun rc w' => SameSizes w₁.client w'.client ∧ Shown w₁ w' calls sent (post rc w')) :
    (waitforLoop P fuel packetType timer (steps + 1) before).Returns w fun rc w' =>
      SameSizes w.client w'.client ∧ Shown w w' (w.client.session.deliveries p ++ calls)
        (p.reply?.toList ++ sent) (post rc w') := by
  unfold waitforLoop
  apply (timerIsExpired_returns hstream hsupply timer h).bind
  rintro expired w₁ ⟨hsame, hat, hshown⟩
  cases expired with
  | true =>
      refine returns_pure ⟨?_, hshown.of_not (by decide)⟩
      rw [hsame]
      exact ⟨rfl, rfl⟩
  | false =>
      rw [if_neg (by decide)]
      rw [← hsame] at hsend hlimit hread hfits
      apply (cycle_took_returns hstream hsupply haccept hfuel hpacket hsend hlimit hread hfits
        timer hat).bind
      rintro rc w₂ ⟨hat₂, hsizes, htook, hshown₂⟩
      rw [hsame] at hsizes hshown₂
      have hturn := hshown.trans (hshown₂.mono fun hrc _ => hrc)
      rcases htook with ⟨rfl, htook⟩ | rfl
      · refine (hnext ⟨by rw [htook.session_eq, hsame], htook.holds⟩ hsizes hat₂).mono ?_
        rintro rc w₃ ⟨hsizes₃, hshown₃⟩
        exact ⟨hsizes.trans hsizes₃, hturn.trans (hshown₃.mono fun hpost _ => hpost)⟩
      · rw [if_neg fun hmore => absurd hmore.2 (by decide)]
        exact returns_pure ⟨hsizes, hturn.of_not (by simp only [failure]; omega)⟩

/-- The wait for a packet, by induction over the packets that come before it. -/
theorem waitforLoop_returns {packetType : MsgType} {answer : Frame}
    (hanswer : answer.packet? = some (.notice packetType)) (htype : answer.type = packetType.code)
    (timer : Timer) :
    ∀ {frames : List Frame} {packets : List Inbound} {steps : Nat} {before : Int} {w : World σ H},
      List.Forall₂ (fun F p => F.packet? = some p) frames packets →
      (∀ F ∈ frames, F.type ≠ packetType.code) → frames.length < steps →
      4 ≤ toInt w.client.bufSize → w.client.readbufSize ≤ limit → w.client.readbufSize < 2 ^ 64 →
      (∀ F ∈ frames, HoldsFrame.frameLength F.body ≤ w.client.readbufSize) →
      HoldsFrame.frameLength answer.body ≤ w.client.readbufSize →
      AtStream pending good (frames.flatMap Frame.bytes ++ (answer.bytes ++ rest)) w →
      (waitforLoop P fuel packetType timer steps before).Returns w fun rc w' =>
        SameSizes w.client w'.client ∧
        Shown w w' (packets.flatMap w.client.session.deliveries) (packets.filterMap Inbound.reply?)
          (rc = packetType.code ∧ Took answer w w' ∧ AtStream pending good rest w') := by
  intro frames
  induction frames with
  | nil =>
      intro packets steps before w hpackets _ hsteps hsend hlimit hread _ hfits h
      cases hpackets
      obtain ⟨steps, rfl⟩ : ∃ k, steps = k + 1 := ⟨steps - 1, by simp at hsteps; omega⟩
      refine waitforLoop_iteration hstream hsupply haccept hfuel hanswer hsend hlimit hread hfits h
        [] [] ?_
      intro w₁ htook _ hat
      rw [htype, if_neg (by simp)]
      exact returns_pure ⟨⟨rfl, rfl⟩, .of_trace_eq rfl ⟨rfl, htook, hat⟩⟩
  | cons F frames ih =>
      intro packets steps before w hpackets hother hsteps hsend hlimit hread hfits hlast h
      rcases hpackets with _ | ⟨hpacket, hpackets⟩
      rename_i p packets
      obtain ⟨steps, rfl⟩ : ∃ k, steps = k + 1 := ⟨steps - 1, by simp at hsteps; omega⟩
      rw [List.flatMap_cons, List.append_assoc] at h
      rw [List.flatMap_cons, List.filterMap_eq_flatMap_toList, List.flatMap_cons,
        ← List.filterMap_eq_flatMap_toList]
      refine waitforLoop_iteration hstream hsupply haccept hfuel hpacket hsend hlimit hread
        (hfits F List.mem_cons_self) h _ _ ?_
      intro w₁ htook hsizes hat
      have hne : (F.type : Int) ≠ packetType.code := by simpa using hother F List.mem_cons_self
      rw [if_pos ⟨hne, by omega⟩]
      refine (ih hpackets (fun G hG => hother G (List.mem_cons_of_mem F hG))
        (by simpa using hsteps) (hsizes.bufSize ▸ hsend) (hsizes.readbufSize ▸ hlimit)
        (hsizes.readbufSize ▸ hread)
        (fun G hG => hsizes.readbufSize ▸ hfits G (List.mem_cons_of_mem F hG))
        (hsizes.readbufSize ▸ hlast) hat).mono ?_
      rintro rc w₂ ⟨hsizes₂, hshown⟩
      rw [htook.session_eq] at hshown
      refine ⟨hsizes₂, hshown.mono fun ⟨hrc, hlast, hat₂⟩ => ⟨hrc, ⟨?_, hlast.holds⟩, hat₂⟩⟩
      rw [hlast.session_eq, htook.session_eq]

theorem waitfor_returns {packetType : MsgType} {answer : Frame}
    (hanswer : answer.packet? = some (.notice packetType)) (htype : answer.type = packetType.code)
    (timer : Timer) {frames : List Frame} {packets : List Inbound} {w : World σ H}
    (hpackets : List.Forall₂ (fun F p => F.packet? = some p) frames packets)
    (hother : ∀ F ∈ frames, F.type ≠ packetType.code) (hsteps : frames.length < fuel)
    (hsend : 4 ≤ toInt w.client.bufSize) (hlimit : w.client.readbufSize ≤ limit)
    (hread : w.client.readbufSize < 2 ^ 64)
    (hfits : ∀ F ∈ frames, HoldsFrame.frameLength F.body ≤ w.client.readbufSize)
    (hlast : HoldsFrame.frameLength answer.body ≤ w.client.readbufSize)
    (h : AtStream pending good (frames.flatMap Frame.bytes ++ (answer.bytes ++ rest)) w) :
    (waitfor P fuel packetType timer).Returns w fun rc w' =>
      SameSizes w.client w'.client ∧
      Shown w w' (packets.flatMap w.client.session.deliveries) (packets.filterMap Inbound.reply?)
        (rc = packetType.code ∧ Took answer w w' ∧ AtStream pending good rest w') :=
  waitforLoop_returns hstream hsupply haccept hfuel hanswer htype timer hpackets hother hsteps hsend
    hlimit hread hfits hlast h

end Waiting

end MqttClient

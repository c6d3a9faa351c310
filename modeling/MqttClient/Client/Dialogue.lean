/-
# Dialogues with a broker

The reference here is a session on its own, without buffers, timers or a network: a call
and the broker's reply take it to the next session.  A dialogue is a sequence of such
exchanges, and in each of them the broker may send other packets before its reply.  The
result is that the client carries out every dialogue.  On a platform that supplies the
broker's bytes and accepts every write, the calls return one after the other, and unless a
timer was found expired they return what the reference says, write the requests and the
acknowledgements in the order of the dialogue, call the handlers that the session of the
moment has, and leave the client in the last session.

The serializers, `MQTTSetMessageHandler` and the matching of topics are the client's own in the
reference.  And like the client it looks neither at the code of a SUBACK nor at the identifiers
of replies.
-/

import MqttClient.Client.Answer
import MqttClient.Client.Exchange
import MqttClient.Client.Handlers
import MqttClient.Packet.ServerReplies

namespace MqttClient

open Semantics Program

variable {σ H : Type}

/-! ## Exchanges -/

/-- A call of the client and the reply of the broker.  A PUBLISH at QoS 0 and a
DISCONNECT have none. -/
inductive Exchange (H : Type)
  | connect (options : Option MQTTPacketConnectData) (data : ConnackOut)
      (connackRc sessionPresent : UInt8)
  | subscribe (topicFilter : CString) (qos : Int) (messageHandler : Option H) (grantedQoS : Int)
      (packetid : UInt16) (granted : Int)
  | unsubscribe (topicFilter : CString) (packetid : UInt16)
  | publish (topicName : CString) (message : MQTTMessage) (packetid : UInt16)
  | disconnect

namespace Exchange

/-- The call. -/
def perform (P : Platform σ) (fuel : Nat) : Exchange H → Action σ H Int
  | connect options data _ _ => mqttConnect P fuel options data
  | subscribe topicFilter qos messageHandler grantedQoS _ _ =>
      mqttSubscribe P fuel topicFilter qos messageHandler grantedQoS
  | unsubscribe topicFilter _ => mqttUnsubscribe P fuel topicFilter
  | publish topicName message _ => mqttPublish P fuel topicName message
  | disconnect => mqttDisconnect P fuel

/-- The reply. -/
def reply : Exchange H → Option ServerReply
  | connect _ _ connackRc sessionPresent => some (.connack connackRc sessionPresent)
  | subscribe _ _ _ _ packetid granted => some (.suback packetid [granted])
  | unsubscribe _ packetid => some (.unsuback packetid)
  | publish _ message packetid =>
      if message.qos = 1 then some (.ack .puback 0 packetid)
      else if message.qos = 2 then some (.ack .pubcomp 0 packetid)
      else none
  | disconnect => none

/-- The packet that the call sends. -/
def packet (s : Session H) : Exchange H → Int → Serialized
  | connect options _ _ _ => (Request.connect (options.getD .initializer)).serializer s
  | subscribe topicFilter qos _ _ _ _ => (Request.subscribe topicFilter qos).serializer s
  | unsubscribe topicFilter _ => (Request.unsubscribe topicFilter).serializer s
  | publish topicName message _ => (Request.publish topicName message).serializer s
  | disconnect => mqttSerializeDisconnect

/-- The session in which the call waits for its reply. -/
def waiting (s : Session H) : Exchange H → Session H
  | connect options _ _ _ => (Request.connect (options.getD .initializer)).prepared s
  | subscribe topicFilter qos _ _ _ _ => (Request.subscribe topicFilter qos).prepared s
  | unsubscribe topicFilter _ => (Request.unsubscribe topicFilter).prepared s
  | publish topicName message _ => (Request.publish topicName message).prepared s
  | disconnect => s

/-- Whether the call may be made in the session: one connects when there is no
connection, and does the rest when there is one. -/
def admissible (s : Session H) : Exchange H → Bool
  | connect _ _ _ _ => !s.isconnected
  | subscribe _ _ _ _ _ _ | unsubscribe _ _ | publish _ _ _ => s.isconnected
  | disconnect => true

/-- The return code of the call, and the session after it.  The code of a SUBACK plays no
part, and neither does the identifier in a reply. -/
def settle (s : Session H) (exchange : Exchange H) : Int × Session H :=
  let waited := exchange.waiting s
  match exchange with
  | connect _ _ connackRc _ =>
      (connackRc.toNat, if connackRc = 0 then { waited with isconnected := true } else waited)
  | subscribe topicFilter _ messageHandler _ _ _ =>
      let (rc, messageHandlers) :=
        HandlerTable.setMessageHandler waited.messageHandlers topicFilter messageHandler
      let subscribed := { waited with messageHandlers }
      (rc, if rc = failure then subscribed.closed else subscribed)
  | unsubscribe topicFilter _ =>
      let (_, messageHandlers) :=
        HandlerTable.setMessageHandler waited.messageHandlers topicFilter none
      (mqttSuccess, { waited with messageHandlers })
  | publish _ _ _ => (mqttSuccess, waited)
  | disconnect => (mqttSuccess, waited.closed)

theorem body_length_le {exchange : Exchange H} {reply : ServerReply}
    (h : exchange.reply = some reply) : reply.body.length ≤ 3 := by
  cases exchange <;> simp only [Exchange.reply] at h
  case publish topicName message packetid =>
    split at h
    · cases h
      exact Nat.le_succ 2
    · split at h
      · cases h
        exact Nat.le_succ 2
      · cases h
  case disconnect => cases h
  all_goals
    cases h
    first | exact Nat.le_refl 3 | exact Nat.le_succ 2

end Exchange

/-! ## Replies as frames -/

/-- The bytes of the reply; `serialize_eq` says that its serializer writes these. -/
def ServerReply.bytes (reply : ServerReply) : List UInt8 :=
  reply.header.byte :: (mqttPacketEncode reply.body.length ++ reply.body)

/-- The reply as a packet. -/
def ServerReply.frame (reply : ServerReply) (h : reply.body.length < 268435456) : Frame :=
  .ofBody reply.header.byte reply.body h

/-- The types of packet that a call waits for. -/
def MsgType.isAnswer : MsgType → Bool
  | connack | puback | pubcomp | suback | unsuback => true
  | _ => false

theorem ServerReply.ofByte_header_type (reply : ServerReply) :
    (MQTTHeader.ofByte reply.header.byte).type = reply.packettype.code := by
  have htype : reply.header.type = reply.packettype.code := by cases reply <;> rfl
  rw [← htype]
  apply MQTTHeader.ofByte_byte_type
  rw [htype]
  exact reply.packettype.code_lt

theorem ServerReply.frame_packet? {reply : ServerReply} (h : reply.body.length < 268435456)
    (hanswer : reply.packettype.isAnswer = true) :
    (reply.frame h).packet? = some (.notice reply.packettype) := by
  unfold Frame.packet?
  rw [show (reply.frame h).type = _ from reply.ofByte_header_type]
  cases htype : reply.packettype <;> rw [htype] at hanswer <;> first | rfl | cases hanswer

/-! ## Stages of a dialogue -/

/-- An exchange, and the packets that the broker sends before its reply. -/
structure Stage (H : Type) where
  exchange : Exchange H
  frames : List Frame
  packets : List Inbound
  parsed : List.Forall₂ (fun F p => F.packet? = some p) frames packets
  other : ∀ reply, exchange.reply = some reply → ∀ F ∈ frames, F.type ≠ reply.packettype.code
  quiet : exchange.reply = none → frames = []

namespace Stage

/-- A stage in which nothing comes before the reply. -/
def plain (exchange : Exchange H) : Stage H where
  exchange := exchange
  frames := []
  packets := []
  parsed := .nil
  other _ _ _ hF := absurd hF List.not_mem_nil
  quiet _ := rfl

/-- What the broker sends in the course of a stage. -/
def bytes (stage : Stage H) : List UInt8 :=
  stage.frames.flatMap Frame.bytes ++ stage.exchange.reply.toList.flatMap ServerReply.bytes

/-- The calls of handlers in the course of a stage. -/
def calls (s : Session H) (stage : Stage H) : List (H × Delivery) :=
  stage.packets.flatMap (stage.exchange.waiting s).deliveries

/-- The acknowledgements in the course of a stage. -/
def acks (stage : Stage H) : List (List UInt8) := stage.packets.filterMap Inbound.reply?

theorem packets_eq_nil {stage : Stage H} (h : stage.exchange.reply = none) :
    stage.packets = [] := by
  have hparsed := stage.parsed
  rw [stage.quiet h] at hparsed
  exact List.forall₂_nil_left_iff.mp hparsed

theorem bytes_eq_nil {stage : Stage H} (h : stage.exchange.reply = none) : stage.bytes = [] := by
  simp [bytes, h, stage.quiet h]

/-- The call may be made, its packet fits the send buffer, and what the broker sends fits
the read buffer. -/
structure Enabled (bufSize readbufSize : Nat) (s : Session H) (stage : Stage H)
    (packet : List UInt8) : Prop where
  admissible : stage.exchange.admissible s = true
  sends : stage.exchange.packet s (toInt bufSize) = .ofBytes packet
  packet_pos : 0 < packet.length
  fits : ∀ F ∈ stage.frames, HoldsFrame.frameLength F.body ≤ readbufSize
  reply_fits : ∀ reply, stage.exchange.reply = some reply →
    HoldsFrame.frameLength reply.body ≤ readbufSize

end Stage

/-! ## The end of a call -/

/-- The end of a call always returns, and nothing of it is seen outside. -/
def Ends {α : Type} (x : Action σ H α) : Prop :=
  ∀ w, x.Returns w fun _ w' => w'.trace = w.trace ∧ w'.env = w.env ∧ SameSizes w.client w'.client

namespace Ends

variable {α β : Type} {x : Action σ H α}

theorem pure (a : α) : Ends (Pure.pure a : Action σ H α) := fun _ =>
  returns_pure ⟨rfl, rfl, rfl, rfl⟩

theorem bind {f : α → Action σ H β} (hx : Ends x) (hf : ∀ a, Ends (f a)) : Ends (x >>= f) := by
  intro w
  refine (hx w).bind fun a w₁ ⟨htrace, henv, hsizes⟩ => (hf a w₁).mono ?_
  rintro b w₂ ⟨htrace₂, henv₂, hsizes₂⟩
  exact ⟨htrace₂.trans htrace, henv₂.trans henv, hsizes.trans hsizes₂⟩

theorem client : Ends (MqttClient.client : Action σ H _) := fun w =>
  ⟨_, _, run_client w, rfl, rfl, rfl, rfl⟩

theorem ite {c : Prop} [Decidable c] {y : Action σ H α} (hx : Ends x) (hy : Ends y) :
    Ends (if c then x else y) := by
  split
  · exact hx
  · exact hy

theorem modify {f : MQTTClient H → MQTTClient H} (hf : ∀ c, SameSizes c (f c)) :
    Ends (modifyClient f : Action σ H _) := fun w => ⟨_, _, rfl, rfl, rfl, hf w.client⟩

theorem finishConnect (rc : Int) : Ends (MqttClient.finishConnect rc : Action σ H _) :=
  ite (bind (modify fun _ => ⟨rfl, rfl⟩) fun _ => pure _) (pure _)

theorem closeSession : Ends (mqttCloseSession : Action σ H _) := by
  refine modify fun c => ?_
  unfold MQTTClient.closeSession
  dsimp only
  split <;> exact ⟨rfl, rfl⟩

theorem finishRequest (rc : Int) : Ends (MqttClient.finishRequest rc : Action σ H _) :=
  ite (bind closeSession fun _ => pure _) (pure _)

theorem setMessageHandler (topicFilter : CString) (messageHandler : Option H) :
    Ends (mqttSetMessageHandler topicFilter messageHandler : Action σ H _) :=
  bind client fun _ => bind (modify fun _ => ⟨rfl, rfl⟩) fun _ => pure _

end Ends

/-! ## One stage -/

section Stages

variable {P : Platform σ} {pending : σ → List UInt8} {good : σ → Prop} {limit fuel : Nat}
  {rest : List UInt8}

/-- The client is about to go through a stage: the stage is enabled, the buffers are of a
size the client and the platform can deal with, and the broker's bytes are next. -/
structure Poised (pending : σ → List UInt8) (good : σ → Prop) (limit fuel : Nat)
    (rest : List UInt8) (stage : Stage H) (packet : List UInt8) (w : World σ H) : Prop where
  enabled : stage.Enabled w.client.bufSize w.client.readbufSize w.client.session packet
  fuel_ge : stage.frames.length + 2 ≤ fuel
  bufSize_ge : 4 ≤ toInt w.client.bufSize
  readbufSize_le : w.client.readbufSize ≤ limit
  readbufSize_lt : w.client.readbufSize < 2 ^ 64
  atStream : AtStream pending good (stage.bytes ++ rest) w

/-- What a stage shows and how it ends, unless a timer was found expired. -/
def Performs (pending : σ → List UInt8) (good : σ → Prop) (rest : List UInt8)
    (calls : List (H × Delivery)) (sent : List (List UInt8)) (post : Prop) (w w' : World σ H) :
    Prop :=
  SameSizes w.client w'.client ∧ Shown w w' calls sent (post ∧ AtStream pending good rest w')

/-- The end of a call after a wait.  If the answer came it is as given; otherwise a timer
has expired, and it is enough that the call comes to its end. -/
theorem performs_of_wait {α : Type} {x : Action σ H Int} {ending : Int → Action σ H α}
    {code : Int} {answer : Frame} {calls : List (H × Delivery)} {sent : List (List UInt8)}
    {post : α → World σ H → Prop} {w : World σ H}
    (hwait : x.Returns w fun rc w' => SameSizes w.client w'.client ∧
      Shown w w' calls sent (rc = code ∧ Took answer w w' ∧ AtStream pending good rest w'))
    (hends : ∀ rc, Ends (ending rc))
    (hsettles : ∀ {w₁ : World σ H}, Took answer w w₁ → (ending code).Ensures w₁ post) :
    (x >>= ending).Returns w fun a w' =>
      Performs pending good rest calls sent (post a w') w w' := by
  refine hwait.bind fun rc w₁ ⟨hsizes, hshown⟩ => ?_
  obtain ⟨a, w₂, hrun, htrace, henv, hsizes₂⟩ := hends rc w₁
  refine ⟨a, w₂, hrun, hsizes.trans hsizes₂, ?_⟩
  by_cases hanswered : rc = code ∧ Took answer w w₁ ∧ AtStream pending good rest w₁
  · obtain ⟨rfl, htook, hat⟩ := hanswered
    have hpost : post a w₂ ∧ AtStream pending good rest w₂ :=
      ⟨hsettles htook a w₂ hrun, henv ▸ hat.pending_eq, henv ▸ hat.good⟩
    have hall := hshown.trans (.of_trace_eq htrace fun _ => hpost)
    rwa [List.append_nil, List.append_nil] at hall
  · exact hshown.trans_of_not hanswered ⟨[], by rw [htrace, List.append_nil]⟩

variable (hstream : Streams P pending) (hsupply : Supplies P pending good limit)
  (haccept : AcceptsWrites P good)

include hstream hsupply haccept

/-- A request and the wait for its reply: it remains to say what the call makes of it. -/
theorem request_performs {α : Type} (request : Request) (packetType : MsgType) {stage : Stage H}
    {reply : ServerReply} {k : Option Timer → Action σ H α} {ending : Int → Action σ H α}
    {packet : List UInt8} {post : α → World σ H → Prop} {w : World σ H}
    (h : Poised pending good limit fuel rest stage packet w)
    (hreply : stage.exchange.reply = some reply) (htype : reply.packettype = packetType)
    (hanswer : packetType.isAnswer = true)
    (hpacket : stage.exchange.packet w.client.session = request.serializer w.client.session)
    (hwaiting : stage.exchange.waiting w.client.session = request.prepared w.client.session)
    (hunsent : Ends (k none))
    (hsent : ∀ timer, k (some timer) = waitfor P fuel packetType timer >>= ending)
    (hends : ∀ rc, Ends (ending rc))
    (hsettles : ∀ {w₁ : World σ H},
      w₁.client.session = stage.exchange.waiting w.client.session →
      HoldsFrame w₁.client.readbuf reply.header.byte reply.body →
      (ending packetType.code).Ensures w₁ post) :
    (sendRequest P fuel (request.prepare P) >>= k).Returns w fun a w' =>
      Performs pending good rest (stage.calls w.client.session) (packet :: stage.acks) (post a w')
        w w' := by
  subst htype
  have hlt : reply.body.length < 268435456 := by
    have := Exchange.body_length_le hreply
    omega
  have hfuel := h.fuel_ge
  have htwo : 2 ≤ fuel := by omega
  have hsends := h.enabled.sends
  rw [hpacket] at hsends
  apply (sendRequest_returns hstream hsupply haccept htwo request h.enabled.packet_pos hsends
    h.atStream).bind
  rintro sent w₁ ⟨hat, ⟨hsession, hsizes⟩, hshown⟩
  rw [← hwaiting] at hsession
  cases sent with
  | none =>
      refine (hunsent w₁).mono fun a w₂ ⟨htrace, _, hsizes₂⟩ => ⟨hsizes.trans hsizes₂, ?_⟩
      exact hshown.trans_of_not (by simp) ⟨[], by rw [htrace, List.append_nil]⟩
  | some timer =>
      rw [hsent timer]
      have hbytes : stage.bytes ++ rest =
          stage.frames.flatMap Frame.bytes ++ ((reply.frame hlt).bytes ++ rest) := by
        simp [Stage.bytes, hreply, ServerReply.bytes, ServerReply.frame, Frame.bytes, Frame.ofBody]
      rw [hbytes] at hat
      have hwait := waitfor_returns hstream hsupply haccept htwo (reply.frame_packet? hlt hanswer)
        reply.ofByte_header_type timer stage.parsed (stage.other reply hreply) (by omega)
        (hsizes.bufSize ▸ h.bufSize_ge) (hsizes.readbufSize ▸ h.readbufSize_le)
        (hsizes.readbufSize ▸ h.readbufSize_lt)
        (fun F hF => hsizes.readbufSize ▸ h.enabled.fits F hF)
        (hsizes.readbufSize ▸ h.enabled.reply_fits reply hreply) hat
      refine (performs_of_wait hwait hends fun htook =>
        hsettles (htook.session_eq.trans hsession) htook.holds).mono ?_
      rintro a w₂ ⟨hsizes₂, hshown₂⟩
      rw [hsession] at hshown₂
      exact ⟨hsizes.trans hsizes₂, hshown.trans (hshown₂.mono fun hpost _ => hpost)⟩

/-- The outcome of a stage. -/
def Carries (stage : Stage H) (s : Session H) (rc : Int) (w' : World σ H) : Prop :=
  rc = (stage.exchange.settle s).1 ∧ w'.client.session = (stage.exchange.settle s).2

theorem connect_performs {stage : Stage H} {options : Option MQTTPacketConnectData}
    {data : ConnackOut} {connackRc sessionPresent : UInt8} {packet : List UInt8} {w : World σ H}
    (h : Poised pending good limit fuel rest stage packet w)
    (hexchange : stage.exchange = .connect options data connackRc sessionPresent) :
    (mqttConnectWithResults P fuel options data).Returns w fun result w' =>
      Performs pending good rest (stage.calls w.client.session) (packet :: stage.acks)
        (Carries stage w.client.session result.1 w') w w' := by
  have hopen : ¬ w.client.isconnected = true := by
    have hadmissible := h.enabled.admissible
    rw [hexchange] at hadmissible
    exact fun hopen => by simp [Exchange.admissible, MQTTClient.session, hopen] at hadmissible
  have hfails : Ends (do
      let rc ← finishConnect failure
      pure (rc, data) : Action σ H _) := .bind (.finishConnect _) fun _ => .pure _
  apply returns_bind_of_eq_some (run_client w)
  rw [if_neg hopen]
  refine request_performs hstream hsupply haccept (.connect _) .connack h
    (by rw [hexchange]; rfl) rfl rfl (by rw [hexchange]; rfl) (by rw [hexchange]; rfl) hfails
    (fun _ => rfl) ?_ ?_
  · intro rc
    exact .ite (.bind .client fun _ => .bind (.finishConnect _) fun _ => .pure _) hfails
  · intro w₁ hsession hholds result w' hrun
    rw [if_pos rfl, run_bind_of_eq_some (run_client w₁), hholds.mqttDeserializeConnack_eq
      (ServerReply.connack connackRc sessionPresent).ofByte_header_type] at hrun
    dsimp only at hrun
    rw [if_pos rfl, run_bind_of_eq_some (run_finishConnect _ w₁)] at hrun
    obtain ⟨rfl, rfl⟩ := run_pure_eq_some.mp hrun
    rw [hexchange] at hsession
    refine ⟨by rw [hexchange]; rfl, ?_⟩
    rw [hexchange, Exchange.settle]
    dsimp only
    rw [← hsession]
    have hzero : (connackRc.toNat : Int) = mqttSuccess ↔ connackRc = 0 := by
      rw [← UInt8.toNat_inj]
      exact Int.natCast_inj
    by_cases hok : connackRc = 0
    · rw [if_pos (hzero.mpr hok), if_pos hok]
      rfl
    · rw [if_neg (hok ∘ hzero.mp), if_neg hok]

theorem subscribe_performs {stage : Stage H} {topicFilter : CString} {qos : Int}
    {messageHandler : Option H} {grantedQoS granted : Int} {packetid : UInt16}
    {packet : List UInt8} {w : World σ H}
    (h : Poised pending good limit fuel rest stage packet w)
    (hexchange : stage.exchange =
      .subscribe topicFilter qos messageHandler grantedQoS packetid granted) :
    (mqttSubscribeWithResults P fuel topicFilter qos messageHandler grantedQoS).Returns w
      fun result w' =>
        Performs pending good rest (stage.calls w.client.session) (packet :: stage.acks)
          (Carries stage w.client.session result.1 w') w w' := by
  have hopen : w.client.isconnected = true := by
    have hadmissible := h.enabled.admissible
    rw [hexchange] at hadmissible
    exact hadmissible
  have hfails : Ends (do
      let rc ← finishRequest failure
      pure (rc, grantedQoS) : Action σ H _) := .bind (.finishRequest _) fun _ => .pure _
  have haccepts : Ends (acceptSuback topicFilter messageHandler : Action σ H _) :=
    .bind .client fun _ => .ite (.bind (.setMessageHandler _ _) fun _ => .pure _) (.pure _)
  apply returns_bind_of_eq_some (run_client w)
  rw [if_pos hopen]
  refine request_performs hstream hsupply haccept (.subscribe _ _) .suback h
    (by rw [hexchange]; rfl) rfl rfl (by rw [hexchange]; rfl) (by rw [hexchange]; rfl) hfails
    (fun _ => rfl) ?_ ?_
  · intro rc
    exact .ite (.bind haccepts fun _ => .bind (.finishRequest _) fun _ => .pure _) hfails
  · intro w₁ hsession hholds result w' hrun
    rw [if_pos rfl] at hrun
    obtain ⟨accepted, w₂, haccepted, hrun⟩ := run_bind_eq_some.mp hrun
    obtain ⟨rc, w₃, hfinish, hrun⟩ := run_bind_eq_some.mp hrun
    obtain ⟨rfl, rfl⟩ := run_pure_eq_some.mp hrun
    have hsuback := (acceptSuback_cases haccepted hfinish).of_holds hholds
      (ServerReply.suback packetid [granted]).ofByte_header_type
    obtain ⟨_, hrc, hw₃⟩ | ⟨hlong, _⟩ := hsuback
    · have htable : w₁.client.messageHandlers =
          (stage.exchange.waiting w.client.session).messageHandlers := by
        rw [← hsession]
        rfl
      rw [htable] at hrc hw₃
      rw [hexchange] at hrc hw₃ hsession
      refine ⟨by rw [hexchange]; exact hrc, ?_⟩
      rw [hexchange, Exchange.settle, hw₃]
      dsimp only
      rw [← hrc, ← hsession]
      split
      · exact MQTTClient.session_closeSession _
      · rfl
    · have hthree := Exchange.body_length_le
        (show stage.exchange.reply = some (.suback packetid [granted]) by rw [hexchange]; rfl)
      omega

theorem unsubscribe_performs {stage : Stage H} {topicFilter : CString} {packetid : UInt16}
    {packet : List UInt8} {w : World σ H}
    (h : Poised pending good limit fuel rest stage packet w)
    (hexchange : stage.exchange = .unsubscribe topicFilter packetid) :
    (mqttUnsubscribe P fuel topicFilter).Returns w fun rc w' =>
      Performs pending good rest (stage.calls w.client.session) (packet :: stage.acks)
        (Carries stage w.client.session rc w') w w' := by
  have hopen : w.client.isconnected = true := by
    have hadmissible := h.enabled.admissible
    rw [hexchange] at hadmissible
    exact hadmissible
  have haccepts : Ends (acceptUnsuback topicFilter : Action σ H _) :=
    .bind .client fun _ => .ite (.bind (.setMessageHandler _ _) fun _ => .pure _) (.pure _)
  apply returns_bind_of_eq_some (run_client w)
  rw [if_pos hopen]
  refine request_performs hstream hsupply haccept (.unsubscribe _) .unsuback h
    (by rw [hexchange]; rfl) rfl rfl (by rw [hexchange]; rfl) (by rw [hexchange]; rfl)
    (.finishRequest failure) (fun _ => rfl) ?_ ?_
  · intro rc
    exact .ite (.bind haccepts fun _ => .finishRequest _) (.finishRequest _)
  · intro w₁ hsession hholds result w' hrun
    have hdecoded := hholds.mqttDeserializeUnsuback_eq (leadingInt?_writeInt packetid.toNat_lt [])
      (ServerReply.unsuback packetid).ofByte_header_type 0
    rw [if_pos rfl, run_bind_of_eq_some (run_acceptUnsuback topicFilter (by rw [hdecoded])),
      run_finishRequest] at hrun
    cases hrun
    refine ⟨by rw [hexchange]; rfl, ?_⟩
    rw [if_neg (by decide), hexchange, Exchange.settle, ← hexchange, ← hsession]
    rfl

/-- What `MQTTPublish` does with the packet that ended its wait. -/
def concludePublish (packetType : MsgType) (answer : Int) : Action σ H Int :=
  (if answer = packetType.code then do
    let c ← client
    if (mqttDeserializeAck c.readbuf ⟨0, 0, 0⟩).1 ≠ 1 then pure failure else pure mqttSuccess
  else pure failure) >>= finishRequest

theorem publish_performs {stage : Stage H} {topicName : CString} {message : MQTTMessage}
    {packetid : UInt16} {packet : List UInt8} {w : World σ H}
    (h : Poised pending good limit fuel rest stage packet w)
    (hexchange : stage.exchange = .publish topicName message packetid) :
    (mqttPublish P fuel topicName message).Returns w fun rc w' =>
      Performs pending good rest (stage.calls w.client.session) (packet :: stage.acks)
        (Carries stage w.client.session rc w') w w' := by
  have hopen : w.client.isconnected = true := by
    have hadmissible := h.enabled.admissible
    rw [hexchange] at hadmissible
    exact hadmissible
  have hpacket : stage.exchange.packet w.client.session =
      (Request.publish topicName message).serializer w.client.session := by
    rw [hexchange]
    rfl
  have hwaiting : stage.exchange.waiting w.client.session =
      (Request.publish topicName message).prepared w.client.session := by
    rw [hexchange]
    rfl
  have hsettle : stage.exchange.settle w.client.session =
      (mqttSuccess, stage.exchange.waiting w.client.session) := by
    rw [hexchange]
    rfl
  have hends : ∀ (packetType : MsgType) (answer : Int),
      Ends (concludePublish packetType answer : Action σ H _) := fun packetType answer =>
    .bind (.ite (.bind .client fun _ => .ite (.pure _) (.pure _)) (.pure _)) fun _ =>
      .finishRequest _
  -- with an acknowledgement of the awaited type the call succeeds
  have hacknowledged : ∀ (packetType : MsgType) {w₁ : World σ H},
      w₁.client.session = stage.exchange.waiting w.client.session →
      HoldsFrame w₁.client.readbuf (ServerReply.ack packetType 0 packetid).header.byte
        (ServerReply.ack packetType 0 packetid).body →
      (concludePublish packetType packetType.code : Action σ H _).Ensures w₁
        fun rc w' => Carries stage w.client.session rc w' := by
    intro packetType w₁ hsession hholds rc w' hrun
    rw [concludePublish, if_pos rfl, bind_bind, run_bind_of_eq_some (run_client w₁),
      hholds.mqttDeserializeAck_eq, if_neg (by simp), run_bind_of_eq_some (run_pure _ _),
      run_finishRequest, if_neg (by decide)] at hrun
    cases hrun
    rw [Carries, hsettle]
    exact ⟨rfl, hsession⟩
  apply returns_bind_of_eq_some (run_client w)
  rw [if_pos hopen]
  by_cases hone : message.qos = 1
  · simp only [if_pos hone]
    refine request_performs hstream hsupply haccept (.publish _ _) .puback h
      (show _ = some (.ack .puback 0 packetid) by rw [hexchange]; exact if_pos hone) rfl rfl
      hpacket hwaiting (.finishRequest failure) (fun timer => bind_bind _ _ finishRequest)
      (hends .puback) (hacknowledged .puback)
  · by_cases htwo : message.qos = 2
    · simp only [if_neg hone, if_pos htwo]
      refine request_performs hstream hsupply haccept (.publish _ _) .pubcomp h
        (show _ = some (.ack .pubcomp 0 packetid) by
          rw [hexchange, Exchange.reply, if_neg hone, if_pos htwo]) rfl rfl
        hpacket hwaiting (.finishRequest failure) (fun timer => bind_bind _ _ finishRequest)
        (hends .pubcomp) (hacknowledged .pubcomp)
    · simp only [if_neg hone, if_neg htwo]
      have hreply : stage.exchange.reply = none := by
        rw [hexchange, Exchange.reply, if_neg hone, if_neg htwo]
      have hat := h.atStream
      have hsends := h.enabled.sends
      rw [stage.bytes_eq_nil hreply] at hat
      rw [hpacket] at hsends
      rw [Stage.calls, Stage.acks, stage.packets_eq_nil hreply]
      apply (sendRequest_returns hstream hsupply haccept (Nat.le_of_add_left_le h.fuel_ge) _
        h.enabled.packet_pos hsends hat).bind
      rintro sent w₁ ⟨hat₁, ⟨hsession, hsizes⟩, hshown⟩
      cases sent with
      | none =>
          refine (Ends.finishRequest failure w₁).mono ?_
          rintro rc w₂ ⟨htrace, _, hsizes₂⟩
          exact ⟨hsizes.trans hsizes₂,
            hshown.trans_of_not (by simp) ⟨[], by rw [htrace, List.append_nil]⟩⟩
      | some timer =>
          refine ⟨_, _, (run_finishRequest _ w₁).trans (by rw [if_neg (by decide)]), hsizes,
            hshown.mono fun _ => ⟨?_, hat₁⟩⟩
          rw [Carries, hsettle, hwaiting]
          exact ⟨rfl, hsession⟩

theorem disconnect_performs {stage : Stage H} {packet : List UInt8} {w : World σ H}
    (h : Poised pending good limit fuel rest stage packet w)
    (hexchange : stage.exchange = .disconnect) :
    (mqttDisconnect P fuel).Returns w fun rc w' =>
      Performs pending good rest (stage.calls w.client.session) (packet :: stage.acks)
        (Carries stage w.client.session rc w') w w' := by
  have hreply : stage.exchange.reply = none := by
    rw [hexchange]
    rfl
  have hat := h.atStream
  have hsends := h.enabled.sends
  rw [stage.bytes_eq_nil hreply] at hat
  rw [hexchange] at hsends
  rw [Stage.calls, Stage.acks, stage.packets_eq_nil hreply]
  apply returns_bind_of_eq_some (run_client w)
  apply (ticked_returns hstream hsupply _ hat).bind
  rintro timer w₁ ⟨hsame, hat₁, hshown₁⟩
  rw [← hsame] at hsends
  obtain ⟨w₂, hserialize, hsend⟩ := transmit_returns hstream hsupply haccept
    (Nat.le_of_add_left_le h.fuel_ge) h.enabled.packet_pos hsends timer hat₁
  apply returns_bind_of_eq_some hserialize
  rw [if_pos (Int.natCast_pos.mpr h.enabled.packet_pos), Int.toNat_natCast]
  apply hsend.bind
  rintro rc w₃ ⟨hat₃, hsession, hsizes, hshown₃⟩
  rw [hsame] at hsession hsizes
  obtain ⟨_, w₄, hclose, htrace, _, hsizes₄⟩ := Ends.closeSession w₃
  cases hclose
  refine ⟨rc, _, rfl, hsizes.trans hsizes₄, ?_⟩
  have hall := hshown₁.trans (hshown₃.mono fun hrc _ => hrc)
  have hclosed : Shown w₃ (w₃.update MQTTClient.closeSession) [] []
      (rc = mqttSuccess → Carries stage w.client.session rc (w₃.update MQTTClient.closeSession) ∧
        AtStream pending good rest (w₃.update MQTTClient.closeSession)) := by
    refine .of_trace_eq rfl fun hrc => ⟨?_, hat₃.pending_eq, hat₃.good⟩
    rw [Carries, hexchange, Exchange.settle, ← hsession]
    exact ⟨hrc, MQTTClient.session_closeSession _⟩
  simpa using hall.trans hclosed

/-- A stage of any kind. -/
theorem stage_performs {stage : Stage H} {packet : List UInt8} {w : World σ H}
    (h : Poised pending good limit fuel rest stage packet w) :
    (stage.exchange.perform P fuel).Returns w fun rc w' =>
      Performs pending good rest (stage.calls w.client.session) (packet :: stage.acks)
        (Carries stage w.client.session rc w') w w' := by
  cases hexchange : stage.exchange with
  | connect options data connackRc sessionPresent =>
      exact (connect_performs hstream hsupply haccept h hexchange).bind
        fun _ _ hresult => returns_pure hresult
  | subscribe topicFilter qos messageHandler grantedQoS packetid granted =>
      exact (subscribe_performs hstream hsupply haccept h hexchange).bind
        fun _ _ hresult => returns_pure hresult
  | unsubscribe topicFilter packetid =>
      exact unsubscribe_performs hstream hsupply haccept h hexchange
  | publish topicName message packetid =>
      exact publish_performs hstream hsupply haccept h hexchange
  | disconnect => exact disconnect_performs hstream hsupply haccept h hexchange

end Stages

/-! ## Whole dialogues -/

/-- A dialogue of the reference, with buffers of the given sizes: from the first session
through the stages to the last session, with the return codes of the calls, the calls of
handlers and the packets that are sent. -/
inductive Dialogue (bufSize readbufSize : Nat) :
    Session H → List (Stage H) → List Int → List (H × Delivery) → List (List UInt8) →
      Session H → Prop
  | nil (s : Session H) : Dialogue bufSize readbufSize s [] [] [] [] s
  | cons {s s' : Session H} {stage : Stage H} {stages : List (Stage H)} {packet : List UInt8}
      {rcs : List Int} {calls : List (H × Delivery)} {sent : List (List UInt8)}
      (enabled : stage.Enabled bufSize readbufSize s packet)
      (rest : Dialogue bufSize readbufSize (stage.exchange.settle s).2 stages rcs calls sent s') :
      Dialogue bufSize readbufSize s (stage :: stages) ((stage.exchange.settle s).1 :: rcs)
        (stage.calls s ++ calls) (packet :: stage.acks ++ sent) s'

/-- The calls of the stages one after the other, and what they returned. -/
def performAll (P : Platform σ) (fuel : Nat) : List (Stage H) → Action σ H (List Int)
  | [] => pure []
  | stage :: stages => do
      let rc ← stage.exchange.perform P fuel
      let rcs ← performAll P fuel stages
      pure (rc :: rcs)

section Runs

variable {P : Platform σ} {pending : σ → List UInt8} {good : σ → Prop} {limit fuel : Nat}
  (hstream : Streams P pending) (hsupply : Supplies P pending good limit)
  (haccept : AcceptsWrites P good) {rest : List UInt8}

include hstream hsupply haccept

/-- From one stage to a dialogue, by induction over its stages.  A timer that expires leaves
the rest of the dialogue undone. -/
theorem dialogue_performs {bufSize readbufSize : Nat} (hsend : 4 ≤ toInt bufSize)
    (hlimit : readbufSize ≤ limit) (hread : readbufSize < 2 ^ 64) {s s' : Session H}
    {stages : List (Stage H)} {rcs : List Int} {calls : List (H × Delivery)}
    {sent : List (List UInt8)} (h : Dialogue bufSize readbufSize s stages rcs calls sent s')
    (hfuel : ∀ stage ∈ stages, stage.frames.length + 2 ≤ fuel) {w : World σ H}
    (hsession : w.client.session = s) (hbuf : w.client.bufSize = bufSize)
    (hreadbuf : w.client.readbufSize = readbufSize)
    (hat : AtStream pending good (stages.flatMap Stage.bytes ++ rest) w) :
    ∃ done, done <+: stages ∧ (performAll P fuel done).Returns w fun results w' =>
      Shown w w' calls sent (done = stages ∧ results = rcs ∧ w'.client.session = s' ∧
        AtStream pending good rest w') := by
  induction h generalizing w with
  | nil s =>
      refine ⟨[], List.nil_prefix, returns_pure (.of_trace_eq rfl ⟨rfl, rfl, hsession, ?_⟩)⟩
      simpa using hat
  | @cons s s' stage stages packet rcs calls sent henabled hrest ih =>
      subst hsession hbuf hreadbuf
      rw [List.flatMap_cons, List.append_assoc] at hat
      obtain ⟨rc, w₁, hrun, hsizes, hshown⟩ := stage_performs hstream hsupply haccept
        ⟨henabled, hfuel stage List.mem_cons_self, hsend, hlimit, hread, hat⟩
      by_cases hdone : Carries stage w.client.session rc w₁ ∧
          AtStream pending good (stages.flatMap Stage.bytes ++ rest) w₁
      · obtain ⟨⟨rfl, hsession₁⟩, hat₁⟩ := hdone
        obtain ⟨done, hpre, hperform⟩ := ih
          (fun stage hmem => hfuel stage (List.mem_cons_of_mem _ hmem)) hsession₁ hsizes.bufSize
          hsizes.readbufSize hat₁
        refine ⟨stage :: done, List.cons_prefix_cons.mpr ⟨rfl, hpre⟩,
          returns_bind_of_eq_some hrun (hperform.bind ?_)⟩
        intro results w₂ hshown₂
        refine returns_pure (hshown.trans (hshown₂.mono ?_))
        rintro ⟨rfl, rfl, hsession₂, hat₂⟩ _
        exact ⟨rfl, rfl, hsession₂, hat₂⟩
      · refine ⟨[stage], List.cons_prefix_cons.mpr ⟨rfl, List.nil_prefix⟩,
          returns_bind_of_eq_some hrun (returns_pure (hshown.of_not hdone))⟩

end Runs

/-- The client carries out every dialogue.  Take a platform that streams the broker's bytes,
supplies them and accepts every write, a client in the first session of a dialogue, and
the broker's bytes for that dialogue.  The calls of the dialogue, made one after the other,
return, up to the point where a timer was found expired.  If none was, all of them were
made and returned what they return in the dialogue, the handlers called and the packets
written are those of the dialogue in its order, the client is in the last session, and what
follows in the stream has not been touched. -/
theorem dialogue_carriedOut (P : Platform σ) (pending : σ → List UInt8) (good : σ → Prop)
    (limit fuel : Nat) (hstream : Streams P pending) (hsupply : Supplies P pending good limit)
    (haccept : AcceptsWrites P good) (w : World σ H) (hsend : 4 ≤ toInt w.client.bufSize)
    (hlimit : w.client.readbufSize ≤ limit) (hread : w.client.readbufSize < 2 ^ 64)
    (s' : Session H) (stages : List (Stage H)) (rcs : List Int) (calls : List (H × Delivery))
    (sent : List (List UInt8))
    (hdialogue : Dialogue w.client.bufSize w.client.readbufSize w.client.session stages rcs calls
      sent s')
    (hfuel : ∀ stage ∈ stages, stage.frames.length + 2 ≤ fuel) (rest : List UInt8)
    (hpending : pending w.env = stages.flatMap Stage.bytes ++ rest) (hgood : good w.env) :
    ∃ done results w', done <+: stages ∧ (performAll P fuel done).run w = some (results, w') ∧
      (NoExpiry (since w w') →
        done = stages ∧ results = rcs ∧ deliveries (since w w') = calls ∧
          writes (since w w') = sent ∧ w'.client.session = s' ∧ pending w'.env = rest) := by
  obtain ⟨done, hpre, results, w', hrun, new, htrace, hshown⟩ := dialogue_performs hstream hsupply
    haccept hsend hlimit hread hdialogue hfuel rfl rfl rfl ⟨hpending, hgood⟩
  refine ⟨done, results, w', hpre, hrun, ?_⟩
  rw [since_of_append htrace]
  intro hquiet
  obtain ⟨hcalls, hsent, hdone, hresults, hsession, hat⟩ := hshown hquiet
  exact ⟨hdone, hresults, hcalls, hsent, hsession, hat.pending_eq⟩

/-- The topic `"a"`. -/
def topicA : CString := ⟨[97], zero_notMem_a⟩

/-- A PUBREC with identifier 3. -/
def pubrecThree : Frame := .ofBody 0x50 [0, 3] (by decide)

/-- A PUBLISH at QoS 2 during which the broker sends a PUBLISH of its own. -/
def exactlyOnceStage : Stage Unit where
  exchange := .publish topicA ⟨2, 0, 0, 0, .null, 0⟩ 3
  frames := [publishAtLeastOnce, pubrecThree]
  packets := [.publish 0 1 0 7 [97] [], .pubrec 3]
  parsed := .cons (by decide) (.cons (by decide) .nil)
  other := by
    rintro reply ⟨⟩
    decide
  quiet := by decide

/-- A short dialogue of the application with its broker. -/
def greeting : List (Stage Unit) :=
  [.plain (.connect (some connectOptions) ⟨0, 0⟩ 0 0),
    .plain (.subscribe topicA 1 (some ()) 0 2 1), exactlyOnceStage, .plain .disconnect]

/-- The CONNECT of the application. -/
def connectPacket : List UInt8 :=
  [0x10, 26, 0, 6, 77, 81, 73, 115, 100, 112, 3, 2, 0, 60, 0, 12, 76, 105, 110, 117, 120, 32, 99,
    108, 105, 101, 110, 116]

/-- The first SUBSCRIBE after it, for the topic `"a"` at QoS 1. -/
def subscribePacket : List UInt8 := [0x82, 6, 0, 2, 0, 1, 97, 1]

theorem greeting_isDialogue :
    ∃ s', Dialogue mqttBufsize mqttBufsize (brokerClient : MQTTClient Unit).session greeting
      [0, 0, 0, 0] [((), ⟨[97], [], 1, 0, 0⟩)]
      (connectPacket :: subscribePacket :: [0x34, 5, 0, 1, 97, 0, 3] ::
        [[0x40, 2, 0, 7], [0x62, 2, 0, 3], [0xE0, 0]]) s' ∧ s'.isconnected = false := by
  refine ⟨_, .cons ⟨rfl, by decide +kernel, by decide, by decide, ?_⟩
    (.cons ⟨rfl, by decide +kernel, by decide, by decide, ?_⟩
    (.cons ⟨rfl, by decide +kernel, by decide, by decide, ?_⟩
    (.cons ⟨rfl, by decide +kernel, by decide, by decide, ?_⟩ (.nil _)))), rfl⟩
  all_goals
    rintro _ ⟨⟩
    try decide

/-- The client connects, subscribes, publishes at QoS 2 while a message for its new
subscription comes in, and disconnects. -/
theorem dialogue_carriedOut_greeting :
    ∃ results w', (performAll (linuxPlatform Recording.host 1030) 4 greeting).run
        (recordedWorld (greeting.flatMap Stage.bytes)) = some (results, w') ∧
      results = [0, 0, 0, 0] ∧ deliveries w'.trace = [((), ⟨[97], [], 1, 0, 0⟩)] ∧
      writes w'.trace = connectPacket :: subscribePacket :: [0x34, 5, 0, 1, 97, 0, 3] ::
        [[0x40, 2, 0, 7], [0x62, 2, 0, 3], [0xE0, 0]] ∧
      w'.client.isconnected = false ∧ w'.env.inbound = [] := by
  obtain ⟨s', hdialogue, hclosed⟩ := greeting_isDialogue
  obtain ⟨done, results, w', hpre, hrun, hshown⟩ := dialogue_carriedOut _ Recording.inbound _
    mqttBufsize 4 (Recording.delivers.streams 1030) (Recording.delivers.supplies 1030 mqttBufsize)
    (Recording.acceptsWrites (by decide) _) (recordedWorld (greeting.flatMap Stage.bytes))
    (by decide) (Nat.le_refl _) (by decide) s' greeting _ _ _ hdialogue (by decide) []
    (List.append_nil _).symm (by decide)
  -- no timer expires in any initial part of the dialogue
  have hquiet : ∀ k ∈ List.range 5,
      ((performAll (linuxPlatform Recording.host 1030) 4 (greeting.take k)).run
        (recordedWorld (greeting.flatMap Stage.bytes))).map
          (fun r => decide (NoExpiry r.2.trace)) = some true := by decide
  have hdone := hquiet done.length (List.mem_range.mpr (Nat.lt_succ_of_le hpre.length_le))
  rw [← List.prefix_iff_eq_take.mp hpre, hrun] at hdone
  obtain ⟨rfl, hresults, hcalls, hsent, rfl, hrest⟩ :=
    hshown (of_decide_eq_true (Option.some.inj hdone))
  exact ⟨results, w', hrun, hresults, hcalls, hsent, hclosed, hrest⟩

end MqttClient

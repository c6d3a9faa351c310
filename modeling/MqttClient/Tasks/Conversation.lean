/-
# The conversation on one connection

Over one TLS connection the application keeps to the order that the protocol asks for: it
says CONNECT once and first, SUBSCRIBE at most once and before any PUBLISH, and publishes
on its topic only; replies to the broker and pings come in between, but not before the
CONNECT.  This holds whichever way the publishing and the receiving task take turns, as
long as `mqtt_sub_task` starts its turns in an open session, and whatever the network does.
-/

import MqttClient.Client.Outbound
import MqttClient.Tasks.Application

namespace MqttClient

open Semantics Program

/-! ## The order of the packets -/

/-- How far the application has come on a connection. -/
inductive Phase
  | silent
  | greeted
  | subscribed
  deriving DecidableEq, Repr

/-- The packet is one of this request, written from some session and into some buffer. -/
def Request.IsWrittenAs (request : Request) (packet : List UInt8) : Prop :=
  IsPacketOf request.type packet ∧ ∃ (s : Session AppHandler) (buflen : Int),
    packet = (request.serializer s buflen).written

/-- The publication of a value. -/
def valueRequest (config : MqttConfig) (value : Nat) (message : MQTTMessage) : Request :=
  .publish config.topic (composeMessage message (publishText config value))

/-- The packets of a connection so far. -/
inductive Conversation (config : MqttConfig) : Phase → List (List UInt8) → Prop
  | silent : Conversation config .silent []
  | connect {packet : List UInt8} (hpacket : (Request.connect connectOptions).IsWrittenAs packet) :
      Conversation config .greeted [packet]
  | turn {phase : Phase} {packets : List (List UInt8)} {packet : List UInt8}
      (hspoken : phase ≠ .silent) (h : Conversation config phase packets)
      (hpacket : IsTurnPacket packet) : Conversation config phase (packets ++ [packet])
  | subscribe {packets : List (List UInt8)} {packet : List UInt8}
      (h : Conversation config .greeted packets)
      (hpacket : (Request.subscribe config.topic 0).IsWrittenAs packet) :
      Conversation config .subscribed (packets ++ [packet])
  | publish {packets : List (List UInt8)} {packet : List UInt8} {value : Nat}
      {message : MQTTMessage} (h : Conversation config .subscribed packets)
      (hpacket : (valueRequest config value message).IsWrittenAs packet) :
      Conversation config .subscribed (packets ++ [packet])

variable {σ : Type} {P : Platform σ} {fuel : Nat} {config : MqttConfig}

theorem Conversation.turns {phase : Phase} (hspoken : phase ≠ .silent) :
    ∀ {packets turns : List (List UInt8)}, Conversation config phase packets →
      (∀ packet ∈ turns, IsTurnPacket packet) → Conversation config phase (packets ++ turns) := by
  intro packets turns
  induction turns generalizing packets with
  | nil =>
      intro h _
      rwa [List.append_nil]
  | cons packet turns ih =>
      intro h hturns
      have hfirst := h.turn hspoken (hturns packet List.mem_cons_self)
      have hrest := ih hfirst fun packet hmem => hturns packet (List.mem_cons_of_mem _ hmem)
      rwa [List.append_assoc] at hrest

/-- A packet that takes the conversation on, and what turns send after it. -/
theorem Conversation.own {phase : Phase} (hspoken : phase ≠ .silent)
    {packets turns : List (List UInt8)} {packet : List UInt8}
    (h : Conversation config phase (packets ++ [packet]))
    (hturns : ∀ packet ∈ turns, IsTurnPacket packet) :
    Conversation config phase (packets ++ packet :: turns) := by
  have hall := h.turns hspoken hturns
  rwa [List.append_assoc] at hall

/-! ## The requests of the application -/

theorem connectOptions_isWellFormed : (Request.connect connectOptions).IsWellFormed := by
  refine ⟨.inl rfl, ?_⟩
  simp [MQTTPacketConnectData.strings, MQTTString.IsPlain, connectOptions, MQTTString.ofCString,
    linuxClientId, MQTTPacketConnectData.initializer, MQTTString.initializer]

/-- The length of a PUBLISH, for any text: that of a given one would be computed. -/
theorem mqttSerializePublishLength_le (qos : Int) (topicName : MQTTString) (payloadlen : Int) :
    mqttSerializePublishLength qos topicName payloadlen ≤
      mqttStrlen topicName + payloadlen + 4 := by
  simp only [mqttSerializePublishLength]
  split <;> omega

theorem valueRequest_isWellFormed (htopic : config.topic.bytes.length ≤ 65535) (value : Nat)
    (message : MQTTMessage) : (valueRequest config value message).IsWellFormed := by
  have htext : (publishText config value).bytes.length ≤ 255 := List.length_take_le _ _
  have hlength : toInt (publishText config value).bytes.length =
      (publishText config value).bytes.length := toInt_of_lt (by omega)
  refine ⟨htopic, ?_, ?_⟩
  · rw [composeMessage, hlength]
    omega
  · have hstrlen := Request.mqttStrlen_ofCString htopic
    refine Int.le_trans (mqttSerializePublishLength_le _ _ _) ?_
    rw [composeMessage, hlength]
    omega

section Calls

variable {w w' : World σ AppHandler}

theorem SendsPackets.ext {packets packets' : List (List UInt8)} (h : SendsPackets packets w w')
    (h' : SendsPackets packets' w w') : packets = packets' :=
  h.sentPackets_since.symm.trans h'.sentPackets_since

/-- The packets of a request: none, or the request and then what turns send. -/
inductive Asked (request : Request) : List (List UInt8) → Prop
  | silent : Asked request []
  | own {packet : List UInt8} {turns : List (List UInt8)} (hpacket : request.IsWrittenAs packet)
      (hturns : ∀ packet ∈ turns, IsTurnPacket packet) : Asked request (packet :: turns)

theorem CallStep.asked {call : Call AppHandler} {request : Request}
    (h : CallStep P fuel w call w') (hwell : request.IsWellFormed)
    (hasks : ∀ request', call.Asks request' ↔ request' = request)
    (hown : call.ownType ≠ none) (hne : call ≠ .disconnect) :
    ∃ packets, SendsPackets packets w w' ∧ Asked request packets := by
  obtain ⟨packets, hsends, hsays⟩ := h.says fun request' h' => (hasks request').mp h' ▸ hwell
  rcases hsays.request hown hne with rfl | ⟨request', turns, hasks', rfl, hpacket, hturns⟩
  · exact ⟨[], hsends, .silent⟩
  · obtain rfl := (hasks request').mp hasks'
    exact ⟨_, hsends, .own ⟨hpacket, _, _, rfl⟩ hturns⟩

/-- Without a CONNECT on the wire there is no session. -/
theorem mqttConnect_asked {data : ConnackOut} {rc : Int} (hclosed : w.client.isconnected = false)
    (h : (mqttConnect P fuel (some connectOptions) data).run w = some (rc, w')) :
    ∃ packets, SendsPackets packets w w' ∧ Asked (.connect connectOptions) packets ∧
      (w'.client.isconnected = true → packets ≠ []) := by
  have hcall : CallStep P fuel w (.connect (some connectOptions) data) w' := ⟨rc, h⟩
  obtain ⟨packets, hsends, hasked⟩ := hcall.asked connectOptions_isWellFormed
    (fun _ => Iff.rfl) nofun nofun
  refine ⟨packets, hsends, hasked, ?_⟩
  rintro hopen rfl
  obtain ⟨⟨rc', data'⟩, w₁, hconnect, h⟩ := run_bind_eq_some.mp h
  obtain ⟨_, rfl⟩ := run_pure_eq_some.mp h
  rcases mqttConnectWithResults_cases hconnect with
    ⟨hconn, _⟩ | ⟨_, _, hstill, _⟩ | ⟨_, timer, w₂, w₃, hsend, hwait, _, _, hworld⟩
  · rw [hclosed] at hconn
    cases hconn
  · rw [hopen] at hstill
    cases hstill
  · have htrace : w₁.trace = w₃.trace := by
      rw [hworld]
      split <;> rfl
    obtain ⟨turns, hsends', _⟩ :=
      Request.awaited_sends connectOptions_isWellFormed hsend hwait htrace
    cases hsends.ext hsends'

/-- A subscription that succeeds has been asked for. -/
theorem mqttSubscribe_asked {grantedQoS rc : Int} (htopic : config.topic.bytes.length ≤ 65535)
    (h : (mqttSubscribe P fuel config.topic 0 (some .mqttMessageArrived) grantedQoS).run w =
      some (rc, w')) :
    ∃ packets, SendsPackets packets w w' ∧ Asked (.subscribe config.topic 0) packets ∧
      (rc = mqttSuccess → packets ≠ []) := by
  have hcall : CallStep P fuel w
    (.subscribe config.topic 0 (some .mqttMessageArrived) grantedQoS) w' := ⟨rc, h⟩
  have hwell : (Request.subscribe config.topic 0).IsWellFormed := htopic
  obtain ⟨packets, hsends, hasked⟩ := hcall.asked hwell (fun _ => Iff.rfl) nofun nofun
  refine ⟨packets, hsends, hasked, ?_⟩
  rintro rfl rfl
  obtain ⟨⟨rc', granted⟩, w₁, hsubscribe, h⟩ := run_bind_eq_some.mp h
  obtain ⟨hrc, rfl⟩ := run_pure_eq_some.mp h
  have hends := mqttSubscribeWithResults_ends hsubscribe
  rw [hrc] at hends
  cases hends with
  | refused _ hfailed => cases hfailed
  | unsent _ _ hfailed => cases hfailed
  | unanswered _ _ _ _ hfailed => cases hfailed
  | answered _ hsend hwait haccepted =>
      obtain ⟨turns, hsends', _⟩ :=
        Request.awaited_sends hwell hsend hwait haccepted.trace_eq
      cases hsends.ext hsends'

end Calls

/-! ## Runs -/

/-- How far the conversation is at a point of `mqtt_pub_task`. -/
def PubPoint.Allows (at' : PubPoint) (phase : Phase) : Prop :=
  match at' with
  | initializing _ | connecting _ => phase = .silent
  | subscribing _ => phase = .greeted
  | waiting | sleeping => phase = .subscribed
  | attempting _ | closing _ | disconnecting _ | returned => True

/-- What has been sent since the connection was made. -/
structure Converses (config : MqttConfig) (start : World σ AppHandler) (s : Application σ)
    (phase : Phase) (packets : List (List UInt8)) : Prop where
  sends : SendsPackets packets start s.world
  conversation : Conversation config phase packets
  allows : s.pub.Allows phase
  spoken : s.world.client.isconnected = true → phase ≠ .silent

variable {start : World σ AppHandler} {s t : Application σ} {phase : Phase}
  {packets : List (List UInt8)}

/-- A step that sends nothing and opens no session. -/
theorem Converses.quiet (h : Converses config start s phase packets)
    (htrace : t.world.trace = s.world.trace) (hallows : t.pub.Allows phase)
    (hopen : t.world.client.isconnected = true → s.world.client.isconnected = true) :
    Converses config start t phase packets where
  sends := by simpa using h.sends.trans (.of_trace_eq htrace)
  conversation := h.conversation
  allows := hallows
  spoken hconn := h.spoken (hopen hconn)

theorem AppStep.converses (htopic : config.topic.bytes.length ≤ 65535) {move : AppMove σ}
    (hstep : AppStep P fuel config s move t) (hmove : move.replacesNetwork = false)
    (hyield : move = .yield → s.world.client.isconnected = true) (hexpects : s.pub.Expects s.world)
    (h : Converses config start s phase packets) :
    ∃ phase' packets', Converses config start t phase' packets' := by
  cases hstep with
  | connected => cases hmove
  | notConnected => cases hmove
  | disconnectNetwork => cases hmove
  | clientInit hat =>
      have hallows := h.allows
      rw [hat] at hallows
      exact ⟨phase, packets, h.quiet rfl hallows nofun⟩
  | connect hat hrun =>
      have hallows := h.allows
      rw [hat] at hallows hexpects
      obtain rfl : phase = .silent := hallows
      obtain ⟨rest, hsends, hasked, hopen⟩ := mqttConnect_asked hexpects.isconnected hrun
      obtain ⟨_, hsuccess⟩ := mqttConnect_spec hexpects.isconnected hrun
      have hsilent : packets = [] := by
        cases h.conversation with
        | silent => rfl
        | turn hspoken => exact absurd rfl hspoken
      subst hsilent
      cases hasked with
      | silent =>
          refine ⟨.silent, [], by simpa using h.sends.trans hsends, .silent, ?_, ?_⟩
          · dsimp only
            rw [if_neg fun hrc => hopen (hsuccess hrc) rfl]
            trivial
          · exact fun hconn => absurd rfl (hopen hconn)
      | @own packet turns hpacket hturns =>
          refine ⟨.greeted, packet :: turns, h.sends.trans hsends,
            (Conversation.connect hpacket).turns (by decide) hturns, ?_, nofun⟩
          dsimp only
          split
          · rfl
          · trivial
  | subscribe hat hrun =>
      have hallows := h.allows
      rw [hat] at hallows
      obtain rfl : phase = .greeted := hallows
      obtain ⟨rest, hsends, hasked, hsuccess⟩ := mqttSubscribe_asked htopic hrun
      cases hasked with
      | silent =>
          refine ⟨.greeted, packets, by simpa using h.sends.trans hsends, h.conversation, ?_, nofun⟩
          dsimp only
          rw [if_neg fun hrc => hsuccess hrc rfl]
          trivial
      | own hpacket hturns =>
          refine ⟨.subscribed, _, h.sends.trans hsends,
            (h.conversation.subscribe hpacket).own (by decide) hturns, ?_, nofun⟩
          dsimp only
          split
          · rfl
          · trivial
  | closeSession hat =>
      refine ⟨phase, packets, h.quiet rfl trivial fun hconn => ?_⟩
      exact (Idles.of_closeSession s.world).isconnected hconn
  | @publish value message rc world hat hrun =>
      have hallows := h.allows
      rw [hat] at hallows
      obtain rfl : phase = .subscribed := hallows
      have hcall : CallStep P fuel s.world (.publish config.topic
        (composeMessage message (publishText config value))) world := ⟨rc, hrun⟩
      obtain ⟨rest, hsends, hasked⟩ := hcall.asked (valueRequest_isWellFormed htopic value message)
        (fun _ => Iff.rfl) nofun nofun
      have hpub : (if rc = mqttSuccess then PubPoint.sleeping else .closing 0).Allows
          .subscribed := by
        split
        · rfl
        · trivial
      cases hasked with
      | silent =>
          exact ⟨.subscribed, packets, by simpa using h.sends.trans hsends, h.conversation, hpub,
            nofun⟩
      | own hpacket hturns =>
          exact ⟨.subscribed, _, h.sends.trans hsends,
            (h.conversation.publish hpacket).own (by decide) hturns, hpub, nofun⟩
  | finishRound hat =>
      have hallows := h.allows
      rw [hat] at hallows
      refine ⟨phase, packets, h.quiet rfl ?_ id⟩
      dsimp only
      split
      · exact hallows
      · trivial
  | check => exact ⟨phase, packets, h.quiet rfl h.allows id⟩
  | yield _ hrun =>
      obtain ⟨turns, hsends, hturns⟩ := mqttYield_sendsOnly hrun
      have hspoken := h.spoken (hyield rfl)
      exact ⟨phase, _, h.sends.trans hsends, h.conversation.turns hspoken hturns, h.allows,
        fun _ => hspoken⟩

/-- The packets that the application has sent over a connection, at any moment of any run,
are a conversation in the order of the protocol. -/
theorem application_converses (P : Platform σ) (fuel : Nat) (config : MqttConfig) (env : σ)
    (htopic : config.topic.bytes.length ≤ 65535)
    {run : List (Transition (Application σ) (AppMove σ))} {s : Application σ}
    (hrun : Run (AppStep P fuel config) (.start env) run s)
    (hyield : ∀ tr ∈ run, tr.label = .yield → tr.source.world.client.isconnected = true) :
    ∀ before entry later, run = before ++ entry :: later →
      ∀ answers env', entry.label = .connectNetwork answers env' →
      (∀ step ∈ later, step.label.replacesNetwork = false) →
        ∃ phase, Conversation config phase
          (sentPackets (since entry.target.world s.world)) := by
  rintro before entry later rfl answers env' hentry hlater
  obtain ⟨hbefore, hconnect, hrest⟩ := hrun.split
  have hstart : (Application.start env).pub.Expects (Application.start env).world :=
    ⟨rfl, fun _ => rfl⟩
  have hexpects := hbefore.history (fun _ s => s.pub.Expects s.world) hstart
    fun _ _ _ _ hstep h => hstep.expects h
  have hinitial : Converses config entry.target.world entry.target .silent [] := by
    obtain ⟨source, label, target⟩ := entry
    dsimp only at hentry hconnect hexpects ⊢
    subst hentry
    cases hconnect with
    | connected hat =>
        rw [hat] at hexpects
        refine ⟨.of_trace_eq rfl, .silent, rfl, fun hopen => ?_⟩
        exact absurd hopen (by simp [hexpects.isconnected])
    | notConnected hat =>
        rw [hat] at hexpects
        refine ⟨.of_trace_eq rfl, .silent, trivial, fun hopen => ?_⟩
        exact absurd hopen (by simp [hexpects.isconnected])
  have hgood : ∀ tr ∈ later, tr.label.replacesNetwork = false ∧
      (tr.label = .yield → tr.source.world.client.isconnected = true) :=
    fun tr htr => ⟨hlater tr htr, hyield tr (by simp [htr])⟩
  obtain ⟨_, phase, packets, hconverses⟩ := (hrest.invariant
    (fun s => s.pub.Expects s.world ∧
      ∃ phase packets, Converses config entry.target.world s phase packets)
    ⟨hconnect.expects hexpects, _, _, hinitial⟩ hgood
    fun tr hstep hgood ⟨h, phase, packets, hconverses⟩ =>
      ⟨hstep.expects h, hstep.converses htopic hgood.1 hgood.2 h hconverses⟩).1
  rw [hconverses.sends.sentPackets_since]
  exact ⟨phase, hconverses.conversation⟩

/-- The application connects, subscribes and publishes a value at QoS 0, and three packets go
out. -/
theorem application_converses_brief :
    ∃ steps s phase,
      Run (AppStep (linuxPlatform Recording.host 1030) 8 briefConfig) (.start briefBroker) steps s ∧
      steps.map Transition.label = [.connectNetwork .allGood briefBroker, .clientInit,
        .connect ⟨0, 0⟩, .subscribe 0, .publish 7 (foundMessage 0 0)] ∧
      (sentPackets s.world.trace).length = 3 ∧
      Conversation briefConfig phase (sentPackets s.world.trace) := by
  have hcalls :
      ((mqttConnect (linuxPlatform Recording.host 1030) 8 (some connectOptions) ⟨0, 0⟩).run
        briefWorld).bind (fun connected =>
      ((mqttSubscribe (linuxPlatform Recording.host 1030) 8 briefConfig.topic 0
        (some .mqttMessageArrived) 0).run connected.2).bind fun subscribed =>
      ((publishStep (linuxPlatform Recording.host 1030) 8 briefConfig 7 (foundMessage 0 0)).run
        subscribed.2).map fun published =>
          (connected.1, subscribed.1, (sentPackets published.2.trace).length)) =
      some (0, 0, 3) := by decide
  obtain ⟨⟨rc₁, w₁⟩, hconnect, hcalls⟩ := Option.bind_eq_some_iff.mp hcalls
  obtain ⟨⟨rc₂, w₂⟩, hsubscribe, hcalls⟩ := Option.bind_eq_some_iff.mp hcalls
  obtain ⟨⟨rc₃, w₃⟩, hpublish, hcalls⟩ := Option.map_eq_some_iff.mp hcalls
  simp only [Prod.mk.injEq] at hcalls
  obtain ⟨rfl, rfl, hlength⟩ := hcalls
  have hrun : Run (AppStep (linuxPlatform Recording.host 1030) 8 briefConfig)
      (.start briefBroker) _ _ :=
    .cons (@AppStep.connected _ _ _ _ _ 0 .allGood briefBroker rfl (by decide))
    (.cons (.clientInit rfl) (.cons (.connect rfl hconnect) (.cons (.subscribe rfl hsubscribe)
    (.single (.publish rfl hpublish)))))
  obtain ⟨phase, hconversation⟩ := application_converses _ 8 briefConfig _ (by decide) hrun
    (by
      intro tr htr hlabel
      simp only [List.mem_cons, List.not_mem_nil, or_false] at htr
      obtain rfl | rfl | rfl | rfl | rfl := htr
      all_goals cases hlabel)
    [] _ _ rfl _ _ rfl
    (by
      intro step hstep
      simp only [List.mem_cons, List.not_mem_nil, or_false] at hstep
      obtain rfl | rfl | rfl | rfl := hstep
      all_goals rfl)
  exact ⟨_, _, phase, hrun, rfl, hlength, hconversation⟩

end MqttClient

/-
# What the client says

A serializer writes a whole packet or nothing, and `sendPacket` offers what was
serialized.  Over a run this adds up: every packet that is begun on the wire is a
well-formed one, of a type that clients may send, whatever the network does to it.  A call
of the interface speaks for itself at most once, with its request, and before anything
else; what its turns send are replies to the broker and pings.
-/

import MqttClient.Semantics.Transition
import MqttClient.Client.Exchange
import MqttClient.Client.SentPackets

namespace MqttClient

open Semantics Program

variable {σ H : Type} {P : Platform σ} {fuel : Nat}

/-! ## Packets -/

/-- One packet of the type: its header, the length of its body, and its body. -/
def IsPacketOf (type : MsgType) (packet : List UInt8) : Prop :=
  ∃ header body, packet = header :: (mqttPacketEncode body.length ++ body) ∧
    (MQTTHeader.ofByte header).type = type.code

theorem Serialized.IsPacket.writes {s : Serialized} {buflen : Int} {type : MsgType}
    (h : s.IsPacket buflen type) : s.Writes (IsPacketOf type) := by
  intro hpos
  rcases h with rfl | ⟨_, _, hlength, hpacket⟩
  · exact absurd hpos (by decide)
  · exact ⟨hlength, hpacket⟩

/-- The send buffer is filled, and nothing goes out yet. -/
theorem serialize_sends {serializer : Int → Serialized} {len : Int} {w w₁ : World σ H}
    (h : (serialize serializer).run w = some (len, w₁)) :
    SendsPackets [] w w₁ ∧ len = (serializer (toInt w.client.bufSize)).rc := by
  rw [run_serialize serializer rfl] at h
  cases h
  exact ⟨.of_trace_eq rfl, rfl⟩

/-- What a turn may send: the reply to a packet of the broker, or a PINGREQ. -/
def IsTurnPacket (packet : List UInt8) : Prop :=
  ∃ type : MsgType, (type.isReply = true ∨ type = .pingreq) ∧ IsPacketOf type packet

theorem turnFrame_sendsOnly : TurnFrame P fuel (SendsOnly (σ := σ) (H := H) IsTurnPacket) where
  refl := .refl
  trans := .trans
  timer := sends_timerIsExpired
  turn := by
    refine sends_cycle (fun {type} hreply buflen id => ?_) (fun buflen => ?_)
    · exact (mqttSerializeAck_isPacket type 0 id).writes.mono fun packet hpacket =>
        ⟨type, .inl hreply, hpacket⟩
    · exact (mqttSerializeZero_isPacket .pingreq).writes.mono fun packet hpacket =>
        ⟨.pingreq, .inr rfl, hpacket⟩

/-! ## Requests -/

namespace Request

/-- The type of the packet. -/
def type : Request → MsgType
  | connect _ => .connect
  | subscribe _ _ => .subscribe
  | unsubscribe _ => .unsubscribe
  | publish _ _ => .publish

/-- The strings fit their length fields, a CONNECT names one of the two versions, and a
payload has a length that a packet can have. -/
def IsWellFormed : Request → Prop
  | connect options =>
      (options.mqttVersion = 3 ∨ options.mqttVersion = 4) ∧ ∀ s ∈ options.strings, s.IsPlain
  | subscribe topicFilter _ | unsubscribe topicFilter => topicFilter.bytes.length ≤ 65535
  | publish topicName message => topicName.bytes.length ≤ 65535 ∧ 0 ≤ toInt message.payloadlen ∧
      mqttSerializePublishLength message.qos (.ofCString topicName) (toInt message.payloadlen) ≤
        268435455

variable {request : Request}

theorem ofCString_isPlain {topic : CString} (h : topic.bytes.length ≤ 65535) :
    (MQTTString.ofCString topic).IsPlain :=
  ⟨rfl, h⟩

theorem mqttStrlen_ofCString {topic : CString} (h : topic.bytes.length ≤ 65535) :
    mqttStrlen (.ofCString topic) ≤ 65535 := by
  simp only [mqttStrlen, MQTTString.ofCString, CString.strlen]
  rw [toInt_of_lt (by omega)]
  omega

/-- A SUBSCRIBE for one filter, and an UNSUBSCRIBE.  The filter is any string here: the
length of a constructed one would be computed. -/
theorem subscribe_isPacket {filter : MQTTString} (hplain : filter.IsPlain)
    (hle : mqttStrlen filter ≤ 65535) (buflen : Int) (packetid : UInt16) (qos : Int) :
    (mqttSerializeSubscribe buflen 0 packetid [(filter, qos)]).IsPacket buflen .subscribe := by
  refine mqttSerializeSubscribe_isPacket (List.forall_mem_singleton.mpr hplain) ?_
  simp only [mqttSerializeSubscribeLength, List.map_cons, List.map_nil, List.foldl_cons,
    List.foldl_nil]
  omega

@[inherit_doc subscribe_isPacket]
theorem unsubscribe_isPacket {filter : MQTTString} (hplain : filter.IsPlain)
    (hle : mqttStrlen filter ≤ 65535) (buflen : Int) (packetid : UInt16) :
    (mqttSerializeUnsubscribe buflen 0 packetid [filter]).IsPacket buflen .unsubscribe := by
  refine mqttSerializeUnsubscribe_isPacket (List.forall_mem_singleton.mpr hplain) ?_
  simp only [mqttSerializeUnsubscribeLength, List.foldl_cons, List.foldl_nil]
  omega

theorem serializer_isPacket (h : request.IsWellFormed) (s : Session H) (buflen : Int) :
    (request.serializer s buflen).IsPacket buflen request.type := by
  cases request with
  | connect options =>
      obtain ⟨hversion, hplain⟩ := h
      exact mqttSerializeConnect_isPacket hplain hversion
  | subscribe topicFilter qos =>
      rw [serializer, type]
      exact subscribe_isPacket (ofCString_isPlain h) (mqttStrlen_ofCString h) buflen _ qos
  | unsubscribe topicFilter =>
      rw [serializer, type]
      exact unsubscribe_isPacket (ofCString_isPlain h) (mqttStrlen_ofCString h) buflen _
  | publish topicName message =>
      obtain ⟨htopic, hpayload, hle⟩ := h
      rw [serializer, type]
      exact mqttSerializePublish_isPacket (ofCString_isPlain htopic) hpayload hle

/-- Before its packet is serialized a request sends nothing. -/
theorem prepare_sends (request : Request) (w : World σ H) :
    ∃ w₁, (request.prepare P).run w = some (request.serializer w.client.session, w₁) ∧
      SendsPackets [] w w₁ ∧ w₁.client.bufSize = w.client.bufSize := by
  cases request with
  | connect options => exact ⟨_, rfl, .of_writes_nil rfl rfl, rfl⟩
  | subscribe topicFilter qos => exact ⟨_, rfl, .of_trace_eq rfl, rfl⟩
  | unsubscribe topicFilter => exact ⟨_, rfl, .of_trace_eq rfl, rfl⟩
  | publish topicName message =>
      by_cases hid : message.qos = 1 ∨ message.qos = 2
      · simp only [prepare, preparePublish, publishId, serializer, if_pos hid]
        exact ⟨_, rfl, .of_trace_eq rfl, rfl⟩
      · simp only [prepare, preparePublish, publishId, serializer, if_neg hid]
        exact ⟨_, rfl, .of_trace_eq rfl, rfl⟩

/-- The packet of a request, in this world. -/
def packet (request : Request) (w : World σ H) : List UInt8 :=
  (request.serializer w.client.session (toInt w.client.bufSize)).written

/-- A request sends its packet; or it sends nothing, and the call does not go on. -/
theorem sendRequest_sends (hwell : request.IsWellFormed) {sent : Option Timer} {w w' : World σ H}
    (h : (sendRequest P fuel (request.prepare P)).run w = some (sent, w')) :
    sent = none ∧ SendsPackets [] w w' ∨
      SendsPackets [request.packet w] w w' ∧ IsPacketOf request.type (request.packet w) := by
  obtain ⟨w₁, hprepare, hquiet, hsize⟩ := request.prepare_sends (P := P) (w.ticked P)
  rw [sendRequest, run_bind_of_eq_some (run_client w),
    run_bind_of_eq_some (run_timerCountdownMS _ w), run_bind_of_eq_some hprepare] at h
  have hstart : SendsPackets [] w w₁ := (SendsPackets.of_writes_nil rfl rfl).trans hquiet
  obtain ⟨len, w₂, hserialize, h⟩ := run_bind_eq_some.mp h
  have hfilled : SendsPackets [] w₁ w₂ ∧
      len = (request.serializer w.client.session (toInt w.client.bufSize)).rc := by
    have hsends := serialize_sends hserialize
    rwa [hsize] at hsends
  split at h
  · obtain ⟨rfl, rfl⟩ := run_pure_eq_some.mp h
    exact .inl ⟨rfl, hstart.trans hfilled.1⟩
  · rename_i hpos
    obtain ⟨rc, w₃, hsend, h⟩ := run_bind_eq_some.mp h
    obtain ⟨hlength, hpacket⟩ :=
      (serializer_isPacket hwell w.client.session (toInt w.client.bufSize)).writes
        (by rw [← hfilled.2]; omega)
    have hsends := sends_serialized hserialize (by omega) hsend
    rw [hsize] at hsends
    rcases hsends hlength with ⟨rfl, hnone⟩ | hone
    · obtain ⟨rfl, rfl⟩ := run_pure_eq_some.mp h
      exact .inl ⟨rfl, hstart.trans hnone⟩
    · obtain rfl : w₃ = w' := by
        split at h
        · exact (run_pure_eq_some.mp h).2
        · exact (run_pure_eq_some.mp h).2
      exact .inr ⟨hstart.trans hone, hpacket⟩

/-- A request that was sent, with the turns up to its answer. -/
theorem awaited_sends (hwell : request.IsWellFormed) {timer : Timer} {packetType : MsgType}
    {answer : Int} {w w₁ w₂ w' : World σ H}
    (hsend : (sendRequest P fuel (request.prepare P)).run w = some (some timer, w₁))
    (hwait : (waitfor P fuel packetType timer).run w₁ = some (answer, w₂))
    (htrace : w'.trace = w₂.trace) :
    ∃ turns, SendsPackets (request.packet w :: turns) w w' ∧
      IsPacketOf request.type (request.packet w) ∧ ∀ packet ∈ turns, IsTurnPacket packet := by
  have hT : TurnFrame P fuel (SendsOnly (σ := σ) (H := H) IsTurnPacket) := turnFrame_sendsOnly
  rcases sendRequest_sends hwell hsend with ⟨hfailed, _⟩ | ⟨hone, hpacket⟩
  · cases hfailed
  · obtain ⟨turns, hsends, hturns⟩ := hT.waitfor _ _ _ _ _ hwait
    exact ⟨turns, by simpa using (hone.trans hsends).trans (.of_trace_eq htrace), hpacket, hturns⟩

end Request

/-! ## Calls -/

namespace Call

/-- The type of the packet that a call sends on its own account. -/
def ownType : Call H → Option MsgType
  | connectWithResults _ _ | connect _ _ => some .connect
  | publish _ _ => some .publish
  | subscribe _ _ _ _ | subscribeWithResults _ _ _ _ => some .subscribe
  | unsubscribe _ => some .unsubscribe
  | disconnect => some .disconnect
  | clientInit _ | setMessageHandler _ _ | yield _ | isConnected | closeSession => none

/-- The request of the call, if it has one, is well formed. -/
def IsWellFormed (call : Call H) : Prop := ∀ request, call.Asks request → request.IsWellFormed

/-- The packet that a call sends on its own account, in this world. -/
def ownPacket (call : Call H) (w : World σ H) : Option (List UInt8) :=
  match call with
  | .disconnect => some (mqttSerializeDisconnect (toInt w.client.bufSize)).written
  | call => (call.request w).map (·.packet w)

theorem asks_of_request {call : Call H} {w : World σ H} {request : Request}
    (h : call.request w = some request) :
    call.Asks request ∧ call.ownType = some request.type ∧
      call.ownPacket w = some (request.packet w) := by
  have hpacket : call ≠ .disconnect → call.ownPacket w = some (request.packet w) := by
    intro hne
    cases call <;> first | exact absurd rfl hne | exact congrArg (Option.map (·.packet w)) h
  cases call
  case connectWithResults | connect =>
    simp only [Call.request] at h
    split at h
    · cases h
    · cases h
      exact ⟨rfl, rfl, hpacket (by simp)⟩
  case publish | subscribe | subscribeWithResults | unsubscribe =>
    simp only [Call.request] at h
    split at h
    · cases h
      exact ⟨rfl, rfl, hpacket (by simp)⟩
    · cases h
  all_goals cases h

end Call

/-- The packets of a call: nothing; or, if it has no packet of its own, what turns send; or
its own packet, and then what turns send. -/
inductive Says (call : Call H) (w : World σ H) : List (List UInt8) → Prop
  | silent : Says call w []
  | turns {packets : List (List UInt8)} (hown : call.ownType = none)
      (hturns : ∀ packet ∈ packets, IsTurnPacket packet) : Says call w packets
  | own {type : MsgType} {packet : List UInt8} {packets : List (List UInt8)}
      (htype : call.ownType = some type) (hown : call.ownPacket w = some packet)
      (hpacket : IsPacketOf type packet) (hturns : ∀ packet ∈ packets, IsTurnPacket packet) :
      Says call w (packet :: packets)

theorem mqttDisconnect_says {rc : Int} {w w' : World σ H}
    (h : (mqttDisconnect P fuel).run w = some (rc, w')) :
    ∃ packets, SendsPackets packets w w' ∧ Says Call.disconnect w packets := by
  rw [mqttDisconnect, run_bind_of_eq_some (run_client w),
    run_bind_of_eq_some (run_timerCountdownMS _ w)] at h
  obtain ⟨len, w₁, hserialize, h⟩ := run_bind_eq_some.mp h
  have hstart : SendsPackets [] w (w.ticked P) := .of_writes_nil rfl rfl
  have hwrites : (mqttSerializeDisconnect (toInt (w.ticked P).client.bufSize)).Writes
      (IsPacketOf .disconnect) := (mqttSerializeZero_isPacket .disconnect).writes
  have hfilled := serialize_sends hserialize
  split at h
  · rename_i hpos
    obtain ⟨sent, w₂, hsend, h⟩ := run_bind_eq_some.mp h
    cases h
    have hclosed : SendsPackets [] w₂ (w₂.update MQTTClient.closeSession) := .of_trace_eq rfl
    obtain ⟨hlength, hpacket⟩ := hwrites (hfilled.2 ▸ hpos)
    rcases sends_serialized hserialize hpos hsend hlength with ⟨_, hnone⟩ | hone
    · exact ⟨[], (hstart.trans hnone).trans hclosed, .silent⟩
    · exact ⟨_, (hstart.trans hone).trans hclosed, .own rfl rfl hpacket (by simp)⟩
  · cases h
    exact ⟨[], (hstart.trans hfilled.1).trans (.of_trace_eq rfl), .silent⟩

theorem mqttYield_sendsOnly {timeoutMs rc : Int} {w w' : World σ H}
    (h : (mqttYield P fuel timeoutMs).run w = some (rc, w')) : SendsOnly IsTurnPacket w w' := by
  have hT : TurnFrame P fuel (SendsOnly (σ := σ) (H := H) IsTurnPacket) := turnFrame_sendsOnly
  exact sends_bind (sends_timerCountdownMS _) (fun timer => hT.mqttYieldLoop timer fuel) w rc w' h

/-- What a call sends. -/
theorem CallStep.says {call : Call H} {w w' : World σ H} (h : CallStep P fuel w call w')
    (hwell : call.IsWellFormed) :
    ∃ packets, SendsPackets packets w w' ∧ Says call w packets := by
  rcases h.cases endFrame_trace with
    ⟨args, rfl, rfl⟩ | ⟨rfl, rc, hrun⟩ | ⟨timeoutMs, rfl, rc, hrun⟩ | h
  · exact ⟨[], .of_trace_eq rfl, .silent⟩
  · exact mqttDisconnect_says hrun
  · obtain ⟨packets, hsends, hturns⟩ := mqttYield_sendsOnly hrun
    exact ⟨packets, hsends, .turns rfl hturns⟩
  · cases hrequest : call.request w with
    | none =>
        rw [hrequest] at h
        cases h with
        | refused htrace => exact ⟨[], .of_trace_eq htrace, .silent⟩
    | some request =>
        obtain ⟨hasks, htype, hown⟩ := Call.asks_of_request hrequest
        rw [hrequest] at h
        cases h with
        | sent hsend htrace =>
            rcases Request.sendRequest_sends (hwell request hasks) hsend with
              ⟨_, hnone⟩ | ⟨hone, hpacket⟩
            · exact ⟨_, hnone.trans (.of_trace_eq htrace), .silent⟩
            · exact ⟨_, hone.trans (.of_trace_eq htrace), .own htype hown hpacket (by simp)⟩
        | awaited hsend _ hwait htrace =>
            obtain ⟨turns, hsends, hpacket, hturns⟩ :=
              Request.awaited_sends (hwell request hasks) hsend hwait htrace
            exact ⟨_, hsends, .own htype hown hpacket hturns⟩

/-- The packets of a call that makes a request. -/
theorem Says.request {call : Call H} {w : World σ H} {packets : List (List UInt8)}
    (h : Says call w packets) (hown : call.ownType ≠ none) (hne : call ≠ .disconnect) :
    packets = [] ∨ ∃ request turns, call.Asks request ∧ packets = request.packet w :: turns ∧
      IsPacketOf request.type (request.packet w) ∧ ∀ packet ∈ turns, IsTurnPacket packet := by
  cases h with
  | silent => exact .inl rfl
  | turns hnone hturns => exact absurd hnone hown
  | @own type packet turns htype hpacket hof hturns =>
      have hmap : (call.request w).map (·.packet w) = some packet := by
        cases call <;> first | exact absurd rfl hne | exact hpacket
      obtain ⟨request, hrequest, rfl⟩ := Option.map_eq_some_iff.mp hmap
      obtain ⟨hasks, htype', _⟩ := Call.asks_of_request hrequest
      obtain rfl := Option.some.inj (htype.symm.trans htype')
      exact .inr ⟨request, turns, hasks, rfl, hof, hturns⟩

/-- In every run of well-formed calls, whatever the network does, the packets that the
client begins to send are whole and well formed, and they come in the order of the calls:
each call contributes its own packet at most once and first, and then only replies to the
broker and pings. -/
theorem sentPackets_of_run (P : Platform σ) (fuel : Nat) {w w' : World σ H}
    {run : List (Transition (World σ H) (Call H))} (hrun : Run (CallStep P fuel) w run w')
    (hwell : ∀ tr ∈ run, tr.label.IsWellFormed) :
    ∃ parts, sentPackets (since w w') = parts.flatten ∧
      List.Forall₂ (fun tr packets => Says tr.label tr.source packets) run parts := by
  suffices h : ∃ parts, SendsPackets parts.flatten w w' ∧
      List.Forall₂ (fun tr packets => Says tr.label tr.source packets) run parts by
    obtain ⟨parts, hsends, hparts⟩ := h
    exact ⟨parts, hsends.sentPackets_since, hparts⟩
  induction hrun with
  | nil w => exact ⟨[], .of_trace_eq rfl, .nil⟩
  | cons first rest ih =>
      obtain ⟨packets, hsends, hsays⟩ := first.says (hwell _ List.mem_cons_self)
      obtain ⟨parts, hrest, hparts⟩ := ih fun tr htr => hwell tr (List.mem_cons_of_mem _ htr)
      exact ⟨packets :: parts, hsends.trans hrest, .cons hsays hparts⟩

/-- After a subscription the broker sends a PUBLISH of QoS 1, and then one that is too long. -/
def subscribedTo : World Recording Unit :=
  connectedWorld [0x90, 3, 0, 2, 0, 0x32, 6, 0, 1, 97, 0, 7, 98, 0x30, 0xFF, 0x7F]

/-- The client sends the SUBSCRIBE and the PUBACK. -/
theorem sentPackets_of_run_subscribed :
    ∃ w₁ w₂ parts,
      CallStep (linuxPlatform Recording.host 1030) 8 subscribedTo
        (.subscribe ⟨[97], zero_notMem_a⟩ 0 (some ()) 0) w₁ ∧
      CallStep (linuxPlatform Recording.host 1030) 8 w₁ (.yield 500) w₂ ∧
      List.flatten parts = [[0x82, 6, 0, 2, 0, 1, 97, 0], [0x40, 2, 0, 7]] ∧
      List.Forall₂ (fun (tr : Transition (World Recording Unit) (Call Unit)) packets =>
          Says tr.label tr.source packets)
        [⟨subscribedTo, .subscribe ⟨[97], zero_notMem_a⟩ 0 (some ()) 0, w₁⟩, ⟨w₁, .yield 500, w₂⟩]
        parts := by
  have hcalls : (((mqttSubscribe (linuxPlatform Recording.host 1030) 8 ⟨[97], zero_notMem_a⟩ 0
      (some ()) 0).run subscribedTo).bind fun first =>
        ((mqttYield (linuxPlatform Recording.host 1030) 8 500).run first.2).map fun second =>
          sentPackets (since subscribedTo second.2)) =
      some [[0x82, 6, 0, 2, 0, 1, 97, 0], [0x40, 2, 0, 7]] := by decide
  obtain ⟨⟨rc, w₁⟩, hfirst, hcalls⟩ := Option.bind_eq_some_iff.mp hcalls
  obtain ⟨⟨rc', w₂⟩, hsecond, hcalls⟩ := Option.map_eq_some_iff.mp hcalls
  have hrun : Run (CallStep (linuxPlatform Recording.host 1030) 8) subscribedTo
      [⟨subscribedTo, .subscribe ⟨[97], zero_notMem_a⟩ 0 (some ()) 0, w₁⟩, ⟨w₁, .yield 500, w₂⟩]
      w₂ :=
    .cons ⟨rc, hfirst⟩ (.single ⟨rc', hsecond⟩)
  have hwell : ∀ tr ∈ [(⟨subscribedTo, .subscribe ⟨[97], zero_notMem_a⟩ 0 (some ()) 0, w₁⟩ :
      Transition (World Recording Unit) (Call Unit)), ⟨w₁, .yield 500, w₂⟩],
      tr.label.IsWellFormed := by
    intro tr hmem request hasks
    rcases List.mem_cons.mp hmem with rfl | hmem
    · obtain rfl : request = .subscribe ⟨[97], zero_notMem_a⟩ 0 := hasks
      exact (by decide : [(97 : UInt8)].length ≤ 65535)
    · obtain rfl := List.mem_singleton.mp hmem
      cases hasks
  obtain ⟨parts, hparts, hsays⟩ := sentPackets_of_run _ 8 hrun hwell
  exact ⟨w₁, w₂, parts, ⟨rc, hfirst⟩, ⟨rc', hsecond⟩, hparts.symm.trans hcalls, hsays⟩

end MqttClient

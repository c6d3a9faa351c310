/-
# The calls of the client's interface

A run of the client is a sequence of calls of its interface, each taken in the world
that the one before it left.  The calls that speak to the broker have one shape.  A
request is prepared and sent, unless the call is refused; if it went out, the call may
wait for a packet; and then it comes to its end, where at most a handler is set and the
session opened or closed.  That shape is worked out once, so that what a call does is
known from what its request, its wait and its end do.
-/

import MqttClient.Client.Frame

namespace MqttClient

open Semantics Program

variable {σ H : Type} {P : Platform σ} {fuel : Nat}

/-! ## Calls as steps -/

/-- The program can take the first world to the second. -/
def Leads {α : Type} (x : Action σ H α) (w w' : World σ H) : Prop :=
  ∃ a, x.run w = some (a, w')

/-- The packets that are sent at the start of a call. -/
inductive Request
  | connect (options : MQTTPacketConnectData)
  | subscribe (topicFilter : CString) (qos : Int)
  | unsubscribe (topicFilter : CString)
  | publish (topicName : CString) (message : MQTTMessage)

/-- The program that prepares the packet. -/
def Request.prepare (P : Platform σ) : Request → Action σ H (Int → Serialized)
  | connect options => prepareConnect P options
  | subscribe topicFilter qos => prepareSubscribe topicFilter qos
  | unsubscribe topicFilter => prepareUnsubscribe topicFilter
  | publish topicName message => preparePublish topicName message

/-- The arguments of `MQTTClientInit` that are stored in the client. -/
structure InitArgs where
  commandTimeoutMs : Nat
  sendbuf : Memory
  sendbufSize : Nat
  readbuf : Memory
  readbufSize : Nat

/-- `MQTTClientInit` with these arguments. -/
def InitArgs.init (args : InitArgs) (c : MQTTClient H) : MQTTClient H :=
  mqttClientInit c args.commandTimeoutMs args.sendbuf args.sendbufSize args.readbuf
    args.readbufSize

/-- The calls of the client's interface. -/
inductive Call (H : Type)
  | clientInit (args : InitArgs)
  | connectWithResults (options : Option MQTTPacketConnectData) (data : ConnackOut)
  | connect (options : Option MQTTPacketConnectData) (data : ConnackOut)
  | publish (topicName : CString) (message : MQTTMessage)
  | setMessageHandler (topicFilter : CString) (messageHandler : Option H)
  | subscribe (topicFilter : CString) (qos : Int) (messageHandler : Option H) (grantedQoS : Int)
  | subscribeWithResults (topicFilter : CString) (qos : Int) (messageHandler : Option H)
      (grantedQoS : Int)
  | unsubscribe (topicFilter : CString)
  | disconnect
  | yield (timeoutMs : Int)
  | isConnected
  | closeSession

/-- A call that returns, as a step. -/
def CallStep (P : Platform σ) (fuel : Nat) (w : World σ H) (call : Call H) (w' : World σ H) :
    Prop :=
  match call with
  | .clientInit args => Leads (modifyClient args.init) w w'
  | .connectWithResults options data => Leads (mqttConnectWithResults P fuel options data) w w'
  | .connect options data => Leads (mqttConnect P fuel options data) w w'
  | .publish topicName message => Leads (mqttPublish P fuel topicName message) w w'
  | .setMessageHandler topicFilter messageHandler =>
      Leads (mqttSetMessageHandler topicFilter messageHandler) w w'
  | .subscribe topicFilter qos messageHandler grantedQoS =>
      Leads (mqttSubscribe P fuel topicFilter qos messageHandler grantedQoS) w w'
  | .subscribeWithResults topicFilter qos messageHandler grantedQoS =>
      Leads (mqttSubscribeWithResults P fuel topicFilter qos messageHandler grantedQoS) w w'
  | .unsubscribe topicFilter => Leads (mqttUnsubscribe P fuel topicFilter) w w'
  | .disconnect => Leads (mqttDisconnect P fuel) w w'
  | .yield timeoutMs => Leads (mqttYield P fuel timeoutMs) w w'
  | .isConnected => Leads mqttIsConnected w w'
  | .closeSession => Leads mqttCloseSession w w'

/-! ## Requests, waits and ends -/

/-- The packet for which a call waits after its request. -/
def Request.answer : Request → Option MsgType
  | connect _ => some .connack
  | subscribe _ _ => some .suback
  | unsubscribe _ => some .unsuback
  | publish _ message =>
      if message.qos = 1 then some .puback else if message.qos = 2 then some .pubcomp else none

/-- The request of a call, unless the call is refused in this world. -/
def Call.request (call : Call H) (w : World σ H) : Option Request :=
  match call with
  | connectWithResults options _ | connect options _ =>
      if w.client.isconnected then none else some (.connect (options.getD .initializer))
  | publish topicName message =>
      if w.client.isconnected then some (.publish topicName message) else none
  | subscribe topicFilter qos _ _ | subscribeWithResults topicFilter qos _ _ =>
      if w.client.isconnected then some (.subscribe topicFilter qos) else none
  | unsubscribe topicFilter =>
      if w.client.isconnected then some (.unsubscribe topicFilter) else none
  | clientInit _ | setMessageHandler _ _ | disconnect | yield _ | isConnected | closeSession => none

/-- How a call gets from one world to the other: if there is a request it is sent, its
answer may be waited for, and the rest is of the relation. -/
inductive Requested (P : Platform σ) (fuel : Nat) (R : World σ H → World σ H → Prop) :
    Option Request → World σ H → World σ H → Prop
  | refused {w w' : World σ H} (hend : R w w') : Requested P fuel R none w w'
  | sent {request : Request} {sent : Option Timer} {w w₁ w' : World σ H}
      (hsend : (sendRequest P fuel (request.prepare P)).run w = some (sent, w₁))
      (hend : R w₁ w') : Requested P fuel R (some request) w w'
  | awaited {request : Request} {timer : Timer} {packetType : MsgType} {answer : Int}
      {w w₁ w₂ w' : World σ H}
      (hsend : (sendRequest P fuel (request.prepare P)).run w = some (some timer, w₁))
      (hanswer : request.answer = some packetType)
      (hwait : (waitfor P fuel packetType timer).run w₁ = some (answer, w₂))
      (hend : R w₂ w') : Requested P fuel R (some request) w w'

namespace EndFrame

variable {R : World σ H → World σ H → Prop} (hR : EndFrame R) {w w' : World σ H}

/-- The shape of a call with a request and a wait. -/
theorem requested {α : Type} {request : Request} {packetType : MsgType}
    {k : Option Timer → Action σ H α} {a : α} (hanswer : request.answer = some packetType)
    (hnone : Keeps R (k none))
    (hsome : ∀ {timer w₁}, (k (some timer)).run w₁ = some (a, w') →
      ∃ answer w₂, (waitfor P fuel packetType timer).run w₁ = some (answer, w₂) ∧ R w₂ w')
    (h : (sendRequest P fuel (request.prepare P) >>= k).run w = some (a, w')) :
    Requested P fuel R (some request) w w' := by
  obtain ⟨sent, w₁, hsend, h⟩ := run_bind_eq_some.mp h
  cases sent with
  | none => exact .sent hsend (hnone _ _ _ h)
  | some timer =>
      obtain ⟨answer, w₂, hwait, hend⟩ := hsome h
      exact .awaited hsend hanswer hwait hend

include hR

theorem connectWithResults {options : Option MQTTPacketConnectData} {data : ConnackOut}
    {result : Int × ConnackOut}
    (h : (mqttConnectWithResults P fuel options data).run w = some (result, w')) :
    Requested P fuel R
      (if w.client.isconnected then none else some (.connect (options.getD .initializer)))
      w w' := by
  have hfail : Keeps R (do
      let rc ← MqttClient.finishConnect failure
      Pure.pure (rc, data) : Action σ H _) :=
    hR.bind (hR.finishConnect _) fun _ => hR.pure _
  rw [mqttConnectWithResults, run_bind_of_eq_some (run_client w)] at h
  split at h
  · rename_i hopen
    rw [if_pos hopen]
    exact .refused (hfail _ _ _ h)
  · rename_i hclosed
    rw [if_neg hclosed]
    refine requested rfl hfail (fun h => ?_) h
    obtain ⟨answer, w₂, hwait, h⟩ := run_bind_eq_some.mp h
    refine ⟨answer, w₂, hwait, Keeps.ite ?_ hfail _ _ _ h⟩
    exact hR.bind hR.client fun _ => hR.bind (hR.finishConnect _) fun _ => hR.pure _

theorem subscribeWithResults {topicFilter : CString} {qos : Int} {messageHandler : Option H}
    {grantedQoS : Int} {result : Int × Int}
    (h : (mqttSubscribeWithResults P fuel topicFilter qos messageHandler grantedQoS).run w =
      some (result, w')) :
    Requested P fuel R (if w.client.isconnected then some (.subscribe topicFilter qos) else none)
      w w' := by
  have hfail : Keeps R (do
      let rc ← MqttClient.finishRequest failure
      Pure.pure (rc, grantedQoS) : Action σ H _) :=
    hR.bind (hR.finishRequest _) fun _ => hR.pure _
  rw [mqttSubscribeWithResults, run_bind_of_eq_some (run_client w)] at h
  split at h
  · rename_i hopen
    rw [if_pos hopen]
    refine requested rfl hfail (fun h => ?_) h
    obtain ⟨answer, w₂, hwait, h⟩ := run_bind_eq_some.mp h
    refine ⟨answer, w₂, hwait, Keeps.ite ?_ hfail _ _ _ h⟩
    exact hR.bind (hR.suback _ _) fun _ => hR.bind (hR.finishRequest _) fun _ => hR.pure _
  · rename_i hclosed
    rw [if_neg hclosed]
    exact .refused (hfail _ _ _ h)

theorem unsubscribe {topicFilter : CString} {rc : Int}
    (h : (mqttUnsubscribe P fuel topicFilter).run w = some (rc, w')) :
    Requested P fuel R (if w.client.isconnected then some (.unsubscribe topicFilter) else none)
      w w' := by
  rw [mqttUnsubscribe, run_bind_of_eq_some (run_client w)] at h
  split at h
  · rename_i hopen
    rw [if_pos hopen]
    refine requested rfl (hR.finishRequest failure) (fun h => ?_) h
    obtain ⟨answer, w₂, hwait, h⟩ := run_bind_eq_some.mp h
    refine ⟨answer, w₂, hwait, Keeps.ite ?_ (hR.finishRequest failure) _ _ _ h⟩
    exact hR.bind (hR.unsuback _) fun _ => hR.finishRequest _
  · rename_i hclosed
    rw [if_neg hclosed]
    exact .refused (hR.finishRequest _ _ _ _ h)

/-- The acknowledgement of a publish and the end of the call. -/
theorem awaitAck {packetType : MsgType} {timer : Timer} {rc : Int}
    (h : (MqttClient.awaitAck P fuel packetType timer >>= MqttClient.finishRequest).run w =
      some (rc, w')) :
    ∃ answer w₂, (waitfor P fuel packetType timer).run w = some (answer, w₂) ∧ R w₂ w' := by
  obtain ⟨_, w₁, hawait, h⟩ := run_bind_eq_some.mp h
  obtain ⟨answer, w₂, hwait, hdecode⟩ := run_bind_eq_some.mp hawait
  have hsame : Keeps R (do
      let c ← MqttClient.client
      if (mqttDeserializeAck c.readbuf ⟨0, 0, 0⟩).1 ≠ 1 then Pure.pure failure
      else Pure.pure mqttSuccess : Action σ H _) :=
    hR.bind hR.client fun _ => .ite (hR.pure _) (hR.pure _)
  have hdecoded := Keeps.ite hsame (hR.pure failure) _ _ _ hdecode
  exact ⟨answer, w₂, hwait, hR.trans hdecoded (hR.finishRequest _ _ _ _ h)⟩

theorem publish {topicName : CString} {message : MQTTMessage} {rc : Int}
    (h : (mqttPublish P fuel topicName message).run w = some (rc, w')) :
    Requested P fuel R (if w.client.isconnected then some (.publish topicName message) else none)
      w w' := by
  rw [mqttPublish, run_bind_of_eq_some (run_client w)] at h
  split at h
  · rename_i hopen
    rw [if_pos hopen]
    by_cases hone : message.qos = 1
    · simp only [if_pos hone] at h
      exact requested (if_pos hone) (hR.finishRequest failure) hR.awaitAck h
    · simp only [if_neg hone] at h
      by_cases htwo : message.qos = 2
      · simp only [if_pos htwo] at h
        have hanswer : (Request.publish topicName message).answer = some .pubcomp := by
          rw [Request.answer, if_neg hone, if_pos htwo]
        exact requested hanswer (hR.finishRequest failure) hR.awaitAck h
      · simp only [if_neg htwo] at h
        obtain ⟨sent, w₁, hsend, h⟩ := run_bind_eq_some.mp h
        refine .sent hsend ?_
        cases sent with
        | none => exact hR.finishRequest _ _ _ _ h
        | some timer => exact hR.finishRequest _ _ _ _ h
  · rename_i hclosed
    rw [if_neg hclosed]
    exact .refused (hR.finishRequest _ _ _ _ h)

end EndFrame

/-- Every call but three sends its request, if it has one, and comes to its end. -/
theorem CallStep.cases {R : World σ H → World σ H → Prop} (hR : EndFrame R) {call : Call H}
    {w w' : World σ H} (h : CallStep P fuel w call w') :
    (∃ args, call = .clientInit args ∧ w' = w.update args.init) ∨
      (call = .disconnect ∧ Leads (mqttDisconnect P fuel) w w') ∨
      (∃ timeoutMs, call = .yield timeoutMs ∧ Leads (mqttYield P fuel timeoutMs) w w') ∨
      Requested P fuel R (call.request w) w w' := by
  cases call with
  | clientInit args =>
      obtain ⟨_, h⟩ := h
      cases h
      exact .inl ⟨args, rfl, rfl⟩
  | disconnect => exact .inr (.inl ⟨rfl, h⟩)
  | yield timeoutMs => exact .inr (.inr (.inl ⟨timeoutMs, rfl, h⟩))
  | connectWithResults options data =>
      obtain ⟨_, h⟩ := h
      exact .inr (.inr (.inr (hR.connectWithResults h)))
  | connect options data =>
      obtain ⟨_, h⟩ := h
      obtain ⟨_, w₁, hconnect, h⟩ := run_bind_eq_some.mp h
      obtain ⟨_, rfl⟩ := run_pure_eq_some.mp h
      exact .inr (.inr (.inr (hR.connectWithResults hconnect)))
  | publish topicName message =>
      obtain ⟨_, h⟩ := h
      exact .inr (.inr (.inr (hR.publish h)))
  | setMessageHandler topicFilter messageHandler =>
      obtain ⟨_, h⟩ := h
      exact .inr (.inr (.inr (.refused (hR.setHandler _ _ _ _ _ h))))
  | subscribe topicFilter qos messageHandler grantedQoS =>
      obtain ⟨_, h⟩ := h
      obtain ⟨_, w₁, hsubscribe, h⟩ := run_bind_eq_some.mp h
      obtain ⟨_, rfl⟩ := run_pure_eq_some.mp h
      exact .inr (.inr (.inr (hR.subscribeWithResults hsubscribe)))
  | subscribeWithResults topicFilter qos messageHandler grantedQoS =>
      obtain ⟨_, h⟩ := h
      exact .inr (.inr (.inr (hR.subscribeWithResults h)))
  | unsubscribe topicFilter =>
      obtain ⟨_, h⟩ := h
      exact .inr (.inr (.inr (hR.unsubscribe h)))
  | isConnected =>
      obtain ⟨_, h⟩ := h
      exact .inr (.inr (.inr (.refused (keeps_gets hR.refl _ _ _ _ h))))
  | closeSession =>
      obtain ⟨_, h⟩ := h
      exact .inr (.inr (.inr (.refused (hR.closed _ _ _ h))))

/-- The end of a call leaves nothing in the trace. -/
theorem endFrame_trace : EndFrame fun w w' : World σ H => w'.trace = w.trace where
  refl _ := rfl
  trans h h' := h'.trans h
  setHandler _ _ w _ _ h := by
    cases h
    rfl
  suback topicFilter messageHandler :=
    keeps_acceptSuback (R := fun w w' => w'.trace = w.trace) (fun _ => rfl) fun w _ _ h => by
      cases h
      rfl
  unsuback topicFilter :=
    keeps_acceptUnsuback (R := fun w w' => w'.trace = w.trace) (fun _ => rfl) fun w _ _ h => by
      cases h
      rfl
  opened w _ _ h := by
    cases h
    rfl
  closed w _ _ h := by
    cases h
    rfl

/-! ## Whole calls -/

/-- The request that a call may send. -/
def Call.Asks (call : Call H) (request : Request) : Prop :=
  match call with
  | connectWithResults options _ | connect options _ =>
      request = .connect (options.getD .initializer)
  | publish topicName message => request = .publish topicName message
  | subscribe topicFilter qos _ _ | subscribeWithResults topicFilter qos _ _ =>
      request = .subscribe topicFilter qos
  | unsubscribe topicFilter => request = .unsubscribe topicFilter
  | clientInit _ | setMessageHandler _ _ | disconnect | yield _ | isConnected | closeSession =>
      False

/-- What a call may hand to `MQTTSetMessageHandler`. -/
def Call.Sets (call : Call H) (topicFilter : CString) (messageHandler : Option H) : Prop :=
  match call with
  | setMessageHandler filter handler | subscribe filter _ handler _
  | subscribeWithResults filter _ handler _ => topicFilter = filter ∧ messageHandler = handler
  | unsubscribe filter => topicFilter = filter ∧ messageHandler = none
  | clientInit _ | connectWithResults _ _ | connect _ _ | publish _ _ | disconnect | yield _
  | isConnected | closeSession => False

/-- The preparation of a request takes a packet identifier, or stores what CONNECT says of
the session and starts the receiving timer. -/
theorem SendFrame.prepare {R : World σ H → World σ H → Prop} (hR : SendFrame P R)
    (hid : ∀ w nextPacketid, R w (w.update fun c => { c with nextPacketid }))
    (hoptions : ∀ w keepAliveInterval cleansession,
      R w (w.update fun c => { c with keepAliveInterval, cleansession }))
    (hreceived : ∀ w lastReceived, R w (w.update fun c => { c with lastReceived }))
    (request : Request) : Keeps R (request.prepare P) := by
  have htake : Keeps R (getNextPacketId : Action σ H _) := by
    intro w id w' h
    cases h
    exact hid w _
  cases request with
  | connect options =>
      exact hR.bind (keeps_modify fun w => hoptions w _ _) fun _ => hR.bind hR.client fun _ =>
        hR.bind (hR.timerCountdown _) fun _ => hR.bind (keeps_modify fun w => hreceived w _)
          fun _ => hR.pure _
  | subscribe topicFilter qos => exact hR.bind htake fun _ => hR.pure _
  | unsubscribe topicFilter => exact hR.bind htake fun _ => hR.pure _
  | publish topicName message =>
      exact hR.bind (.ite (hR.bind htake fun _ => hR.pure _) (hR.pure _)) fun _ => hR.pure _

/-- A preorder that tolerates everything a call consists of, where only some requests are
sent and only some handlers set. -/
structure CallFrame (P : Platform σ) (fuel : Nat) (asks : Request → Prop)
    (sets : CString → Option H → Prop) (R : World σ H → World σ H → Prop) : Prop
    extends SendFrame P R where
  turn : ∀ timer, Keeps R (cycle P fuel timer : Action σ H _)
  prepare : ∀ request : Request, asks request → Keeps R (request.prepare P)
  setHandler : ∀ {topicFilter messageHandler}, sets topicFilter messageHandler →
    Keeps R (mqttSetMessageHandler topicFilter messageHandler : Action σ H _)
  opened : Keeps R (finishConnect mqttSuccess : Action σ H _)
  closed : Keeps R (mqttCloseSession : Action σ H _)

namespace CallFrame

variable {asks : Request → Prop} {sets : CString → Option H → Prop}
  {R : World σ H → World σ H → Prop} (hR : CallFrame P fuel asks sets R)

include hR

theorem turnFrame : TurnFrame P fuel R where
  refl := hR.refl
  trans := hR.trans
  timer := hR.timerIsExpired
  turn := hR.turn

theorem finishConnect (rc : Int) : Keeps R (MqttClient.finishConnect rc : Action σ H _) := by
  by_cases hrc : rc = mqttSuccess
  · subst hrc
    exact hR.opened
  · rw [MqttClient.finishConnect, if_neg hrc]
    exact hR.pure rc

theorem finishRequest (rc : Int) : Keeps R (MqttClient.finishRequest rc : Action σ H _) :=
  .ite (hR.bind hR.closed fun _ => hR.pure _) (hR.pure _)

/-- A request, and what follows it. -/
theorem requested {α : Type} {request : Request} (hask : asks request)
    {k : Option Timer → Action σ H α} (hk : ∀ sent, Keeps R (k sent)) :
    Keeps R (sendRequest P fuel (request.prepare P) >>= k) :=
  hR.bind (hR.sendRequest (hR.prepare request hask)) hk

theorem connectWithResults {options : Option MQTTPacketConnectData}
    (hask : asks (.connect (options.getD .initializer))) (data : ConnackOut) :
    Keeps R (mqttConnectWithResults P fuel options data : Action σ H _) := by
  have hfail : Keeps R (do
      let rc ← MqttClient.finishConnect failure
      Pure.pure (rc, data) : Action σ H _) :=
    hR.bind (hR.finishConnect _) fun _ => hR.pure _
  refine hR.bind hR.client fun c => .ite hfail (hR.requested hask fun sent => ?_)
  cases sent with
  | none => exact hfail
  | some timer =>
      exact hR.bind (hR.turnFrame.waitfor _ timer) fun _ => .ite
        (hR.bind hR.client fun _ => hR.bind (hR.finishConnect _) fun _ => hR.pure _) hfail

theorem subscribeWithResults {topicFilter : CString} {qos : Int} {messageHandler : Option H}
    (hask : asks (.subscribe topicFilter qos)) (hset : sets topicFilter messageHandler)
    (grantedQoS : Int) :
    Keeps R (mqttSubscribeWithResults P fuel topicFilter qos messageHandler grantedQoS :
      Action σ H _) := by
  have hfail : Keeps R (do
      let rc ← MqttClient.finishRequest failure
      Pure.pure (rc, grantedQoS) : Action σ H _) :=
    hR.bind (hR.finishRequest _) fun _ => hR.pure _
  refine hR.bind hR.client fun c => .ite (hR.requested hask fun sent => ?_) hfail
  cases sent with
  | none => exact hfail
  | some timer =>
      refine hR.bind (hR.turnFrame.waitfor _ timer) fun _ => .ite ?_ hfail
      exact hR.bind (keeps_acceptSuback hR.refl (hR.setHandler hset)) fun _ =>
        hR.bind (hR.finishRequest _) fun _ => hR.pure _

theorem unsubscribe {topicFilter : CString} (hask : asks (.unsubscribe topicFilter))
    (hset : sets topicFilter none) :
    Keeps R (mqttUnsubscribe P fuel topicFilter : Action σ H _) := by
  refine hR.bind hR.client fun c =>
    .ite (hR.requested hask fun sent => ?_) (hR.finishRequest _)
  cases sent with
  | none => exact hR.finishRequest _
  | some timer =>
      refine hR.bind (hR.turnFrame.waitfor _ timer) fun _ => .ite ?_ (hR.finishRequest _)
      exact hR.bind (keeps_acceptUnsuback hR.refl (hR.setHandler hset)) fun _ =>
        hR.finishRequest _

theorem publish {topicName : CString} {message : MQTTMessage}
    (hask : asks (.publish topicName message)) :
    Keeps R (mqttPublish P fuel topicName message : Action σ H _) := by
  have hack : ∀ packetType timer,
      Keeps R (awaitAck P fuel packetType timer >>= MqttClient.finishRequest : Action σ H _) := by
    intro packetType timer
    refine hR.bind (hR.bind (hR.turnFrame.waitfor _ timer) fun _ => .ite ?_ (hR.pure _))
      fun _ => hR.finishRequest _
    exact hR.bind hR.client fun _ => .ite (hR.pure _) (hR.pure _)
  refine hR.bind hR.client fun c =>
    .ite (hR.requested hask fun sent => ?_) (hR.finishRequest _)
  cases sent with
  | none => exact hR.finishRequest _
  | some timer => exact .ite (hack _ timer) (.ite (hack _ timer) (hR.finishRequest _))

theorem disconnect : Keeps R (mqttDisconnect P fuel : Action σ H _) :=
  hR.bind hR.client fun _ => hR.bind (hR.timerCountdownMS _) fun timer =>
    hR.bind (hR.serialize _) fun _ => .ite
      (hR.bind (hR.sendPacket _ timer) fun _ => hR.bind hR.closed fun _ => hR.pure _)
      (hR.bind hR.closed fun _ => hR.pure _)

theorem yield (timeoutMs : Int) : Keeps R (mqttYield P fuel timeoutMs : Action σ H _) :=
  hR.bind (hR.timerCountdownMS _) fun timer => hR.turnFrame.mqttYieldLoop timer fuel

end CallFrame

/-- A relation that tolerates what a call consists of is kept by the call, unless it is
`MQTTClientInit`. -/
theorem CallStep.keeps {R : World σ H → World σ H → Prop} {call : Call H}
    (hR : CallFrame P fuel call.Asks call.Sets R) {w w' : World σ H}
    (h : CallStep P fuel w call w') :
    (∃ args, call = .clientInit args ∧ w' = w.update args.init) ∨ R w w' := by
  cases call with
  | clientInit args =>
      obtain ⟨_, h⟩ := h
      cases h
      exact .inl ⟨args, rfl, rfl⟩
  | connectWithResults options data =>
      obtain ⟨_, h⟩ := h
      exact .inr (hR.connectWithResults rfl data _ _ _ h)
  | connect options data =>
      obtain ⟨_, h⟩ := h
      exact .inr (hR.bind (hR.connectWithResults rfl data) (fun _ => hR.pure _) _ _ _ h)
  | publish topicName message =>
      obtain ⟨_, h⟩ := h
      exact .inr (hR.publish rfl _ _ _ h)
  | setMessageHandler topicFilter messageHandler =>
      obtain ⟨_, h⟩ := h
      exact .inr (hR.setHandler ⟨rfl, rfl⟩ _ _ _ h)
  | subscribe topicFilter qos messageHandler grantedQoS =>
      obtain ⟨_, h⟩ := h
      exact .inr (hR.bind (hR.subscribeWithResults rfl ⟨rfl, rfl⟩ grantedQoS)
        (fun _ => hR.pure _) _ _ _ h)
  | subscribeWithResults topicFilter qos messageHandler grantedQoS =>
      obtain ⟨_, h⟩ := h
      exact .inr (hR.subscribeWithResults rfl ⟨rfl, rfl⟩ grantedQoS _ _ _ h)
  | unsubscribe topicFilter =>
      obtain ⟨_, h⟩ := h
      exact .inr (hR.unsubscribe rfl ⟨rfl, rfl⟩ _ _ _ h)
  | disconnect =>
      obtain ⟨_, h⟩ := h
      exact .inr (hR.disconnect _ _ _ h)
  | yield timeoutMs =>
      obtain ⟨_, h⟩ := h
      exact .inr (hR.yield timeoutMs _ _ _ h)
  | isConnected =>
      obtain ⟨_, h⟩ := h
      exact .inr (keeps_gets hR.refl _ _ _ _ h)
  | closeSession =>
      obtain ⟨_, h⟩ := h
      exact .inr (hR.closed _ _ _ h)

end MqttClient

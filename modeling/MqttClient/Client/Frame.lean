/-
# What every relation that tolerates sending is kept by

Sending a packet is composed of few primitive steps: the clock is read, a timer is
asked, the send buffer is filled, bytes are offered to the network, and at the end
the sending timer is set from the clock.  A preorder between worlds that tolerates
each of these steps is kept by every function that sends, and one that also tolerates
calls of handlers is kept by the reactions of a turn.  One that is kept by a turn is
kept by the loops that take turns, and one that tolerates a change of the handlers and
of the session is kept by the ends of the calls.  The functions are walked through here
once, for all such relations.
-/

import MqttClient.Client.Operations

namespace MqttClient

open Semantics Program

variable {σ H : Type} {P : Platform σ} {fuel : Nat}

/-! ## The primitives, run -/

@[simp]
theorem run_client (w : World σ H) : (client : Action σ H _).run w = some (w.client, w) := rfl

@[simp]
theorem run_modifyClient (f : MQTTClient H → MQTTClient H) (w : World σ H) :
    (modifyClient f).run w = some ((), w.update f) := rfl

@[simp]
theorem run_logEvent (event : Event H) (w : World σ H) :
    (logEvent event).run w = some ((), w.log event) := rfl

@[simp]
theorem run_mqttCloseSession (w : World σ H) :
    (mqttCloseSession : Action σ H Unit).run w =
      some ((), w.update MQTTClient.closeSession) := rfl

/-- A returning read of the network is a returning read of the platform, logged. -/
theorem run_mqttread_eq_some {len : Nat} {timeoutMs : Int} {w w' : World σ H}
    {r : ReadResult len} (h : (mqttread P len timeoutMs).run w = some (r, w')) :
    ∃ env, P.mqttread w.env len timeoutMs = some (r, env) ∧
      w' = { w with env, trace := w.trace ++ [.read ⟨len, r.rc, r.stored⟩] } := by
  obtain ⟨⟨r', env⟩, hread, heq⟩ := Option.map_eq_some_iff.mp h
  cases heq
  exact ⟨env, hread, rfl⟩

/-- A returning write to the network is a returning write of the platform, logged. -/
theorem run_mqttwrite_eq_some {offered : List UInt8} {timeoutMs rc : Int} {w w' : World σ H}
    (h : (mqttwrite P offered timeoutMs).run w = some (rc, w')) :
    ∃ env, P.mqttwrite w.env offered timeoutMs = some (rc, env) ∧
      w' = { w with env, trace := w.trace ++ [.write offered rc] } := by
  obtain ⟨⟨rc', env⟩, hwrite, heq⟩ := Option.map_eq_some_iff.mp h
  cases heq
  exact ⟨env, hwrite, rfl⟩

theorem run_serialize (serializer : Int → Serialized) {result : Serialized} {w : World σ H}
    (hresult : serializer (toInt w.client.bufSize) = result) :
    (serialize serializer).run w =
      some (result.rc, w.update fun c => { c with buf := c.buf.store 0 result.written }) := by
  subst hresult
  rfl

/-- The world after one reading of the clock. -/
def World.ticked (P : Platform σ) (w : World σ H) : World σ H :=
  { w with
    env := (P.gettimeofday w.env).2
    trace := w.trace ++ [.clock (P.gettimeofday w.env).1] }

/-- The world after `TimerIsExpired`. -/
def World.asked (P : Platform σ) (w : World σ H) (timer : Timer) : World σ H :=
  (w.ticked P).log (.timerIsExpired (timer.isExpiredAt (P.gettimeofday w.env).1))

/-- What asking a timer leaves in the trace. -/
def askedEvents (P : Platform σ) (env : σ) (timer : Timer) : List (Event H) :=
  [.clock (P.gettimeofday env).1, .timerIsExpired (timer.isExpiredAt (P.gettimeofday env).1)]

theorem asked_trace (w : World σ H) (timer : Timer) :
    (w.asked P timer).trace = w.trace ++ askedEvents P w.env timer :=
  List.append_assoc w.trace [_] [_]

theorem run_timerIsExpired (timer : Timer) (w : World σ H) :
    (timerIsExpired P timer).run w =
      some (timer.isExpiredAt (P.gettimeofday w.env).1, w.asked P timer) := rfl

theorem run_timerLeftMS (timer : Timer) (w : World σ H) :
    (timerLeftMS P timer).run w =
      some (timer.leftMSAt (P.gettimeofday w.env).1, w.ticked P) := rfl

theorem run_timerCountdownMS (timeout : Nat) (w : World σ H) :
    (timerCountdownMS P timeout).run w =
      some (.countdownMSAt (P.gettimeofday w.env).1 timeout, w.ticked P) := rfl

/-! ## Sending -/

/-- A preorder that tolerates what sending a packet consists of. -/
structure SendFrame (P : Platform σ) (R : World σ H → World σ H → Prop) : Prop where
  refl : ∀ w, R w w
  trans : ∀ {a b c}, R a b → R b c → R a c
  clock : ∀ w, R w (w.ticked P)
  timer : ∀ w answer, R w (w.log (.timerIsExpired answer))
  write : ∀ {w : World σ H} {offered : List UInt8} {timeoutMs rc : Int} {env : σ},
    P.mqttwrite w.env offered timeoutMs = some (rc, env) →
      R w { w with env, trace := w.trace ++ [.write offered rc] }
  filled : ∀ w bytes, R w (w.update fun c => { c with buf := c.buf.store 0 bytes })
  sent : ∀ w, R w ((w.ticked P).update fun c =>
    { c with lastSent := .countdownAt (P.gettimeofday w.env).1 c.keepAliveInterval })

namespace SendFrame

variable {R : World σ H → World σ H → Prop} (hR : SendFrame P R)

include hR

theorem bind {α β : Type} {x : Action σ H α} {f : α → Action σ H β} (hx : Keeps R x)
    (hf : ∀ a, Keeps R (f a)) : Keeps R (x >>= f) :=
  Keeps.bind (R := R) hR.trans hx hf

theorem pure {α : Type} (a : α) : Keeps R (Pure.pure a : Action σ H α) := keeps_pure hR.refl a

theorem client : Keeps R (MqttClient.client : Action σ H _) := keeps_gets hR.refl _

theorem gettimeofday : Keeps R (MqttClient.gettimeofday P : Action σ H _) := by
  intro w now w' hrun
  cases hrun
  exact hR.clock w

theorem timerIsExpired (timer : Timer) :
    Keeps R (MqttClient.timerIsExpired P timer : Action σ H _) :=
  hR.bind hR.gettimeofday fun _ =>
    hR.bind (keeps_modify fun w => hR.timer w _) fun _ => hR.pure _

theorem timerLeftMS (timer : Timer) : Keeps R (MqttClient.timerLeftMS P timer : Action σ H _) :=
  hR.bind hR.gettimeofday fun _ => hR.pure _

theorem timerCountdownMS (timeout : Nat) :
    Keeps R (MqttClient.timerCountdownMS P timeout : Action σ H _) :=
  hR.bind hR.gettimeofday fun _ => hR.pure _

theorem timerCountdown (timeout : Nat) :
    Keeps R (MqttClient.timerCountdown P timeout : Action σ H _) :=
  hR.bind hR.gettimeofday fun _ => hR.pure _

theorem mqttwrite (offered : List UInt8) (timeoutMs : Int) :
    Keeps R (MqttClient.mqttwrite P offered timeoutMs : Action σ H _) := by
  intro w rc w' hrun
  obtain ⟨env, hwrite, rfl⟩ := run_mqttwrite_eq_some hrun
  exact hR.write hwrite

theorem serialize (serializer : Int → Serialized) :
    Keeps R (MqttClient.serialize serializer : Action σ H _) :=
  hR.bind hR.client fun _ => hR.bind (keeps_modify fun w => hR.filled w _) fun _ => hR.pure _

theorem sendPacketLoop (length : Nat) (timer : Timer) :
    ∀ fuel sent, Keeps R (MqttClient.sendPacketLoop P length timer fuel sent : Action σ H _) := by
  intro fuel
  induction fuel with
  | zero => intro sent; exact keeps_diverge
  | succ fuel ih =>
      intro sent
      refine .ite (hR.bind (hR.timerIsExpired timer) fun expired => .ite (hR.pure _) ?_) (hR.pure _)
      exact hR.bind (hR.timerLeftMS timer) fun left => hR.bind hR.client fun c =>
        hR.bind (hR.mqttwrite _ _) fun rc => .ite (hR.pure _) (ih _)

theorem sendPacket (length : Nat) (timer : Timer) :
    Keeps R (MqttClient.sendPacket P fuel length timer : Action σ H _) := by
  refine hR.bind (hR.sendPacketLoop length timer fuel 0) fun sent => .ite ?_ (hR.pure _)
  intro w rc w' hrun
  cases hrun
  exact hR.sent w

theorem sendAck (packettype : MsgType) (id : UInt16) (timer : Timer) :
    Keeps R (MqttClient.sendAck P fuel packettype id timer : Action σ H _) :=
  hR.bind (hR.serialize _) fun _ => .ite (hR.pure _) (hR.sendPacket _ timer)

theorem acknowledgePublish (message : MQTTMessage) (timer : Timer) :
    Keeps R (MqttClient.acknowledgePublish P fuel message timer : Action σ H _) :=
  .ite (hR.sendAck _ _ _) (.ite (hR.sendAck _ _ _) (hR.pure _))

theorem keepaliveDue : Keeps R (MqttClient.keepaliveDue P : Action σ H _) :=
  hR.bind hR.client fun _ => hR.bind (hR.timerIsExpired _) fun _ =>
    .ite (hR.pure _) (hR.timerIsExpired _)

/-- A request is kept if what it does before it serializes is. -/
theorem sendRequest {prepare : Action σ H (Int → Serialized)} (hprepare : Keeps R prepare) :
    Keeps R (MqttClient.sendRequest P fuel prepare) :=
  hR.bind hR.client fun _ => hR.bind (hR.timerCountdownMS _) fun timer => hR.bind hprepare fun _ =>
    hR.bind (hR.serialize _) fun _ => .ite (hR.pure _) <| hR.bind (hR.sendPacket _ timer) fun _ =>
      .ite (hR.pure _) (hR.pure _)

section Ping

variable (hping : ∀ w, R w (w.update fun c => { c with pingOutstanding := true }))

include hping

theorem sendPing : Keeps R (MqttClient.sendPing P fuel : Action σ H _) :=
  hR.bind (hR.timerCountdownMS 1000) fun timer => hR.bind (hR.serialize _) fun _ =>
    .ite (hR.bind (hR.sendPacket _ timer) fun _ =>
      .ite (hR.bind (keeps_modify hping) fun _ => hR.pure _) (hR.pure _)) (hR.pure _)

theorem keepalive : Keeps R (MqttClient.keepalive P fuel : Action σ H _) :=
  hR.bind hR.client fun _ => .ite (hR.pure _) <| hR.bind hR.keepaliveDue fun _ =>
    .ite (.ite (hR.pure _) (hR.sendPing hping)) (hR.pure _)

end Ping

end SendFrame

/-! ## Reacting to a packet -/

/-- A preorder that also tolerates what a packet can cause besides sending. -/
structure ReactFrame (P : Platform σ) (R : World σ H → World σ H → Prop) : Prop
    extends SendFrame P R where
  call : ∀ w fp data, R w (w.log (.call fp data))
  locals : ∀ w : World σ H, R w { w with env := (P.cycleLocals w.env).2 }

namespace ReactFrame

variable {R : World σ H → World σ H → Prop} (hR : ReactFrame P R)

include hR

theorem cycleLocals : Keeps R (MqttClient.cycleLocals P : Action σ H _) := by
  intro w locals w' hrun
  cases hrun
  exact hR.locals w

theorem deliverLoop (data : MessageData) :
    ∀ (slots : List (MessageHandlers H)) (delivered : Bool),
      Keeps R (MqttClient.deliverLoop data slots delivered : Action σ H _) := by
  intro slots
  induction slots with
  | nil => intro delivered; exact hR.pure _
  | cons slot slots ih =>
      intro delivered
      unfold MqttClient.deliverLoop
      split
      · exact hR.bind (keeps_modify fun w => hR.call w _ _) fun _ => ih true
      · exact ih delivered

theorem deliverMessage (topicName : MQTTString) (message : MQTTMessage) :
    Keeps R (MqttClient.deliverMessage topicName message : Action σ H _) := by
  refine hR.bind hR.client fun c => hR.bind (hR.deliverLoop _ _ _) fun delivered =>
    .ite (hR.pure _) ?_
  split
  · exact hR.bind (keeps_modify fun w => hR.call w _ _) fun _ => hR.pure _
  · exact hR.pure _

theorem handlePublish (timer : Timer) :
    Keeps R (MqttClient.handlePublish P fuel timer : Action σ H _) := by
  refine hR.bind hR.cycleLocals fun locals => hR.bind hR.client fun c => ?_
  split
  refine .ite (hR.pure _) (hR.bind (hR.deliverMessage _ _) fun _ => .ite ?_ (hR.pure _))
  exact hR.bind (hR.acknowledgePublish _ timer) fun _ => .ite (hR.pure _) (hR.pure _)

theorem handleHandshake (reply : MsgType) (timer : Timer) :
    Keeps R (MqttClient.handleHandshake P fuel reply timer : Action σ H _) := by
  refine hR.bind hR.cycleLocals fun locals => hR.bind hR.client fun c => ?_
  split
  exact .ite (hR.pure _) (hR.bind (hR.sendAck _ _ timer) fun _ => .ite (hR.pure _) (hR.pure _))

/-- Only a PINGRESP touches the ping flag in the `switch`. -/
theorem dispatch {packetType : Int} (timer : Timer)
    (hanswer : packetType = MsgType.pingresp.code →
      ∀ w, R w (w.update fun c => { c with pingOutstanding := false })) :
    Keeps R (MqttClient.dispatch P fuel packetType timer : Action σ H _) := by
  unfold MqttClient.dispatch
  split
  case h_5 => exact hR.handlePublish timer
  case h_6 => exact hR.handleHandshake .pubrel timer
  case h_7 => exact hR.handleHandshake .pubcomp timer
  case h_9 hcode =>
    have htype := MsgType.ofCode?_eq_some hcode
    exact hR.bind (keeps_modify (hanswer htype)) fun _ => hR.pure _
  case h_10 => exact .ite (hR.pure _) (hR.pure _)
  all_goals exact hR.pure _

end ReactFrame

/-! ## Taking turns -/

/-- A preorder that tolerates questions to a timer and whole turns. -/
structure TurnFrame (P : Platform σ) (fuel : Nat) (R : World σ H → World σ H → Prop) : Prop where
  refl : ∀ w, R w w
  trans : ∀ {a b c}, R a b → R b c → R a c
  timer : ∀ timer, Keeps R (timerIsExpired P timer : Action σ H _)
  turn : ∀ timer, Keeps R (cycle P fuel timer : Action σ H _)

namespace TurnFrame

variable {R : World σ H → World σ H → Prop} (hR : TurnFrame P fuel R)

include hR

theorem bind {α β : Type} {x : Action σ H α} {f : α → Action σ H β} (hx : Keeps R x)
    (hf : ∀ a, Keeps R (f a)) : Keeps R (x >>= f) :=
  Keeps.bind (R := R) hR.trans hx hf

theorem pure {α : Type} (a : α) : Keeps R (Pure.pure a : Action σ H α) := keeps_pure hR.refl a

theorem mqttYieldLoop (timer : Timer) :
    ∀ steps, Keeps R (MqttClient.mqttYieldLoop P fuel timer steps : Action σ H _) := by
  intro steps
  induction steps with
  | zero => exact keeps_diverge
  | succ steps ih =>
      exact hR.bind (hR.turn timer) fun _ => .ite (hR.pure _) <|
        hR.bind (hR.timer timer) fun _ => .ite (hR.pure _) ih

theorem waitforLoop (packetType : MsgType) (timer : Timer) :
    ∀ steps rc,
      Keeps R (MqttClient.waitforLoop P fuel packetType timer steps rc : Action σ H _) := by
  intro steps
  induction steps with
  | zero => intro rc; exact keeps_diverge
  | succ steps ih =>
      intro rc
      exact hR.bind (hR.timer timer) fun _ => .ite (hR.pure _) <|
        hR.bind (hR.turn timer) fun _ => .ite (ih _) (hR.pure _)

theorem waitfor (packetType : MsgType) (timer : Timer) :
    Keeps R (MqttClient.waitfor P fuel packetType timer : Action σ H _) :=
  hR.waitforLoop packetType timer fuel failure

end TurnFrame

/-! ## Ending a call -/

section Accept

variable {R : World σ H → World σ H → Prop}

/-- A SUBACK can only set a handler. -/
theorem keeps_acceptSuback (hrefl : ∀ w, R w w) {topicFilter : CString} {messageHandler : Option H}
    (hset : Keeps R (mqttSetMessageHandler topicFilter messageHandler : Action σ H _)) :
    Keeps R (acceptSuback topicFilter messageHandler : Action σ H _) := by
  intro w result w' h
  rw [acceptSuback, run_bind_of_eq_some (run_client w)] at h
  split at h
  dsimp only at h
  split at h
  · obtain ⟨_, w₁, hrun, h⟩ := run_bind_eq_some.mp h
    obtain ⟨_, rfl⟩ := run_pure_eq_some.mp h
    exact hset _ _ _ hrun
  · obtain ⟨_, rfl⟩ := run_pure_eq_some.mp h
    exact hrefl w

/-- An UNSUBACK can only remove a handler. -/
theorem keeps_acceptUnsuback (hrefl : ∀ w, R w w) {topicFilter : CString}
    (hset : Keeps R (mqttSetMessageHandler topicFilter none : Action σ H _)) :
    Keeps R (acceptUnsuback topicFilter : Action σ H _) := by
  intro w rc w' h
  rw [acceptUnsuback, run_bind_of_eq_some (run_client w)] at h
  split at h
  · obtain ⟨_, w₁, hrun, h⟩ := run_bind_eq_some.mp h
    obtain ⟨_, rfl⟩ := run_pure_eq_some.mp h
    exact hset _ _ _ hrun
  · obtain ⟨_, rfl⟩ := run_pure_eq_some.mp h
    exact hrefl w

end Accept

/-- A preorder that tolerates what a call does after its last packet. -/
structure EndFrame (R : World σ H → World σ H → Prop) : Prop where
  refl : ∀ w, R w w
  trans : ∀ {a b c}, R a b → R b c → R a c
  setHandler : ∀ topicFilter messageHandler,
    Keeps R (mqttSetMessageHandler topicFilter messageHandler : Action σ H _)
  suback : ∀ topicFilter messageHandler,
    Keeps R (acceptSuback topicFilter messageHandler : Action σ H _)
  unsuback : ∀ topicFilter, Keeps R (acceptUnsuback topicFilter : Action σ H _)
  opened : Keeps R (finishConnect mqttSuccess : Action σ H _)
  closed : Keeps R (mqttCloseSession : Action σ H _)

namespace EndFrame

variable {R : World σ H → World σ H → Prop} (hR : EndFrame R)

include hR

theorem bind {α β : Type} {x : Action σ H α} {f : α → Action σ H β} (hx : Keeps R x)
    (hf : ∀ a, Keeps R (f a)) : Keeps R (x >>= f) :=
  Keeps.bind (R := R) hR.trans hx hf

theorem pure {α : Type} (a : α) : Keeps R (Pure.pure a : Action σ H α) := keeps_pure hR.refl a

theorem client : Keeps R (MqttClient.client : Action σ H _) := keeps_gets hR.refl _

theorem finishConnect (rc : Int) : Keeps R (MqttClient.finishConnect rc : Action σ H _) := by
  by_cases hrc : rc = mqttSuccess
  · subst hrc
    exact hR.opened
  · rw [MqttClient.finishConnect, if_neg hrc]
    exact hR.pure rc

theorem finishRequest (rc : Int) : Keeps R (MqttClient.finishRequest rc : Action σ H _) :=
  .ite (hR.bind hR.closed fun _ => hR.pure _) (hR.pure _)

end EndFrame

end MqttClient

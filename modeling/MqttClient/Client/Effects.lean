/-
# What the parts of a turn may touch

Between two packets the client only talks: it samples the clock, asks its timers,
writes to the network and calls handlers.  `Emits A` is the frame of such a part.
The send buffer, the ping flag and the sending timer may change, the trace grows
by events in `A`, and everything else in the client stays.  It is a preorder, so
every function that is composed of such parts has the frame of its parts.
-/

import MqttClient.Client.Frame

namespace MqttClient

open Semantics Program

variable {σ H : Type} {P : Platform σ} {fuel : Nat}

/-! ## The frame -/

/-- From `w` to `w'` only events in `A` happened, and of the client only the send
buffer, the ping flag and the sending timer may have changed. -/
structure Emits (A : Event H → Prop) (w w' : World σ H) : Prop where
  client_eq : ∃ buf pingOutstanding lastSent,
    w'.client = { w.client with buf, pingOutstanding, lastSent }
  trace_eq : ∃ new, w'.trace = w.trace ++ new ∧ ∀ e ∈ new, A e

namespace Emits

variable {A B : Event H → Prop} {w w' w'' : World σ H}

theorem refl (w : World σ H) : Emits A w w :=
  ⟨⟨w.client.buf, w.client.pingOutstanding, w.client.lastSent, rfl⟩, [], by simp, by simp⟩

theorem trans (h : Emits A w w') (h' : Emits A w' w'') : Emits A w w'' := by
  obtain ⟨⟨buf, ping, sent, hclient⟩, new, htrace, hnew⟩ := h
  obtain ⟨⟨buf', ping', sent', hclient'⟩, new', htrace', hnew'⟩ := h'
  refine ⟨⟨buf', ping', sent', ?_⟩, new ++ new', ?_, ?_⟩
  · rw [hclient', hclient]
  · rw [htrace', htrace, List.append_assoc]
  · intro e he
    exact (List.mem_append.mp he).elim (hnew e) (hnew' e)

theorem mono (h : Emits A w w') (hAB : ∀ e, A e → B e) : Emits B w w' := by
  obtain ⟨hclient, new, htrace, hnew⟩ := h
  exact ⟨hclient, new, htrace, fun e he => hAB e (hnew e he)⟩

/-- The client did not change and one event in `A` was logged. -/
theorem of_event {e : Event H} (he : A e) {env : σ} :
    Emits A w { w with env, trace := w.trace ++ [e] } :=
  ⟨⟨w.client.buf, w.client.pingOutstanding, w.client.lastSent, rfl⟩, [e], rfl, by simpa using he⟩

/-- Only the client's send buffer, ping flag and sending timer were assigned. -/
theorem of_update {f : MQTTClient H → MQTTClient H}
    (hf : ∃ buf pingOutstanding lastSent,
      f w.client = { w.client with buf, pingOutstanding, lastSent }) :
    Emits A w (w.update f) :=
  ⟨hf, [], by simp [World.update], by simp⟩

theorem grew (h : Emits A w w') :
    ∃ new, w'.trace = w.trace ++ new := by
  obtain ⟨_, new, htrace, _⟩ := h
  exact ⟨new, htrace⟩

theorem isconnected (h : Emits A w w') : w'.client.isconnected = w.client.isconnected := by
  obtain ⟨⟨_, _, _, hclient⟩, _⟩ := h
  rw [hclient]

theorem readbuf (h : Emits A w w') : w'.client.readbuf = w.client.readbuf := by
  obtain ⟨⟨_, _, _, hclient⟩, _⟩ := h
  rw [hclient]

theorem messageHandlers (h : Emits A w w') :
    w'.client.messageHandlers = w.client.messageHandlers := by
  obtain ⟨⟨_, _, _, hclient⟩, _⟩ := h
  rw [hclient]

end Emits

/-- Two programs of this frame in sequence. -/
theorem emits_bind {A : Event H → Prop} {α β : Type} {x : Action σ H α} {f : α → Action σ H β}
    (hx : Keeps (Emits A) x) (hf : ∀ a, Keeps (Emits A) (f a)) : Keeps (Emits A) (x >>= f) :=
  Keeps.bind Emits.trans hx hf

theorem emits_pure {A : Event H → Prop} {α : Type} (a : α) :
    Keeps (Emits A) (pure a : Action σ H α) :=
  keeps_pure Emits.refl a

theorem emits_client {A : Event H → Prop} : Keeps (Emits A) (client : Action σ H _) :=
  keeps_gets Emits.refl _

/-- Clock readings, timer answers and writes: what sending a packet can cause. -/
def Event.IsSending : Event H → Prop
  | .clock _ | .timerIsExpired _ | .write _ _ => True
  | .read _ | .packet _ | .call _ _ => False

/-- Every event but those of `readPacket`. -/
def Event.IsSilent : Event H → Prop
  | .read _ | .packet _ => False
  | .clock _ | .timerIsExpired _ | .write _ _ | .call _ _ => True

theorem Event.IsSending.isSilent {e : Event H} (h : e.IsSending) : e.IsSilent := by
  cases e <;> trivial

/-- Sending stays in this frame. -/
theorem sendFrame_emits : SendFrame P (Emits (H := H) Event.IsSending) where
  refl := Emits.refl
  trans := Emits.trans
  clock _ := .of_event trivial
  timer w _ := .of_event (w := w) trivial
  write _ := .of_event trivial
  filled w _ := .of_update ⟨_, w.client.pingOutstanding, w.client.lastSent, rfl⟩
  sent w := .trans (.of_event trivial)
    (.of_update ⟨w.client.buf, w.client.pingOutstanding, _, rfl⟩)

theorem emits_pingOutstanding (w : World σ H) :
    Emits Event.IsSending w (w.update fun c => { c with pingOutstanding := true }) :=
  .of_update ⟨w.client.buf, true, w.client.lastSent, rfl⟩

theorem emits_keepalive : Keeps (Emits Event.IsSending) (keepalive P fuel : Action σ H _) :=
  sendFrame_emits.keepalive emits_pingOutstanding

/-! ## The results of the sending functions -/

/-- Results that are `MQTT_SUCCESS` or `FAILURE` and nothing else. -/
def IsStatus (rc : Int) : Prop := rc = mqttSuccess ∨ rc = failure

theorem sendPacket_isStatus {length : Nat} {timer : Timer} {rc : Int} {w w' : World σ H}
    (h : (sendPacket P fuel length timer).run w = some (rc, w')) : IsStatus rc := by
  obtain ⟨sent, w₁, _, h⟩ := run_bind_eq_some.mp h
  split at h
  · obtain ⟨_, _, _, h⟩ := run_bind_eq_some.mp h
    obtain ⟨_, _, _, h⟩ := run_bind_eq_some.mp h
    obtain ⟨_, _, _, h⟩ := run_bind_eq_some.mp h
    exact .inl (run_pure_eq_some.mp h).1.symm
  · exact .inr (run_pure_eq_some.mp h).1.symm

theorem sendAck_isStatus {packettype : MsgType} {id : UInt16} {timer : Timer} {rc : Int}
    {w w' : World σ H} (h : (sendAck P fuel packettype id timer).run w = some (rc, w')) :
    IsStatus rc := by
  obtain ⟨len, w₁, _, h⟩ := run_bind_eq_some.mp h
  split at h
  · exact .inr (run_pure_eq_some.mp h).1.symm
  · exact sendPacket_isStatus h

theorem acknowledgePublish_isStatus {message : MQTTMessage} {timer : Timer} {rc : Int}
    {w w' : World σ H} (h : (acknowledgePublish P fuel message timer).run w = some (rc, w')) :
    IsStatus rc := by
  unfold acknowledgePublish at h
  split at h
  · exact sendAck_isStatus h
  · split at h
    · exact sendAck_isStatus h
    · exact .inr (run_pure_eq_some.mp h).1.symm

/-! ## The `switch` of `cycle` -/

/-- The types `cycle` has a case for.  Every other positive type, and every
negative result of `readPacket`, takes the default branch. -/
def isHandled (packetType : Int) : Bool :=
  match MsgType.ofCode? packetType with
  | some .connack | some .publish | some .puback | some .pubrec | some .pubrel | some .pubcomp
  | some .suback | some .unsuback | some .pingresp => true
  | _ => packetType = 0

theorem nonneg_of_isHandled {packetType : Int} (h : isHandled packetType = true) :
    0 ≤ packetType := by
  cases hcode : MsgType.ofCode? packetType with
  | none =>
      simp only [isHandled, hcode, decide_eq_true_eq] at h
      omega
  | some t =>
      rw [MsgType.ofCode?_eq_some hcode]
      omega

/-- The event is the call of a handler with what `MQTTDeserialize_publish` made of
the read buffer, from locals whose payload length was set to zero. -/
def Event.IsDelivery (readbuf : Memory) (e : Event H) : Prop :=
  ∃ fp out out', out.payloadlen = 0 ∧ mqttDeserializePublish readbuf out = (1, out') ∧
    e = .call fp ⟨out'.message, out'.topicName⟩

theorem emits_deliverLoop (data : MessageData) :
    ∀ (slots : List (MessageHandlers H)) (delivered : Bool),
      Keeps (Emits fun e => ∃ fp, e = .call fp data)
        (deliverLoop data slots delivered : Action σ H _) := by
  intro slots
  induction slots with
  | nil => intro delivered; exact emits_pure _
  | cons slot slots ih =>
      intro delivered
      unfold deliverLoop
      split
      · rename_i fp _
        exact emits_bind (keeps_modify fun w => .of_event ⟨fp, rfl⟩) fun _ => ih true
      · exact ih delivered

theorem emits_deliverMessage (topicName : MQTTString) (message : MQTTMessage) :
    Keeps (Emits fun e => ∃ fp, e = .call fp ⟨message, topicName⟩)
      (deliverMessage topicName message : Action σ H _) := by
  refine emits_bind emits_client fun c => emits_bind (emits_deliverLoop _ _ _) fun delivered =>
    .ite (emits_pure _) ?_
  split
  · rename_i fp _
    exact emits_bind (keeps_modify fun w => .of_event ⟨fp, rfl⟩) fun _ => emits_pure _
  · exact emits_pure _

/-- What a turn can emit after its packet, with the read buffer holding the packet:
sending, and for a PUBLISH the calls of handlers with its contents. -/
def Event.IsReaction (packetType : Int) (readbuf : Memory) (e : Event H) : Prop :=
  e.IsSending ∨ packetType = MsgType.publish.code ∧ e.IsDelivery readbuf

theorem Event.IsReaction.isSilent {packetType : Int} {readbuf : Memory} {e : Event H}
    (h : e.IsReaction packetType readbuf) : e.IsSilent := by
  rcases h with h | ⟨_, _, _, _, _, _, rfl⟩
  · exact h.isSilent
  · trivial

theorem emits_cycleLocals {A : Event H → Prop} :
    Keeps (Emits A) (cycleLocals P : Action σ H _) := by
  intro w locals w' hrun
  cases hrun
  exact ⟨⟨w.client.buf, w.client.pingOutstanding, w.client.lastSent, rfl⟩, [], by simp, by simp⟩

/-- What is left of `case PUBLISH` when the packet was refused or delivered. -/
theorem handlePublish_spec {timer : Timer} {jump : Jump} {w w' : World σ H}
    (h : (handlePublish P fuel timer).run w = some (jump, w')) :
    Emits (fun e => e.IsSending ∨ e.IsDelivery w.client.readbuf) w w' ∧
      (jump = .next mqttSuccess ∨ jump = .exit mqttSuccess ∨ jump = .exit failure) := by
  obtain ⟨locals, w₁, hlocals, h⟩ := run_bind_eq_some.mp h
  obtain ⟨c, w₂, hclient, h⟩ := run_bind_eq_some.mp h
  cases hclient
  have hstart : Emits (fun e => e.IsSending ∨ e.IsDelivery w.client.readbuf) w w₁ :=
    emits_cycleLocals w locals w₁ hlocals
  have hdec := hstart.readbuf
  split at h
  rename_i rc out hout
  split at h
  · obtain ⟨rfl, rfl⟩ := run_pure_eq_some.mp h
    exact ⟨hstart, .inr (.inl rfl)⟩
  · rename_i hone
    obtain rfl : rc = 1 := by omega
    obtain ⟨_, w₃, hdeliver, h⟩ := run_bind_eq_some.mp h
    have hcalls : Emits (fun e => e.IsSending ∨ e.IsDelivery w.client.readbuf) w w₃ := by
      refine hstart.trans ((emits_deliverMessage _ _ w₁ _ w₃ hdeliver).mono ?_)
      rintro e ⟨fp, rfl⟩
      exact .inr ⟨fp, _, out, rfl, hdec ▸ hout, rfl⟩
    split at h
    · obtain ⟨rc, w₄, hack, h⟩ := run_bind_eq_some.mp h
      have hreply := hcalls.trans
        ((sendFrame_emits.acknowledgePublish _ _ w₃ _ w₄ hack).mono fun e he => .inl he)
      split at h
      · rename_i hfail
        obtain ⟨rfl, rfl⟩ := run_pure_eq_some.mp h
        exact ⟨hreply, .inr (.inr (hfail ▸ rfl))⟩
      · rename_i hfail
        obtain ⟨rfl, rfl⟩ := run_pure_eq_some.mp h
        exact ⟨hreply, .inl (by rw [(acknowledgePublish_isStatus hack).resolve_right hfail])⟩
    · obtain ⟨rfl, rfl⟩ := run_pure_eq_some.mp h
      exact ⟨hcalls, .inl rfl⟩

theorem handleHandshake_spec {reply : MsgType} {timer : Timer} {jump : Jump} {w w' : World σ H}
    (h : (handleHandshake P fuel reply timer).run w = some (jump, w')) :
    Emits Event.IsSending w w' ∧ (jump = .next mqttSuccess ∨ jump = .exit failure) := by
  obtain ⟨locals, w₁, hlocals, h⟩ := run_bind_eq_some.mp h
  obtain ⟨c, w₂, hclient, h⟩ := run_bind_eq_some.mp h
  cases hclient
  have hstart : Emits Event.IsSending w w₁ := emits_cycleLocals w locals w₁ hlocals
  split at h
  split at h
  · obtain ⟨rfl, rfl⟩ := run_pure_eq_some.mp h
    exact ⟨hstart, .inr rfl⟩
  · obtain ⟨rc, w₃, hack, h⟩ := run_bind_eq_some.mp h
    have hreply := hstart.trans (sendFrame_emits.sendAck _ _ _ w₁ _ w₃ hack)
    split at h
    · obtain ⟨rfl, rfl⟩ := run_pure_eq_some.mp h
      exact ⟨hreply, .inr rfl⟩
    · obtain ⟨rfl, rfl⟩ := run_pure_eq_some.mp h
      exact ⟨hreply, .inl rfl⟩

/-- The `switch`: what it may emit, and where it leaves. -/
theorem dispatch_spec {packetType : Int} {timer : Timer} {jump : Jump} {w w' : World σ H}
    (h : (dispatch P fuel packetType timer).run w = some (jump, w')) :
    Emits (Event.IsReaction packetType w.client.readbuf) w w' ∧
      if isHandled packetType then
        jump = .next mqttSuccess ∨ jump = .exit mqttSuccess ∨ jump = .exit failure
      else jump = .exit packetType := by
  cases hcode : MsgType.ofCode? packetType with
  | none =>
      simp only [dispatch, hcode] at h
      simp only [isHandled, hcode, decide_eq_true_eq]
      split at h
      · rename_i hzero
        obtain ⟨rfl, rfl⟩ := run_pure_eq_some.mp h
        exact ⟨.refl w, by rw [if_pos hzero]; exact .inl rfl⟩
      · rename_i hzero
        obtain ⟨rfl, rfl⟩ := run_pure_eq_some.mp h
        exact ⟨.refl w, by rw [if_neg hzero]⟩
  | some t =>
      have htype := MsgType.ofCode?_eq_some hcode
      have hquiet : (pure (.next mqttSuccess) : Action σ H Jump).run w = some (jump, w') →
          Emits (Event.IsReaction packetType w.client.readbuf) w w' ∧
            (jump = .next mqttSuccess ∨ jump = .exit mqttSuccess ∨ jump = .exit failure) := by
        intro hpure
        obtain ⟨rfl, rfl⟩ := run_pure_eq_some.mp hpure
        exact ⟨.refl w, .inl rfl⟩
      have hdefault : (if packetType = 0 then pure (.next mqttSuccess)
            else pure (.exit packetType) : Action σ H Jump).run w = some (jump, w') →
          Emits (Event.IsReaction packetType w.client.readbuf) w w' ∧
            jump = .exit packetType := by
        intro hpure
        rw [if_neg (by have := t.code_pos; omega)] at hpure
        obtain ⟨rfl, rfl⟩ := run_pure_eq_some.mp hpure
        exact ⟨.refl w, rfl⟩
      have hshake : ∀ reply : MsgType,
          (handleHandshake P fuel reply timer).run w = some (jump, w') →
          Emits (Event.IsReaction packetType w.client.readbuf) w w' ∧
            (jump = .next mqttSuccess ∨ jump = .exit mqttSuccess ∨ jump = .exit failure) := by
        intro reply hrun
        obtain ⟨hemits, hjump⟩ := handleHandshake_spec hrun
        exact ⟨hemits.mono fun e he => .inl he, hjump.imp_right .inr⟩
      have hzero : packetType ≠ 0 := by have := t.code_pos; omega
      cases t
      all_goals simp only [dispatch, hcode] at h
      all_goals simp only [isHandled, hcode, if_true, hzero, decide_false, Bool.false_eq_true,
        if_false]
      case connack | puback | suback | unsuback | pubcomp => exact hquiet h
      case publish =>
        obtain ⟨hemits, hjump⟩ := handlePublish_spec h
        exact ⟨hemits.mono fun e he => he.imp_right fun hd => ⟨htype, hd⟩, hjump⟩
      case pubrec => exact hshake _ h
      case pubrel => exact hshake _ h
      case pingresp =>
        obtain ⟨_, w₁, hping, h⟩ := run_bind_eq_some.mp h
        cases hping
        obtain ⟨rfl, rfl⟩ := run_pure_eq_some.mp h
        exact ⟨.of_update ⟨w.client.buf, false, w.client.lastSent, rfl⟩, .inl rfl⟩
      all_goals exact hdefault h

theorem checkKeepalive_spec {jump : Jump} {rc : Int} {w w' : World σ H}
    (h : (checkKeepalive P fuel jump).run w = some (rc, w')) :
    Emits Event.IsSending w w' ∧
      match jump with
      | .exit rc' => rc = rc'
      | .next rc' => rc = rc' ∨ rc = failure := by
  cases jump with
  | exit rc' =>
      obtain ⟨rfl, rfl⟩ := run_pure_eq_some.mp h
      exact ⟨.refl w, rfl⟩
  | next rc' =>
      obtain ⟨kept, w₁, hkeep, h⟩ := run_bind_eq_some.mp h
      have hemits := emits_keepalive w kept w₁ hkeep
      split at h
      · obtain ⟨rfl, rfl⟩ := run_pure_eq_some.mp h
        exact ⟨hemits, .inr rfl⟩
      · obtain ⟨rfl, rfl⟩ := run_pure_eq_some.mp h
        exact ⟨hemits, .inl rfl⟩

/-! ## One turn -/

/-- The session ends, if there is one. -/
def MQTTClient.dropSession (c : MQTTClient H) : MQTTClient H :=
  if c.isconnected then c.closeSession else c

/-- The end of a session clears two flags and perhaps the table, and nothing else. -/
theorem MQTTClient.dropSession_eq (c : MQTTClient H) :
    ∃ pingOutstanding isconnected messageHandlers,
      c.dropSession = { c with pingOutstanding, isconnected, messageHandlers } := by
  unfold dropSession closeSession cleanSession
  dsimp only
  split
  · split
    · exact ⟨_, _, _, rfl⟩
    · exact ⟨_, _, c.messageHandlers, rfl⟩
  · exact ⟨c.pingOutstanding, c.isconnected, c.messageHandlers, rfl⟩

theorem run_finishCycle (packetType rc : Int) (w : World σ H) :
    (finishCycle packetType rc).run w =
      if rc = mqttSuccess then some (packetType, w)
      else some (rc, w.update MQTTClient.dropSession) := by
  unfold finishCycle
  split
  · rfl
  · rw [run_bind_of_eq_some (run_client w)]
    split
    · rename_i hconn
      rw [run_bind_of_eq_some (run_mqttCloseSession w)]
      simp [World.update, MQTTClient.dropSession, hconn]
    · rename_i hconn
      simp [World.update, MQTTClient.dropSession, hconn]

/-- The four parts of a turn. -/
theorem cycle_parts {timer : Timer} {rc : Int} {w w' : World σ H}
    (h : (cycle P fuel timer).run w = some (rc, w')) :
    ∃ packetType w₁ jump w₂ rc' w₃, (readPacket P timer).run w = some (packetType, w₁) ∧
      (dispatch P fuel packetType timer).run w₁ = some (jump, w₂) ∧
      (checkKeepalive P fuel jump).run w₂ = some (rc', w₃) ∧
      if rc' = mqttSuccess then rc = packetType ∧ w' = w₃
      else rc = rc' ∧ w' = w₃.update MQTTClient.dropSession := by
  obtain ⟨packetType, w₁, hread, h⟩ := run_bind_eq_some.mp h
  obtain ⟨jump, w₂, hdispatch, h⟩ := run_bind_eq_some.mp h
  obtain ⟨rc', w₃, hkeep, hfinish⟩ := run_bind_eq_some.mp h
  refine ⟨packetType, w₁, jump, w₂, rc', w₃, hread, hdispatch, hkeep, ?_⟩
  rw [run_finishCycle] at hfinish
  split at hfinish
  · cases hfinish
    rw [if_pos ‹_›]
    exact ⟨rfl, rfl⟩
  · cases hfinish
    rw [if_neg ‹_›]
    exact ⟨rfl, rfl⟩

/-- Everything `cycle` can do: it takes one packet off the network, reacts, and
either keeps the session and returns the packet's type, or drops it.  A dropped
session shows as `FAILURE`, or as the type it has no case for. -/
theorem cycle_cases {timer : Timer} {rc : Int} {w w' : World σ H}
    (h : (cycle P fuel timer).run w = some (rc, w')) :
    ∃ packetType w₁ w₂, (readPacket P timer).run w = some (packetType, w₁) ∧
      Emits (Event.IsReaction packetType w₁.client.readbuf) w₁ w₂ ∧
      ((isHandled packetType = true ∧ rc = packetType ∧ w' = w₂) ∨
        ((if isHandled packetType then rc = failure else rc = packetType) ∧
          w' = w₂.update MQTTClient.dropSession)) := by
  obtain ⟨packetType, w₁, jump, w₂, rc', w₃, hread, hdispatch, hkeep, hfinish⟩ := cycle_parts h
  obtain ⟨hreact, hjump⟩ := dispatch_spec hdispatch
  obtain ⟨hsend, hrc⟩ := checkKeepalive_spec hkeep
  refine ⟨packetType, w₁, w₃, hread, hreact.trans (hsend.mono fun e he => .inl he), ?_⟩
  by_cases hhandled : isHandled packetType = true
  · rw [if_pos hhandled] at hjump
    have hstatus : IsStatus rc' := by
      rcases hjump with rfl | rfl | rfl
      · exact hrc
      · exact .inl hrc
      · exact .inr hrc
    rcases hstatus with rfl | rfl
    · exact .inl ⟨hhandled, hfinish⟩
    · exact .inr ⟨by rw [if_pos hhandled]; exact hfinish.1, hfinish.2⟩
  · rw [if_neg hhandled] at hjump
    subst hjump
    have hzero : packetType ≠ mqttSuccess := by
      rintro rfl
      exact hhandled rfl
    obtain rfl : rc' = packetType := hrc
    rw [if_neg hzero] at hfinish
    exact .inr ⟨by rw [if_neg hhandled]; exact hfinish.1, hfinish.2⟩

end MqttClient

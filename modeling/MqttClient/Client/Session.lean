/-
# When a session ends

A turn of the client tells its caller by the sign of its result whether the
session is still open, except for the packet types it has no case for: those end
the session and are returned as they are, as positive numbers.  Requests end the
session themselves whenever they do not succeed.
-/

import MqttClient.Client.Framing
import MqttClient.Platform.Network
import MqttClient.Tasks.MqttTask

namespace MqttClient

open Semantics Program

variable {σ H : Type} {P : Platform σ} {fuel : Nat}

/-! ## A closed session -/

/-- What `MQTTCloseSession` leaves behind. -/
structure MQTTClient.SessionClosed (c : MQTTClient H) : Prop where
  isconnected : c.isconnected = false
  pingOutstanding : c.pingOutstanding = false
  slots_empty : c.cleansession = true → ∀ i, (c.messageHandlers i).topicFilter = none

theorem MQTTClient.closeSession_sessionClosed (c : MQTTClient H) :
    c.closeSession.SessionClosed := by
  unfold closeSession
  dsimp only
  split
  · exact ⟨rfl, rfl, fun _ _ => rfl⟩
  · rename_i hclean
    exact ⟨rfl, rfl, fun h => absurd h hclean⟩

theorem MQTTClient.dropSession_isconnected (c : MQTTClient H) :
    c.dropSession.isconnected = false := by
  unfold dropSession
  split
  · exact c.closeSession_sessionClosed.isconnected
  · rename_i hconn
    exact Bool.eq_false_iff.mpr hconn

theorem dropSession_readbuf (c : MQTTClient H) : c.dropSession.readbuf = c.readbuf := by
  obtain ⟨_, _, _, hdrop⟩ := c.dropSession_eq
  rw [hdrop]

/-- The buffers have the sizes they had. -/
structure SameSizes (c c' : MQTTClient H) : Prop where
  bufSize : c'.bufSize = c.bufSize
  readbufSize : c'.readbufSize = c.readbufSize

/-! ## One turn -/

theorem Fetches.isconnected {logs : List ReadLog} {w w' : World σ H} (h : Fetches logs w w') :
    w'.client.isconnected = w.client.isconnected := by
  obtain ⟨⟨_, _, hclient⟩, _⟩ := h
  rw [hclient]

theorem Fetches.received {logs : List ReadLog} {w w' : World σ H} (h : Fetches logs w w')
    (rc : Int) : Received [⟨rc, logs⟩] w (w'.log (.packet rc)) := by
  obtain ⟨_, new, htrace, _, hlogs⟩ := h
  refine ⟨new ++ [.packet rc], by simp [World.log, htrace], ?_⟩
  rw [receptionsFrom_append, hlogs]
  rfl

/-- A turn receives one packet; it keeps the session and returns the packet's type,
or the session is over. -/
theorem cycle_turn {timer : Timer} {rc : Int} {w w' : World σ H}
    (h : (cycle P fuel timer).run w = some (rc, w')) :
    ∃ call : Reception, Received [call] w w' ∧
      ((isHandled call.rc = true ∧ rc = call.rc ∧
          w'.client.isconnected = w.client.isconnected) ∨
        ((if isHandled call.rc then rc = failure else rc = call.rc) ∧
          w'.client.isconnected = false)) := by
  obtain ⟨packetType, w₁, w₂, hread, hreact, hend⟩ := cycle_cases h
  obtain ⟨reads, w₀, hfetch, rfl, _⟩ := readPacket_cases hread
  have hreceived := (hfetch.received packetType).trans
    (.of_emits hreact fun e he => he.isSilent)
  refine ⟨⟨packetType, reads⟩, ?_, ?_⟩
  · rcases hend with ⟨_, _, rfl⟩ | ⟨_, rfl⟩
    · exact hreceived
    · exact hreceived.trans (.of_trace_eq rfl)
  · rcases hend with ⟨hhandled, rfl, rfl⟩ | ⟨hrc, rfl⟩
    · exact .inl ⟨hhandled, rfl, hreact.isconnected.trans hfetch.isconnected⟩
    · exact .inr ⟨hrc, w₂.client.dropSession_isconnected⟩

/-- No turn changes the size of a buffer. -/
theorem cycle_sameSizes {timer : Timer} {rc : Int} {w w' : World σ H}
    (h : (cycle P fuel timer).run w = some (rc, w')) : SameSizes w.client w'.client := by
  obtain ⟨packetType, w₁, w₂, hread, ⟨⟨_, _, _, hreact⟩, _⟩, hend⟩ := cycle_cases h
  obtain ⟨reads, w₀, ⟨⟨_, _, hfetch⟩, _⟩, rfl, _⟩ := readPacket_cases hread
  have hsame : SameSizes w.client w₂.client := by
    rw [hreact, World.log, hfetch]
    exact ⟨rfl, rfl⟩
  rcases hend with ⟨_, _, rfl⟩ | ⟨_, rfl⟩
  · exact hsame
  · obtain ⟨_, _, _, hdrop⟩ := w₂.client.dropSession_eq
    rw [World.update, hdrop]
    exact ⟨hsame.bufSize, hsame.readbufSize⟩

/-- The types that end the session although `cycle` returns them as positive
numbers: those a broker never sends, and 15. -/
def isUnexpected (packetType : Int) : Bool := 0 < packetType && !isHandled packetType

theorem isUnexpected_eq_false_of_isHandled {packetType : Int} (h : isHandled packetType = true) :
    isUnexpected packetType = false := by
  simp [isUnexpected, h]

/-- From `w` to `w'` whole packets were received, and the session survived them
exactly if none was of an unexpected type. -/
def Survives (w w' : World σ H) : Prop :=
  ∃ calls, Received calls w w' ∧ (w'.client.isconnected = true ↔
    w.client.isconnected = true ∧ ∀ call ∈ calls, isUnexpected call.rc = false)

namespace Survives

variable {w w' w'' : World σ H}

theorem trans (h : Survives w w') (h' : Survives w' w'') : Survives w w'' := by
  obtain ⟨calls, hreceived, hconn⟩ := h
  obtain ⟨calls', hreceived', hconn'⟩ := h'
  refine ⟨calls ++ calls', hreceived.trans hreceived', ?_⟩
  rw [hconn', hconn, List.forall_mem_append, and_assoc]

theorem of_emits (h : Emits Event.IsSending w w') : Survives w w' := by
  refine ⟨[], .of_emits h fun e he => he.isSilent, ?_⟩
  rw [h.isconnected]
  simp

theorem iff_receptions (h : Survives w w') (hconn : w.client.isconnected = true) :
    w'.client.isconnected = true ↔
      ∀ call ∈ receptions (since w w'), isUnexpected call.rc = false := by
  obtain ⟨calls, hreceived, hiff⟩ := h
  rw [hreceived.receptions_since, hiff]
  exact and_iff_right hconn

end Survives

/-- A turn that returns a number that is not negative. -/
theorem cycle_survives {timer : Timer} {rc : Int} {w w' : World σ H}
    (h : (cycle P fuel timer).run w = some (rc, w')) (hrc : 0 ≤ rc) : Survives w w' := by
  obtain ⟨call, hreceived, hend⟩ := cycle_turn h
  refine ⟨[call], hreceived, ?_⟩
  rcases hend with ⟨hhandled, rfl, hconn⟩ | ⟨hdropped, hconn⟩
  · simp [hconn, isUnexpected_eq_false_of_isHandled hhandled]
  · -- only an unexpected type ends the session and is still not negative
    have hhandled : isHandled call.rc = false := by
      by_contra hne
      rw [if_pos (by simpa using hne)] at hdropped
      exact absurd (hdropped ▸ hrc) (by decide)
    rw [hhandled] at hdropped
    obtain rfl : rc = call.rc := hdropped
    have hzero : call.rc ≠ 0 := by
      intro h0
      rw [h0] at hhandled
      exact absurd hhandled (by decide)
    have hpos : 0 < call.rc := by omega
    simp [hconn, isUnexpected, hhandled, hpos]

theorem mqttYieldLoop_survives {timer : Timer} :
    ∀ {steps : Nat} {w w' : World σ H},
      (mqttYieldLoop P fuel timer steps).run w = some (mqttSuccess, w') → Survives w w' := by
  intro steps
  induction steps with
  | zero => intro w w' h; cases h
  | succ steps ih =>
      intro w w' h
      obtain ⟨rc, w₁, hcycle, h⟩ := run_bind_eq_some.mp h
      split at h
      · exact absurd (run_pure_eq_some.mp h).1 (by decide)
      · rename_i hrc
        have hfirst := cycle_survives hcycle (by omega)
        obtain ⟨expired, w₂, htimer, h⟩ := run_bind_eq_some.mp h
        have hsecond := hfirst.trans (.of_emits (sendFrame_emits.timerIsExpired _ _ _ _ htimer))
        split at h
        · obtain ⟨_, rfl⟩ := run_pure_eq_some.mp h
          exact hsecond
        · exact hsecond.trans (ih h)

theorem waitforLoop_survives {packetType : MsgType} {timer : Timer} :
    ∀ {steps : Nat} {before rc : Int} {w w' : World σ H},
      (waitforLoop P fuel packetType timer steps before).run w = some (rc, w') → 0 ≤ rc →
      Survives w w' := by
  intro steps
  induction steps with
  | zero => intro before rc w w' h; cases h
  | succ steps ih =>
      intro before rc w w' h hrc
      obtain ⟨expired, w₁, htimer, h⟩ := run_bind_eq_some.mp h
      have hfirst : Survives w w₁ := .of_emits (sendFrame_emits.timerIsExpired _ _ _ _ htimer)
      split at h
      · obtain ⟨rfl, rfl⟩ := run_pure_eq_some.mp h
        exact hfirst
      · obtain ⟨rc', w₂, hcycle, h⟩ := run_bind_eq_some.mp h
        split at h
        · rename_i hmore
          exact (hfirst.trans (cycle_survives hcycle hmore.2)).trans (ih h hrc)
        · obtain ⟨rfl, rfl⟩ := run_pure_eq_some.mp h
          exact hfirst.trans (cycle_survives hcycle hrc)

/-- The result of a turn tells whether the session is still open, and the results of
the two loops over it tell so too, exactly as long as no packet of an unexpected
type arrives. -/
theorem session_open_iff_no_unexpected (P : Platform σ) (fuel : Nat) (w : World σ H)
    (hconn : w.client.isconnected = true) :
    (∀ timer rc w', (cycle P fuel timer).run w = some (rc, w') →
      ((w'.client.isconnected = true ↔ 0 ≤ rc) ↔
        ∀ call ∈ receptions (since w w'), isUnexpected call.rc = false)) ∧
    (∀ timeoutMs w', (mqttYield P fuel timeoutMs).run w = some (mqttSuccess, w') →
      (w'.client.isconnected = true ↔
        ∀ call ∈ receptions (since w w'), isUnexpected call.rc = false)) ∧
    (∀ packetType timer rc w', (waitfor P fuel packetType timer).run w = some (rc, w') →
      0 ≤ rc → (w'.client.isconnected = true ↔
        ∀ call ∈ receptions (since w w'), isUnexpected call.rc = false)) := by
  refine ⟨?_, ?_, ?_⟩
  · intro timer rc w' h
    by_cases hrc : 0 ≤ rc
    · rw [← (cycle_survives h hrc).iff_receptions hconn]
      simp [hrc]
    · rcases cycle_turn h with ⟨call, hreceived, ⟨hhandled, rfl, _⟩ | ⟨hdropped, hclosed⟩⟩
      · exact absurd (nonneg_of_isHandled hhandled) hrc
      · rw [hreceived.receptions_since]
        have hexpected : isUnexpected call.rc = false := by
          split at hdropped
          · exact isUnexpected_eq_false_of_isHandled ‹_›
          · have hneg : ¬ 0 < call.rc := by omega
            simp [isUnexpected, hneg]
        simp [hclosed, hrc, hexpected]
  · intro timeoutMs w' h
    obtain ⟨timer, w₁, htimer, h⟩ := run_bind_eq_some.mp h
    have hfirst : Survives w w₁ := .of_emits (sendFrame_emits.timerCountdownMS _ _ _ _ htimer)
    exact (hfirst.trans (mqttYieldLoop_survives h)).iff_receptions hconn
  · intro packetType timer rc w' h hrc
    exact (waitforLoop_survives h hrc).iff_receptions hconn

/-- The client of the application in front of a recorded connection. -/
def recordedWorld (inbound : List UInt8) : World Recording Unit := ⟨brokerClient, ⟨inbound, []⟩, []⟩

/-- The same client with its session open. -/
def connectedWorld (inbound : List UInt8) : World Recording Unit :=
  (recordedWorld inbound).update fun c => { c with isconnected := true }

/-- A second's worth of the recording's clock. -/
def second : Timer := .countdownMSAt ⟨0, 0⟩ 1000

/-- The three readings agree on a PINGRESP. -/
theorem session_open_iff_no_unexpected_pingresp :
    (∃ rc w', (cycle (linuxPlatform Recording.host 8) 8 second).run (connectedWorld [0xD0, 0]) =
        some (rc, w') ∧
      ((w'.client.isconnected = true ↔ 0 ≤ rc) ↔
        ∀ call ∈ receptions (since (connectedWorld [0xD0, 0]) w'),
          isUnexpected call.rc = false)) ∧
    (∃ w', (mqttYield (linuxPlatform Recording.host 8) 8 0).run (connectedWorld [0xD0, 0]) =
        some (mqttSuccess, w') ∧
      (w'.client.isconnected = true ↔
        ∀ call ∈ receptions (since (connectedWorld [0xD0, 0]) w'),
          isUnexpected call.rc = false)) ∧
    (∃ w', (waitfor (linuxPlatform Recording.host 8) 8 .pingresp second).run
        (connectedWorld [0xD0, 0]) = some (13, w') ∧
      (w'.client.isconnected = true ↔
        ∀ call ∈ receptions (since (connectedWorld [0xD0, 0]) w'),
          isUnexpected call.rc = false)) := by
  obtain ⟨rc, w₁, hcycle, _⟩ := returns_of_map_eq
    (show ((cycle (linuxPlatform Recording.host 8) 8 second).run
      (connectedWorld [0xD0, 0])).map Prod.fst = some 13 by decide)
  obtain ⟨_, w₂, hyield, rfl⟩ := returns_of_map_eq
    (show ((mqttYield (linuxPlatform Recording.host 8) 8 0).run
      (connectedWorld [0xD0, 0])).map Prod.fst = some mqttSuccess by decide)
  obtain ⟨_, w₃, hwait, rfl⟩ := returns_of_map_eq
    (show ((waitfor (linuxPlatform Recording.host 8) 8 .pingresp second).run
      (connectedWorld [0xD0, 0])).map Prod.fst = some 13 by decide)
  obtain ⟨hcycles, hyields, hwaits⟩ :=
    session_open_iff_no_unexpected (linuxPlatform Recording.host 8) 8 (connectedWorld [0xD0, 0]) rfl
  exact ⟨⟨rc, w₁, hcycle, hcycles second rc w₁ hcycle⟩, ⟨w₂, hyield, hyields 0 w₂ hyield⟩,
    w₃, hwait, hwaits .pingresp second 13 w₃ hwait (by decide)⟩

/-- A DISCONNECT from the broker: the session is over, and `cycle` returns 14. -/
theorem cycle_disconnect_positive :
    ((cycle (linuxPlatform Recording.host 8) 8 second).run (connectedWorld [0xE0, 0])).map
      (fun r => (r.1, r.2.client.isconnected)) = some (14, false) := by
  decide

/-! ## Requests -/

theorem run_finishRequest (rc : Int) (w : World σ H) :
    (finishRequest rc).run w =
      some (rc, if rc = failure then w.update MQTTClient.closeSession else w) := by
  unfold finishRequest
  split
  · rfl
  · rfl

/-- An UNSUBACK that is accepted removes the handler, if there is one. -/
theorem run_acceptUnsuback (topicFilter : CString) {w : World σ H}
    (hok : (mqttDeserializeUnsuback w.client.readbuf 0).1 = 1) :
    (acceptUnsuback topicFilter).run w = some (mqttSuccess, w.update fun c =>
      { c with messageHandlers :=
        (HandlerTable.setMessageHandler w.client.messageHandlers topicFilter none).2 }) := by
  rw [acceptUnsuback, run_bind_of_eq_some (run_client w), if_pos hok]
  rfl

/-- A request that ends in a status other than `MQTT_SUCCESS` ends the session. -/
theorem finishRequest_sessionClosed {rc rc' : Int} {w w' : World σ H}
    (h : (finishRequest rc).run w = some (rc', w')) (hstatus : IsStatus rc)
    (hne : rc' ≠ mqttSuccess) : w'.client.SessionClosed := by
  rw [run_finishRequest] at h
  cases h
  rw [if_pos (hstatus.resolve_left hne)]
  exact w.client.closeSession_sessionClosed

theorem awaitAck_isStatus {packetType : MsgType} {timer : Timer} {rc : Int} {w w' : World σ H}
    (h : (awaitAck P fuel packetType timer).run w = some (rc, w')) : IsStatus rc := by
  obtain ⟨answer, w₁, _, h⟩ := run_bind_eq_some.mp h
  split at h
  · obtain ⟨c, w₂, _, h⟩ := run_bind_eq_some.mp h
    split at h
    · exact .inr (run_pure_eq_some.mp h).1.symm
    · exact .inl (run_pure_eq_some.mp h).1.symm
  · exact .inr (run_pure_eq_some.mp h).1.symm

theorem HandlerTable.setMessageHandler_isStatus (table : HandlerTable H) (topicFilter : CString)
    (messageHandler : Option H) :
    IsStatus (table.setMessageHandler topicFilter messageHandler).1 := by
  unfold setMessageHandler
  split
  · exact .inl rfl
  · exact .inl rfl
  · exact .inr rfl
  · split
    · exact .inl rfl
    · exact .inr rfl

theorem acceptSuback_isStatus {topicFilter : CString} {messageHandler : Option H}
    {result : Int × Int} {w w' : World σ H}
    (h : (acceptSuback topicFilter messageHandler).run w = some (result, w')) :
    IsStatus result.1 := by
  obtain ⟨c, w₁, _, h⟩ := run_bind_eq_some.mp h
  split at h
  dsimp only at h
  split at h
  · obtain ⟨rc, w₂, hset, h⟩ := run_bind_eq_some.mp h
    obtain ⟨rfl, _⟩ := run_pure_eq_some.mp h
    obtain ⟨c', w₃, _, hset⟩ := run_bind_eq_some.mp hset
    obtain ⟨_, w₄, _, hset⟩ := run_bind_eq_some.mp hset
    obtain ⟨rfl, _⟩ := run_pure_eq_some.mp hset
    exact HandlerTable.setMessageHandler_isStatus _ _ _
  · obtain ⟨rfl, _⟩ := run_pure_eq_some.mp h
    exact .inl rfl

theorem acceptUnsuback_rc {topicFilter : CString} {rc : Int} {w w' : World σ H}
    (h : (acceptUnsuback topicFilter).run w = some (rc, w')) : rc = mqttSuccess := by
  obtain ⟨c, w₁, _, h⟩ := run_bind_eq_some.mp h
  split at h
  · obtain ⟨_, w₂, _, h⟩ := run_bind_eq_some.mp h
    exact (run_pure_eq_some.mp h).1.symm
  · exact (run_pure_eq_some.mp h).1.symm

theorem mqttPublish_sessionClosed {topicName : CString} {message : MQTTMessage} {rc : Int}
    {w w' : World σ H} (h : (mqttPublish P fuel topicName message).run w = some (rc, w'))
    (hne : rc ≠ mqttSuccess) : w'.client.SessionClosed := by
  obtain ⟨c, w₁, _, h⟩ := run_bind_eq_some.mp h
  split at h
  · obtain ⟨sent, w₂, _, h⟩ := run_bind_eq_some.mp h
    split at h
    · exact finishRequest_sessionClosed h (.inr rfl) hne
    · split at h
      · obtain ⟨rc', w₃, hack, h⟩ := run_bind_eq_some.mp h
        exact finishRequest_sessionClosed h (awaitAck_isStatus hack) hne
      · split at h
        · obtain ⟨rc', w₃, hack, h⟩ := run_bind_eq_some.mp h
          exact finishRequest_sessionClosed h (awaitAck_isStatus hack) hne
        · exact finishRequest_sessionClosed h (.inl rfl) hne
  · exact finishRequest_sessionClosed h (.inr rfl) hne

theorem mqttSubscribeWithResults_sessionClosed {topicFilter : CString} {qos : Int}
    {messageHandler : Option H} {grantedQoS : Int} {result : Int × Int} {w w' : World σ H}
    (h : (mqttSubscribeWithResults P fuel topicFilter qos messageHandler grantedQoS).run w =
      some (result, w')) (hne : result.1 ≠ mqttSuccess) : w'.client.SessionClosed := by
  -- every path ends in the same block, which passes its status on
  have hfinish : ∀ {rc granted : Int} {v : World σ H}, IsStatus rc →
      (finishRequest rc >>= fun rc => pure (rc, granted)).run v = some (result, w') →
      w'.client.SessionClosed := by
    intro rc granted v hstatus hrun
    obtain ⟨rc', v', hexit, hpure⟩ := run_bind_eq_some.mp hrun
    obtain ⟨rfl, rfl⟩ := run_pure_eq_some.mp hpure
    exact finishRequest_sessionClosed hexit hstatus hne
  obtain ⟨c, w₁, _, h⟩ := run_bind_eq_some.mp h
  split at h
  · obtain ⟨sent, w₂, _, h⟩ := run_bind_eq_some.mp h
    split at h
    · exact hfinish (.inr rfl) h
    · obtain ⟨answer, w₃, _, h⟩ := run_bind_eq_some.mp h
      split at h
      · obtain ⟨⟨rc', granted⟩, w₄, haccept, h⟩ := run_bind_eq_some.mp h
        exact hfinish (acceptSuback_isStatus haccept) h
      · exact hfinish (.inr rfl) h
  · exact hfinish (.inr rfl) h

theorem mqttUnsubscribe_sessionClosed {topicFilter : CString} {rc : Int} {w w' : World σ H}
    (h : (mqttUnsubscribe P fuel topicFilter).run w = some (rc, w')) (hne : rc ≠ mqttSuccess) :
    w'.client.SessionClosed := by
  obtain ⟨c, w₁, _, h⟩ := run_bind_eq_some.mp h
  split at h
  · obtain ⟨sent, w₂, _, h⟩ := run_bind_eq_some.mp h
    split at h
    · exact finishRequest_sessionClosed h (.inr rfl) hne
    · obtain ⟨answer, w₃, _, h⟩ := run_bind_eq_some.mp h
      split at h
      · obtain ⟨rc', w₄, haccept, h⟩ := run_bind_eq_some.mp h
        exact finishRequest_sessionClosed h (.inl (acceptUnsuback_rc haccept)) hne
      · exact finishRequest_sessionClosed h (.inr rfl) hne
  · exact finishRequest_sessionClosed h (.inr rfl) hne

theorem mqttDisconnect_sessionClosed {rc : Int} {w w' : World σ H}
    (h : (mqttDisconnect P fuel).run w = some (rc, w')) : w'.client.SessionClosed := by
  obtain ⟨c, w₁, _, h⟩ := run_bind_eq_some.mp h
  obtain ⟨timer, w₂, _, h⟩ := run_bind_eq_some.mp h
  obtain ⟨len, w₃, _, h⟩ := run_bind_eq_some.mp h
  split at h
  · obtain ⟨rc', w₄, _, h⟩ := run_bind_eq_some.mp h
    obtain ⟨_, w₅, hclose, h⟩ := run_bind_eq_some.mp h
    cases hclose
    obtain ⟨_, rfl⟩ := run_pure_eq_some.mp h
    exact w₄.client.closeSession_sessionClosed
  · obtain ⟨_, w₄, hclose, h⟩ := run_bind_eq_some.mp h
    cases hclose
    obtain ⟨_, rfl⟩ := run_pure_eq_some.mp h
    exact w₃.client.closeSession_sessionClosed

theorem mqttYieldLoop_isconnected_of_failure {timer : Timer} :
    ∀ {steps : Nat} {w w' : World σ H},
      (mqttYieldLoop P fuel timer steps).run w = some (failure, w') →
      w'.client.isconnected = false := by
  intro steps
  induction steps with
  | zero => intro w w' h; cases h
  | succ steps ih =>
      intro w w' h
      obtain ⟨rc, w₁, hcycle, h⟩ := run_bind_eq_some.mp h
      split at h
      · rename_i hrc
        obtain ⟨_, rfl⟩ := run_pure_eq_some.mp h
        rcases cycle_turn hcycle with ⟨call, _, ⟨hhandled, rfl, _⟩ | ⟨_, hclosed⟩⟩
        · exact absurd (nonneg_of_isHandled hhandled) (by omega)
        · exact hclosed
      · obtain ⟨expired, w₂, _, h⟩ := run_bind_eq_some.mp h
        split at h
        · exact absurd (run_pure_eq_some.mp h).1 (by decide)
        · exact ih h

/-- A request that does not succeed, any disconnect, and a failing yield leave no
session behind, whatever the network and the broker did during the call. -/
theorem session_closed_of_failure (P : Platform σ) (fuel : Nat) (w : World σ H) :
    (∀ topicName message rc w',
      (mqttPublish P fuel topicName message).run w = some (rc, w') → rc ≠ mqttSuccess →
      w'.client.SessionClosed) ∧
    (∀ topicFilter qos messageHandler grantedQoS rc grantedQoS' w',
      (mqttSubscribeWithResults P fuel topicFilter qos messageHandler grantedQoS).run w =
        some ((rc, grantedQoS'), w') → rc ≠ mqttSuccess → w'.client.SessionClosed) ∧
    (∀ topicFilter rc w',
      (mqttUnsubscribe P fuel topicFilter).run w = some (rc, w') → rc ≠ mqttSuccess →
      w'.client.SessionClosed) ∧
    (∀ rc w', (mqttDisconnect P fuel).run w = some (rc, w') → w'.client.SessionClosed) ∧
    (∀ timeoutMs w', (mqttYield P fuel timeoutMs).run w = some (failure, w') →
      w'.client.isconnected = false) := by
  refine ⟨fun _ _ _ _ h hne => mqttPublish_sessionClosed h hne,
    fun _ _ _ _ _ _ _ h hne => mqttSubscribeWithResults_sessionClosed h hne,
    fun _ _ _ h hne => mqttUnsubscribe_sessionClosed h hne,
    fun _ _ h => mqttDisconnect_sessionClosed h, ?_⟩
  intro timeoutMs w' h
  obtain ⟨timer, w₁, _, h⟩ := run_bind_eq_some.mp h
  exact mqttYieldLoop_isconnected_of_failure h

/-- A PUBACK whose length field announces more bytes than the read buffer holds. -/
def oversizedPuback : List UInt8 := [0x40, 0xFF, 0xFF, 0xFF, 0x7F]

/-- With it for an answer, each of the calls ends the session. -/
theorem session_closed_of_failure_oversized :
    (∃ w', (mqttPublish (linuxPlatform Recording.host 8) 8 ⟨[97], by decide⟩
        ⟨1, 0, 0, 0, .null, 0⟩).run (connectedWorld oversizedPuback) = some (failure, w') ∧
      w'.client.SessionClosed) ∧
    (∃ grantedQoS w', (mqttSubscribeWithResults (linuxPlatform Recording.host 8) 8
        ⟨[97], by decide⟩ 0 (some ()) 0).run (connectedWorld oversizedPuback) =
          some ((failure, grantedQoS), w') ∧ w'.client.SessionClosed) ∧
    (∃ w', (mqttUnsubscribe (linuxPlatform Recording.host 8) 8 ⟨[97], by decide⟩).run
        (connectedWorld oversizedPuback) = some (failure, w') ∧ w'.client.SessionClosed) ∧
    (∃ rc w', (mqttDisconnect (linuxPlatform Recording.host 8) 8).run
        (connectedWorld oversizedPuback) = some (rc, w') ∧ w'.client.SessionClosed) ∧
    (∃ w', (mqttYield (linuxPlatform Recording.host 8) 8 0).run
        (connectedWorld oversizedPuback) = some (failure, w') ∧
      w'.client.isconnected = false) := by
  obtain ⟨_, w₁, hpublish, rfl⟩ := returns_of_map_eq
    (show ((mqttPublish (linuxPlatform Recording.host 8) 8 ⟨[97], by decide⟩
      ⟨1, 0, 0, 0, .null, 0⟩).run (connectedWorld oversizedPuback)).map Prod.fst =
      some failure by decide)
  obtain ⟨⟨_, grantedQoS⟩, w₂, hsubscribe, hrc⟩ := returns_of_map_eq
    (show ((mqttSubscribeWithResults (linuxPlatform Recording.host 8) 8 ⟨[97], by decide⟩ 0
      (some ()) 0).run (connectedWorld oversizedPuback)).map Prod.fst = some (failure, 0) by decide)
  cases hrc
  obtain ⟨_, w₃, hunsubscribe, rfl⟩ := returns_of_map_eq
    (show ((mqttUnsubscribe (linuxPlatform Recording.host 8) 8 ⟨[97], by decide⟩).run
      (connectedWorld oversizedPuback)).map Prod.fst = some failure by decide)
  obtain ⟨rc, w₄, hdisconnect, _⟩ := returns_of_map_eq
    (show ((mqttDisconnect (linuxPlatform Recording.host 8) 8).run
      (connectedWorld oversizedPuback)).map Prod.fst = some mqttSuccess by decide)
  obtain ⟨_, w₅, hyield, rfl⟩ := returns_of_map_eq
    (show ((mqttYield (linuxPlatform Recording.host 8) 8 0).run
      (connectedWorld oversizedPuback)).map Prod.fst = some failure by decide)
  obtain ⟨hpublishes, hsubscribes, hunsubscribes, hdisconnects, hyields⟩ :=
    session_closed_of_failure (linuxPlatform Recording.host 8) 8 (connectedWorld oversizedPuback)
  exact ⟨⟨w₁, hpublish, hpublishes _ _ _ w₁ hpublish (by decide)⟩,
    ⟨0, w₂, hsubscribe, hsubscribes _ _ _ _ _ _ w₂ hsubscribe (by decide)⟩,
    ⟨w₃, hunsubscribe, hunsubscribes _ _ w₃ hunsubscribe (by decide)⟩,
    ⟨rc, w₄, hdisconnect, hdisconnects rc w₄ hdisconnect⟩, w₅, hyield, hyields 0 w₅ hyield⟩

end MqttClient

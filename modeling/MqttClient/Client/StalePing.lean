/-
# The ping flag outside a session

`MQTTCloseSession` clears `ping_outstanding` together with `isconnected`, and so a ping
of a session does not outlive it.  But `keepalive` does not ask whether there is a
session.  `MQTTConnect` takes turns while it waits for the CONNACK, `MQTTYield` takes
them whether or not the client is connected, and a call goes on with its wait after a
packet of an unexpected type has closed the session.  A turn of these may send a ping,
and `MQTTConnect` returns its failure without closing anything.

Below, the turns of a call are listed, and as long as none of them finds a ping due
outside a session the flag is clear whenever the client is not connected.
-/

import MqttClient.Client.Keepalive
import MqttClient.Client.PingSessions

namespace MqttClient

open Semantics Program

variable {σ H : Type} {P : Platform σ} {fuel : Nat}

/-! ## The turns of a call -/

section Turns

variable (P : Platform σ) (fuel : Nat)

/-- The worlds in which the loop of `MQTTYield` starts its turns. -/
def mqttYieldTurns (timer : Timer) : Nat → World σ H → List (World σ H)
  | 0, _ => []
  | steps + 1, w =>
      w :: match (cycle P fuel timer).run w with
        | none => []
        | some (rc, w₁) =>
            if rc < 0 ∨ timer.isExpiredAt (P.gettimeofday w₁.env).1 then []
            else mqttYieldTurns timer steps (w₁.asked P timer)

/-- The worlds in which the loop of `waitfor` starts its turns. -/
def waitforTurns (packetType : MsgType) (timer : Timer) : Nat → World σ H → List (World σ H)
  | 0, _ => []
  | steps + 1, w =>
      if timer.isExpiredAt (P.gettimeofday w.env).1 then []
      else
        w.asked P timer :: match (cycle P fuel timer).run (w.asked P timer) with
          | none => []
          | some (rc, w₁) =>
              if rc ≠ packetType.code ∧ 0 ≤ rc then waitforTurns packetType timer steps w₁ else []

/-- The turns after a request, each with its timer. -/
def Request.turns (request : Request) (w : World σ H) : List (Timer × World σ H) :=
  match (sendRequest P fuel (request.prepare P)).run w, request.answer with
  | some (some timer, w₁), some packetType =>
      (waitforTurns P fuel packetType timer fuel w₁).map fun w₂ => (timer, w₂)
  | _, _ => []

/-- The turns of a call: those of `MQTTYield`, and those after the request of any other. -/
def Call.turns (call : Call H) (w : World σ H) : List (Timer × World σ H) :=
  match call with
  | yield timeoutMs =>
      let timer := .countdownMSAt (P.gettimeofday w.env).1 (toUnsignedInt timeoutMs)
      (mqttYieldTurns P fuel timer fuel (w.ticked P)).map fun w₁ => (timer, w₁)
  | _ => (call.request w).elim [] fun request => request.turns P fuel w

/-- The turn reaches its keepalive check and finds that a ping is due. -/
def findsPingDue (timer : Timer) (w : World σ H) : Bool :=
  (checkWorld P fuel timer w).any fun w₂ =>
    w₂.client.keepAliveInterval ≠ 0 ∧
      (w₂.client.lastSent.isExpiredAt (checkTimes P w₂.env).1 ∨
        w₂.client.lastReceived.isExpiredAt (checkTimes P w₂.env).2)

/-- The turn is one of a session, or it finds no ping due. -/
def PingsInSession (turn : Timer × World σ H) : Prop :=
  turn.2.client.isconnected = false → findsPingDue P fuel turn.1 turn.2 = false

instance (turn : Timer × World σ H) : Decidable (PingsInSession P fuel turn) :=
  inferInstanceAs (Decidable (_ → _))

end Turns

/-! ## Turns -/

/-- Without a session no ping is outstanding. -/
def NoStalePing (c : MQTTClient H) : Prop := c.isconnected = false → c.pingOutstanding = false

/-- What `w'` may have inherited from `w`. -/
def KeepsClear (w w' : World σ H) : Prop := NoStalePing w.client → NoStalePing w'.client

theorem KeepsClear.refl (w : World σ H) : KeepsClear w w := id

theorem KeepsClear.trans {w w' w'' : World σ H} (h : KeepsClear w w') (h' : KeepsClear w' w'') :
    KeepsClear w w'' :=
  fun hclear => h' (h hclear)

theorem SameFlags.keepsClear {w w' : World σ H} (h : SameFlags w w') : KeepsClear w w' := by
  intro hclear hclosed
  rw [h.pingOutstanding]
  exact hclear (h.isconnected ▸ hclosed)

theorem keepsClear_closeSession (w : World σ H) :
    KeepsClear w (w.update MQTTClient.closeSession) :=
  fun _ _ => w.client.closeSession_sessionClosed.pingOutstanding

/-- A check that finds no ping due leaves the flags alone. -/
theorem keepalive_sameFlags {timer : Timer} {kept : Int} {w w₂ w₃ : World σ H}
    (hcheck : checkWorld P fuel timer w = some w₂) (hdue : findsPingDue P fuel timer w = false)
    (h : (keepalive P fuel).run w₂ = some (kept, w₃)) : SameFlags w₂ w₃ := by
  rw [findsPingDue, hcheck, Option.any_some, decide_eq_false_iff_not, not_and, not_or] at hdue
  rw [keepalive, run_bind_of_eq_some (run_client w₂)] at h
  split at h
  · obtain ⟨_, rfl⟩ := run_pure_eq_some.mp h
    exact ⟨rfl, rfl⟩
  · rename_i hinterval
    obtain ⟨hsent, hreceived⟩ := hdue hinterval
    obtain ⟨due, w₄, hrun, h⟩ := run_bind_eq_some.mp h
    rw [run_keepaliveDue, if_neg hsent] at hrun
    obtain ⟨rfl, rfl⟩ := Prod.mk.inj (Option.some.inj hrun)
    rw [if_neg hreceived] at h
    obtain ⟨_, rfl⟩ := run_pure_eq_some.mp h
    exact ⟨rfl, rfl⟩

/-- A packet does not open or close the session, and it can only clear the flag. -/
theorem keepsClear_packet {timer : Timer} {packetType : Int} {jump : Jump} {w w₁ w₂ : World σ H}
    (hread : (readPacket P timer).run w = some (packetType, w₁))
    (hdispatch : (dispatch P fuel packetType timer).run w₁ = some (jump, w₂)) :
    w₂.client.isconnected = w.client.isconnected ∧ KeepsClear w w₂ := by
  have hsame := readPacket_sameFlags hread
  obtain ⟨hconn, hping⟩ := dispatch_flags hdispatch
  refine ⟨hconn.trans hsame.isconnected, fun hclear hclosed => ?_⟩
  rw [hping]
  split
  · rfl
  · exact hsame.keepsClear hclear (hconn ▸ hclosed)

theorem NoStalePing.dropSession {c : MQTTClient H} (h : NoStalePing c) :
    NoStalePing c.dropSession := by
  intro _
  rw [c.dropSession_flags.1]
  cases hconn : c.isconnected with
  | true => rfl
  | false => exact h hconn

/-- A turn of a session closes it or leaves it open; one outside a session sets the flag
only if it finds a ping due. -/
theorem keepsClear_turn {timer : Timer} {rc : Int} {w w' : World σ H}
    (hturn : PingsInSession P fuel (timer, w)) (h : (cycle P fuel timer).run w = some (rc, w')) :
    KeepsClear w w' := by
  intro hclear
  obtain ⟨packetType, w₁, w₂, w₃, jump, hread, hdispatch, hcheck, hend⟩ := cycle_check h
  obtain ⟨hconn, hpacket⟩ := keepsClear_packet hread hdispatch
  have hchecked : NoStalePing w₃.client := by
    rcases hcheck with ⟨_, rfl⟩ | ⟨hworld, kept, hkeep⟩
    · exact hpacket hclear
    · intro hclosed
      have houtside : w.client.isconnected = false := by
        rw [← hconn, ← keepalive_isconnected hkeep]
        exact hclosed
      exact (keepalive_sameFlags hworld (hturn houtside) hkeep).keepsClear (hpacket hclear) hclosed
  rcases hend with rfl | rfl
  · exact hchecked
  · exact hchecked.dropSession

/-! ## Loops -/

theorem keepsClear_mqttYieldLoop {timer : Timer} : ∀ {steps : Nat} {rc : Int} {w w' : World σ H},
    (mqttYieldLoop P fuel timer steps).run w = some (rc, w') →
      (∀ w₁ ∈ mqttYieldTurns P fuel timer steps w, PingsInSession P fuel (timer, w₁)) →
      KeepsClear w w' := by
  intro steps
  induction steps with
  | zero => intro rc w w' h; cases h
  | succ steps ih =>
      intro rc w w' h hturns
      rw [mqttYieldTurns, List.forall_mem_cons] at hturns
      obtain ⟨hfirst, hlater⟩ := hturns
      obtain ⟨rc₁, w₁, hcycle, h⟩ := run_bind_eq_some.mp h
      refine (keepsClear_turn hfirst hcycle).trans ?_
      rw [hcycle] at hlater
      dsimp only at hlater
      split at h
      · obtain ⟨_, rfl⟩ := run_pure_eq_some.mp h
        exact .refl w₁
      · rename_i hnonneg
        have hasked : KeepsClear w₁ (w₁.asked P timer) := id
        rw [run_bind_of_eq_some (run_timerIsExpired timer w₁)] at h
        split at h
        · obtain ⟨_, rfl⟩ := run_pure_eq_some.mp h
          exact hasked
        · rename_i hrunning
          rw [if_neg (not_or.mpr ⟨hnonneg, hrunning⟩)] at hlater
          exact hasked.trans (ih h hlater)

theorem keepsClear_waitforLoop {packetType : MsgType} {timer : Timer} :
    ∀ {steps : Nat} {rc rc' : Int} {w w' : World σ H},
      (waitforLoop P fuel packetType timer steps rc).run w = some (rc', w') →
      (∀ w₁ ∈ waitforTurns P fuel packetType timer steps w, PingsInSession P fuel (timer, w₁)) →
      KeepsClear w w' := by
  intro steps
  induction steps with
  | zero => intro rc rc' w w' h; cases h
  | succ steps ih =>
      intro rc rc' w w' h hturns
      have hasked : KeepsClear w (w.asked P timer) := id
      refine hasked.trans ?_
      rw [waitforTurns] at hturns
      rw [waitforLoop, run_bind_of_eq_some (run_timerIsExpired timer w)] at h
      split at h
      · obtain ⟨_, rfl⟩ := run_pure_eq_some.mp h
        exact .refl _
      · rename_i hrunning
        rw [if_neg hrunning, List.forall_mem_cons] at hturns
        obtain ⟨hfirst, hlater⟩ := hturns
        obtain ⟨rc₁, w₁, hcycle, h⟩ := run_bind_eq_some.mp h
        refine (keepsClear_turn hfirst hcycle).trans ?_
        rw [hcycle] at hlater
        dsimp only at hlater
        split at h
        · rename_i hgoes
          rw [if_pos hgoes] at hlater
          exact ih h hlater
        · obtain ⟨_, rfl⟩ := run_pure_eq_some.mp h
          exact .refl w₁

/-! ## Calls -/

theorem endFrame_keepsClear : EndFrame (KeepsClear (σ := σ) (H := H)) where
  refl := .refl
  trans := .trans
  setHandler _ _ _ _ _ h := (sameFlags_setMessageHandler _ _ _ _ _ h).keepsClear
  suback _ _ := keeps_acceptSuback .refl fun _ _ _ h =>
    (sameFlags_setMessageHandler _ _ _ _ _ h).keepsClear
  unsuback _ := keeps_acceptUnsuback .refl fun _ _ _ h =>
    (sameFlags_setMessageHandler _ _ _ _ _ h).keepsClear
  -- the session is opened with the flag clear
  opened := by
    intro w rc w' h _ _
    cases h
    rfl
  closed := by
    intro w rc w' h
    cases h
    exact keepsClear_closeSession w

theorem keepsClear_sendRequest (request : Request) :
    Keeps KeepsClear (sendRequest P fuel (request.prepare P) : Action σ H _) :=
  fun _ _ _ h =>
    (reactFrame_sameFlags.sendRequest (sameFlags_prepare request) _ _ _ h).keepsClear

theorem keepsClear_yield {timeoutMs rc : Int} {w w' : World σ H}
    (hturns : ∀ turn ∈ (Call.yield timeoutMs : Call H).turns P fuel w, PingsInSession P fuel turn)
    (h : (mqttYield P fuel timeoutMs).run w = some (rc, w')) : KeepsClear w w' := by
  have hticked : KeepsClear w (w.ticked P) := id
  rw [mqttYield, run_bind_of_eq_some (run_timerCountdownMS _ w)] at h
  exact hticked.trans (keepsClear_mqttYieldLoop h fun w₁ hmem =>
    hturns _ (List.mem_map_of_mem hmem))

/-- A request whose wait pings in a session only. -/
theorem Requested.keepsClear {request : Option Request} {w w' : World σ H}
    (h : Requested P fuel KeepsClear request w w')
    (hturns : ∀ r ∈ request, ∀ turn ∈ r.turns P fuel w, PingsInSession P fuel turn) :
    KeepsClear w w' := by
  cases h with
  | refused hend => exact hend
  | sent hsend hend => exact (keepsClear_sendRequest _ _ _ _ hsend).trans hend
  | @awaited request timer packetType _ _ w₁ _ _ hsend hanswer hwait hend =>
      have hwaits : ∀ w₂ ∈ waitforTurns P fuel packetType timer fuel w₁,
          PingsInSession P fuel (timer, w₂) := by
        intro w₂ hmem
        have hrequest := hturns request rfl
        rw [Request.turns, hsend, hanswer] at hrequest
        exact hrequest _ (List.mem_map_of_mem hmem)
      have hwaited := keepsClear_waitforLoop hwait hwaits
      exact ((keepsClear_sendRequest _ _ _ _ hsend).trans hwaited).trans hend

theorem Call.turns_of_request {call : Call H} {w : World σ H} {request : Request}
    (h : request ∈ call.request w) : call.turns P fuel w = request.turns P fuel w := by
  unfold turns
  split
  · cases h
  · rw [Option.mem_def.mp h, Option.elim_some]

/-- A call whose turns ping in a session only leaves the flag in order. -/
theorem CallStep.keepsClear {w w' : World σ H} {call : Call H} (h : CallStep P fuel w call w')
    (hturns : ∀ turn ∈ call.turns P fuel w, PingsInSession P fuel turn) : KeepsClear w w' := by
  obtain ⟨args, rfl, rfl⟩ | ⟨rfl, _, h⟩ | ⟨timeoutMs, rfl, _, h⟩ | h := h.cases endFrame_keepsClear
  · exact fun _ _ => rfl
  · exact fun _ _ => (mqttDisconnect_sessionClosed h).pingOutstanding
  · exact keepsClear_yield hturns h
  · refine h.keepsClear fun request hrequest => ?_
    rw [← Call.turns_of_request hrequest]
    exact hturns

/-- In every run from `MQTTClientInit` whose turns outside a session find no ping due,
no ping is outstanding between two calls if the client is not connected. -/
theorem noStalePing_of_pingsInSession {calls : List (Transition (World σ H) (Call H))}
    {w w' : World σ H} {args : InitArgs}
    (hrun : Run (CallStep P fuel) (w.update args.init) calls w')
    (hturns : ∀ call ∈ calls, ∀ turn ∈ call.label.turns P fuel call.source,
      PingsInSession P fuel turn) :
    NoStalePing w'.client ∧
      ∀ call ∈ calls, NoStalePing call.source.client ∧ NoStalePing call.target.client := by
  have hinit : NoStalePing (w.update args.init).client := fun _ => rfl
  obtain ⟨hlast, hcalls⟩ := hrun.invariant (fun w => NoStalePing w.client) hinit hturns
    fun call hstep hcall => hstep.keepsClear hcall
  exact ⟨hlast, fun call hcall => (hcalls call hcall).2⟩

/-! ## A connection attempt that leaves a ping behind -/

/-- The arguments of `MqttConnectBroker`, with a command timeout of three seconds. -/
def patientArgs : InitArgs := ⟨3000, zeroBuffer, mqttBufsize, zeroBuffer, mqttBufsize⟩

/-- The client before `MQTTClientInit`, at time 0. -/
def silentStart : World Nat Unit := ⟨staticClient, 0, []⟩

/-- The connection parameters of `MqttConnectBroker`, with this keepalive interval. -/
def optionsEvery (seconds : UInt16) : MQTTPacketConnectData :=
  { connectOptions with keepAliveInterval := seconds }

/-- A broker that accepts the CONNECT packet and stays silent: after a second the wait
for the CONNACK sends a ping, after another it gives up, and the flag stays. -/
theorem not_noStalePing_connect :
    ∃ w₁, Run (CallStep (silentPlatform 1) 8) (silentStart.update patientArgs.init)
        [⟨silentStart.update patientArgs.init, .connect (some (optionsEvery 1)) ⟨0, 0⟩, w₁⟩] w₁ ∧
      ¬ NoStalePing w₁.client := by
  have hconnect : ((mqttConnect (silentPlatform 1) 8 (some (optionsEvery 1)) ⟨0, 0⟩).run
      (silentStart.update patientArgs.init)).map
        (fun r => (r.1, r.2.client.isconnected, r.2.client.pingOutstanding)) =
      some (failure, false, true) := by
    decide
  obtain ⟨⟨rc, w₁⟩, hrun, hflags⟩ := Option.map_eq_some_iff.mp hconnect
  obtain ⟨_, hflags⟩ := Prod.mk.inj hflags
  obtain ⟨hclosed, hping⟩ := Prod.mk.inj hflags
  refine ⟨w₁, .single ⟨rc, hrun⟩, fun hclear => ?_⟩
  rw [hclear hclosed] at hping
  cases hping

/-- The same attempt with an interval of a minute: it takes three turns and fails, and
no ping is due in any of them. -/
theorem noStalePing_of_pingsInSession_minute :
    ∃ w₁, Run (CallStep (silentPlatform 1) 8) (silentStart.update patientArgs.init)
        [⟨silentStart.update patientArgs.init, .connect (some (optionsEvery 60)) ⟨0, 0⟩, w₁⟩]
        w₁ ∧
      ((Call.connect (some (optionsEvery 60)) ⟨0, 0⟩ : Call Unit).turns (silentPlatform 1) 8
        (silentStart.update patientArgs.init)).length = 3 ∧
      w₁.client.isconnected = false ∧ w₁.client.pingOutstanding = false := by
  have hconnect : ((mqttConnect (silentPlatform 1) 8 (some (optionsEvery 60)) ⟨0, 0⟩).run
      (silentStart.update patientArgs.init)).map (fun r => r.2.client.isconnected) =
      some false := by
    decide
  have hturns : ∀ turn ∈ (Call.connect (some (optionsEvery 60)) ⟨0, 0⟩ : Call Unit).turns
      (silentPlatform 1) 8 (silentStart.update patientArgs.init),
        PingsInSession (silentPlatform 1) 8 turn := by
    decide
  obtain ⟨⟨rc, w₁⟩, hcall, hclosed⟩ := Option.map_eq_some_iff.mp hconnect
  have hrun : Run (CallStep (silentPlatform 1) 8) (silentStart.update patientArgs.init)
      [⟨silentStart.update patientArgs.init, .connect (some (optionsEvery 60)) ⟨0, 0⟩, w₁⟩] w₁ :=
    .single ⟨rc, hcall⟩
  obtain ⟨hclear, _⟩ := noStalePing_of_pingsInSession hrun (List.forall_mem_singleton.mpr hturns)
  exact ⟨w₁, hrun, by decide, hclosed, hclear hclosed⟩

end MqttClient

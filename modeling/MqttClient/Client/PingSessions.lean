/-
# Pings and their answers, session by session

The ping flag is set in one place and cleared in four, and pings go out from every
turn, wherever the turn is made: while waiting for an answer as well as in `MQTTYield`.
A call of the client's interface is a sequence of parts, and the parts that matter for
the flag leave milestones: a session begins or ends, a PINGREQ has been written, a
PINGRESP has been processed.  The flag is a function of the last milestone, and a ping
needs the flag to be clear, so that in one session two pings are separated by an answer.
-/

import MqttClient.Semantics.Transition
import MqttClient.Client.Calls
import MqttClient.Client.Ping
import MqttClient.Client.Session

namespace MqttClient

open Semantics Program

variable {σ H : Type} {P : Platform σ} {fuel : Nat}

/-! ## Histories of pings -/

/-- What an observer of the sessions of a client notes down. -/
inductive Milestone
  /-- `MQTTConnect` succeeded. -/
  | opened
  /-- `MQTTCloseSession` or `MQTTClientInit`. -/
  | closed
  /-- A PINGREQ was written successfully. -/
  | pinged
  /-- `cycle` processed a PINGRESP. -/
  | answered
  deriving DecidableEq, Repr

/-- At the end of the history a session is open, and this happened in it so far. -/
structure IsSession (history session : List Milestone) : Prop where
  since_opened : ∃ earlier, history = earlier ++ .opened :: session
  not_opened : .opened ∉ session
  not_closed : .closed ∉ session

/-- In no session are there two pings without an answer between them. -/
def PingsAlternate (history : List Milestone) : Prop :=
  ∀ sofar session, sofar <+: history → IsSession sofar session →
    ∀ first between rest, session = first ++ .pinged :: (between ++ .pinged :: rest) →
      .answered ∈ between

/-- A ping of the session has not been answered since. -/
def AwaitsAnswer (session : List Milestone) : Prop :=
  ∃ before after, session = before ++ .pinged :: after ∧ .answered ∉ after

/-- The milestones take the ping flag from the one value to the other: a ping needs it
clear and sets it, and every other milestone clears it. -/
def Follows : Bool → List Milestone → Bool → Prop
  | flag, [], flag' => flag' = flag
  | flag, m :: ms, flag' => (m = .pinged → flag = false) ∧ Follows (m == .pinged) ms flag'

namespace Follows

variable {flag flag' flag'' : Bool} {ms ms' : List Milestone}

theorem append : ∀ {flag : Bool} {ms : List Milestone}, Follows flag ms flag' →
    Follows flag' ms' flag'' → Follows flag (ms ++ ms') flag''
  | _, [], h, h' => by
      cases h
      exact h'
  | _, _ :: _, h, h' => ⟨h.1, append h.2 h'⟩

theorem of_append : ∀ {flag : Bool} {ms : List Milestone}, Follows flag (ms ++ ms') flag'' →
    ∃ flag', Follows flag ms flag' ∧ Follows flag' ms' flag''
  | flag, [], h => ⟨flag, rfl, h⟩
  | _, _ :: _, h => by
      obtain ⟨flag', hfirst, hrest⟩ := of_append h.2
      exact ⟨flag', ⟨h.1, hfirst⟩, hrest⟩

/-- After a ping the next milestone is not a ping. -/
theorem answered_mem {between rest : List Milestone}
    (h : Follows flag (.pinged :: (between ++ .pinged :: rest)) flag')
    (hopened : .opened ∉ between) (hclosed : .closed ∉ between) : .answered ∈ between := by
  cases between with
  | nil => exact absurd (h.2.1 rfl) (by decide)
  | cons m between =>
      cases m with
      | opened => exact absurd List.mem_cons_self hopened
      | closed => exact absurd List.mem_cons_self hclosed
      | pinged => exact absurd (h.2.1 rfl) (by decide)
      | answered => exact List.mem_cons_self

theorem pingsAlternate (h : Follows flag ms flag') : PingsAlternate ms := by
  rintro _ _ ⟨later, rfl⟩ ⟨⟨earlier, rfl⟩, hopened, hclosed⟩ first between rest rfl
  obtain ⟨_, hsofar, _⟩ := h.of_append
  obtain ⟨_, _, hsession⟩ := hsofar.of_append
  obtain ⟨_, _, hpings⟩ := hsession.2.of_append
  exact hpings.answered_mem (fun hmem => hopened (by simp [hmem]))
    fun hmem => hclosed (by simp [hmem])

end Follows

theorem awaitsAnswer_cons {m : Milestone} {ms : List Milestone} :
    AwaitsAnswer (m :: ms) ↔ (m = .pinged ∧ .answered ∉ ms) ∨ AwaitsAnswer ms := by
  constructor
  · rintro ⟨before, after, heq, hafter⟩
    cases before with
    | nil =>
        obtain ⟨rfl, rfl⟩ := List.cons.inj heq
        exact .inl ⟨rfl, hafter⟩
    | cons _ before => exact .inr ⟨before, after, (List.cons.inj heq).2, hafter⟩
  · rintro (⟨rfl, hafter⟩ | ⟨before, after, rfl, hafter⟩)
    · exact ⟨[], ms, rfl, hafter⟩
    · exact ⟨m :: before, after, rfl, hafter⟩

/-- Within a session the flag is set if a ping waits for its answer, one of the session
or one from before. -/
theorem Follows.flag_iff {flag' : Bool} : ∀ {flag : Bool} {session : List Milestone},
    Follows flag session flag' → .opened ∉ session → .closed ∉ session →
      (flag' = true ↔ AwaitsAnswer session ∨ flag = true ∧ .answered ∉ session)
  | flag, [], h, _, _ => by
      cases h
      have hnone : ¬ AwaitsAnswer [] := fun ⟨before, _, heq, _⟩ => by cases before <;> cases heq
      simp [hnone]
  | flag, m :: ms, h, hopened, hclosed => by
      have hrest := flag_iff h.2 (fun hmem => hopened (List.mem_cons_of_mem m hmem))
        fun hmem => hclosed (List.mem_cons_of_mem m hmem)
      rw [hrest, awaitsAnswer_cons]
      cases m with
      | opened => exact absurd List.mem_cons_self hopened
      | closed => exact absurd List.mem_cons_self hclosed
      | pinged =>
          have hclear := h.1 rfl
          simp [hclear, or_comm]
      | answered => simp

theorem Follows.flag_iff_awaitsAnswer {flag flag' : Bool} {history session : List Milestone}
    (h : Follows flag history flag') (hsession : IsSession history session) :
    flag' = true ↔ AwaitsAnswer session := by
  obtain ⟨⟨earlier, rfl⟩, hopened, hclosed⟩ := hsession
  obtain ⟨_, _, hlast⟩ := h.of_append
  have hiff := hlast.2.flag_iff hopened hclosed
  simpa using hiff

/-! ## The parts of a call -/

/-- What the calls of the client's interface are made of. -/
inductive Part (H : Type)
  | turn (timer : Timer)
  | askTimer (timer : Timer)
  | startTimer (timeout : Nat)
  | request (request : Request)
  | suback (topicFilter : CString) (messageHandler : Option H)
  | unsuback (topicFilter : CString)
  | setHandler (topicFilter : CString) (messageHandler : Option H)
  /-- The assignments of `MQTTConnect` after its success. -/
  | openSession
  | closeSession
  | disconnect
  | init (args : InitArgs)

/-- One part of a call, as a step. -/
def PartStep (P : Platform σ) (fuel : Nat) (w : World σ H) (part : Part H) (w' : World σ H) :
    Prop :=
  match part with
  | .turn timer => Leads (cycle P fuel timer) w w'
  | .askTimer timer => Leads (timerIsExpired P timer) w w'
  | .startTimer timeout => Leads (timerCountdownMS P timeout) w w'
  | .request request => Leads (sendRequest P fuel (request.prepare P)) w w'
  | .suback topicFilter messageHandler => Leads (acceptSuback topicFilter messageHandler) w w'
  | .unsuback topicFilter => Leads (acceptUnsuback topicFilter) w w'
  | .setHandler topicFilter messageHandler =>
      Leads (mqttSetMessageHandler topicFilter messageHandler) w w'
  | .openSession => Leads (finishConnect mqttSuccess) w w'
  | .closeSession => Leads mqttCloseSession w w'
  | .disconnect => Leads (mqttDisconnect P fuel) w w'
  | .init args => Leads (modifyClient args.init) w w'

/-- The turn processes a PINGRESP. -/
def answersPing (P : Platform σ) (timer : Timer) (w : World σ H) : Bool :=
  ((readPacket P timer).run w).any fun (rc, _) => rc = MsgType.pingresp.code

/-- The turn writes a PINGREQ: its check succeeds, and the packet is what the check
offers first to the network. -/
def writesPing (P : Platform σ) (fuel : Nat) (timer : Timer) (w : World σ H) : Bool :=
  (checkWorld P fuel timer w).any fun w₂ =>
    ((keepalive P fuel).run w₂).any fun (rc, w₃) =>
      rc = mqttSuccess ∧ (writes (since w₂ w₃)).head? = some pingreqBytes

/-- The milestones of a part.  A turn processes its packet first, and it closes the
session at its end. -/
def partMilestones (P : Platform σ) (fuel : Nat) (step : Transition (World σ H) (Part H)) :
    List Milestone :=
  match step.label with
  | .turn timer =>
      (if answersPing P timer step.source then [.answered] else []) ++
        (if writesPing P fuel timer step.source then [.pinged] else []) ++
          if step.source.client.isconnected && !step.target.client.isconnected then [.closed] else []
  | .openSession => [.opened]
  | .closeSession | .disconnect | .init _ => [.closed]
  | _ => []

/-- The milestones of a sequence of parts. -/
def history (P : Platform σ) (fuel : Nat) (parts : List (Transition (World σ H) (Part H))) :
    List Milestone :=
  parts.flatMap (partMilestones P fuel)

/-! ## The flag along the parts -/

theorem sameFlags_getNextPacketId : Keeps SameFlags (getNextPacketId : Action σ H _) := by
  intro w id w' h
  cases h
  exact ⟨rfl, rfl⟩

theorem sameFlags_setMessageHandler (topicFilter : CString) (messageHandler : Option H) :
    Keeps SameFlags (mqttSetMessageHandler topicFilter messageHandler : Action σ H _) := by
  intro w rc w' h
  cases h
  exact ⟨rfl, rfl⟩

theorem sameFlags_prepare (request : Request) :
    Keeps SameFlags (request.prepare P : Action σ H _) := by
  have hR : ReactFrame P (SameFlags (σ := σ) (H := H)) := reactFrame_sameFlags
  cases request with
  | connect options =>
      intro w serializer w' h
      cases h
      exact ⟨rfl, rfl⟩
  | subscribe topicFilter qos => exact hR.bind sameFlags_getNextPacketId fun _ => hR.pure _
  | unsubscribe topicFilter => exact hR.bind sameFlags_getNextPacketId fun _ => hR.pure _
  | publish topicName message =>
      exact hR.bind (.ite (hR.bind sameFlags_getNextPacketId fun _ => hR.pure _) (hR.pure _))
        fun _ => hR.pure _

/-- The packet of a turn: a PINGRESP clears the flag. -/
theorem follows_answer {timer : Timer} {packetType : Int} {jump : Jump} {w w₁ w₂ : World σ H}
    (hread : (readPacket P timer).run w = some (packetType, w₁))
    (hdispatch : (dispatch P fuel packetType timer).run w₁ = some (jump, w₂)) :
    Follows w.client.pingOutstanding (if answersPing P timer w then [.answered] else [])
      w₂.client.pingOutstanding := by
  have hanswers : answersPing P timer w = decide (packetType = MsgType.pingresp.code) := by
    rw [answersPing, hread]
    rfl
  rw [hanswers, (dispatch_flags hdispatch).2, (readPacket_sameFlags hread).pingOutstanding]
  by_cases htype : packetType = MsgType.pingresp.code
  · rw [if_pos (decide_eq_true htype), if_pos htype]
    exact ⟨nofun, rfl⟩
  · rw [if_neg (by simpa using htype), if_neg htype]
    rfl

/-- The check of a turn: a ping needs the flag clear and sets it. -/
theorem follows_check {timer : Timer} {kept : Int} {w w₂ w₃ : World σ H}
    (hcheck : checkWorld P fuel timer w = some w₂)
    (hkeep : (keepalive P fuel).run w₂ = some (kept, w₃)) :
    Follows w₂.client.pingOutstanding (if writesPing P fuel timer w then [.pinged] else [])
      w₃.client.pingOutstanding := by
  have hwrites : writesPing P fuel timer w =
      decide (kept = mqttSuccess ∧ (writes (since w₂ w₃)).head? = some pingreqBytes) := by
    rw [writesPing, hcheck, Option.any_some, hkeep]
    rfl
  rw [hwrites]
  obtain ⟨rfl, hclear, t, hpinged⟩ | hnot := keepalive_cases hkeep
  · obtain ⟨new, htrace, hhead, _⟩ := hpinged.trace_eq
    rw [if_pos (decide_eq_true ⟨rfl, by rw [since_of_append htrace, hhead]⟩)]
    exact ⟨fun _ => hclear, hpinged.pingOutstanding⟩
  · obtain ⟨new, htrace, hnew⟩ := hnot.trace_eq
    rw [if_neg]
    · exact hnot.flags.pingOutstanding
    · rw [decide_eq_true_eq, since_of_append htrace]
      rintro ⟨hsuccess, hhead⟩
      rw [hnew hsuccess] at hhead
      cases hhead

/-- The end of a turn: if it closes the session it clears the flag. -/
theorem follows_end {w w₃ w' : World σ H}
    (hconn : w₃.client.isconnected = w.client.isconnected)
    (hend : w' = w₃ ∨ w' = w₃.update MQTTClient.dropSession) :
    Follows w₃.client.pingOutstanding
      (if w.client.isconnected && !w'.client.isconnected then [.closed] else [])
      w'.client.pingOutstanding := by
  rcases hend with rfl | rfl
  · rw [hconn, if_neg (by simp)]
    rfl
  · obtain ⟨hping, hclosed⟩ := w₃.client.dropSession_flags
    rw [World.update, hping, hclosed, hconn]
    cases w.client.isconnected with
    | true => exact ⟨fun heq => absurd heq (by decide), rfl⟩
    | false => rfl

theorem follows_turn {timer : Timer} {w w' : World σ H} (h : Leads (cycle P fuel timer) w w') :
    Follows w.client.pingOutstanding (partMilestones P fuel ⟨w, .turn timer, w'⟩)
      w'.client.pingOutstanding := by
  obtain ⟨rc, h⟩ := h
  obtain ⟨packetType, w₁, w₂, w₃, jump, hread, hdispatch, hcheck, hend⟩ := cycle_check h
  have hanswer := follows_answer hread hdispatch
  have hconn₂ : w₂.client.isconnected = w.client.isconnected :=
    (dispatch_flags hdispatch).1.trans (readPacket_sameFlags hread).isconnected
  rcases hcheck with ⟨hnone, rfl⟩ | ⟨hsome, kept, hkeep⟩
  · have hsilent : writesPing P fuel timer w = false := by
      rw [writesPing, hnone]
      rfl
    refine (hanswer.append ?_).append (follows_end hconn₂ hend)
    rw [hsilent]
    rfl
  · have hconn₃ : w₃.client.isconnected = w.client.isconnected :=
      (keepalive_isconnected hkeep).trans hconn₂
    exact (hanswer.append (follows_check hsome hkeep)).append (follows_end hconn₃ hend)

/-- A part that leaves the flags alone has no milestones. -/
theorem follows_nil {w w' : World σ H} (h : SameFlags w w') :
    Follows w.client.pingOutstanding [] w'.client.pingOutstanding :=
  h.pingOutstanding

theorem follows_part {w w' : World σ H} {part : Part H} (h : PartStep P fuel w part w') :
    Follows w.client.pingOutstanding (partMilestones P fuel ⟨w, part, w'⟩)
      w'.client.pingOutstanding := by
  have hR : ReactFrame P (SameFlags (σ := σ) (H := H)) := reactFrame_sameFlags
  cases part with
  | turn timer => exact follows_turn h
  | askTimer timer =>
      obtain ⟨_, h⟩ := h
      exact follows_nil (hR.timerIsExpired _ _ _ _ h)
  | startTimer timeout =>
      obtain ⟨_, h⟩ := h
      exact follows_nil (hR.timerCountdownMS _ _ _ _ h)
  | request request =>
      obtain ⟨_, h⟩ := h
      exact follows_nil (hR.sendRequest (sameFlags_prepare request) _ _ _ h)
  | suback topicFilter messageHandler =>
      obtain ⟨_, h⟩ := h
      exact follows_nil (keeps_acceptSuback hR.refl (sameFlags_setMessageHandler _ _) _ _ _ h)
  | unsuback topicFilter =>
      obtain ⟨_, h⟩ := h
      exact follows_nil (keeps_acceptUnsuback hR.refl (sameFlags_setMessageHandler _ _) _ _ _ h)
  | setHandler topicFilter messageHandler =>
      obtain ⟨_, h⟩ := h
      exact follows_nil (sameFlags_setMessageHandler _ _ _ _ _ h)
  | openSession =>
      obtain ⟨_, h⟩ := h
      cases h
      exact ⟨nofun, rfl⟩
  | closeSession =>
      obtain ⟨_, h⟩ := h
      cases h
      exact ⟨nofun, w.client.closeSession_sessionClosed.pingOutstanding⟩
  | disconnect =>
      obtain ⟨_, h⟩ := h
      exact ⟨nofun, (mqttDisconnect_sessionClosed h).pingOutstanding⟩
  | init args =>
      obtain ⟨_, h⟩ := h
      cases h
      exact ⟨nofun, rfl⟩

theorem follows_parts {w w' : World σ H} {parts : List (Transition (World σ H) (Part H))}
    (h : Run (PartStep P fuel) w parts w') :
    Follows w.client.pingOutstanding (history P fuel parts) w'.client.pingOutstanding := by
  induction h with
  | nil w => rfl
  | @cons w t w' part parts first rest ih =>
      rw [history, List.flatMap_cons]
      exact (follows_part first).append ih

/-! ## The parts of a run of calls -/

/-- The parts lead from the one world to the other. -/
def Passes (P : Platform σ) (fuel : Nat) (w w' : World σ H) : Prop :=
  ∃ parts, Run (PartStep P fuel) w parts w'

theorem Passes.refl (w : World σ H) : Passes P fuel w w := ⟨[], .nil w⟩

theorem Passes.trans {w w' w'' : World σ H} (h : Passes P fuel w w') (h' : Passes P fuel w' w'') :
    Passes P fuel w w'' := by
  obtain ⟨parts, hparts⟩ := h
  obtain ⟨parts', hparts'⟩ := h'
  exact ⟨_, hparts.append hparts'⟩

/-- A program that is a part. -/
theorem passes_part {α : Type} {x : Action σ H α} (part : Part H)
    (h : ∀ w w', Leads x w w' → PartStep P fuel w part w') : Keeps (Passes P fuel) x :=
  fun w a w' hrun => ⟨_, .single (h w w' ⟨a, hrun⟩)⟩

theorem turnFrame_passes : TurnFrame P fuel (Passes (σ := σ) (H := H) P fuel) where
  refl := .refl
  trans := .trans
  timer timer := passes_part (.askTimer timer) fun _ _ => id
  turn timer := passes_part (.turn timer) fun _ _ => id

theorem endFrame_passes : EndFrame (Passes (σ := σ) (H := H) P fuel) where
  refl := .refl
  trans := .trans
  setHandler topicFilter messageHandler :=
    passes_part (.setHandler topicFilter messageHandler) fun _ _ => id
  suback topicFilter messageHandler :=
    passes_part (.suback topicFilter messageHandler) fun _ _ => id
  unsuback topicFilter := passes_part (.unsuback topicFilter) fun _ _ => id
  opened := passes_part .openSession fun _ _ => id
  closed := passes_part .closeSession fun _ _ => id

theorem passes_sendRequest (request : Request) :
    Keeps (Passes P fuel) (sendRequest P fuel (request.prepare P) : Action σ H _) :=
  passes_part (.request request) fun _ _ => id

theorem passes_yield (timeoutMs : Int) :
    Keeps (Passes P fuel) (mqttYield P fuel timeoutMs : Action σ H _) := by
  have hR : TurnFrame P fuel (Passes (σ := σ) (H := H) P fuel) := turnFrame_passes
  exact hR.bind (passes_part (.startTimer _) fun _ _ => id) fun timer =>
    hR.mqttYieldLoop timer fuel

/-- Every call is a sequence of parts. -/
theorem CallStep.passes {w w' : World σ H} {call : Call H} (h : CallStep P fuel w call w') :
    Passes P fuel w w' := by
  obtain ⟨args, rfl, rfl⟩ | ⟨rfl, h⟩ | ⟨timeoutMs, rfl, _, h⟩ | h := h.cases endFrame_passes
  · exact ⟨_, .single (show PartStep P fuel w (.init args) _ from ⟨(), rfl⟩)⟩
  · exact ⟨_, .single (show PartStep P fuel w .disconnect w' from h)⟩
  · exact passes_yield _ _ _ _ h
  · generalize call.request w = request at h
    cases h with
    | refused hend => exact hend
    | sent hsend hend => exact (passes_sendRequest _ _ _ _ hsend).trans hend
    | awaited hsend hanswer hwait hend =>
        have hwaited := turnFrame_passes.waitfor _ _ _ _ _ hwait
        exact ((passes_sendRequest _ _ _ _ hsend).trans hwaited).trans hend

/-- Every run of calls is a sequence of parts, and along every sequence of parts two
pings of a session are separated by an answer, and the ping flag is set exactly if a
ping of the open session has not been answered. -/
theorem pings_alternate_in_sessions {w w' : World σ H}
    {calls : List (Transition (World σ H) (Call H))}
    (hrun : Run (CallStep P fuel) w calls w') :
    (∃ parts, Run (PartStep P fuel) w parts w') ∧
      ∀ parts w'', Run (PartStep P fuel) w parts w'' →
        PingsAlternate (history P fuel parts) ∧
        ∀ session, IsSession (history P fuel parts) session →
          (w''.client.pingOutstanding = true ↔ AwaitsAnswer session) := by
  constructor
  · exact hrun.preorder Passes.refl Passes.trans CallStep.passes
  · intro parts w'' hparts
    have hfollows := follows_parts hparts
    exact ⟨hfollows.pingsAlternate, fun _ => hfollows.flag_iff_awaitsAnswer⟩

/-- A transport that hands out its bytes piece by piece, and lets a minute pass where it has an
empty piece. -/
def pacedPlatform : Platform (Nat × List (List UInt8)) where
  gettimeofday s := (⟨s.1, 0⟩, s)
  mqttread s len _ :=
    let piece := (s.2.headD []).take len
    some (⟨piece.length, piece, List.length_take_le _ _, Int.le_refl _⟩,
      (if piece = [] then s.1 + 60 else s.1, s.2.tail))
  mqttwrite s offered _ := some (offered.length, s)
  cycleLocals s := (⟨⟨0, 0, 0, 0, .initializer, .null, 0⟩, ⟨0, 0, 0⟩⟩, s)

/-- The client of the application, before a broker that accepts the connection, is silent for a
minute, answers the ping, and is silent again. -/
def pacedWorld : World (Nat × List (List UInt8)) Unit :=
  ⟨brokerClient, (0, [[0x20], [2], [0, 0], [], [0xD0], [0], []]), []⟩

/-- The world after a part that returns. -/
def worldAfter {α : Type} (x : Action σ H α) (w : World σ H) : World σ H :=
  (x.run w).elim w Prod.snd

theorem leads_worldAfter {α : Type} {x : Action σ H α} {w : World σ H}
    (h : (x.run w).isSome = true) : Leads x w (worldAfter x w) := by
  obtain ⟨⟨a, w'⟩, hrun⟩ := Option.isSome_iff_exists.mp h
  refine ⟨a, ?_⟩
  rw [worldAfter, hrun]
  rfl

/-- The session is open. -/
def pacedOpened : World (Nat × List (List UInt8)) Unit :=
  worldAfter (finishConnect mqttSuccess) <| worldAfter (cycle pacedPlatform 8 second) <|
    worldAfter (sendRequest pacedPlatform 8 ((Request.connect .initializer).prepare pacedPlatform))
      pacedWorld

def pacedTurn (w : World (Nat × List (List UInt8)) Unit) : World (Nat × List (List UInt8)) Unit :=
  worldAfter (cycle pacedPlatform 8 second) w

theorem pacedTurn_step {w : World (Nat × List (List UInt8)) Unit}
    (h : ((cycle pacedPlatform 8 second).run w).isSome = true) :
    PartStep pacedPlatform 8 w (.turn second) (pacedTurn w) :=
  leads_worldAfter h

/-- The parts of the session, three turns. -/
theorem run_pacedTurns : ∃ parts, Run (PartStep pacedPlatform 8) pacedWorld parts
      (pacedTurn (pacedTurn (pacedTurn pacedOpened))) ∧
    history pacedPlatform 8 parts = [.opened, .pinged, .answered, .pinged] := by
  have hrequest : PartStep pacedPlatform 8 pacedWorld (.request (.connect .initializer)) _ :=
    leads_worldAfter (by decide)
  have hopen : PartStep pacedPlatform 8 _ .openSession pacedOpened := leads_worldAfter (by decide)
  exact ⟨_, .cons hrequest <| .cons (pacedTurn_step (by decide)) <| .cons hopen <|
    .cons (pacedTurn_step (by decide)) <| .cons (pacedTurn_step (by decide)) <|
    .single (pacedTurn_step (by decide)), by decide⟩

/-- In one session a PINGREQ, its answer and a second PINGREQ. -/
theorem pings_alternate_in_sessions_paced :
    ∃ calls w', Run (CallStep pacedPlatform 8) pacedWorld calls w' ∧
      calls.map Transition.label = [.connect none ⟨0, 0⟩, .yield 1000, .yield 1000] ∧
      (writes w'.trace).tail = [pingreqBytes, pingreqBytes] ∧
      ∃ parts w'', Run (PartStep pacedPlatform 8) pacedWorld parts w'' ∧
        history pacedPlatform 8 parts = [.opened, .pinged, .answered, .pinged] ∧
        PingsAlternate (history pacedPlatform 8 parts) ∧
        (w''.client.pingOutstanding = true ↔ AwaitsAnswer [.pinged, .answered, .pinged]) := by
  have hcalls : ((mqttConnect pacedPlatform 8 none ⟨0, 0⟩).run pacedWorld).bind (fun connected =>
      ((mqttYield pacedPlatform 8 1000).run connected.2).bind fun first =>
        ((mqttYield pacedPlatform 8 1000).run first.2).map fun second =>
          (writes second.2.trace).tail) = some [pingreqBytes, pingreqBytes] := by
    decide
  obtain ⟨⟨rc, w₁⟩, hconnect, hcalls⟩ := Option.bind_eq_some_iff.mp hcalls
  obtain ⟨⟨rc₁, w₂⟩, hfirst, hcalls⟩ := Option.bind_eq_some_iff.mp hcalls
  obtain ⟨⟨rc₂, w₃⟩, hsecond, hwrites⟩ := Option.map_eq_some_iff.mp hcalls
  have hcall₁ : CallStep pacedPlatform 8 pacedWorld (.connect none ⟨0, 0⟩) w₁ := ⟨rc, hconnect⟩
  have hcall₂ : CallStep pacedPlatform 8 w₁ (.yield 1000) w₂ := ⟨rc₁, hfirst⟩
  have hcall₃ : CallStep pacedPlatform 8 w₂ (.yield 1000) w₃ := ⟨rc₂, hsecond⟩
  have hrun := Run.cons hcall₁ (.cons hcall₂ (.single hcall₃))
  obtain ⟨parts, hparts, hhistory⟩ := run_pacedTurns
  obtain ⟨halternate, hflag⟩ := (pings_alternate_in_sessions hrun).2 parts _ hparts
  have hsession : IsSession (history pacedPlatform 8 parts) [.pinged, .answered, .pinged] :=
    ⟨⟨[], hhistory⟩, by decide, by decide⟩
  exact ⟨_, w₃, hrun, rfl, hwrites, parts, _, hparts, hhistory, halternate, hflag _ hsession⟩

end MqttClient

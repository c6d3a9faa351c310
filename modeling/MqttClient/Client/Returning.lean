/-
# Every call comes back

The loops of the client ask a timer before every further iteration: `sendPacket` before
it offers the rest of a packet, `waitfor` before every turn, `MQTTYield` after every
turn.  On a platform whose clock goes on between two readings, and whose network calls
return, the time that is left on the timer is therefore a measure of all three loops,
and a timeout of the interface is a bound for the number of their iterations.

The network calls may take as long as they like and may report what they like, so
nothing is said about how much time a call takes, only that it ends.  The condition on
them is the one that `mqtt_network_read` does not meet: it takes a timeout and ignores it.
-/

import MqttClient.Semantics.Progress
import MqttClient.Semantics.Transition
import MqttClient.Client.Calls
import MqttClient.Client.Session

namespace MqttClient

open Semantics Program

variable {σ H : Type} {P : Platform σ} {fuel : Nat} {clock : σ → Int} {deadline : Int}

/-! ## Time -/

/-- The clock goes on between two readings and stays normal, and every call of the
network returns.  `clock` is a time, in microseconds, that has been reached. -/
structure Ticks (P : Platform σ) (clock : σ → Int) : Prop where
  normal : ∀ s, (P.gettimeofday s).1.IsNormal
  later : ∀ s, clock s < (P.gettimeofday s).1.micros
  reached : ∀ s, (P.gettimeofday s).1.micros ≤ clock (P.gettimeofday s).2
  read : ∀ s len timeoutMs, ∃ r s', P.mqttread s len timeoutMs = some (r, s') ∧ clock s ≤ clock s'
  write : ∀ s offered timeoutMs, ∃ rc s',
    P.mqttwrite s offered timeoutMs = some (rc, s') ∧ clock s ≤ clock s'
  locals : ∀ s, clock s ≤ clock (P.cycleLocals s).2

/-- Time has not gone back. -/
def Later (clock : σ → Int) (w w' : World σ H) : Prop := clock w.env ≤ clock w'.env

/-- Fewer microseconds are left before the deadline than there is fuel. -/
def InTime (clock : σ → Int) (deadline : Int) (fuel : Nat) (w : World σ H) : Prop :=
  (deadline - clock w.env).toNat < fuel

/-- The program returns as long as fewer microseconds are left before the deadline than
there is fuel. -/
def ComesBack {α : Type} (clock : σ → Int) (deadline : Int) (fuel : Nat) (x : Action σ H α) :
    Prop :=
  Advances (InTime clock deadline fuel) (Later clock) x

theorem course_later :
    Course (InTime (H := H) clock deadline fuel) (Later (H := H) clock) where
  refl w := Int.le_refl _
  trans h h' := Int.le_trans h h'
  keep h hw := by
    unfold Later at h
    unfold InTime at hw ⊢
    omega

/-- What returns before every deadline returns now. -/
theorem returns_now {α : Type} (clock : σ → Int) (hpos : 0 < fuel) {x : Action σ H α}
    (h : ∀ deadline, ComesBack clock deadline fuel x) (w : World σ H) :
    ∃ a w', x.run w = some (a, w') := by
  obtain ⟨a, w', hrun, _⟩ := h (clock w.env) w (by unfold InTime; omega)
  exact ⟨a, w', hrun⟩

theorem micros_countdownMSAt (now : Timeval) (timeout : Nat) :
    (Timer.countdownMSAt now timeout).endTime.micros = now.micros + timeout * 1000 := by
  rw [Timer.countdownMSAt, Timeval.micros_timeradd]
  unfold Timeval.micros
  dsimp only
  omega

namespace Ticks

variable (hP : Ticks P clock) {α : Type}

include hP

/-! ## The primitives -/

omit hP in
theorem pure (a : α) : ComesBack clock deadline fuel (Pure.pure a : Action σ H α) :=
  course_later.pure a

omit hP in
theorem client : ComesBack clock deadline fuel (MqttClient.client : Action σ H _) :=
  course_later.gets _

omit hP in
theorem modifyClient (f : MQTTClient H → MQTTClient H) :
    ComesBack clock deadline fuel (MqttClient.modifyClient f : Action σ H _) :=
  fun w _ => ⟨_, _, run_modifyClient f w, Int.le_refl _⟩

omit hP in
theorem logEvent (event : Event H) :
    ComesBack clock deadline fuel (MqttClient.logEvent event : Action σ H _) :=
  fun w _ => ⟨_, _, run_logEvent event w, Int.le_refl _⟩

omit hP in
theorem bind {β : Type} {x : Action σ H α} {f : α → Action σ H β}
    (hx : ComesBack clock deadline fuel x) (hf : ∀ a, ComesBack clock deadline fuel (f a)) :
    ComesBack clock deadline fuel (x >>= f) :=
  course_later.bind hx hf

theorem gettimeofday :
    ComesBack clock deadline fuel (MqttClient.gettimeofday P : Action σ H _) := by
  intro w _
  exact ⟨_, _, rfl, Int.le_trans (Int.le_of_lt (hP.later w.env)) (hP.reached w.env)⟩

theorem timerLeftMS (timer : Timer) :
    ComesBack clock deadline fuel (MqttClient.timerLeftMS P timer : Action σ H _) :=
  bind hP.gettimeofday fun _ => pure _

theorem timerCountdown (timeout : Nat) :
    ComesBack clock deadline fuel (MqttClient.timerCountdown P timeout : Action σ H _) :=
  bind hP.gettimeofday fun _ => pure _

theorem timerIsExpired (timer : Timer) :
    ComesBack clock deadline fuel (MqttClient.timerIsExpired P timer : Action σ H _) :=
  bind hP.gettimeofday fun _ => bind (logEvent _) fun _ => pure _

theorem mqttread (len : Nat) (timeoutMs : Int) :
    ComesBack clock deadline fuel (MqttClient.mqttread P len timeoutMs : Action σ H _) := by
  intro w _
  obtain ⟨r, s', hread, hlater⟩ := hP.read w.env len timeoutMs
  refine ⟨r, { w with
    env := s'
    trace := w.trace ++ [.read ⟨len, r.rc, r.stored⟩] }, ?_, hlater⟩
  simp [MqttClient.mqttread, hread]

theorem mqttwrite (offered : List UInt8) (timeoutMs : Int) :
    ComesBack clock deadline fuel (MqttClient.mqttwrite P offered timeoutMs : Action σ H _) := by
  intro w _
  obtain ⟨rc, s', hwrite, hlater⟩ := hP.write w.env offered timeoutMs
  refine ⟨rc, { w with env := s', trace := w.trace ++ [.write offered rc] }, ?_, hlater⟩
  simp [MqttClient.mqttwrite, hwrite]

theorem cycleLocals :
    ComesBack clock deadline fuel (MqttClient.cycleLocals P : Action σ H _) :=
  fun w _ => ⟨_, _, rfl, hP.locals w.env⟩

omit hP in
theorem serialize (serializer : Int → Serialized) :
    ComesBack clock deadline fuel (MqttClient.serialize serializer : Action σ H _) :=
  bind client fun _ => bind (modifyClient _) fun _ => pure _

/-- A timer that was found running leaves less time than before. -/
theorem asked (timer : Timer) (hnormal : timer.endTime.IsNormal) (w : World σ H) :
    (MqttClient.timerIsExpired P timer).Returns w fun expired w' => Later clock w w' ∧
      (expired = false →
        (timer.endTime.micros - clock w'.env).toNat <
          (timer.endTime.micros - clock w.env).toNat) := by
  have hlater := hP.later w.env
  have hreached := hP.reached w.env
  refine ⟨_, _, run_timerIsExpired timer w, ?_, fun hrunning => ?_⟩
  · unfold Later World.asked World.ticked World.log
    dsimp only
    omega
  · have hlt : ¬ timer.endTime.micros ≤ (P.gettimeofday w.env).1.micros := by
      rw [← Timer.isExpiredAt_iff hnormal (hP.normal w.env), hrunning]
      decide
    unfold World.asked World.ticked World.log
    dsimp only
    omega

/-! ## Sending -/

/-- Before every offer of the rest of a packet the timer is asked. -/
theorem sendPacket (length : Nat) {timer : Timer} (hnormal : timer.endTime.IsNormal) :
    ComesBack clock timer.endTime.micros fuel
      (MqttClient.sendPacket P fuel length timer : Action σ H _) := by
  have hloop : ∀ n sent w, InTime clock timer.endTime.micros fuel w →
      (timer.endTime.micros - clock w.env).toNat < n →
      (sendPacketLoop P length timer n sent : Action σ H _).Returns w fun _ w' =>
        Later clock w w' := by
    refine course_later.loop fun n sent w hw hrest => ?_
    unfold sendPacketLoop
    split
    · apply (hP.asked timer hnormal w).bind
      rintro expired w₁ ⟨hlater₁, hless⟩
      cases expired with
      | true => exact returns_pure hlater₁
      | false =>
          rw [if_neg (by decide)]
          apply (hP.timerLeftMS timer w₁ (course_later.keep hlater₁ hw)).bind
          intro left w₂ hlater₁₂
          have hlater₂ := Int.le_trans hlater₁ hlater₁₂
          apply returns_bind_of_eq_some (run_client w₂)
          apply (hP.mqttwrite _ left w₂ (course_later.keep hlater₂ hw)).bind
          intro rc w₃ hlater₂₃
          have hlater₃ := Int.le_trans hlater₂ hlater₂₃
          split
          · exact returns_pure hlater₃
          · have hmeasure : (timer.endTime.micros - clock w₃.env).toNat <
                (timer.endTime.micros - clock w.env).toNat := by
              have hless := hless rfl
              unfold Later at hlater₁₂ hlater₂₃
              omega
            exact (hrest _ w₃ hlater₃ hmeasure).mono fun _ _ hend => Int.le_trans hlater₃ hend
    · exact returns_pure (Int.le_refl _)
  refine bind (fun w hw => hloop fuel 0 w hw hw) fun sent => .ite ?_ (pure _)
  exact bind client fun c => bind (hP.timerCountdown _) fun lastSent =>
    bind (modifyClient _) fun _ => pure _

/-- The acknowledgement of a packet. -/
theorem sendAck (packettype : MsgType) (id : UInt16) {timer : Timer}
    (hnormal : timer.endTime.IsNormal) :
    ComesBack clock timer.endTime.micros fuel
      (MqttClient.sendAck P fuel packettype id timer : Action σ H _) :=
  bind (serialize _) fun _ => .ite (pure _) (hP.sendPacket _ hnormal)

/-- A timer that was just started leaves no more time than its timeout. -/
theorem started {timeout : Nat} (hfuel : timeout * 1000 < fuel) (w : World σ H) :
    (timerCountdownMS P timeout).Returns w fun timer w' => Later clock w w' ∧
      timer.endTime.IsNormal ∧ InTime clock timer.endTime.micros fuel w' := by
  have hlater := hP.later w.env
  have hreached := hP.reached w.env
  refine ⟨_, _, run_timerCountdownMS timeout w, ?_,
    (hP.normal w.env).timeradd (Timer.isNormal_milliseconds timeout), ?_⟩
  · exact Int.le_trans (Int.le_of_lt hlater) hreached
  · unfold InTime World.ticked
    rw [micros_countdownMSAt]
    dsimp only
    omega

/-- What starts a timer and goes on under it returns if the fuel covers the timeout. -/
theorem timed {timeout : Nat} (hfuel : timeout * 1000 < fuel) {k : Timer → Action σ H α}
    (hk : ∀ timer, timer.endTime.IsNormal → ComesBack clock timer.endTime.micros fuel (k timer)) :
    ComesBack clock deadline fuel (timerCountdownMS P timeout >>= k) := by
  intro w _
  apply (hP.started hfuel w).bind
  rintro timer w₁ ⟨hlater, hnormal, hready⟩
  exact (hk timer hnormal w₁ hready).mono fun _ _ hend => Int.le_trans hlater hend

/-! ## One turn -/

/-- The length field has at most four bytes. -/
theorem decodePacket (timeoutMs : Int) :
    ComesBack clock deadline fuel (MqttClient.decodePacket P timeoutMs : Action σ H _) := by
  have hloop : ∀ left len value multiplier, ComesBack clock deadline fuel
      (decodeLoop (networkChar P timeoutMs) left len value multiplier : Action σ H _) := by
    intro left
    induction left with
    | zero => exact fun _ _ _ => pure _
    | succ left ih =>
        intro len value multiplier
        refine bind (bind (hP.mqttread 1 timeoutMs) fun _ => pure _) fun result => ?_
        exact .ite (pure _) (.ite (ih _ _ _) (pure _))
  exact hloop _ _ _ _

theorem readInto (start len : Nat) (timeoutMs : Int) :
    ComesBack clock deadline fuel (MqttClient.readInto P start len timeoutMs : Action σ H _) :=
  bind (hP.mqttread len timeoutMs) fun _ => bind (modifyClient _) fun _ => pure _

theorem readPacket (timer : Timer) :
    ComesBack clock deadline fuel (MqttClient.readPacket P timer : Action σ H _) := by
  have hfinish : ComesBack clock deadline fuel (finishPacket P : Action σ H _) :=
    bind client fun _ => .ite
      (bind (hP.timerCountdown _) fun _ => bind (modifyClient _) fun _ => pure _) (pure _)
  have hbody : ∀ len remLen,
      ComesBack clock deadline fuel (readBody P timer len remLen : Action σ H _) :=
    fun len remLen => bind client fun _ => .ite (pure _) <| .ite
      (bind (hP.timerLeftMS timer) fun _ => bind (hP.readInto _ _ _) fun _ => .ite (pure _) hfinish)
      hfinish
  refine bind (bind (hP.timerLeftMS timer) fun _ => bind (hP.readInto 0 1 _) fun _ => .ite (pure _)
    ?_) fun rc => bind (logEvent _) fun _ => pure _
  exact bind (hP.timerLeftMS timer) fun _ => bind (hP.decodePacket _) fun _ =>
    bind (modifyClient _) fun _ => hbody _ _

omit hP in
theorem deliverMessage (topicName : MQTTString) (message : MQTTMessage) :
    ComesBack clock deadline fuel (MqttClient.deliverMessage topicName message : Action σ H _) := by
  have hloop : ∀ (slots : List (MessageHandlers H)) delivered,
      ComesBack clock deadline fuel
        (deliverLoop ⟨message, topicName⟩ slots delivered : Action σ H _) := by
    intro slots
    induction slots with
    | nil => exact fun delivered => pure _
    | cons slot slots ih =>
        intro delivered
        unfold deliverLoop
        split
        · exact bind (logEvent _) fun _ => ih _
        · exact ih _
  refine bind client fun c => bind (hloop _ _) fun delivered => .ite (pure _) ?_
  split
  · exact bind (logEvent _) fun _ => pure _
  · exact pure _

section Turn

variable {timer : Timer} (hnormal : timer.endTime.IsNormal)

include hnormal

theorem handlePublish :
    ComesBack clock timer.endTime.micros fuel
      (MqttClient.handlePublish P fuel timer : Action σ H _) := by
  refine bind hP.cycleLocals fun locals => bind client fun c => ?_
  split
  refine .ite (pure _) (bind (deliverMessage _ _) fun _ => .ite (bind ?_ fun _ =>
    .ite (pure _) (pure _)) (pure _))
  exact .ite (hP.sendAck _ _ hnormal) (.ite (hP.sendAck _ _ hnormal) (pure _))

theorem handleHandshake (reply : MsgType) :
    ComesBack clock timer.endTime.micros fuel
      (MqttClient.handleHandshake P fuel reply timer : Action σ H _) := by
  refine bind hP.cycleLocals fun locals => bind client fun c => ?_
  split
  exact .ite (pure _) (bind (hP.sendAck _ _ hnormal) fun _ => .ite (pure _) (pure _))

theorem dispatch (packetType : Int) :
    ComesBack clock timer.endTime.micros fuel
      (MqttClient.dispatch P fuel packetType timer : Action σ H _) := by
  unfold MqttClient.dispatch
  split
  case h_5 => exact hP.handlePublish hnormal
  case h_6 => exact hP.handleHandshake hnormal .pubrel
  case h_7 => exact hP.handleHandshake hnormal .pubcomp
  case h_9 => exact bind (modifyClient _) fun _ => pure _
  case h_10 => exact .ite (pure _) (pure _)
  all_goals exact pure _

variable (hfuel : 1000000 < fuel)

include hfuel

omit hnormal in
/-- A PINGREQ has a second of its own. -/
theorem keepalive : ComesBack clock deadline fuel (MqttClient.keepalive P fuel : Action σ H _) := by
  have hdue : ComesBack clock deadline fuel (keepaliveDue P : Action σ H _) :=
    bind client fun _ => bind (hP.timerIsExpired _) fun _ => .ite (pure _) (hP.timerIsExpired _)
  have hping : ComesBack clock deadline fuel (sendPing P fuel : Action σ H _) :=
    hP.timed (by omega) fun timer hnormal => bind (serialize _) fun len => .ite
      (bind (hP.sendPacket _ hnormal) fun _ =>
        .ite (bind (modifyClient _) fun _ => pure _) (pure _))
      (pure _)
  exact bind client fun _ => .ite (pure _) <| bind hdue fun _ =>
    .ite (.ite (pure _) hping) (pure _)

/-- A turn under a timer returns. -/
theorem cycle :
    ComesBack clock timer.endTime.micros fuel (MqttClient.cycle P fuel timer : Action σ H _) := by
  have hcheck : ∀ jump,
      ComesBack clock timer.endTime.micros fuel (checkKeepalive P fuel jump : Action σ H _) := by
    intro jump
    cases jump with
    | exit rc => exact pure _
    | next rc => exact bind (hP.keepalive hfuel) fun _ => .ite (pure _) (pure _)
  exact bind (hP.readPacket timer) fun _ => bind (hP.dispatch hnormal _) fun jump =>
    bind (hcheck jump) fun _ => .ite (pure _) <| bind client fun _ =>
      .ite (bind (modifyClient _) fun _ => pure _) (pure _)

/-! ## Turn after turn -/

/-- `waitfor` asks its timer before every turn. -/
theorem waitfor (packetType : MsgType) :
    ComesBack clock timer.endTime.micros fuel
      (MqttClient.waitfor P fuel packetType timer : Action σ H _) := by
  have hloop : ∀ n rc w, InTime clock timer.endTime.micros fuel w →
      (timer.endTime.micros - clock w.env).toNat < n →
      (waitforLoop P fuel packetType timer n rc : Action σ H _).Returns w fun _ w' =>
        Later clock w w' := by
    refine course_later.loop fun n rc w hw hrest => ?_
    unfold waitforLoop
    apply (hP.asked timer hnormal w).bind
    rintro expired w₁ ⟨hlater₁, hless⟩
    cases expired with
    | true => exact returns_pure hlater₁
    | false =>
        rw [if_neg (by decide)]
        apply (hP.cycle hnormal hfuel w₁ (course_later.keep hlater₁ hw)).bind
        intro rc w₂ hlater₁₂
        have hlater₂ := Int.le_trans hlater₁ hlater₁₂
        split
        · have hmeasure : (timer.endTime.micros - clock w₂.env).toNat <
              (timer.endTime.micros - clock w.env).toNat := by
            have hless := hless rfl
            unfold Later at hlater₁₂
            omega
          exact (hrest _ w₂ hlater₂ hmeasure).mono fun _ _ hend => Int.le_trans hlater₂ hend
        · exact returns_pure hlater₂
  exact fun w hw => hloop fuel failure w hw hw

/-- `MQTTYield` asks its timer after every turn. -/
theorem mqttYieldLoop :
    ComesBack clock timer.endTime.micros fuel
      (MqttClient.mqttYieldLoop P fuel timer fuel : Action σ H _) := by
  have hloop : ∀ n (_ : Unit) w, InTime clock timer.endTime.micros fuel w →
      (timer.endTime.micros - clock w.env).toNat < n →
      (MqttClient.mqttYieldLoop P fuel timer n : Action σ H _).Returns w fun _ w' =>
        Later clock w w' := by
    refine course_later.loop fun n _ w hw hrest => ?_
    apply (hP.cycle hnormal hfuel w hw).bind
    intro rc w₁ hlater₁
    split
    · exact returns_pure hlater₁
    · apply (hP.asked timer hnormal w₁).bind
      rintro expired w₂ ⟨hlater₁₂, hless⟩
      have hlater₂ := Int.le_trans hlater₁ hlater₁₂
      cases expired with
      | true => exact returns_pure hlater₂
      | false =>
          have hmeasure : (timer.endTime.micros - clock w₂.env).toNat <
              (timer.endTime.micros - clock w.env).toNat := by
            have hless := hless rfl
            unfold Later at hlater₁
            omega
          exact (hrest () w₂ hlater₂ hmeasure).mono fun _ _ hend => Int.le_trans hlater₂ hend
  exact fun w hw => hloop fuel () w hw hw

end Turn

/-! ## Requests -/

/-- Preparing a request takes no loop. -/
theorem prepare (request : Request) :
    ComesBack clock deadline fuel (request.prepare P : Action σ H _) := by
  have hid : ComesBack clock deadline fuel (getNextPacketId : Action σ H _) :=
    bind client fun _ => bind (modifyClient _) fun _ => pure _
  cases request with
  | connect options =>
      exact bind (modifyClient _) fun _ => bind client fun _ => bind (hP.timerCountdown _) fun _ =>
        bind (modifyClient _) fun _ => pure _
  | subscribe topicFilter qos => exact bind hid fun _ => pure _
  | unsubscribe topicFilter => exact bind hid fun _ => pure _
  | publish topicName message =>
      exact bind (.ite (bind hid fun _ => pure _) (pure _)) fun _ => pure _

/-- A request that went out leaves its timer running within the fuel. -/
theorem sendRequest (request : Request) {w : World σ H}
    (hfuel : w.client.commandTimeoutMs * 1000 < fuel) :
    (MqttClient.sendRequest P fuel (request.prepare P)).Returns w fun sent w' =>
      Later clock w w' ∧ ∀ timer, sent = some timer →
        timer.endTime.IsNormal ∧ InTime clock timer.endTime.micros fuel w' := by
  have hsend : ∀ timer : Timer, timer.endTime.IsNormal →
      ComesBack clock timer.endTime.micros fuel (do
        let serializer ← request.prepare P
        let len ← MqttClient.serialize serializer
        if len ≤ 0 then Pure.pure none
        else do
          let rc ← MqttClient.sendPacket P fuel len.toNat timer
          if rc ≠ mqttSuccess then Pure.pure none else Pure.pure (some timer) : Action σ H _) :=
    fun timer hnormal => bind (hP.prepare request) fun _ => bind (serialize _) fun _ =>
      .ite (pure _) (bind (hP.sendPacket _ hnormal) fun _ => .ite (pure _) (pure _))
  apply returns_bind_of_eq_some (run_client w)
  apply (hP.started hfuel w).bind
  rintro timer w₁ ⟨hlater, hnormal, hready⟩
  obtain ⟨sent, w', hrun, hlater'⟩ := hsend timer hnormal w₁ hready
  refine ⟨sent, w', hrun, Int.le_trans hlater hlater', fun timer' hsent => ?_⟩
  -- the timer that is handed on is the one that was started
  obtain rfl : timer = timer' := by
    subst hsent
    obtain ⟨_, _, _, hrun⟩ := run_bind_eq_some.mp hrun
    obtain ⟨_, _, _, hrun⟩ := run_bind_eq_some.mp hrun
    split at hrun
    · cases (run_pure_eq_some.mp hrun).1
    · obtain ⟨_, _, _, hrun⟩ := run_bind_eq_some.mp hrun
      split at hrun
      · cases (run_pure_eq_some.mp hrun).1
      · exact Option.some.inj (run_pure_eq_some.mp hrun).1
  exact ⟨hnormal, course_later.keep hlater' hready⟩

/-- A request and what the call does afterwards, under the timer of the request. -/
theorem requested (request : Request) {w : World σ H}
    (hfuel : w.client.commandTimeoutMs * 1000 < fuel) {k : Option Timer → Action σ H α}
    (hnone : ∀ deadline, ComesBack clock deadline fuel (k none))
    (hsome : ∀ timer, timer.endTime.IsNormal →
      ComesBack clock timer.endTime.micros fuel (k (some timer))) :
    ∃ a w', (MqttClient.sendRequest P fuel (request.prepare P) >>= k).run w = some (a, w') := by
  obtain ⟨sent, w₁, hsend, _, hready⟩ := hP.sendRequest request hfuel
  rw [run_bind_of_eq_some hsend]
  cases sent with
  | none => exact returns_now clock (Nat.zero_lt_of_lt hfuel) hnone w₁
  | some timer =>
      obtain ⟨hnormal, hready⟩ := hready timer rfl
      obtain ⟨a, w', hrun, _⟩ := hsome timer hnormal w₁ hready
      exact ⟨a, w', hrun⟩

/-! ## The calls of the interface -/

omit hP in
theorem finishRequest (rc : Int) :
    ComesBack clock deadline fuel (MqttClient.finishRequest rc : Action σ H _) :=
  .ite (bind (modifyClient _) fun _ => pure _) (pure _)

omit hP in
theorem finishConnect (rc : Int) :
    ComesBack clock deadline fuel (MqttClient.finishConnect rc : Action σ H _) :=
  .ite (bind (modifyClient _) fun _ => pure _) (pure _)

omit hP in
theorem mqttSetMessageHandler (topicFilter : CString) (messageHandler : Option H) :
    ComesBack clock deadline fuel
      (MqttClient.mqttSetMessageHandler topicFilter messageHandler : Action σ H _) := by
  refine bind client fun c => ?_
  split
  exact bind (modifyClient _) fun _ => pure _

section Calls

variable (hfuel : 1000000 < fuel) {w : World σ H}

include hfuel

theorem mqttConnectWithResults (htimeout : w.client.commandTimeoutMs * 1000 < fuel)
    (options : Option MQTTPacketConnectData) (data : ConnackOut) :
    ∃ result w', (MqttClient.mqttConnectWithResults P fuel options data).run w =
      some (result, w') := by
  have hfail : ∀ deadline, ComesBack clock deadline fuel (do
      let rc ← MqttClient.finishConnect failure
      Pure.pure (rc, data) : Action σ H _) :=
    fun deadline => bind (finishConnect failure) fun _ => pure _
  rw [MqttClient.mqttConnectWithResults, run_bind_of_eq_some (run_client w)]
  split
  · exact returns_now clock (Nat.zero_lt_of_lt hfuel) hfail w
  · refine hP.requested (.connect _) htimeout hfail fun timer hnormal => ?_
    refine bind (hP.waitfor hnormal hfuel .connack) fun answer => .ite ?_ (hfail _)
    exact bind client fun c => bind (finishConnect _) fun _ => pure _

theorem mqttSubscribeWithResults (htimeout : w.client.commandTimeoutMs * 1000 < fuel)
    (topicFilter : CString) (qos : Int) (messageHandler : Option H) (grantedQoS : Int) :
    ∃ result w', (MqttClient.mqttSubscribeWithResults P fuel topicFilter qos messageHandler
      grantedQoS).run w = some (result, w') := by
  have hfail : ∀ deadline, ComesBack clock deadline fuel (do
      let rc ← MqttClient.finishRequest failure
      Pure.pure (rc, grantedQoS) : Action σ H _) :=
    fun deadline => bind (finishRequest failure) fun _ => pure _
  have haccept : ∀ deadline, ComesBack clock deadline fuel
      (acceptSuback topicFilter messageHandler : Action σ H _) := fun deadline =>
    bind client fun c => .ite (bind (mqttSetMessageHandler _ _) fun _ => pure _) (pure _)
  rw [MqttClient.mqttSubscribeWithResults, run_bind_of_eq_some (run_client w)]
  split
  · refine hP.requested (.subscribe topicFilter qos) htimeout hfail fun timer hnormal => ?_
    refine bind (hP.waitfor hnormal hfuel .suback) fun answer => .ite ?_ (hfail _)
    exact bind (haccept _) fun _ => bind (finishRequest _) fun _ => pure _
  · exact returns_now clock (Nat.zero_lt_of_lt hfuel) hfail w

theorem mqttUnsubscribe (htimeout : w.client.commandTimeoutMs * 1000 < fuel)
    (topicFilter : CString) :
    ∃ rc w', (MqttClient.mqttUnsubscribe P fuel topicFilter).run w = some (rc, w') := by
  have haccept : ∀ deadline, ComesBack clock deadline fuel
      (acceptUnsuback topicFilter : Action σ H _) := fun deadline =>
    bind client fun c => .ite (bind (mqttSetMessageHandler _ _) fun _ => pure _) (pure _)
  rw [MqttClient.mqttUnsubscribe, run_bind_of_eq_some (run_client w)]
  split
  · refine hP.requested (.unsubscribe topicFilter) htimeout (fun _ => finishRequest failure)
      fun timer hnormal => ?_
    refine bind (hP.waitfor hnormal hfuel .unsuback) fun answer => .ite ?_ (finishRequest _)
    exact bind (haccept _) fun _ => finishRequest _
  · exact returns_now clock (Nat.zero_lt_of_lt hfuel) (fun _ => finishRequest failure) w

theorem mqttPublish (htimeout : w.client.commandTimeoutMs * 1000 < fuel) (topicName : CString)
    (message : MQTTMessage) :
    ∃ rc w', (MqttClient.mqttPublish P fuel topicName message).run w = some (rc, w') := by
  have hack : ∀ packetType timer, timer.endTime.IsNormal →
      ComesBack clock timer.endTime.micros fuel
        (awaitAck P fuel packetType timer : Action σ H _) := fun packetType timer hnormal =>
    bind (hP.waitfor hnormal hfuel packetType) fun answer =>
      .ite (bind client fun c => .ite (pure _) (pure _)) (pure _)
  rw [MqttClient.mqttPublish, run_bind_of_eq_some (run_client w)]
  split
  · refine hP.requested (.publish topicName message) htimeout (fun _ => finishRequest failure)
      fun timer hnormal => ?_
    exact .ite (bind (hack .puback timer hnormal) fun _ => finishRequest _) <|
      .ite (bind (hack .pubcomp timer hnormal) fun _ => finishRequest _) (finishRequest _)
  · exact returns_now clock (Nat.zero_lt_of_lt hfuel) (fun _ => finishRequest failure) w

omit hfuel in
theorem mqttDisconnect (htimeout : w.client.commandTimeoutMs * 1000 < fuel) :
    ∃ rc w', (MqttClient.mqttDisconnect P fuel).run w = some (rc, w') := by
  have hclose : ∀ deadline (rc : Int), ComesBack clock deadline fuel (do
      mqttCloseSession
      Pure.pure rc : Action σ H _) := fun deadline rc => bind (modifyClient _) fun _ => pure _
  rw [MqttClient.mqttDisconnect, run_bind_of_eq_some (run_client w)]
  refine returns_now clock (Nat.zero_lt_of_lt htimeout)
    (fun deadline => hP.timed htimeout fun timer hnormal => ?_) w
  exact bind (serialize _) fun len => .ite
    (bind (hP.sendPacket _ hnormal) fun rc => hclose _ rc) (hclose _ failure)

theorem mqttYield {timeoutMs : Int} (htimeout : toUnsignedInt timeoutMs * 1000 < fuel) :
    ∃ rc w', (MqttClient.mqttYield P fuel timeoutMs).run w = some (rc, w') :=
  returns_now clock (Nat.zero_lt_of_lt hfuel)
    (fun _ => hP.timed htimeout fun _ hnormal => hP.mqttYieldLoop hnormal hfuel) w

end Calls

end Ticks

/-! ## Sequences of calls -/

/-- The timeout, in milliseconds, under which a call runs. -/
def Call.timeoutMs (call : Call H) (w : World σ H) : Nat :=
  match call with
  | .yield timeoutMs => toUnsignedInt timeoutMs
  | _ => w.client.commandTimeoutMs

/-- A call comes back if the fuel covers its timeout, and the second of a PINGREQ. -/
theorem Ticks.callStep (hP : Ticks P clock) (hfuel : 1000000 < fuel) (call : Call H)
    {w : World σ H} (htimeout : call.timeoutMs w * 1000 < fuel) :
    ∃ w', CallStep P fuel w call w' := by
  cases call with
  | clientInit args => exact ⟨_, _, run_modifyClient args.init w⟩
  | connectWithResults options data =>
      obtain ⟨result, w', hrun⟩ := hP.mqttConnectWithResults hfuel htimeout options data
      exact ⟨w', result, hrun⟩
  | connect options data =>
      obtain ⟨result, w', hrun⟩ := hP.mqttConnectWithResults hfuel htimeout options data
      exact ⟨w', result.1, run_bind_of_eq_some hrun⟩
  | publish topicName message =>
      obtain ⟨rc, w', hrun⟩ := hP.mqttPublish hfuel htimeout topicName message
      exact ⟨w', rc, hrun⟩
  | setMessageHandler topicFilter messageHandler => exact ⟨_, _, rfl⟩
  | subscribe topicFilter qos messageHandler grantedQoS =>
      obtain ⟨result, w', hrun⟩ :=
        hP.mqttSubscribeWithResults hfuel htimeout topicFilter qos messageHandler grantedQoS
      exact ⟨w', result.1, run_bind_of_eq_some hrun⟩
  | subscribeWithResults topicFilter qos messageHandler grantedQoS =>
      obtain ⟨result, w', hrun⟩ :=
        hP.mqttSubscribeWithResults hfuel htimeout topicFilter qos messageHandler grantedQoS
      exact ⟨w', result, hrun⟩
  | unsubscribe topicFilter =>
      obtain ⟨rc, w', hrun⟩ := hP.mqttUnsubscribe hfuel htimeout topicFilter
      exact ⟨w', rc, hrun⟩
  | disconnect =>
      obtain ⟨rc, w', hrun⟩ := hP.mqttDisconnect htimeout
      exact ⟨w', rc, hrun⟩
  | yield timeoutMs =>
      obtain ⟨rc, w', hrun⟩ := hP.mqttYield hfuel htimeout
      exact ⟨w', rc, hrun⟩
  | isConnected => exact ⟨_, _, rfl⟩
  | closeSession => exact ⟨_, _, rfl⟩

/-- The command timeout is as it was. -/
def SameTimeout (w w' : World σ H) : Prop :=
  w'.client.commandTimeoutMs = w.client.commandTimeoutMs

theorem sendFrame_sameTimeout : SendFrame P (SameTimeout (σ := σ) (H := H)) where
  refl _ := rfl
  trans h h' := h'.trans h
  clock _ := rfl
  timer _ _ := rfl
  write _ := rfl
  filled _ _ := rfl
  sent _ := rfl

theorem sameTimeout_closeSession (w : World σ H) :
    SameTimeout w (w.update MQTTClient.closeSession) := by
  show w.client.closeSession.commandTimeoutMs = _
  unfold MQTTClient.closeSession
  dsimp only
  split <;> rfl

theorem cycle_sameTimeout (timer : Timer) :
    Keeps SameTimeout (cycle P fuel timer : Action σ H _) := by
  intro w rc w' h
  obtain ⟨packetType, w₁, w₂, hread, ⟨⟨_, _, _, hreact⟩, _⟩, hend⟩ := cycle_cases h
  obtain ⟨reads, w₀, ⟨⟨_, _, hfetch⟩, _⟩, rfl, _⟩ := readPacket_cases hread
  have hsame : SameTimeout w w₂ := by
    rw [SameTimeout, hreact, World.log, hfetch]
  rcases hend with ⟨_, _, rfl⟩ | ⟨_, rfl⟩
  · exact hsame
  · obtain ⟨_, _, _, hdrop⟩ := w₂.client.dropSession_eq
    rw [SameTimeout, World.update, hdrop]
    exact hsame

theorem callFrame_sameTimeout (asks : Request → Prop) (sets : CString → Option H → Prop) :
    CallFrame P fuel asks sets (SameTimeout (σ := σ) (H := H)) where
  toSendFrame := sendFrame_sameTimeout
  turn := cycle_sameTimeout
  prepare request _ := sendFrame_sameTimeout.prepare (fun _ _ => rfl) (fun _ _ _ => rfl)
    (fun _ _ => rfl) request
  setHandler _ w rc w' hrun := by
    cases hrun
    rfl
  opened w rc w' hrun := by
    cases hrun
    rfl
  closed w rc w' hrun := by
    cases hrun
    exact sameTimeout_closeSession w

/-- The timeouts a call sets or uses are at most this, in milliseconds. -/
def Call.Within (limit : Nat) : Call H → Prop
  | .clientInit args => args.commandTimeoutMs ≤ limit
  | .yield timeoutMs => toUnsignedInt timeoutMs ≤ limit
  | _ => True

/-- Only `MQTTClientInit` sets the command timeout, so a bound for what is set bounds what
is used. -/
theorem CallStep.commandTimeoutMs_le {w w' : World σ H} {call : Call H} {limit : Nat}
    (h : CallStep P fuel w call w') (hwithin : call.Within limit)
    (hlimit : w.client.commandTimeoutMs ≤ limit) : w'.client.commandTimeoutMs ≤ limit := by
  obtain ⟨args, rfl, rfl⟩ | hsame := h.keeps (callFrame_sameTimeout _ _)
  · exact hwithin
  · exact hsame ▸ hlimit

theorem Call.timeoutMs_le {call : Call H} {w : World σ H} {limit : Nat}
    (hwithin : call.Within limit) (hlimit : w.client.commandTimeoutMs ≤ limit) :
    call.timeoutMs w ≤ limit := by
  cases call
  case yield => exact hwithin
  all_goals exact hlimit

/-- No call of the interface hangs.  On a platform whose clock goes on between two readings
and whose network calls return, every sequence of calls, from any state of the client and
whatever the network reports, can be carried out to its end; a fuel that covers the longest
timeout in microseconds, and one second, is enough. -/
theorem calls_comeBack (P : Platform σ) (clock : σ → Int) (hP : Ticks P clock) (fuel limit : Nat)
    (hfuel : 1000 * max 1000 limit < fuel) (calls : List (Call H)) (w : World σ H)
    (hwithin : ∀ call ∈ calls, call.Within limit) (hlimit : w.client.commandTimeoutMs ≤ limit) :
    ∃ run w', Run (CallStep P fuel) w run w' ∧ run.map Transition.label = calls := by
  induction calls generalizing w with
  | nil => exact ⟨[], w, .nil w, rfl⟩
  | cons call calls ih =>
      have hcall := hwithin call List.mem_cons_self
      have htimeout := Call.timeoutMs_le hcall hlimit
      have hsecond : 1000000 < fuel := by omega
      obtain ⟨w₁, hstep⟩ := hP.callStep hsecond call (w := w) (by omega)
      obtain ⟨run, w', hrun, hlabels⟩ := ih w₁
        (fun other hother => hwithin other (List.mem_cons_of_mem call hother))
        (hstep.commandTimeoutMs_le hcall hlimit)
      exact ⟨_, w', .cons hstep hrun, by rw [List.map_cons, hlabels]⟩

theorem zero_le_length_nil : (0 : Int) ≤ ([] : List UInt8).length := Int.le_refl 0

/-- A network that takes nothing and gives nothing, under a clock that goes on by a
microsecond with every reading. -/
def stalledPlatform : Platform Nat where
  gettimeofday now :=
    (⟨Int.ofNat ((now + 1) / 1000000), Int.ofNat ((now + 1) % 1000000)⟩, now + 1)
  mqttread now len _ := some (⟨0, [], Nat.zero_le len, zero_le_length_nil⟩, now)
  mqttwrite now _ _ := some (0, now)
  cycleLocals now := (⟨⟨0, 0, 0, 0, .initializer, .null, 0⟩, ⟨0, 0, 0⟩⟩, now)

theorem stalledPlatform_ticks : Ticks stalledPlatform fun now => (now : Int) where
  normal now := by
    constructor
    · show (0 : Int) ≤ ((now + 1) % 1000000 : Nat)
      omega
    · show (((now + 1) % 1000000 : Nat) : Int) < 1000000
      omega
  later now := by
    show (now : Int) < ((now + 1) / 1000000 : Nat) * 1000000 + ((now + 1) % 1000000 : Nat)
    omega
  reached now := by
    show ((now + 1) / 1000000 : Nat) * 1000000 + ((now + 1) % 1000000 : Nat) ≤
      ((now + 1 : Nat) : Int)
    omega
  read now len timeoutMs := ⟨_, now, rfl, Int.le_refl _⟩
  write now offered timeoutMs := ⟨0, now, rfl, Int.le_refl _⟩
  locals now := Int.le_refl _

/-- Even there a session of the application comes to its end. -/
theorem calls_comeBack_stalled :
    ∃ run w',
      Run (CallStep stalledPlatform 1000001) (⟨staticClient, 0, []⟩ : World Nat Unit) run w' ∧
      run.map Transition.label =
        [.clientInit ⟨1000, zeroBuffer, mqttBufsize, zeroBuffer, mqttBufsize⟩,
          .connect (some connectOptions) ⟨0, 0⟩, .yield 500, .disconnect] :=
  calls_comeBack stalledPlatform (fun now => (now : Int)) stalledPlatform_ticks 1000001 1000
    (by decide) _ _ (by
      intro call hcall
      simp only [List.mem_cons, List.not_mem_nil, or_false] at hcall
      obtain rfl | rfl | rfl | rfl := hcall
      · exact Nat.le_refl 1000
      · trivial
      · exact (by decide : toUnsignedInt 500 ≤ 1000)
      · trivial) (Nat.zero_le _)

end MqttClient

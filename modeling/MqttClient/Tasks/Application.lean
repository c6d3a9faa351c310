/-
# The application and its broker

`mqtt_pub_task` opens the TLS connection, the session and the subscription, publishes what
it is handed, and starts again when something fails.  `mqtt_sub_task` takes turns of the
client while it finds the session open.  Both work on one client and on one set of
handles, without a lock.  The runs here are those in which no two calls of the client
overlap; what comes of overlapping ones is the matter of `SharedBuffer` and `SubackQueue`.

In these runs the network is read and written only through the `SSL` of the last
connection, whose certificate was verified and which has not been released, as long as
`mqtt_sub_task` starts its turns while the session it found is still open.  And a message
reaches the handler only over a connection on which the topic was subscribed.
-/

import MqttClient.Client.Answer
import MqttClient.Client.Authority
import MqttClient.Tasks.PublishStep
import MqttClient.Tasks.TlsHandles

namespace MqttClient

open Semantics Program

variable {σ : Type}

/-! ## The two tasks -/

/-- The message handlers of the application. -/
inductive AppHandler
  | mqttMessageArrived
  deriving DecidableEq, Repr

/-- Where `mqtt_pub_task` is, with the value of `nAttemps`. -/
inductive PubPoint
  /-- Before `mqtt_network_connect`. -/
  | attempting (nAttemps : Nat)
  /-- Before `MQTTClientInit`. -/
  | initializing (nAttemps : Nat)
  /-- Before `MQTTConnect`. -/
  | connecting (nAttemps : Nat)
  /-- Before `MQTTSubscribe`. -/
  | subscribing (nAttemps : Nat)
  /-- Before the `MQTTCloseSession` that follows a failed call. -/
  | closing (nAttemps : Nat)
  /-- Before `mqtt_network_disconnect`. -/
  | disconnecting (nAttemps : Nat)
  /-- Before the value from the PLC, and then `MQTTPublish`. -/
  | waiting
  /-- Before the condition of the publishing loop. -/
  | sleeping
  /-- Ten attempts in a row have failed. -/
  | returned
  deriving DecidableEq, Repr

/-- Both tasks, the client and the handles.  `yielding` says that `mqtt_sub_task` has found
the session open and comes to its `MQTTYield`. -/
structure Application (σ : Type) where
  world : World σ AppHandler
  handles : Slots TlsHandle
  pub : PubPoint
  yielding : Bool

/-- The steps of the tasks, with what is decided outside of them: how the calls of an
attempt turn out, what the network is afterwards, the value to be published, and what
uninitialized variables hold. -/
inductive AppMove (σ : Type)
  | connectNetwork (answers : ConnectAnswers) (env : σ)
  | clientInit
  | connect (data : ConnackOut)
  | subscribe (grantedQoS : Int)
  | closeSession
  | disconnectNetwork (env : σ)
  | publish (value : Nat) (message : MQTTMessage)
  | finishRound
  | check
  | yield

/-- The static data of the program. -/
def Application.start (env : σ) : Application σ :=
  ⟨⟨staticClient, env, []⟩, TlsHandle.initial, .attempting 0, false⟩

/-- The `MQTTClientInit` of `MqttConnectBroker`.  `sndBuffer` and `rcvBuffer` are not cleared. -/
def appClientInit {H : Type} (c : MQTTClient H) : MQTTClient H :=
  mqttClientInit c 1000 c.buf mqttBufsize c.readbuf mqttBufsize

/-- One step of `mqtt_pub_task` or `mqtt_sub_task`, in the runs in which no two calls of the
client overlap: a call is one step. -/
inductive AppStep (P : Platform σ) (fuel : Nat) (config : MqttConfig) :
    Application σ → AppMove σ → Application σ → Prop
  | connected {s : Application σ} {nAttemps : Nat} {answers : ConnectAnswers} {env : σ}
      (hat : s.pub = .attempting nAttemps) (hret : (mqttNetworkConnect answers s.handles).1 = 0) :
      AppStep P fuel config s (.connectNetwork answers env)
        { s with
          world := { s.world with env }
          handles := (mqttNetworkConnect answers s.handles).2
          pub := .initializing nAttemps }
  | notConnected {s : Application σ} {nAttemps : Nat} {answers : ConnectAnswers} {env : σ}
      (hat : s.pub = .attempting nAttemps) (hret : (mqttNetworkConnect answers s.handles).1 ≠ 0) :
      AppStep P fuel config s (.connectNetwork answers env)
        { s with
          world := { s.world with env }
          handles := (mqttNetworkConnect answers s.handles).2
          pub := .disconnecting (nAttemps + 1) }
  | clientInit {s : Application σ} {nAttemps : Nat} (hat : s.pub = .initializing nAttemps) :
      AppStep P fuel config s .clientInit
        { s with world := s.world.update appClientInit, pub := .connecting nAttemps }
  | connect {s : Application σ} {nAttemps : Nat} {data : ConnackOut} {rc : Int}
      {world : World σ AppHandler} (hat : s.pub = .connecting nAttemps)
      (hrun : (mqttConnect P fuel (some connectOptions) data).run s.world = some (rc, world)) :
      AppStep P fuel config s (.connect data)
        { s with
          world
          pub := if rc = mqttSuccess then .subscribing nAttemps else .closing (nAttemps + 1) }
  | subscribe {s : Application σ} {nAttemps : Nat} {grantedQoS : Int} {rc : Int}
      {world : World σ AppHandler} (hat : s.pub = .subscribing nAttemps)
      (hrun : (mqttSubscribe P fuel config.topic 0 (some .mqttMessageArrived) grantedQoS).run
        s.world = some (rc, world)) :
      AppStep P fuel config s (.subscribe grantedQoS)
        { s with world, pub := if rc = mqttSuccess then .waiting else .closing (nAttemps + 1) }
  | closeSession {s : Application σ} {nAttemps : Nat} (hat : s.pub = .closing nAttemps) :
      AppStep P fuel config s .closeSession
        { s with
          world := s.world.update MQTTClient.closeSession
          pub := .disconnecting nAttemps }
  | disconnectNetwork {s : Application σ} {nAttemps : Nat} {env : σ}
      (hat : s.pub = .disconnecting nAttemps) :
      AppStep P fuel config s (.disconnectNetwork env)
        { s with
          world := { s.world with env }
          handles := mqttNetworkDisconnect s.handles
          pub := if nAttemps < 10 then .attempting nAttemps else .returned }
  | publish {s : Application σ} {value : Nat} {message : MQTTMessage} {rc : Int}
      {world : World σ AppHandler} (hat : s.pub = .waiting)
      (hrun : (publishStep P fuel config value message).run s.world = some (rc, world)) :
      AppStep P fuel config s (.publish value message)
        { s with world, pub := if rc = mqttSuccess then .sleeping else .closing 0 }
  | finishRound {s : Application σ} (hat : s.pub = .sleeping) :
      AppStep P fuel config s .finishRound
        { s with pub := if s.world.client.isconnected then .waiting else .attempting 0 }
  | check {s : Application σ} (hyielding : s.yielding = false)
      (hopen : s.world.client.isconnected = true) :
      AppStep P fuel config s .check { s with yielding := true }
  | yield {s : Application σ} {rc : Int} {world : World σ AppHandler}
      (hyielding : s.yielding = true)
      (hrun : (mqttYield P fuel 500).run s.world = some (rc, world)) :
      AppStep P fuel config s .yield { s with world, yielding := false }

variable {P : Platform σ} {fuel : Nat} {config : MqttConfig}

/-! ## The client at each point of the publishing task -/

section Client

variable {H : Type}

/-- No session, and no handlers. -/
structure IsOffline (w : World σ H) : Prop where
  isconnected : w.client.isconnected = false
  isFree : HandlerTable.IsFree w.client.messageHandlers

/-- Sessions are clean, and without one there are no handlers. -/
structure IsTidy (w : World σ H) : Prop where
  cleansession : w.client.cleansession = true
  isFree : w.client.isconnected = true ∨ HandlerTable.IsFree w.client.messageHandlers

theorem isOffline_closeSession {w : World σ H} (h : w.client.cleansession = true) :
    IsOffline (w.update MQTTClient.closeSession) := by
  have hclosed := w.client.closeSession_sessionClosed
  exact ⟨hclosed.isconnected,
    hclosed.slots_empty ((Idles.of_closeSession w).cleansession.trans h)⟩

theorem IsOffline.of_idles {w w' : World σ H} (h : IsOffline w) (hidles : Idles w w') :
    IsOffline w' := by
  refine ⟨?_, fun i => ?_⟩
  · by_contra hopen
    have hbefore := hidles.isconnected (by simpa using hopen)
    rw [h.isconnected] at hbefore
    cases hbefore
  · rcases hidles.slots i with hsame | ⟨_, hnone⟩
    · rw [hsame]
      exact h.isFree i
    · exact hnone

theorem IsTidy.congr {w w' : World σ H} (h : IsTidy w)
    (hclean : w'.client.cleansession = w.client.cleansession)
    (hopen : w'.client.isconnected = w.client.isconnected)
    (htable : w'.client.messageHandlers = w.client.messageHandlers) : IsTidy w' := by
  refine ⟨hclean.trans h.cleansession, ?_⟩
  rw [hopen, htable]
  exact h.isFree

theorem IsTidy.closeSession {w : World σ H} (h : IsTidy w) :
    IsTidy (w.update MQTTClient.closeSession) :=
  ⟨(Idles.of_closeSession w).cleansession.trans h.cleansession,
    .inr (isOffline_closeSession h.cleansession).isFree⟩

theorem IsTidy.cycle {timer : Timer} {rc : Int} {w w' : World σ H} (h : IsTidy w)
    (hrun : (cycle P fuel timer).run w = some (rc, w')) : IsTidy w' := by
  obtain ⟨packetType, w₁, w₂, hread, ⟨⟨_, _, _, hreact⟩, _⟩, hend⟩ := cycle_cases hrun
  obtain ⟨reads, w₀, ⟨⟨_, _, hfetch⟩, _⟩, rfl, _⟩ := readPacket_cases hread
  have htidy : IsTidy w₂ := h.congr (by rw [hreact, World.log, hfetch])
    (by rw [hreact, World.log, hfetch]) (by rw [hreact, World.log, hfetch])
  rcases hend with ⟨_, _, rfl⟩ | ⟨_, rfl⟩
  · exact htidy
  · unfold MQTTClient.dropSession
    by_cases hopen : w₂.client.isconnected = true
    · simpa only [World.update, hopen, if_true] using htidy.closeSession
    · simpa [World.update, hopen] using htidy

/-- Publications and turns leave a tidy client tidy. -/
theorem callFrame_isTidy :
    CallFrame P fuel (fun request => ∃ topicName message, request = .publish topicName message)
      (fun _ _ => False) (fun w w' : World σ H => IsTidy w → IsTidy w') where
  refl _ := id
  trans h h' hw := h' (h hw)
  clock _ h := h.congr rfl rfl rfl
  timer _ _ h := h.congr rfl rfl rfl
  write _ h := h.congr rfl rfl rfl
  filled _ _ h := h.congr rfl rfl rfl
  sent _ h := h.congr rfl rfl rfl
  turn _ _ _ _ hrun h := h.cycle hrun
  prepare := by
    rintro _ ⟨topicName, message, rfl⟩ w serializer w' hrun h
    obtain ⟨_, rfl⟩ := takesId_preparePublish topicName message w serializer w' hrun
    exact h.congr rfl rfl rfl
  setHandler h := h.elim
  opened w rc w' hrun h := by
    cases hrun
    exact ⟨h.cleansession, .inl rfl⟩
  closed w _ w' hrun h := by
    cases hrun
    exact h.closeSession

theorem endFrame_cleansession :
    EndFrame fun w w' : World σ H => w'.client.cleansession = w.client.cleansession where
  refl _ := rfl
  trans h h' := h'.trans h
  setHandler _ _ w _ _ h := by
    cases h
    rfl
  suback _ _ := keeps_acceptSuback (R := fun w w' => w'.client.cleansession = w.client.cleansession)
    (fun _ => rfl) fun w _ _ h => by
      cases h
      rfl
  unsuback _ :=
    keeps_acceptUnsuback (R := fun w w' => w'.client.cleansession = w.client.cleansession)
      (fun _ => rfl) fun w _ _ h => by
        cases h
        rfl
  opened w _ _ h := by
    cases h
    rfl
  closed w _ _ h := by
    cases h
    exact (Idles.of_closeSession w).cleansession

/-- A request other than CONNECT leaves the clean-session flag as it is. -/
theorem Requested.cleansession {request : Request} {w w' : World σ H}
    (h : Requested P fuel (fun w w' => w'.client.cleansession = w.client.cleansession)
      (some request) w w') (htakes : Keeps TakesId (request.prepare P : Action σ H _)) :
    w'.client.cleansession = w.client.cleansession := by
  cases h with
  | sent hsend hend => exact hend.trans (sendRequest_idles htakes hsend).1.cleansession
  | awaited hsend _ hwait hend =>
      exact (hend.trans (waitfor_idles _ _ _ hwait).cleansession).trans
        (sendRequest_idles htakes hsend).1.cleansession

theorem mqttSubscribe_cleansession {topicFilter : CString} {qos : Int} {fp : Option H}
    {grantedQoS rc : Int} {w w' : World σ H}
    (h : (mqttSubscribe P fuel topicFilter qos fp grantedQoS).run w = some (rc, w')) :
    w'.client.cleansession = w.client.cleansession := by
  obtain ⟨_, w₁, hsubscribe, h⟩ := run_bind_eq_some.mp h
  obtain ⟨_, rfl⟩ := run_pure_eq_some.mp h
  have hrequested := endFrame_cleansession.subscribeWithResults hsubscribe
  split at hrequested
  · exact hrequested.cleansession (takesId_prepareSubscribe _ _)
  · cases hrequested with
    | refused hend => exact hend

theorem mqttPublish_cleansession {topicName : CString} {message : MQTTMessage} {rc : Int}
    {w w' : World σ H} (h : (mqttPublish P fuel topicName message).run w = some (rc, w')) :
    w'.client.cleansession = w.client.cleansession := by
  have hrequested := endFrame_cleansession.publish h
  split at hrequested
  · exact hrequested.cleansession (takesId_preparePublish _ _)
  · cases hrequested with
    | refused hend => exact hend

/-- A publication that succeeds has found the session open. -/
theorem mqttPublish_isconnected {topicName : CString} {message : MQTTMessage} {w w' : World σ H}
    (h : (mqttPublish P fuel topicName message).run w = some (mqttSuccess, w')) :
    w.client.isconnected = true := by
  rw [mqttPublish, run_bind_of_eq_some (run_client w)] at h
  split at h
  · assumption
  · rw [run_finishRequest] at h
    cases h

theorem mqttYield_idles {timeoutMs rc : Int} {w w' : World σ H}
    (h : (mqttYield P fuel timeoutMs).run w = some (rc, w')) : Idles w w' := by
  obtain ⟨timer, w₁, htimer, h⟩ := run_bind_eq_some.mp h
  have hstart : Idles w w₁ :=
    .of_emits (sendFrame_emits.timerCountdownMS _ _ _ _ htimer) fun _ he => he.isSilent
  exact hstart.trans (turnFrame_idles.mqttYieldLoop timer fuel _ _ _ h)

/-- The CONNECT of the application asks for a clean session, whatever its answer. -/
theorem sendConnect_cleansession {sent : Option Timer} {w w' : World σ H}
    (h : (sendRequest P fuel (prepareConnect P connectOptions)).run w = some (sent, w')) :
    w'.client.cleansession = true := by
  obtain ⟨w₁, w₂, serializer, _, hprepare, ⟨⟨_, _, _, hclient⟩, _⟩⟩ := sendRequest_cases h
  cases hprepare
  rw [hclient]
  rfl

theorem mqttConnect_spec {data : ConnackOut} {rc : Int} {w w' : World σ H}
    (hclosed : w.client.isconnected = false)
    (h : (mqttConnect P fuel (some connectOptions) data).run w = some (rc, w')) :
    w'.client.cleansession = true ∧ (rc = mqttSuccess → w'.client.isconnected = true) := by
  obtain ⟨⟨rc', data'⟩, w₁, hconnect, h⟩ := run_bind_eq_some.mp h
  obtain ⟨rfl, rfl⟩ := run_pure_eq_some.mp h
  constructor
  · have hrequested := endFrame_cleansession.connectWithResults hconnect
    rw [if_neg (by rw [hclosed]; decide)] at hrequested
    cases hrequested with
    | sent hsend hend => exact hend.trans (sendConnect_cleansession hsend)
    | awaited hsend _ hwait hend =>
        exact (hend.trans (waitfor_idles _ _ _ hwait).cleansession).trans
          (sendConnect_cleansession hsend)
  · rintro rfl
    rcases mqttConnectWithResults_cases hconnect with
      ⟨_, hfail⟩ | ⟨_, hfail, _⟩ | ⟨_, _, _, _, _, _, _, _, hworld⟩
    · cases hfail
    · cases hfail
    · rw [hworld, if_pos rfl]
      rfl

end Client

/-- What the client is like at a point of `mqtt_pub_task`, whatever `mqtt_sub_task` does. -/
def PubPoint.Expects {H : Type} (at' : PubPoint) (w : World σ H) : Prop :=
  match at' with
  | attempting _ | initializing _ | connecting _ | disconnecting _ | returned => IsOffline w
  | subscribing _ | sleeping => IsTidy w
  | closing _ | waiting => w.client.cleansession = true

theorem PubPoint.Expects.yield {H : Type} {at' : PubPoint} {timeoutMs rc : Int} {w w' : World σ H}
    (h : at'.Expects w) (hrun : (mqttYield P fuel timeoutMs).run w = some (rc, w')) :
    at'.Expects w' := by
  have hidles := mqttYield_idles hrun
  have htidy : IsTidy w → IsTidy w' := callFrame_isTidy.yield timeoutMs w rc w' hrun
  cases at' with
  | attempting | initializing | connecting | disconnecting | returned => exact h.of_idles hidles
  | subscribing | sleeping => exact htidy h
  | closing | waiting => exact hidles.cleansession.trans h

theorem AppStep.expects {s t : Application σ} {move : AppMove σ}
    (hstep : AppStep P fuel config s move t) (h : s.pub.Expects s.world) :
    t.pub.Expects t.world := by
  cases hstep with
  | connected hat hret =>
      rw [hat] at h
      exact ⟨h.isconnected, h.isFree⟩
  | notConnected hat hret =>
      rw [hat] at h
      exact ⟨h.isconnected, h.isFree⟩
  | clientInit hat => exact ⟨rfl, fun _ => rfl⟩
  | connect hat hrun =>
      rw [hat] at h
      obtain ⟨hclean, hopen⟩ := mqttConnect_spec h.isconnected hrun
      dsimp only
      split
      · exact ⟨hclean, .inl (hopen ‹_›)⟩
      · exact hclean
  | subscribe hat hrun =>
      rw [hat] at h
      have hclean := (mqttSubscribe_cleansession hrun).trans h.cleansession
      dsimp only
      split
      · exact hclean
      · exact hclean
  | closeSession hat =>
      rw [hat] at h
      exact isOffline_closeSession h
  | disconnectNetwork hat =>
      rw [hat] at h
      dsimp only
      split
      · exact ⟨h.isconnected, h.isFree⟩
      · exact ⟨h.isconnected, h.isFree⟩
  | publish hat hrun =>
      rw [hat] at h
      dsimp only
      split
      · rename_i hrc
        subst hrc
        -- the session was open, and what closed it since has emptied the table
        exact callFrame_isTidy.publish ⟨_, _, rfl⟩ _ _ _ hrun
          ⟨h, .inl (mqttPublish_isconnected hrun)⟩
      · exact (mqttPublish_cleansession hrun).trans h
  | finishRound hat =>
      rw [hat] at h
      dsimp only
      split
      · exact h.cleansession
      · rename_i hclosed
        exact ⟨Bool.eq_false_iff.mpr hclosed, h.isFree.resolve_left hclosed⟩
  | check => exact h
  | yield _ hrun => exact h.yield hrun

/-! ## The connection in use -/

/-- The points between a connection and its release. -/
def PubPoint.isOnline : PubPoint → Bool
  | initializing _ | connecting _ | subscribing _ | closing _ | waiting | sleeping => true
  | attempting _ | disconnecting _ | returned => false

/-- The step connects the network or releases it. -/
def AppMove.replacesNetwork : AppMove σ → Bool
  | connectNetwork _ _ | disconnectNetwork _ => true
  | _ => false

/-- The handshake went through with a certificate that was verified. -/
def ConnectAnswers.isVerified (answers : ConnectAnswers) : Bool :=
  answers.reachesSslNew && answers.sslNew && answers.sslConnect && answers.verifyResult

theorem isVerified_of_connected {answers : ConnectAnswers} {s : Slots TlsHandle}
    (h : (mqttNetworkConnect answers s).1 = 0) : answers.isVerified = true := by
  rw [mqttNetworkConnect_eq] at h
  unfold ConnectAnswers.isVerified
  split at h
  · rename_i hreaches
    split at h
    · rename_i hdone
      simp only [Bool.and_eq_true] at hdone ⊢
      exact ⟨⟨⟨hreaches, hdone.1.1⟩, hdone.1.2⟩, hdone.2⟩
    · cases h
  · split at h <;> cases h

/-- The variable `ssl` holds an `SSL` that has not been freed. -/
def SslIsLive (s : Slots TlsHandle) : Prop := ∃ h, s.slot .ssl = some h ∧ h ∈ s.live

theorem sslIsLive_of_connected {answers : ConnectAnswers} {s : Slots TlsHandle}
    (h : (mqttNetworkConnect answers s).1 = 0) : SslIsLive (mqttNetworkConnect answers s).2 := by
  have hverified := isVerified_of_connected h
  simp only [ConnectAnswers.isVerified, Bool.and_eq_true] at hverified
  rw [mqttNetworkConnect_eq, if_pos hverified.1.1.1]
  refine ⟨(withSocket answers s).next, ?_, ?_⟩
  · simp [withSsl, construct, hverified.1.1.2, Slots.assign]
  · simp [withSsl, construct, hverified.1.1.2, Slots.assign]

/-- Among the steps the network was connected and verified, and since then, which is
`later`, neither connected again nor released. -/
def IsConnection (steps later : List (Transition (Application σ) (AppMove σ))) : Prop :=
  ∃ earlier entry answers env, steps = earlier ++ entry :: later ∧
    entry.label = .connectNetwork answers env ∧ answers.isVerified = true ∧
    ∀ step ∈ later, step.label.replacesNetwork = false

/-- The steps include the subscription of the application. -/
def HasSubscribed (steps : List (Transition (Application σ) (AppMove σ))) : Prop :=
  ∃ step ∈ steps, ∃ grantedQoS, step.label = .subscribe grantedQoS

/-- What is known at a point between a connection and its release. -/
structure Online (config : MqttConfig) (steps later : List (Transition (Application σ) (AppMove σ)))
    (s : Application σ) : Prop where
  connection : IsConnection steps later
  ssl : SslIsLive s.handles
  subscribed : ∀ {topicFilter fp},
    HandlerTable.Maps s.world.client.messageHandlers topicFilter fp →
      topicFilter = config.topic ∧ HasSubscribed later

/-- What a step does that leaves the network alone. -/
structure CarriesOn (config : MqttConfig) (s : Application σ) (move : AppMove σ)
    (t : Application σ) : Prop where
  handles_eq : t.handles = s.handles
  isOnline : t.pub.isOnline = true → s.pub.isOnline = true
  default_eq : s.world.client.defaultMessageHandler = none →
    t.world.client.defaultMessageHandler = none
  maps : ∀ {topicFilter fp},
    HandlerTable.Maps t.world.client.messageHandlers topicFilter fp →
      HandlerTable.Maps s.world.client.messageHandlers topicFilter fp ∨
        topicFilter = config.topic ∧ ∃ grantedQoS, move = .subscribe grantedQoS

/-- A call of the client, made at a point where the network is connected or by
`mqtt_sub_task`. -/
theorem CarriesOn.of_enters {sets : CString → Option AppHandler → Prop} {s : Application σ}
    {move : AppMove σ} {world : World σ AppHandler} {pub : PubPoint} {yielding : Bool}
    (h : Enters sets s.world world)
    (hpub : pub.isOnline = true → s.pub.isOnline = true)
    (hsets : ∀ {topicFilter fp}, sets topicFilter (some fp) →
      topicFilter = config.topic ∧ ∃ grantedQoS, move = .subscribe grantedQoS) :
    CarriesOn config s move { s with world, pub, yielding } where
  handles_eq := rfl
  isOnline := hpub
  default_eq hdefault := h.default_eq.trans hdefault
  maps hmaps := (h.maps hmaps).imp_right hsets

theorem AppStep.carriesOn {s t : Application σ} {move : AppMove σ}
    (hstep : AppStep P fuel config s move t) (hmove : move.replacesNetwork = false) :
    CarriesOn config s move t := by
  cases hstep with
  | connected => cases hmove
  | notConnected => cases hmove
  | disconnectNetwork => cases hmove
  | clientInit hat =>
      refine ⟨rfl, fun _ => by rw [hat]; rfl, fun _ => rfl, fun hmaps => absurd hmaps ?_⟩
      exact HandlerTable.IsFree.not_maps (fun _ => rfl) _ _
  | @connect _ data _ _ hat hrun =>
      have hcall : CallStep P fuel s.world (.connect (some connectOptions) data) _ := ⟨_, hrun⟩
      exact .of_enters (hcall.enters nofun) (fun _ => by rw [hat]; rfl) False.elim
  | @subscribe _ grantedQoS _ _ hat hrun =>
      have hcall : CallStep P fuel s.world
        (.subscribe config.topic 0 (some .mqttMessageArrived) grantedQoS) _ := ⟨_, hrun⟩
      exact .of_enters (hcall.enters nofun) (fun _ => by rw [hat]; rfl)
        fun hsets => ⟨hsets.1, _, rfl⟩
  | closeSession hat =>
      have henters : Enters (fun _ _ => False) s.world (s.world.update MQTTClient.closeSession) :=
        .of_serving (.of_closeSession _) (.of_closeSession _)
      exact .of_enters henters (fun _ => by rw [hat]; rfl) False.elim
  | @publish value message _ _ hat hrun =>
      have hcall : CallStep P fuel s.world (.publish config.topic
        (composeMessage message (publishText config value))) _ := ⟨_, hrun⟩
      exact .of_enters (hcall.enters nofun) (fun _ => by rw [hat]; rfl) False.elim
  | finishRound hat => exact ⟨rfl, fun _ => by rw [hat]; rfl, id, .inl⟩
  | check => exact ⟨rfl, id, id, .inl⟩
  | yield _ hrun =>
      have hcall : CallStep P fuel s.world (.yield 500) _ := ⟨_, hrun⟩
      exact .of_enters (hcall.enters nofun) id False.elim

theorem Online.step {steps later : List (Transition (Application σ) (AppMove σ))}
    {tr : Transition (Application σ) (AppMove σ)} (h : Online config steps later tr.source)
    (hmove : tr.label.replacesNetwork = false)
    (hcarries : CarriesOn config tr.source tr.label tr.target) :
    Online config (steps ++ [tr]) (later ++ [tr]) tr.target := by
  refine ⟨?_, hcarries.handles_eq ▸ h.ssl, fun hmaps => ?_⟩
  · obtain ⟨earlier, entry, answers, env, rfl, hentry, hverified, hlater⟩ := h.connection
    refine ⟨earlier, entry, answers, env, by simp, hentry, hverified, fun step hmem => ?_⟩
    rcases List.mem_append.mp hmem with hmem | hlast
    · exact hlater step hmem
    · rw [List.mem_singleton.mp hlast]
      exact hmove
  · rcases hcarries.maps hmaps with hold | ⟨htopic, grantedQoS, hlabel⟩
    · obtain ⟨htopic, step, hmem, hsubscribe⟩ := h.subscribed hold
      exact ⟨htopic, step, List.mem_append_left _ hmem, hsubscribe⟩
    · exact ⟨htopic, tr, List.mem_append_right _ List.mem_cons_self, grantedQoS, hlabel⟩

/-- What is known after every step. -/
structure IsSound (config : MqttConfig) (steps : List (Transition (Application σ) (AppMove σ)))
    (s : Application σ) : Prop where
  default_eq : s.world.client.defaultMessageHandler = none
  expects : s.pub.Expects s.world
  online : s.pub.isOnline = true → ∃ later, Online config steps later s

theorem IsSound.step {steps : List (Transition (Application σ) (AppMove σ))}
    {tr : Transition (Application σ) (AppMove σ)} (h : IsSound config steps tr.source)
    (hstep : AppStep P fuel config tr.source tr.label tr.target) :
    IsSound config (steps ++ [tr]) tr.target := by
  have hexpects := hstep.expects h.expects
  by_cases hmove : tr.label.replacesNetwork = false
  · have hcarries := hstep.carriesOn hmove
    refine ⟨hcarries.default_eq h.default_eq, hexpects, fun honline => ?_⟩
    obtain ⟨later, hlater⟩ := h.online (hcarries.isOnline honline)
    exact ⟨later ++ [tr], hlater.step hmove hcarries⟩
  · obtain ⟨s, label, t⟩ := tr
    dsimp only at hstep h hexpects hmove ⊢
    cases hstep with
    | @connected _ answers env hat hret =>
        refine ⟨h.default_eq, hexpects, fun _ => ⟨[], ?_, sslIsLive_of_connected hret, ?_⟩⟩
        · exact ⟨steps, _, answers, env, rfl, rfl, isVerified_of_connected hret, by simp⟩
        · intro topicFilter fp hmaps
          exact absurd hmaps (hexpects.isFree.not_maps topicFilter fp)
    | notConnected hat hret => exact ⟨h.default_eq, hexpects, nofun⟩
    | disconnectNetwork hat =>
        refine ⟨h.default_eq, hexpects, ?_⟩
        dsimp only
        split
        · exact nofun
        · exact nofun
    | _ => exact absurd rfl hmove

/-- Something happens only in a call of the client, and then the handlers that are called
are those of the table. -/
theorem AppStep.serves {s t : Application σ} {move : AppMove σ}
    (hstep : AppStep P fuel config s move t) {e : Event AppHandler}
    (hmem : e ∈ since s.world t.world) :
    (move = .yield ∨ s.pub.isOnline = true) ∧
      ∀ fp data, e = .call fp data → s.world.client.Serves fp data.topicName := by
  have hquiet : ∀ {world : World σ AppHandler}, world.trace = s.world.trace →
      e ∉ since s.world world := by
    intro world htrace
    rw [since_of_append (htrace.trans (List.append_nil _).symm)]
    exact List.not_mem_nil
  cases hstep with
  | connected | notConnected | disconnectNetwork => exact absurd hmem (hquiet rfl)
  | clientInit | closeSession => exact absurd hmem (hquiet rfl)
  | finishRound | check => exact absurd hmem (hquiet rfl)
  | @connect _ data _ _ hat hrun =>
      have hcall : CallStep P fuel s.world (.connect (some connectOptions) data) _ := ⟨_, hrun⟩
      exact ⟨.inr (by rw [hat]; rfl), fun fp data he => hcall.serves (he ▸ hmem)⟩
  | @subscribe _ grantedQoS _ _ hat hrun =>
      have hcall : CallStep P fuel s.world
        (.subscribe config.topic 0 (some .mqttMessageArrived) grantedQoS) _ := ⟨_, hrun⟩
      exact ⟨.inr (by rw [hat]; rfl), fun fp data he => hcall.serves (he ▸ hmem)⟩
  | @publish value message _ _ hat hrun =>
      have hcall : CallStep P fuel s.world (.publish config.topic
        (composeMessage message (publishText config value))) _ := ⟨_, hrun⟩
      exact ⟨.inr (by rw [hat]; rfl), fun fp data he => hcall.serves (he ▸ hmem)⟩
  | yield _ hrun =>
      have hcall : CallStep P fuel s.world (.yield 500) _ := ⟨_, hrun⟩
      exact ⟨.inl rfl, fun fp data he => hcall.serves (he ▸ hmem)⟩

/-- An open session means that the network is connected. -/
theorem PubPoint.Expects.isOnline {H : Type} {at' : PubPoint} {w : World σ H} (h : at'.Expects w)
    (hopen : w.client.isconnected = true) : at'.isOnline = true := by
  cases at' with
  | attempting | disconnecting | returned =>
      have hclosed := h.isconnected
      rw [hopen] at hclosed
      cases hclosed
  | initializing | connecting | subscribing | closing | waiting | sleeping => rfl

/-- In every run of the two tasks in which calls of the client do not overlap and
`mqtt_sub_task` starts its turns in an open session, the client does nothing at all unless
there is a connection: the last `mqtt_network_connect` went through with a verified
certificate, nothing has been released since, and `ssl` holds a live `SSL`.  A handler is
only called for a topic that the configured one accepts, and on a connection on which the
application has subscribed. -/
theorem application_isConnected (P : Platform σ) (fuel : Nat) (config : MqttConfig) (env : σ)
    {run : List (Transition (Application σ) (AppMove σ))} {s : Application σ}
    (hrun : Run (AppStep P fuel config) (.start env) run s)
    (hyield : ∀ tr ∈ run, tr.label = .yield → tr.source.world.client.isconnected = true) :
    ∀ before tr after, run = before ++ tr :: after →
      ∀ e ∈ since tr.source.world tr.target.world,
        ∃ later, IsConnection before later ∧ SslIsLive tr.source.handles ∧
          ∀ fp data, e = .call fp data →
            filterAccepts config.topic data.topicName = true ∧ HasSubscribed later := by
  rintro before tr after rfl e hmem
  obtain ⟨hbefore, hstep, _⟩ := hrun.split
  have hstart : IsSound config [] (Application.start env) := ⟨rfl, ⟨rfl, fun _ => rfl⟩, nofun⟩
  have hsound : IsSound config before tr.source :=
    hbefore.history (IsSound config) hstart fun _ _ _ _ hstep h => h.step hstep
  obtain ⟨hpoint, hserves⟩ := hstep.serves hmem
  have honline : tr.source.pub.isOnline = true := by
    rcases hpoint with hlabel | honline
    · exact hsound.expects.isOnline (hyield tr (by simp) hlabel)
    · exact honline
  obtain ⟨later, hlater⟩ := hsound.online honline
  refine ⟨later, hlater.connection, hlater.ssl, fun fp data he => ?_⟩
  rcases hserves fp data he with hdefault | ⟨topicFilter, hmaps, haccepts⟩
  · rw [hsound.default_eq] at hdefault
    cases hdefault
  · obtain ⟨rfl, hsubscribed⟩ := hlater.subscribed hmaps
    exact ⟨haccepts, hsubscribed⟩

/-- A broker that accepts the connection and the subscription, sends a message on the topic
`"a"`, and then breaks off with a packet that is too long. -/
def briefBroker : Recording :=
  ⟨[0x20, 2, 0, 0, 0x90, 3, 0, 2, 0, 0x30, 4, 0, 1, 97, 98, 0x30, 0xFF, 0x7F], []⟩

/-- A device `"a"` that publishes and subscribes the topic `"a"`. -/
def briefConfig : MqttConfig := ⟨⟨[97], zero_notMem_a⟩, ⟨[97], zero_notMem_a⟩⟩

/-- The client of the application in front of that broker. -/
def briefWorld : World Recording AppHandler :=
  World.update ⟨staticClient, briefBroker, []⟩ appClientInit

/-- The message is handed to the handler, over a connection on which the application has
subscribed. -/
theorem application_isConnected_brief :
    ∃ steps s later fp data,
      Run (AppStep (linuxPlatform Recording.host 1030) 8 briefConfig) (.start briefBroker) steps s ∧
      steps.map Transition.label = [.connectNetwork .allGood briefBroker, .clientInit,
        .connect ⟨0, 0⟩, .subscribe 0, .check, .yield] ∧
      .call fp data ∈ s.world.trace ∧ IsConnection steps.dropLast later ∧
      filterAccepts briefConfig.topic data.topicName = true ∧ HasSubscribed later := by
  have hcalls :
      ((mqttConnect (linuxPlatform Recording.host 1030) 8 (some connectOptions) ⟨0, 0⟩).run
        briefWorld).bind (fun connected =>
      ((mqttSubscribe (linuxPlatform Recording.host 1030) 8 briefConfig.topic 0
        (some .mqttMessageArrived) 0).run connected.2).bind fun subscribed =>
      ((mqttYield (linuxPlatform Recording.host 1030) 8 500).run subscribed.2).map fun yielded =>
        (connected.1, subscribed.1, subscribed.2.client.isconnected,
          (deliveries (since subscribed.2 yielded.2)).length)) = some (0, 0, true, 1) := by decide
  obtain ⟨⟨rc₁, w₁⟩, hconnect, hcalls⟩ := Option.bind_eq_some_iff.mp hcalls
  obtain ⟨⟨rc₂, w₂⟩, hsubscribe, hcalls⟩ := Option.bind_eq_some_iff.mp hcalls
  obtain ⟨⟨rc₃, w₃⟩, hyield, hcalls⟩ := Option.map_eq_some_iff.mp hcalls
  simp only [Prod.mk.injEq] at hcalls
  obtain ⟨rfl, rfl, hopen, hcalls⟩ := hcalls
  have hrun : Run (AppStep (linuxPlatform Recording.host 1030) 8 briefConfig)
      (.start briefBroker) _ _ :=
    .cons (@AppStep.connected _ _ _ _ _ 0 .allGood briefBroker rfl (by decide))
    (.cons (.clientInit rfl) (.cons (.connect rfl hconnect) (.cons (.subscribe rfl hsubscribe)
    (.cons (.check rfl hopen) (.single (.yield rfl hyield))))))
  obtain ⟨delivery, hmem⟩ := List.exists_mem_of_length_pos (l := deliveries (since w₂ w₃))
    (by rw [hcalls]; decide)
  obtain ⟨event, hevent, hdelivery⟩ := List.mem_filterMap.mp hmem
  cases event with
  | call fp data =>
      obtain ⟨later, hconnection, _, hserved⟩ := application_isConnected _ 8 briefConfig _ hrun
        (by
          intro tr htr hlabel
          simp only [List.mem_cons, List.not_mem_nil, or_false] at htr
          obtain rfl | rfl | rfl | rfl | rfl | rfl := htr
          all_goals first | exact hopen | cases hlabel)
        [_, _, _, _, _] _ [] rfl _ hevent
      obtain ⟨haccepts, hsubscribed⟩ := hserved fp data rfl
      exact ⟨_, _, later, fp, data, hrun, rfl, List.mem_of_mem_drop hevent, hconnection,
        haccepts, hsubscribed⟩
  | _ => cases hdelivery

/-- The network was read. -/
def Event.isRead {H : Type} : Event H → Bool
  | .read _ => true
  | _ => false

/-- A broker that accepts the connection and the subscription, and then breaks off. -/
def lateBroker : Recording := ⟨[0x20, 2, 0, 0, 0x90, 3, 0, 2, 0, 0x30, 0xFF, 0x7F], []⟩

/-- The world after the release that follows a failed publication. -/
def releasedWorld (w : World Recording AppHandler) : World Recording AppHandler :=
  { w.update MQTTClient.closeSession with env := ⟨[0x30, 0xFF, 0x7F], []⟩ }

/-- The condition on `mqtt_sub_task` cannot be left out.  It finds the session open, but
before it comes to its turn a publication fails and the handles are released; the turn then
reads from the network through an `SSL` that was freed. -/
theorem late_yield_reads_released :
    ∃ steps s t e,
      Run (AppStep (linuxPlatform Recording.host 1030) 8 briefConfig) (.start lateBroker) steps s ∧
      AppStep (linuxPlatform Recording.host 1030) 8 briefConfig s .yield t ∧
      e ∈ since s.world t.world ∧ e.isRead = true ∧ ¬ SslIsLive s.handles := by
  have hcalls :
      ((mqttConnect (linuxPlatform Recording.host 1030) 8 (some connectOptions) ⟨0, 0⟩).run
        (World.update ⟨staticClient, lateBroker, []⟩ appClientInit)).bind (fun connected =>
      ((mqttSubscribe (linuxPlatform Recording.host 1030) 8 briefConfig.topic 0
        (some AppHandler.mqttMessageArrived) 0).run connected.2).bind fun subscribed =>
      ((publishStep (linuxPlatform Recording.host 1030) 8 briefConfig 7 ⟨1, 0, 0, 0, .null, 0⟩).run
        subscribed.2).bind fun published =>
      ((mqttYield (linuxPlatform Recording.host 1030) 8 500).run (releasedWorld published.2)).map
        fun yielded => (connected.1, subscribed.1, subscribed.2.client.isconnected, published.1,
          (since (releasedWorld published.2) yielded.2).any Event.isRead)) =
      some (0, 0, true, -1, true) := by decide
  obtain ⟨⟨rc₁, w₁⟩, hconnect, hcalls⟩ := Option.bind_eq_some_iff.mp hcalls
  obtain ⟨⟨rc₂, w₂⟩, hsubscribe, hcalls⟩ := Option.bind_eq_some_iff.mp hcalls
  obtain ⟨⟨rc₃, w₃⟩, hpublish, hcalls⟩ := Option.bind_eq_some_iff.mp hcalls
  obtain ⟨⟨rc₄, w₄⟩, hyield, hcalls⟩ := Option.map_eq_some_iff.mp hcalls
  simp only [Prod.mk.injEq] at hcalls
  obtain ⟨rfl, rfl, hopen, rfl, hread⟩ := hcalls
  obtain ⟨e, hmem, he⟩ := List.any_eq_true.mp hread
  have hrun : Run (AppStep (linuxPlatform Recording.host 1030) 8 briefConfig)
      (.start lateBroker) _ _ :=
    .cons (@AppStep.connected _ _ _ _ _ 0 .allGood lateBroker rfl (by decide))
    (.cons (.clientInit rfl) (.cons (.connect rfl hconnect) (.cons (.subscribe rfl hsubscribe)
    (.cons (.check rfl hopen) (.cons (.publish rfl hpublish) (.cons (.closeSession rfl)
    (.single (@AppStep.disconnectNetwork _ _ _ _ _ 0 ⟨[0x30, 0xFF, 0x7F], []⟩ rfl))))))))
  have hreleased : ¬ SslIsLive
      (mqttNetworkDisconnect (mqttNetworkConnect .allGood TlsHandle.initial).2) := by
    rintro ⟨h, hslot, hlive⟩
    have hssl : (mqttNetworkDisconnect
        (mqttNetworkConnect .allGood TlsHandle.initial).2).slot .ssl = some 4 := by decide
    obtain rfl := Option.some.inj (hslot.symm.trans hssl)
    exact absurd hlive (by decide)
  exact ⟨_, _, _, e, hrun, .yield rfl hyield, hmem, he, hreleased⟩

end MqttClient

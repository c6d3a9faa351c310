/-
# The handles of the TLS connection

`mqtt_network_connect` creates a BIO, an `SSL_CTX`, a socket and an `SSL`, in this order,
and returns early when a step fails; `mqtt_network_disconnect` releases all four.  They
live in global variables that no release resets.  An attempt that stops before it
assigns a variable therefore leaves an old value in it, and the release that follows
acts on that: the descriptor 0 with which `sockfd` starts, or an `SSL` that was freed
after the last attempt.  And when the publishing loop ends because the session is
closed, although the last `MQTTPublish` succeeded, nothing is released, and the next
attempt overwrites what is open.

Away from these cases every handle is released exactly once before it is replaced.
-/

import MqttClient.Semantics.Resource
import MqttClient.Semantics.Transition
import Mathlib.Data.Fintype.Defs

namespace MqttClient

open Semantics

/-! ## `MQTTInterface.c` -/

/-- The global variables that hold handles. -/
inductive TlsHandle
  | bioErr
  | ctx
  | sockfd
  | ssl
  deriving DecidableEq, Repr

instance : Fintype TlsHandle :=
  ⟨{.bioErr, .ctx, .sockfd, .ssl}, fun k => by cases k <;> decide⟩

/-- Before the first attempt the pointers are null and `sockfd` is 0, which is a
descriptor, but none of this program's making. -/
def TlsHandle.initial : Slots TlsHandle where
  slot k := if k = .sockfd then some 0 else none
  next := 1
  live := ∅
  faults := []

/-- How the calls of one `mqtt_network_connect` turn out: whether the constructors
return a handle, and whether the other calls succeed. -/
structure ConnectAnswers where
  bioNewFp : Bool
  sslCtxNew : Bool
  loadVerifyLocations : Bool
  useCertificateFile : Bool
  usePrivateKeyFile : Bool
  checkPrivateKey : Bool
  socket : Bool
  gethostbyname : Bool
  connect : Bool
  sslNew : Bool
  sslConnect : Bool
  verifyResult : Bool
  deriving DecidableEq, Repr

/-- Assign what a constructor returned.  The -1 of a failed `socket` is a null too:
closing it does nothing. -/
def construct (k : TlsHandle) (created : Bool) (s : Slots TlsHandle) : Slots TlsHandle :=
  if created then s.assign k else s.clear k

/-- `mqtt_network_connect`: the returned value and the handles.  A failing
`SSL_CTX_set_default_verify_paths` is only logged. -/
def mqttNetworkConnect (answers : ConnectAnswers) (s : Slots TlsHandle) : Int × Slots TlsHandle :=
  let s := construct .bioErr answers.bioNewFp s
  let s := construct .ctx answers.sslCtxNew s
  if !answers.sslCtxNew then (1, s)
  else if !answers.loadVerifyLocations then (1, s)
  else if !answers.useCertificateFile then (1, s)
  else if !answers.usePrivateKeyFile then (1, s)
  else if !answers.checkPrivateKey then (1, s)
  else
    let s := construct .sockfd answers.socket s
    if !answers.socket then (1, s)
    else if !answers.gethostbyname then (1, s)
    else if !answers.connect then (1, s)
    else
      let s := construct .ssl answers.sslNew s
      if !answers.sslNew then (1, s)
      else if !answers.sslConnect then (1, s)
      else if !answers.verifyResult then (1, s)
      else (0, s)

/-- The order in which `mqtt_network_disconnect` releases. -/
def releaseOrder : List TlsHandle := [.ssl, .sockfd, .bioErr, .ctx]

/-- `mqtt_network_disconnect`.  The `SSL_shutdown` before releases nothing. -/
def mqttNetworkDisconnect (s : Slots TlsHandle) : Slots TlsHandle :=
  releaseOrder.foldl Slots.release s

/-! ## `mqtt_task.c` -/

/-- How the calls of one `MqttConnectBroker` turn out. -/
structure BrokerAnswers where
  network : ConnectAnswers
  mqttConnect : Int
  mqttSubscribe : Int
  deriving DecidableEq, Repr

/-- `MqttConnectBroker`: the returned value and the handles. -/
def mqttConnectBroker (answers : BrokerAnswers) (s : Slots TlsHandle) : Int × Slots TlsHandle :=
  let (ret, s) := mqttNetworkConnect answers.network s
  if ret ≠ 0 then (-1, mqttNetworkDisconnect s)
  else if answers.mqttConnect ≠ 0 then (answers.mqttConnect, mqttNetworkDisconnect s)
  else if answers.mqttSubscribe ≠ 0 then (answers.mqttSubscribe, mqttNetworkDisconnect s)
  else (0, s)

/-- Where `mqtt_pub_task` is. -/
inductive PubStage
  /-- In the loop of attempts, with the value of `nAttemps`. -/
  | connecting (nAttemps : Nat)
  /-- In the publishing loop. -/
  | publishing
  /-- Ten attempts in a row have failed. -/
  | returned
  deriving DecidableEq, Repr

/-- The task and its handles. -/
structure PubTask where
  stage : PubStage
  handles : Slots TlsHandle

/-- What happens to the task from outside. -/
inductive PubInput
  /-- An attempt, with the outcomes of its calls. -/
  | attempt (answers : BrokerAnswers)
  /-- One round of the publishing loop: what `MQTTPublish` returned, and what
  `isconnected` is at the condition of the loop, whoever closed the session. -/
  | publish (rc : Int) (isconnected : Bool)
  deriving DecidableEq, Repr

/-- One step of `mqtt_pub_task`. -/
def mqttPubTaskStep (s : PubTask) : PubInput → Option PubTask
  | .attempt answers =>
      match s.stage with
      | .connecting nAttemps =>
          let (ret, handles) := mqttConnectBroker answers s.handles
          if ret = 0 then some ⟨.publishing, handles⟩
          else if nAttemps + 1 < 10 then some ⟨.connecting (nAttemps + 1), handles⟩
          else some ⟨.returned, handles⟩
      | _ => none
  | .publish rc isconnected =>
      match s.stage with
      | .publishing =>
          if rc ≠ 0 then some ⟨.connecting 0, mqttNetworkDisconnect s.handles⟩
          else if isconnected then some s
          else some ⟨.connecting 0, s.handles⟩
      | _ => none

/-- The task at its start. -/
def PubTask.start : PubTask := ⟨.connecting 0, TlsHandle.initial⟩

/-- No handle was released twice or without being created, and none was overwritten
while it was open. -/
def HandlesAreKept (s : PubTask) : Prop := s.handles.faults = []

/-! ## Steps that keep the handles -/

/-- The attempt gets as far as creating its socket. -/
def ConnectAnswers.reachesSocket (answers : ConnectAnswers) : Bool :=
  answers.sslCtxNew && answers.loadVerifyLocations && answers.useCertificateFile &&
    answers.usePrivateKeyFile && answers.checkPrivateKey

/-- The attempt gets as far as creating its `SSL`. -/
def ConnectAnswers.reachesSslNew (answers : ConnectAnswers) : Bool :=
  answers.reachesSocket && answers.socket && answers.gethostbyname && answers.connect

/-- The variables the attempt gets to. -/
def ConnectAnswers.assigned (answers : ConnectAnswers) : Finset TlsHandle :=
  if answers.reachesSslNew then {.ssl, .sockfd, .ctx, .bioErr}
  else if answers.reachesSocket then {.sockfd, .ctx, .bioErr}
  else {.ctx, .bioErr}

/-- An attempt finds null in the variables it does not get to, and the publishing loop
is left only through a failed `MQTTPublish`. -/
def StepIsSafe (s : PubTask) : PubInput → Prop
  | .attempt answers => ∀ k, k ∈ answers.network.assigned ∨ s.handles.slot k = none
  | .publish rc isconnected => rc ≠ 0 ∨ isconnected = true

instance (s : PubTask) (input : PubInput) : Decidable (StepIsSafe s input) := by
  cases input with
  | attempt answers =>
      exact inferInstanceAs
        (Decidable (∀ k, k ∈ answers.network.assigned ∨ s.handles.slot k = none))
  | publish rc isconnected => exact inferInstanceAs (Decidable (rc ≠ 0 ∨ isconnected = true))

/-- Which variables own a handle. -/
def PubStage.held : PubStage → Finset TlsHandle
  | .publishing => {.ssl, .sockfd, .ctx, .bioErr}
  | .connecting _ | .returned => ∅

theorem mem_held_publishing (k : TlsHandle) : k ∈ PubStage.publishing.held := by
  cases k <;> decide

theorem holds_initial : TlsHandle.initial.Holds ∅ where
  faults := rfl
  live _ := by simp [TlsHandle.initial]
  distinct _ h := absurd h (by simp)
  stale _ _ _ _ := by simp [TlsHandle.initial]
  fresh k h hslot := by
    cases k <;> cases hslot
    exact Nat.one_pos

theorem holds_construct {s : Slots TlsHandle} {held : Finset TlsHandle} {k : TlsHandle}
    (h : s.Holds held) (hk : k ∉ held) (created : Bool) :
    (construct k created s).Holds (insert k held) := by
  cases created with
  | true => exact h.assign hk
  | false => exact h.clear hk

theorem slot_construct {k k' : TlsHandle} (hne : k' ≠ k) (created : Bool) (s : Slots TlsHandle) :
    (construct k created s).slot k' = s.slot k' := by
  cases created with
  | true => exact Function.update_of_ne hne _ _
  | false => exact Function.update_of_ne hne _ _

section Connect

variable (answers : ConnectAnswers) (s : Slots TlsHandle)

/-- The handles after the context is created. -/
def withContext : Slots TlsHandle :=
  construct .ctx answers.sslCtxNew (construct .bioErr answers.bioNewFp s)

/-- The handles after the socket is created. -/
def withSocket : Slots TlsHandle := construct .sockfd answers.socket (withContext answers s)

/-- The handles after the `SSL` is created. -/
def withSsl : Slots TlsHandle := construct .ssl answers.sslNew (withSocket answers s)

/-- The ten early returns leave one of three states of the handles. -/
theorem mqttNetworkConnect_eq :
    mqttNetworkConnect answers s =
      if answers.reachesSslNew then
        (if answers.sslNew && answers.sslConnect && answers.verifyResult then 0 else 1,
          withSsl answers s)
      else if answers.reachesSocket then (1, withSocket answers s)
      else (1, withContext answers s) := by
  obtain ⟨_, sslCtxNew, loadVerifyLocations, useCertificateFile, usePrivateKeyFile,
    checkPrivateKey, socket, gethostbyname, connect, sslNew, sslConnect, verifyResult⟩ := answers
  cases sslCtxNew
  · rfl
  cases loadVerifyLocations
  · rfl
  cases useCertificateFile
  · rfl
  cases usePrivateKeyFile
  · rfl
  cases checkPrivateKey
  · rfl
  cases socket
  · rfl
  cases gethostbyname
  · rfl
  cases connect
  · rfl
  cases sslNew
  · rfl
  cases sslConnect
  · rfl
  cases verifyResult <;> rfl

theorem holds_mqttNetworkConnect {s} (h : s.Holds ∅) :
    (mqttNetworkConnect answers s).2.Holds answers.assigned := by
  have hbio := holds_construct h (Finset.notMem_empty TlsHandle.bioErr) answers.bioNewFp
  have hctx : (withContext answers s).Holds {.ctx, .bioErr} :=
    holds_construct hbio (by decide) answers.sslCtxNew
  have hsocket : (withSocket answers s).Holds {.sockfd, .ctx, .bioErr} :=
    holds_construct hctx (by decide) answers.socket
  have hssl : (withSsl answers s).Holds {.ssl, .sockfd, .ctx, .bioErr} :=
    holds_construct hsocket (by decide) answers.sslNew
  rw [mqttNetworkConnect_eq]
  unfold ConnectAnswers.assigned
  split
  · exact hssl
  · split
    · exact hsocket
    · exact hctx

/-- A variable the attempt does not get to keeps what it held. -/
theorem slot_mqttNetworkConnect {answers s} {k : TlsHandle} (hk : k ∉ answers.assigned) :
    (mqttNetworkConnect answers s).2.slot k = s.slot k := by
  rw [mqttNetworkConnect_eq]
  unfold ConnectAnswers.assigned at hk
  split at hk
  · cases k <;> exact absurd hk (by decide)
  · split at hk
    · obtain rfl : k = .ssl := by
        cases k <;> first | rfl | exact absurd hk (by decide)
      rw [if_neg ‹_›, if_pos ‹_›]
      simp only [withSocket, withContext, slot_construct, ne_eq, reduceCtorEq, not_false_eq_true]
    · rw [if_neg ‹_›, if_neg ‹_›]
      have hctx : k ≠ .ctx := by
        rintro rfl
        exact hk (by decide)
      have hbio : k ≠ .bioErr := by
        rintro rfl
        exact hk (by decide)
      rw [withContext, slot_construct hctx, slot_construct hbio]

/-- A successful attempt gets to every variable. -/
theorem assigned_of_connected {answers s} (h : (mqttNetworkConnect answers s).1 = 0) :
    answers.assigned = PubStage.publishing.held := by
  rw [mqttNetworkConnect_eq] at h
  unfold ConnectAnswers.assigned
  split at h
  · rw [if_pos ‹_›]
    rfl
  · split at h <;> cases h

end Connect

theorem holds_mqttNetworkDisconnect {s : Slots TlsHandle} {held : Finset TlsHandle}
    (h : s.Holds held) (hk : ∀ k, k ∈ held ∨ s.slot k = none) :
    (mqttNetworkDisconnect s).Holds ∅ := by
  have hall : held \ releaseOrder.toFinset = ∅ := by
    refine Finset.sdiff_eq_empty_iff_subset.mpr fun k _ => ?_
    cases k <;> decide
  rw [← hall]
  exact h.foldl_release (by decide) fun k _ => hk k

/-- Either the session is open and all handles are held, or none is. -/
theorem holds_mqttConnectBroker {answers : BrokerAnswers} {s : Slots TlsHandle} (h : s.Holds ∅)
    (hsafe : ∀ k, k ∈ answers.network.assigned ∨ s.slot k = none) :
    (mqttConnectBroker answers s).1 = 0 ∧
        (mqttConnectBroker answers s).2.Holds PubStage.publishing.held ∨
      (mqttConnectBroker answers s).1 ≠ 0 ∧ (mqttConnectBroker answers s).2.Holds ∅ := by
  have hconnect := holds_mqttNetworkConnect answers.network h
  have hdisconnect := holds_mqttNetworkDisconnect hconnect fun k => by
    by_cases hk : k ∈ answers.network.assigned
    · exact .inl hk
    · exact .inr ((slot_mqttNetworkConnect hk).trans ((hsafe k).resolve_left hk))
  unfold mqttConnectBroker
  dsimp only
  split_ifs with hret hmqttConnect hmqttSubscribe
  · exact .inr ⟨Int.neg_ne_zero.mpr Int.one_ne_zero, hdisconnect⟩
  · exact .inr ⟨hmqttConnect, hdisconnect⟩
  · exact .inr ⟨hmqttSubscribe, hdisconnect⟩
  · rw [assigned_of_connected (not_not.mp hret)] at hconnect
    exact .inl ⟨rfl, hconnect⟩

/-- A safe step leaves the variables of its stage with their handles. -/
theorem mqttPubTaskStep_holds {s s' : PubTask} {input : PubInput}
    (hstep : mqttPubTaskStep s input = some s') (hsafe : StepIsSafe s input)
    (h : s.handles.Holds s.stage.held) : s'.handles.Holds s'.stage.held := by
  obtain ⟨stage, handles⟩ := s
  cases input with
  | attempt answers =>
      cases stage with
      | publishing => cases hstep
      | returned => cases hstep
      | connecting nAttemps =>
          have hbroker := holds_mqttConnectBroker h hsafe
          simp only [mqttPubTaskStep] at hstep
          rcases hbroker with ⟨hret, hheld⟩ | ⟨hret, hheld⟩
          · rw [if_pos hret] at hstep
            cases hstep
            exact hheld
          · rw [if_neg hret] at hstep
            split_ifs at hstep
            · cases hstep
              exact hheld
            · cases hstep
              exact hheld
  | publish rc isconnected =>
      cases stage with
      | connecting _ => cases hstep
      | returned => cases hstep
      | publishing =>
          simp only [mqttPubTaskStep] at hstep
          split_ifs at hstep with hrc hopen
          · cases hstep
            exact holds_mqttNetworkDisconnect h fun k => .inl (mem_held_publishing k)
          · cases hstep
            exact h
          · exact absurd (hsafe.resolve_left hrc) hopen

/-- In a run whose steps are all safe, every handle is released exactly once before it
is replaced. -/
theorem handlesAreKept_of_stepIsSafe {run : List (Transition PubTask PubInput)} {s : PubTask}
    (hrun : Run (fun s input s' => mqttPubTaskStep s input = some s') .start run s)
    (hsafe : ∀ tr ∈ run, StepIsSafe tr.source tr.label) :
    HandlesAreKept s ∧ ∀ tr ∈ run, HandlesAreKept tr.source ∧ HandlesAreKept tr.target := by
  obtain ⟨hlast, hall⟩ := hrun.invariant (fun s => s.handles.Holds s.stage.held) holds_initial
    hsafe fun tr hstep hsafe h => mqttPubTaskStep_holds hstep hsafe h
  exact ⟨hlast.faults, fun tr htr => ⟨(hall tr htr).2.1.faults, (hall tr htr).2.2.faults⟩⟩

/-- Every call succeeds. -/
def ConnectAnswers.allGood : ConnectAnswers :=
  ⟨true, true, true, true, true, true, true, true, true, true, true, true⟩

/-- The first attempt does not reach the broker, the second one does, and later a
publication fails. -/
theorem handlesAreKept_reconnect :
    ∃ run s, Run (fun s input s' => mqttPubTaskStep s input = some s') .start run s ∧
      run.length = 5 ∧ s.handles.live = {11, 10, 9, 8} ∧ HandlesAreKept s := by
  obtain ⟨⟨run, s⟩, hreplay, hobs⟩ := Option.map_eq_some_iff.mp
    (show (replay mqttPubTaskStep .start
      [.attempt ⟨{ ConnectAnswers.allGood with connect := false }, 0, 0⟩,
        .attempt ⟨.allGood, 0, 0⟩, .publish 0 true, .publish (-1) true,
        .attempt ⟨.allGood, 0, 0⟩]).map
      (fun r => (r.1.length, r.2.handles.live, r.1.all fun tr => StepIsSafe tr.source tr.label)) =
      some (5, {11, 10, 9, 8}, true) by decide)
  obtain ⟨hlength, hrest⟩ := Prod.mk.inj hobs
  obtain ⟨hlive, hsafe⟩ := Prod.mk.inj hrest
  have hrun := run_of_replay hreplay
  exact ⟨run, s, hrun, hlength, hlive, (handlesAreKept_of_stepIsSafe hrun fun tr htr =>
    of_decide_eq_true (List.all_eq_true.mp hsafe tr htr)).1⟩

/-- The task comes to a state with these faults. -/
def ReachesFaults (faults : List (Fault TlsHandle)) : Prop :=
  ∃ run s, Run (fun s input s' => mqttPubTaskStep s input = some s') .start run s ∧
    s.handles.faults = faults

theorem reachesFaults_of_replay {inputs : List PubInput} {faults : List (Fault TlsHandle)}
    (h : (replay mqttPubTaskStep .start inputs).map (fun r => r.2.handles.faults) = some faults) :
    ReachesFaults faults := by
  obtain ⟨⟨run, s⟩, hreplay, hfaults⟩ := Option.map_eq_some_iff.mp h
  exact ⟨run, s, run_of_replay hreplay, hfaults⟩

/-- The CA certificate cannot be loaded, and descriptor 0 is closed.  After a failed
handshake the broker cannot be reached, and the `SSL` of the handshake is freed again.
After a publication succeeds `mqtt_sub_task` has closed the session, and the four
handles are overwritten. -/
theorem not_forall_handlesAreKept :
    ReachesFaults [.badRelease .sockfd 0] ∧ ReachesFaults [.badRelease .ssl 4] ∧
      ReachesFaults [.lost .bioErr 1, .lost .ctx 2, .lost .sockfd 3, .lost .ssl 4] ∧
      ¬ ∀ run s, Run (fun s input s' => mqttPubTaskStep s input = some s') .start run s →
        HandlesAreKept s := by
  have hdescriptor : ReachesFaults [.badRelease .sockfd 0] :=
    reachesFaults_of_replay (show (replay mqttPubTaskStep .start
      [.attempt ⟨{ ConnectAnswers.allGood with loadVerifyLocations := false }, 0, 0⟩]).map _ = _
      by decide)
  refine ⟨hdescriptor, ?_, ?_, fun hkept => ?_⟩
  · exact reachesFaults_of_replay (show (replay mqttPubTaskStep .start
      [.attempt ⟨{ ConnectAnswers.allGood with sslConnect := false }, 0, 0⟩,
        .attempt ⟨{ ConnectAnswers.allGood with connect := false }, 0, 0⟩]).map _ = _ by decide)
  · exact reachesFaults_of_replay (show (replay mqttPubTaskStep .start
      [.attempt ⟨.allGood, 0, 0⟩, .publish 0 false, .attempt ⟨.allGood, 0, 0⟩]).map _ = _
      by decide)
  · obtain ⟨run, s, hrun, hfaults⟩ := hdescriptor
    exact absurd (hfaults.symm.trans (hkept run s hrun)) (List.cons_ne_nil _ _)

end MqttClient

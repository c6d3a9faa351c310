/-
# What an answer proves

`MQTTConnect`, `MQTTPublish`, `MQTTSubscribe` and `MQTTUnsubscribe` take the packet
on which their wait ended as the answer to their request.  Each theorem below says
exactly which answers make the success of the call mean what it should: a CONNACK
that accepts, an acknowledgement of this request, a SUBACK that grants.
-/

import MqttClient.Client.Waiting

namespace MqttClient

open Semantics Program

variable {σ H : Type} {P : Platform σ} {fuel : Nat}

/-! ## `MQTTConnect` -/

theorem run_finishConnect (rc : Int) (w : World σ H) :
    (finishConnect rc).run w =
      some (rc, if rc = mqttSuccess then
        w.update fun c => { c with isconnected := true, pingOutstanding := false } else w) := by
  unfold finishConnect
  split
  · rfl
  · rfl

theorem prepareConnect_isconnected {options : MQTTPacketConnectData}
    {serializer : Int → Serialized} {w w' : World σ H}
    (h : (prepareConnect P options).run w = some (serializer, w')) :
    w'.client.isconnected = w.client.isconnected := by
  obtain ⟨_, w₁, hset, h⟩ := run_bind_eq_some.mp h
  obtain ⟨c, w₂, hclient, h⟩ := run_bind_eq_some.mp h
  obtain ⟨lastReceived, w₃, hcount, h⟩ := run_bind_eq_some.mp h
  obtain ⟨_, w₄, hset', h⟩ := run_bind_eq_some.mp h
  obtain ⟨_, rfl⟩ := run_pure_eq_some.mp h
  cases hset
  cases hclient
  cases hset'
  exact (sendFrame_emits.timerCountdown _ _ _ _ hcount).isconnected

theorem sendConnect_isconnected {options : MQTTPacketConnectData} {sent : Option Timer}
    {w w' : World σ H}
    (h : (sendRequest P fuel (prepareConnect P options)).run w = some (sent, w')) :
    w'.client.isconnected = w.client.isconnected := by
  obtain ⟨w₁, w₂, serializer, hbefore, hprepare, hafter⟩ := sendRequest_cases h
  rw [hafter.isconnected, prepareConnect_isconnected hprepare, hbefore.isconnected]

/-- The client decoded the CONNACK and entered its return code. -/
def ConnackDecoded (rc : Int) (w₂ w' : World σ H) : Prop :=
  rc = (if (mqttDeserializeConnack w₂.client.readbuf ⟨0, 0⟩).1 = 1 then
    ((mqttDeserializeConnack w₂.client.readbuf ⟨0, 0⟩).2.connackRc.toNat : Int) else failure) ∧
  w' = if rc = mqttSuccess then
    w₂.update fun c => { c with isconnected := true, pingOutstanding := false } else w₂

/-- Everything `MQTTConnectWithResults` can do: it fails and does not connect, or it
decodes a CONNACK. -/
theorem mqttConnectWithResults_cases {options : Option MQTTPacketConnectData} {data : ConnackOut}
    {result : Int × ConnackOut} {w w' : World σ H}
    (h : (mqttConnectWithResults P fuel options data).run w = some (result, w')) :
    (w.client.isconnected = true ∧ result.1 = failure) ∨
    (w.client.isconnected = false ∧ result.1 = failure ∧ w'.client.isconnected = false ∧
      ∀ Q, AnswerSatisfies P fuel (prepareConnect P (options.getD .initializer)) .connack w Q) ∨
    (w.client.isconnected = false ∧ ∃ timer w₁ w₂,
      (sendRequest P fuel (prepareConnect P (options.getD .initializer))).run w =
        some (some timer, w₁) ∧
      (waitfor P fuel .connack timer).run w₁ = some ((MsgType.connack.code : Int), w₂) ∧
      w₂.client.isconnected = false ∧ ConnackDecoded result.1 w₂ w') := by
  obtain ⟨c, w₀, hclient, h⟩ := run_bind_eq_some.mp h
  cases hclient
  split at h
  · rename_i hconn
    obtain ⟨rc, w₁, hfinish, h⟩ := run_bind_eq_some.mp h
    rw [run_finishConnect] at hfinish
    obtain ⟨rfl, rfl⟩ := run_pure_eq_some.mp h
    cases hfinish
    exact .inl ⟨hconn, rfl⟩
  · rename_i hconn
    have hclosed : w.client.isconnected = false := Bool.eq_false_iff.mpr hconn
    refine .inr ?_
    obtain ⟨sent, w₁, hsent, h⟩ := run_bind_eq_some.mp h
    have hafter := (sendConnect_isconnected hsent).trans hclosed
    split at h
    · obtain ⟨rc, w₂, hfinish, h⟩ := run_bind_eq_some.mp h
      rw [run_finishConnect] at hfinish
      obtain ⟨rfl, rfl⟩ := run_pure_eq_some.mp h
      cases hfinish
      exact .inl ⟨hclosed, rfl, hafter, fun Q => answerSatisfies_of_not_sent hsent⟩
    · rename_i timer
      obtain ⟨answer, w₂, hwait, h⟩ := run_bind_eq_some.mp h
      have hidle := waitfor_idles _ _ _ hwait
      have hstill : w₂.client.isconnected = false := by
        by_contra hne
        exact absurd (hidle.isconnected (by simpa using hne)) (by simp [hafter])
      split at h
      · rename_i hanswer
        subst hanswer
        obtain ⟨c, w₃, hclient, h⟩ := run_bind_eq_some.mp h
        cases hclient
        obtain ⟨rc, w₄, hfinish, h⟩ := run_bind_eq_some.mp h
        rw [run_finishConnect] at hfinish
        obtain ⟨rfl, rfl⟩ := run_pure_eq_some.mp h
        cases hfinish
        exact .inr ⟨hclosed, timer, w₁, w₂, hsent, hwait, hstill, rfl, rfl⟩
      · rename_i hanswer
        obtain ⟨rc, w₃, hfinish, h⟩ := run_bind_eq_some.mp h
        rw [run_finishConnect] at hfinish
        obtain ⟨rfl, rfl⟩ := run_pure_eq_some.mp h
        cases hfinish
        exact .inl ⟨hclosed, rfl, hstill,
          fun Q => answerSatisfies_of_not_answered hsent hwait hanswer⟩

/-- After the CONNECT went out, a complete CONNACK of at least two bytes with return
code 0 was received. -/
def ConnackAccepted (P : Platform σ) (fuel : Nat) (options : Option MQTTPacketConnectData)
    (w w' : World σ H) : Prop :=
  ∃ timer w₁, (sendRequest P fuel (prepareConnect P (options.getD .initializer))).run w =
      some (some timer, w₁) ∧
    Arrived .connack (fun body => 2 ≤ body.length ∧ body[1]? = some 0) w₁ w'

/-- Success, or a client that is connected and was not before, means that a CONNACK
accepted the connection. -/
def ConnectMeansAccepted (P : Platform σ) (fuel : Nat) (options : Option MQTTPacketConnectData)
    (rc : Int) (w w' : World σ H) : Prop :=
  rc = mqttSuccess ∨ w.client.isconnected = false ∧ w'.client.isconnected = true →
    ConnackAccepted P fuel options w w'

/-- The CONNACK that ends the wait has two bytes of body and, unless it refuses, a
finished length field. -/
def ConnackIsSound (P : Platform σ) (fuel : Nat) (options : Option MQTTPacketConnectData)
    (w : World σ H) : Prop :=
  w.client.isconnected = false →
    AnswerSatisfies P fuel (prepareConnect P (options.getD .initializer)) .connack w
      fun field body _ => 2 ≤ body.length ∧ (Terminates field ∨ body[1]? ≠ some 0)

theorem mqttConnectWithResults_meansAccepted_iff {options : Option MQTTPacketConnectData}
    {data : ConnackOut} {result : Int × ConnackOut} {w w' : World σ H}
    (h : (mqttConnectWithResults P fuel options data).run w = some (result, w')) :
    ConnectMeansAccepted P fuel options result.1 w w' ↔ ConnackIsSound P fuel options w := by
  obtain ⟨hconn, hrc⟩ | ⟨hclosed, hrc, hafter, hsat⟩ |
    ⟨hclosed, timer, w₁, w₂, hsent, hwait, hstill, hrc, hw'⟩ := mqttConnectWithResults_cases h
  · -- already connected: nothing was sent and nothing has changed
    refine iff_of_true ?_ fun hclosed => absurd (hconn.symm.trans hclosed) (by decide)
    rintro (hsuccess | ⟨hclosed, _⟩)
    · exact absurd (hrc.symm.trans hsuccess) (by decide)
    · exact absurd (hconn.symm.trans hclosed) (by decide)
  · refine iff_of_true ?_ fun _ => hsat _
    rintro (hsuccess | ⟨_, hconn⟩)
    · exact absurd (hrc.symm.trans hsuccess) (by decide)
    · exact absurd (hafter.symm.trans hconn) (by decide)
  · obtain ⟨reads, header, field, cut, body, hreads, hholds, htype, hanswer, hhanded⟩ :=
      exists_answer (by decide) hsent hwait
    have htrace : w'.trace = w₂.trace := by
      rw [hw']
      split <;> rfl
    have hgoal : ConnackAccepted P fuel options w w' ↔
        Terminates field ∧ 2 ≤ body.length ∧ body[1]? = some 0 := by
      refine Iff.trans ?_ ((hhanded w₁ w' (.refl w₁) htrace _).trans
        (hreads.isComplete_iff fun body => 2 ≤ body.length ∧ body[1]? = some 0))
      constructor
      · rintro ⟨timer', w₁', hsent', harr⟩
        obtain ⟨⟨⟩, rfl⟩ := run_inj hsent hsent'
        exact harr
      · exact fun harr => ⟨timer, w₁, hsent, harr⟩
    have hsound : ConnackIsSound P fuel options w ↔
        2 ≤ body.length ∧ (Terminates field ∨ body[1]? ≠ some 0) := by
      rw [ConnackIsSound, hanswer]
      exact ⟨fun hs => hs hclosed, fun hs _ => hs⟩
    have hpremise : (result.1 = mqttSuccess ∨
        w.client.isconnected = false ∧ w'.client.isconnected = true) ↔ result.1 = mqttSuccess := by
      refine ⟨?_, .inl⟩
      rintro (hsuccess | ⟨_, hconn⟩)
      · exact hsuccess
      · by_contra hne
        rw [hw', if_neg hne] at hconn
        exact absurd (hstill.symm.trans hconn) (by decide)
    rw [ConnectMeansAccepted, hpremise, hgoal, hsound]
    by_cases hlong : 2 ≤ body.length
    · obtain ⟨code, hcode⟩ : ∃ code, body[1]? = some code :=
        ⟨_, List.getElem?_eq_getElem (by omega)⟩
      obtain ⟨sessionPresent, hdec⟩ := hholds.mqttDeserializeConnack_of_le htype hcode ⟨0, 0⟩
      rw [hdec, if_pos rfl] at hrc
      have hzero : result.1 = mqttSuccess ↔ code = 0 := by
        rw [hrc, ← UInt8.toNat_inj]
        simp
      rw [hzero, hcode]
      by_cases hcode0 : code = 0
      · simp [hcode0, hlong]
      · simp [hcode0, hlong]
    · -- the decoder reports success and the preset return code 0 stands
      rw [hholds.mqttDeserializeConnack_of_short htype (by omega), if_pos rfl] at hrc
      have hsuccess : result.1 = mqttSuccess := hrc
      simp [hsuccess, hlong]

/-- `MQTTConnectWithResults` and `MQTTConnect` report success, or leave the client
connected, only after an accepting CONNACK, exactly if the CONNACK they got was
sound. -/
theorem connect_means_accepted_iff (P : Platform σ) (fuel : Nat)
    (options : Option MQTTPacketConnectData) (data : ConnackOut) (w : World σ H) :
    (∀ rc data' w', (mqttConnectWithResults P fuel options data).run w = some ((rc, data'), w') →
      (ConnectMeansAccepted P fuel options rc w w' ↔ ConnackIsSound P fuel options w)) ∧
    (∀ rc w', (mqttConnect P fuel options data).run w = some (rc, w') →
      (ConnectMeansAccepted P fuel options rc w w' ↔ ConnackIsSound P fuel options w)) := by
  refine ⟨fun rc data' w' h => mqttConnectWithResults_meansAccepted_iff h, ?_⟩
  intro rc w' h
  obtain ⟨⟨rc', data'⟩, w₁, hrun, h⟩ := run_bind_eq_some.mp h
  obtain ⟨rfl, rfl⟩ := run_pure_eq_some.mp h
  exact mqttConnectWithResults_meansAccepted_iff hrun

/-- The broker accepts with a CONNACK as it should be. -/
theorem connect_means_accepted_iff_accepting :
    ∃ rc w', (mqttConnect (linuxPlatform Recording.host 8) 8 (some connectOptions) ⟨0, 0⟩).run
        (recordedWorld [0x20, 2, 0, 0]) = some (rc, w') ∧
      (ConnectMeansAccepted (linuxPlatform Recording.host 8) 8 (some connectOptions) rc
          (recordedWorld [0x20, 2, 0, 0]) w' ↔
        ConnackIsSound (linuxPlatform Recording.host 8) 8 (some connectOptions)
          (recordedWorld [0x20, 2, 0, 0])) := by
  obtain ⟨rc, w', hrun, _⟩ := returns_of_map_eq
    (show ((mqttConnect (linuxPlatform Recording.host 8) 8 (some connectOptions) ⟨0, 0⟩).run
      (recordedWorld [0x20, 2, 0, 0])).map Prod.fst = some 0 by decide)
  exact ⟨rc, w', hrun, (connect_means_accepted_iff _ 8 _ ⟨0, 0⟩ _).2 rc w' hrun⟩

/-- A CONNACK without any body connects the client. -/
theorem connect_empty_connack :
    ((mqttConnect (linuxPlatform Recording.host 8) 8 (some connectOptions) ⟨0, 0⟩).run
      (recordedWorld [0x20, 0])).map
        (fun r => (r.1, r.2.client.isconnected, receptions r.2.trace)) =
      some (mqttSuccess, true, [⟨MsgType.connack.code, [byteLog 0x20, byteLog 0]⟩]) := by
  decide

/-! ## How a request ends -/

/-- The four ways a request of a connected client ends.  In the last one the answer
is decoded, and `accepted` says with what result. -/
inductive RequestEnds (P : Platform σ) (fuel : Nat) (prepare : Action σ H (Int → Serialized))
    (packetType : MsgType) (accepted : World σ H → Int → World σ H → Prop) (w : World σ H)
    (rc : Int) (w' : World σ H) : Prop
  | refused (hconn : w.client.isconnected = false) (hrc : rc = failure)
      (hw' : w' = w.update MQTTClient.closeSession)
  | unsent {w₁ : World σ H} (hconn : w.client.isconnected = true)
      (hsent : (sendRequest P fuel prepare).run w = some (none, w₁)) (hrc : rc = failure)
      (hw' : w' = w₁.update MQTTClient.closeSession)
  | unanswered {timer : Timer} {answer : Int} {w₁ w₂ : World σ H}
      (hconn : w.client.isconnected = true)
      (hsent : (sendRequest P fuel prepare).run w = some (some timer, w₁))
      (hwait : (waitfor P fuel packetType timer).run w₁ = some (answer, w₂))
      (hne : answer ≠ packetType.code) (hrc : rc = failure)
      (hw' : w' = w₂.update MQTTClient.closeSession)
  | answered {timer : Timer} {w₁ w₂ : World σ H} (hconn : w.client.isconnected = true)
      (hsent : (sendRequest P fuel prepare).run w = some (some timer, w₁))
      (hwait : (waitfor P fuel packetType timer).run w₁ = some ((packetType.code : Int), w₂))
      (haccepted : accepted w₂ rc w')

/-- The answer counts, whatever is in it. -/
def AcceptsAny (w₂ : World σ H) (rc : Int) (w' : World σ H) : Prop :=
  rc = mqttSuccess ∧ w'.trace = w₂.trace

theorem run_finishRequest_failure (w : World σ H) :
    (finishRequest failure).run w = some (failure, w.update MQTTClient.closeSession) := by
  rw [run_finishRequest, if_pos rfl]

/-- `awaitAck` reports success as soon as a packet of the awaited type came. -/
theorem awaitAck_cases {packetType : MsgType} (hhandled : isHandled packetType.code = true)
    {timer : Timer} {rc : Int} {w w' : World σ H}
    (h : (awaitAck P fuel packetType timer).run w = some (rc, w')) :
    ∃ answer, (waitfor P fuel packetType timer).run w = some (answer, w') ∧
      rc = if answer = packetType.code then mqttSuccess else failure := by
  obtain ⟨answer, w₁, hwait, h⟩ := run_bind_eq_some.mp h
  split at h
  · rename_i hanswer
    subst hanswer
    obtain ⟨c, w₂, hclient, h⟩ := run_bind_eq_some.mp h
    cases hclient
    obtain ⟨_, _, header, _, _, body, _, _, hframe⟩ := waitfor_answered hhandled hwait
    rw [hframe.holds.mqttDeserializeAck_eq, if_neg (by simp)] at h
    obtain ⟨rfl, rfl⟩ := run_pure_eq_some.mp h
    exact ⟨_, hwait, (if_pos rfl).symm⟩
  · rename_i hanswer
    obtain ⟨rfl, rfl⟩ := run_pure_eq_some.mp h
    exact ⟨_, hwait, (if_neg hanswer).symm⟩

theorem finishRequest_failure_cases {rc : Int} {w w' : World σ H}
    (h : (finishRequest failure).run w = some (rc, w')) :
    rc = failure ∧ w' = w.update MQTTClient.closeSession := by
  rw [run_finishRequest_failure] at h
  cases h
  exact ⟨rfl, rfl⟩

/-- The shape the requests share.  `k` is what follows the sending, `refuse` what a
client does that is not connected, and `rc` finds the return code in the result. -/
theorem requestEnds_of_run {α : Type} {prepare : Action σ H (Int → Serialized)}
    {packetType : MsgType} {accepted : World σ H → Int → World σ H → Prop}
    {k : Option Timer → Action σ H α} {refuse : Action σ H α} (rc : α → Int) {a : α}
    {w w' : World σ H}
    (h : (do
        let c ← client
        if c.isconnected then sendRequest P fuel prepare >>= k else refuse).run w = some (a, w'))
    (hrefuse : ∀ {v}, refuse.run v = some (a, w') →
      rc a = failure ∧ w' = v.update MQTTClient.closeSession)
    (hunsent : ∀ {v}, (k none).run v = some (a, w') →
      rc a = failure ∧ w' = v.update MQTTClient.closeSession)
    (hsent : ∀ {timer v}, (k (some timer)).run v = some (a, w') →
      ∃ answer v', (waitfor P fuel packetType timer).run v = some (answer, v') ∧
        if answer = packetType.code then accepted v' (rc a) w'
        else rc a = failure ∧ w' = v'.update MQTTClient.closeSession) :
    RequestEnds P fuel prepare packetType accepted w (rc a) w' := by
  rw [run_bind_of_eq_some (run_client w)] at h
  split at h
  · rename_i hconn
    obtain ⟨sent, w₁, hrun, h⟩ := run_bind_eq_some.mp h
    cases sent with
    | none =>
        obtain ⟨hrc, hw'⟩ := hunsent h
        exact .unsent hconn hrun hrc hw'
    | some timer =>
        obtain ⟨answer, w₂, hwait, hrest⟩ := hsent h
        split at hrest
        · rename_i hanswer
          subst hanswer
          exact .answered hconn hrun hwait hrest
        · rename_i hanswer
          exact .unanswered hconn hrun hwait hanswer hrest.1 hrest.2
  · rename_i hconn
    obtain ⟨hrc, hw'⟩ := hrefuse h
    exact .refused (Bool.eq_false_iff.mpr hconn) hrc hw'

/-- The type of acknowledgement a PUBLISH of this QoS waits for. -/
def publishAck (qos : Int) : MsgType := if qos = 1 then .puback else .pubcomp

theorem mqttPublish_ends {topicName : CString} {message : MQTTMessage}
    (hqos : message.qos = 1 ∨ message.qos = 2) {rc : Int} {w w' : World σ H}
    (h : (mqttPublish P fuel topicName message).run w = some (rc, w')) :
    RequestEnds P fuel (preparePublish topicName message) (publishAck message.qos) AcceptsAny
      w rc w' := by
  have hhandled : isHandled (publishAck message.qos).code = true := by
    rcases hqos with hq | hq <;> rw [hq] <;> decide
  have hwhich : ∀ timer, (if message.qos = 1 then do
        let rc ← awaitAck P fuel .puback timer
        finishRequest rc
      else if message.qos = 2 then do
        let rc ← awaitAck P fuel .pubcomp timer
        finishRequest rc
      else finishRequest mqttSuccess : Action σ H Int) =
      (do
        let rc ← awaitAck P fuel (publishAck message.qos) timer
        finishRequest rc) := by
    intro timer
    rcases hqos with hq | hq <;> simp [hq, publishAck]
  refine requestEnds_of_run id h finishRequest_failure_cases finishRequest_failure_cases ?_
  intro timer v h
  dsimp only at h
  rw [hwhich] at h
  obtain ⟨rc', w₂, hack, h⟩ := run_bind_eq_some.mp h
  obtain ⟨answer, hwait, rfl⟩ := awaitAck_cases hhandled hack
  refine ⟨answer, w₂, hwait, ?_⟩
  split at h
  · rename_i hanswer
    rw [run_finishRequest] at h
    cases h
    rw [if_pos hanswer]
    exact ⟨rfl, rfl⟩
  · rename_i hanswer
    rw [if_neg hanswer]
    exact finishRequest_failure_cases h

theorem acceptUnsuback_trace {topicFilter : CString} {rc : Int} {w w' : World σ H}
    (h : (acceptUnsuback topicFilter).run w = some (rc, w')) : w'.trace = w.trace := by
  refine keeps_acceptUnsuback (R := fun w w' => w'.trace = w.trace) (fun _ => rfl) ?_ _ _ _ h
  intro w rc w' hset
  cases hset
  rfl

theorem mqttUnsubscribe_ends {topicFilter : CString} {rc : Int} {w w' : World σ H}
    (h : (mqttUnsubscribe P fuel topicFilter).run w = some (rc, w')) :
    RequestEnds P fuel (prepareUnsubscribe topicFilter) .unsuback AcceptsAny w rc w' := by
  refine requestEnds_of_run id h finishRequest_failure_cases finishRequest_failure_cases ?_
  intro timer v h
  obtain ⟨answer, w₂, hwait, h⟩ := run_bind_eq_some.mp h
  refine ⟨answer, w₂, hwait, ?_⟩
  split at h
  · rename_i hanswer
    obtain ⟨rc', w₃, haccept, h⟩ := run_bind_eq_some.mp h
    obtain rfl := acceptUnsuback_rc haccept
    rw [run_finishRequest] at h
    cases h
    rw [if_pos hanswer]
    exact ⟨rfl, acceptUnsuback_trace haccept⟩
  · rename_i hanswer
    rw [if_neg hanswer]
    exact finishRequest_failure_cases h

/-- The SUBACK is decoded and, if the decoder takes it, the handler is entered. -/
def AcceptsSuback (topicFilter : CString) (messageHandler : Option H) (w₂ : World σ H) (rc : Int)
    (w' : World σ H) : Prop :=
  let set := HandlerTable.setMessageHandler w₂.client.messageHandlers topicFilter messageHandler
  if (mqttDeserializeSuback w₂.client.readbuf 1 ⟨0, 0, fun _ => 0⟩).1 = 1 then
    rc = set.1 ∧
      w' = if rc = failure then
        (w₂.update fun c => { c with messageHandlers := set.2 }).update MQTTClient.closeSession
      else w₂.update fun c => { c with messageHandlers := set.2 }
  else rc = mqttSuccess ∧ w' = w₂

theorem acceptSuback_cases {topicFilter : CString} {messageHandler : Option H}
    {result : Int × Int} {rc : Int} {w w₁ w' : World σ H}
    (h : (acceptSuback topicFilter messageHandler).run w = some (result, w₁))
    (hfinish : (finishRequest result.1).run w₁ = some (rc, w')) :
    AcceptsSuback topicFilter messageHandler w rc w' := by
  have hgranted := mqttDeserializeSuback_grantedQoSs_ne w.client.readbuf 1
    ⟨0, 0, fun _ => 0⟩ (fun _ => (by decide : toUnsignedInt 0 ≠ 0x80)) 0
  obtain ⟨c, w₂, hclient, h⟩ := run_bind_eq_some.mp h
  cases hclient
  rw [run_finishRequest] at hfinish
  cases hfinish
  unfold AcceptsSuback
  split at h
  rename_i ok out hdec
  rw [hdec] at hgranted ⊢
  dsimp only at h hgranted ⊢
  split at h
  · rename_i hok
    obtain ⟨rc', w₃, hset, h⟩ := run_bind_eq_some.mp h
    obtain ⟨rfl, rfl⟩ := run_pure_eq_some.mp h
    obtain ⟨c', w₄, hclient, hset⟩ := run_bind_eq_some.mp hset
    cases hclient
    obtain ⟨_, w₅, hmodify, hset⟩ := run_bind_eq_some.mp hset
    cases hmodify
    obtain ⟨rfl, rfl⟩ := run_pure_eq_some.mp hset
    rw [if_pos hok.1]
    exact ⟨rfl, rfl⟩
  · rename_i hok
    obtain ⟨rfl, rfl⟩ := run_pure_eq_some.mp h
    rw [if_neg fun hone => hok ⟨hone, hgranted⟩]
    exact ⟨rfl, rfl⟩

theorem mqttSubscribeWithResults_ends {topicFilter : CString} {qos : Int}
    {messageHandler : Option H} {grantedQoS : Int} {result : Int × Int} {w w' : World σ H}
    (h : (mqttSubscribeWithResults P fuel topicFilter qos messageHandler grantedQoS).run w =
      some (result, w')) :
    RequestEnds P fuel (prepareSubscribe topicFilter qos) .suback
      (AcceptsSuback topicFilter messageHandler) w result.1 w' := by
  have hfailed : ∀ {v : World σ H},
      (finishRequest failure >>= fun rc => pure (rc, grantedQoS)).run v = some (result, w') →
      result.1 = failure ∧ w' = v.update MQTTClient.closeSession := by
    intro v hrun
    rw [run_bind_of_eq_some (run_finishRequest_failure v)] at hrun
    obtain ⟨rfl, rfl⟩ := run_pure_eq_some.mp hrun
    exact ⟨rfl, rfl⟩
  refine requestEnds_of_run Prod.fst h hfailed hfailed ?_
  intro timer v h
  obtain ⟨answer, w₂, hwait, h⟩ := run_bind_eq_some.mp h
  refine ⟨answer, w₂, hwait, ?_⟩
  split at h
  · rename_i hanswer
    obtain ⟨⟨rc', granted⟩, w₃, haccept, h⟩ := run_bind_eq_some.mp h
    obtain ⟨rc, w₄, hfinish, h⟩ := run_bind_eq_some.mp h
    obtain ⟨rfl, rfl⟩ := run_pure_eq_some.mp h
    rw [if_pos hanswer]
    exact acceptSuback_cases haccept hfinish
  · rename_i hanswer
    rw [if_neg hanswer]
    exact hfailed h

/-! ## The identifier in the answer -/

/-- The identifier the next request puts into its packet. -/
def MQTTClient.requestId (c : MQTTClient H) : Nat := (UInt16.ofNat c.nextId).toNat

/-- The answer that ends the wait is complete and carries the request's identifier. -/
def AnswerMatches (P : Platform σ) (fuel : Nat) (prepare : Action σ H (Int → Serialized))
    (packetType : MsgType) (w : World σ H) : Prop :=
  w.client.isconnected = true → AnswerSatisfies P fuel prepare packetType w fun field body _ =>
    Terminates field ∧ leadingInt? body = some w.client.requestId

/-- Success means that an acknowledgement of this very request was received. -/
def SuccessMeansMatched (packetType : MsgType) (rc : Int) (w w' : World σ H) : Prop :=
  rc = mqttSuccess →
    Arrived packetType (fun body => leadingInt? body = some w.client.requestId) w w'

theorem RequestEnds.matched_iff {prepare : Action σ H (Int → Serialized)} {packetType : MsgType}
    (hhandled : isHandled packetType.code = true) (hprepare : Keeps TakesId prepare) {rc : Int}
    {w w' : World σ H} (h : RequestEnds P fuel prepare packetType AcceptsAny w rc w') :
    SuccessMeansMatched packetType rc w w' ↔ AnswerMatches P fuel prepare packetType w := by
  have hfailed : rc = failure → SuccessMeansMatched packetType rc w w' := by
    rintro rfl hsuccess
    exact absurd hsuccess (by decide)
  cases h with
  | refused hconn hrc _ =>
      exact iff_of_true (hfailed hrc) fun hopen => absurd (hconn.symm.trans hopen) (by decide)
  | unsent _ hsent hrc _ =>
      exact iff_of_true (hfailed hrc) fun _ => answerSatisfies_of_not_sent hsent
  | unanswered _ hsent hwait hne hrc _ =>
      exact iff_of_true (hfailed hrc) fun _ => answerSatisfies_of_not_answered hsent hwait hne
  | answered hconn hsent hwait haccepted =>
      obtain ⟨rfl, htrace⟩ := haccepted
      obtain ⟨reads, header, field, cut, body, hreads, _, _, hanswer, hhanded⟩ :=
        exists_answer hhandled hsent hwait
      have hquiet := (sendRequest_idles hprepare hsent).2
      have harrived := (hhanded w w' hquiet htrace _).trans
        (hreads.isComplete_iff fun body => leadingInt? body = some w.client.requestId)
      rw [SuccessMeansMatched, AnswerMatches, hanswer]
      exact ⟨fun hall _ => harrived.mp (hall rfl), fun hall _ => harrived.mpr (hall hconn)⟩

/-- The answer that ends the wait of a subscription either matches the request, or
is one that the decoder takes and for which the handler table has no room. -/
def SubackMatches (P : Platform σ) (fuel : Nat) (topicFilter : CString) (qos : Int)
    (messageHandler : Option H) (w : World σ H) : Prop :=
  w.client.isconnected = true →
    AnswerSatisfies P fuel (prepareSubscribe topicFilter qos) .suback w fun field body c =>
      (body.length ≤ 4 ∧
        (HandlerTable.setMessageHandler c.messageHandlers topicFilter messageHandler).1 = failure) ∨
      (Terminates field ∧ leadingInt? body = some w.client.requestId)

/-- What a subscription does with its answer, in terms of the frame: a longer SUBACK
is refused, which changes nothing and is reported as success. -/
theorem AcceptsSuback.of_holds {topicFilter : CString} {messageHandler : Option H}
    {w₂ w' : World σ H} {rc : Int} {header : UInt8} {body : List UInt8}
    (h : AcceptsSuback topicFilter messageHandler w₂ rc w')
    (hholds : HoldsFrame w₂.client.readbuf header body)
    (htype : (MQTTHeader.ofByte header).type = MsgType.suback.code) :
    (body.length ≤ 4 ∧
      rc = (HandlerTable.setMessageHandler w₂.client.messageHandlers topicFilter messageHandler).1 ∧
      w' = let w₃ := w₂.update fun c => { c with messageHandlers :=
          (HandlerTable.setMessageHandler w₂.client.messageHandlers topicFilter messageHandler).2 }
        if rc = failure then w₃.update MQTTClient.closeSession else w₃) ∨
    (4 < body.length ∧ rc = mqttSuccess ∧ w' = w₂) := by
  have hok := hholds.mqttDeserializeSuback_rc htype ⟨0, 0, fun _ => 0⟩
  unfold AcceptsSuback at h
  dsimp only at h
  by_cases hlen : body.length ≤ 4
  · rw [if_pos hlen] at hok
    rw [if_pos hok] at h
    exact .inl ⟨hlen, h.1, h.2⟩
  · rw [if_neg hlen] at hok
    rw [if_neg (by rw [hok]; decide)] at h
    exact .inr ⟨by omega, h.1, h.2⟩

theorem AcceptsSuback.trace_eq {topicFilter : CString} {messageHandler : Option H}
    {w₂ w' : World σ H} {rc : Int} (h : AcceptsSuback topicFilter messageHandler w₂ rc w') :
    w'.trace = w₂.trace := by
  unfold AcceptsSuback at h
  dsimp only at h
  split at h
  · rw [h.2]
    split <;> rfl
  · rw [h.2]

theorem mqttSubscribe_matched_iff {topicFilter : CString} {qos : Int}
    {messageHandler : Option H} {grantedQoS : Int} {result : Int × Int} {w w' : World σ H}
    (h : (mqttSubscribeWithResults P fuel topicFilter qos messageHandler grantedQoS).run w =
      some (result, w')) :
    SuccessMeansMatched .suback result.1 w w' ↔
      SubackMatches P fuel topicFilter qos messageHandler w := by
  have hfailed : result.1 = failure → SuccessMeansMatched .suback result.1 w w' := by
    intro hrc hsuccess
    exact absurd (hrc.symm.trans hsuccess) (by decide)
  cases mqttSubscribeWithResults_ends h with
  | refused hconn hrc _ =>
      exact iff_of_true (hfailed hrc) fun hopen => absurd (hconn.symm.trans hopen) (by decide)
  | unsent _ hsent hrc _ =>
      exact iff_of_true (hfailed hrc) fun _ => answerSatisfies_of_not_sent hsent
  | unanswered _ hsent hwait hne hrc _ =>
      exact iff_of_true (hfailed hrc) fun _ => answerSatisfies_of_not_answered hsent hwait hne
  | @answered timer w₁ w₂ hconn hsent hwait haccepted =>
      obtain ⟨reads, header, field, cut, body, hreads, hholds, htype, hanswer, hhanded⟩ :=
        exists_answer (by decide) hsent hwait
      have hquiet := (sendRequest_idles (takesId_prepareSubscribe _ _) hsent).2
      have harrived := (hhanded w w' hquiet haccepted.trace_eq _).trans
        (hreads.isComplete_iff fun body => leadingInt? body = some w.client.requestId)
      have hrc : result.1 = if body.length ≤ 4 then (HandlerTable.setMessageHandler
          w₂.client.messageHandlers topicFilter messageHandler).1 else mqttSuccess := by
        rcases haccepted.of_holds hholds htype with ⟨hlen, hrc, _⟩ | ⟨hlen, hrc, _⟩
        · rw [if_pos hlen, hrc]
        · rw [if_neg (by omega), hrc]
      rw [SubackMatches, hanswer]
      by_cases hfull : body.length ≤ 4 ∧ (HandlerTable.setMessageHandler
          w₂.client.messageHandlers topicFilter messageHandler).1 = failure
      · rw [if_pos hfull.1] at hrc
        exact iff_of_true (hfailed (hrc.trans hfull.2)) fun _ => .inl hfull
      · have hsuccess : result.1 = mqttSuccess := by
          rw [hrc]
          split
          · exact (HandlerTable.setMessageHandler_isStatus _ _ _).resolve_right
              fun hset => hfull ⟨‹_›, hset⟩
          · rfl
        refine ⟨fun hall _ => .inr (harrived.mp (hall hsuccess)), fun hall _ => ?_⟩
        exact harrived.mpr ((hall hconn).resolve_left hfull)

/-- The success of a QoS 1 or 2 publish, a subscription or an unsubscription means
that an acknowledgement with its own identifier was received, exactly if the answer
that ended the wait had it. -/
theorem ack_identifier_iff (P : Platform σ) (fuel : Nat) (w : World σ H) :
    (∀ topicName message rc w', message.qos = 1 →
      (mqttPublish P fuel topicName message).run w = some (rc, w') →
      (SuccessMeansMatched .puback rc w w' ↔
        AnswerMatches P fuel (preparePublish topicName message) .puback w)) ∧
    (∀ topicName message rc w', message.qos = 2 →
      (mqttPublish P fuel topicName message).run w = some (rc, w') →
      (SuccessMeansMatched .pubcomp rc w w' ↔
        AnswerMatches P fuel (preparePublish topicName message) .pubcomp w)) ∧
    (∀ topicFilter qos messageHandler grantedQoS rc grantedQoS' w',
      (mqttSubscribeWithResults P fuel topicFilter qos messageHandler grantedQoS).run w =
        some ((rc, grantedQoS'), w') →
      (SuccessMeansMatched .suback rc w w' ↔
        SubackMatches P fuel topicFilter qos messageHandler w)) ∧
    (∀ topicFilter rc w', (mqttUnsubscribe P fuel topicFilter).run w = some (rc, w') →
      (SuccessMeansMatched .unsuback rc w w' ↔
        AnswerMatches P fuel (prepareUnsubscribe topicFilter) .unsuback w)) := by
  refine ⟨?_, ?_, fun _ _ _ _ _ _ _ h => mqttSubscribe_matched_iff h, ?_⟩
  · intro topicName message rc w' hqos h
    have hends := mqttPublish_ends (.inl hqos) h
    rw [publishAck, if_pos hqos] at hends
    exact hends.matched_iff (by decide) (takesId_preparePublish _ _)
  · intro topicName message rc w' hqos h
    have hends := mqttPublish_ends (.inr hqos) h
    rw [publishAck, if_neg (by rw [hqos]; decide)] at hends
    exact hends.matched_iff (by decide) (takesId_preparePublish _ _)
  · intro topicFilter rc w' h
    exact (mqttUnsubscribe_ends h).matched_iff (by decide) (takesId_prepareUnsubscribe _)

/-- The broker acknowledges the identifier 2 that the first request takes. -/
theorem ack_identifier_iff_two :
    (∃ rc w', (mqttPublish (linuxPlatform Recording.host 8) 8 ⟨[97], by decide⟩
        ⟨1, 0, 0, 0, .null, 0⟩).run (connectedWorld [0x40, 2, 0, 2]) = some (rc, w') ∧
      (SuccessMeansMatched .puback rc (connectedWorld [0x40, 2, 0, 2]) w' ↔
        AnswerMatches (linuxPlatform Recording.host 8) 8
          (preparePublish ⟨[97], by decide⟩ ⟨1, 0, 0, 0, .null, 0⟩) .puback
          (connectedWorld [0x40, 2, 0, 2]))) ∧
    (∃ rc w', (mqttPublish (linuxPlatform Recording.host 8) 8 ⟨[97], by decide⟩
        ⟨2, 0, 0, 0, .null, 0⟩).run (connectedWorld [0x70, 2, 0, 2]) = some (rc, w') ∧
      (SuccessMeansMatched .pubcomp rc (connectedWorld [0x70, 2, 0, 2]) w' ↔
        AnswerMatches (linuxPlatform Recording.host 8) 8
          (preparePublish ⟨[97], by decide⟩ ⟨2, 0, 0, 0, .null, 0⟩) .pubcomp
          (connectedWorld [0x70, 2, 0, 2]))) := by
  obtain ⟨rc, w₁, honce, _⟩ := returns_of_map_eq
    (show ((mqttPublish (linuxPlatform Recording.host 8) 8 ⟨[97], by decide⟩
      ⟨1, 0, 0, 0, .null, 0⟩).run (connectedWorld [0x40, 2, 0, 2])).map Prod.fst = some 0 by decide)
  obtain ⟨rc', w₂, htwice, _⟩ := returns_of_map_eq
    (show ((mqttPublish (linuxPlatform Recording.host 8) 8 ⟨[97], by decide⟩
      ⟨2, 0, 0, 0, .null, 0⟩).run (connectedWorld [0x70, 2, 0, 2])).map Prod.fst = some 0 by decide)
  exact ⟨⟨rc, w₁, honce, (ack_identifier_iff _ 8 _).1 _ _ rc w₁ rfl honce⟩,
    rc', w₂, htwice, (ack_identifier_iff _ 8 _).2.1 _ _ rc' w₂ rfl htwice⟩

/-- A PUBACK for identifier 9 completes the publish that took identifier 2. -/
theorem publish_foreign_puback :
    ((mqttPublish (linuxPlatform Recording.host 8) 8 ⟨[97], by decide⟩
      ⟨1, 0, 0, 0, .null, 0⟩).run (connectedWorld [0x40, 2, 0, 9])).map
        (fun r => (r.1, (connectedWorld [0x40, 2, 0, 9]).client.requestId,
          receptions r.2.trace)) =
      some (mqttSuccess, 2,
        [⟨MsgType.puback.code, [byteLog 0x40, byteLog 2, ⟨2, 2, [0, 9]⟩]⟩]) := by
  decide

end MqttClient

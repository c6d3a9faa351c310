/-
# Who may be called

A handler is called from inside a turn, and turns are taken by almost every call of the
interface.  Which handler a message reaches is decided by the table at that time, and the
table is changed by other calls: a handler is entered, removed, or lost with a clean
session.  A call of a handler is therefore traced back through the run: to the call that
entered it, for a filter that accepts the topic, with the entry standing in the table
ever since.
-/

import MqttClient.Semantics.Transition
import MqttClient.Packet.WholePackets
import MqttClient.Client.Calls
import MqttClient.Client.Subscription
import MqttClient.Client.TopicFilter
import MqttClient.Client.Transducer

namespace MqttClient

open Semantics Program

variable {σ H : Type} {P : Platform σ} {fuel : Nat}

/-! ## Turns serve the table -/

/-- The client may call the handler for the topic. -/
def MQTTClient.Serves (c : MQTTClient H) (fp : H) (topicName : MQTTString) : Prop :=
  c.defaultMessageHandler = some fp ∨
    ∃ topicFilter, HandlerTable.Maps c.messageHandlers topicFilter fp ∧
      filterAccepts topicFilter topicName = true

/-- From `w` to `w'` no handler was touched and none was called. -/
structure LeavesHandlers (w w' : World σ H) : Prop where
  messageHandlers_eq : w'.client.messageHandlers = w.client.messageHandlers
  default_eq : w'.client.defaultMessageHandler = w.client.defaultMessageHandler
  trace_eq : ∃ new, w'.trace = w.trace ++ new ∧ ∀ fp data, .call fp data ∉ new

namespace LeavesHandlers

variable {w w' w'' : World σ H}

theorem trans (h : LeavesHandlers w w') (h' : LeavesHandlers w' w'') : LeavesHandlers w w'' := by
  obtain ⟨htable, hdefault, new, htrace, hnew⟩ := h
  obtain ⟨htable', hdefault', new', htrace', hnew'⟩ := h'
  refine ⟨htable'.trans htable, hdefault'.trans hdefault, new ++ new', ?_, fun fp data hmem => ?_⟩
  · rw [htrace', htrace, List.append_assoc]
  · exact (List.mem_append.mp hmem).elim (hnew fp data) (hnew' fp data)

theorem of_emits {A : Event H → Prop} (h : Emits A w w') (hA : ∀ fp data, ¬ A (.call fp data)) :
    LeavesHandlers w w' := by
  obtain ⟨⟨_, _, _, hclient⟩, new, htrace, hnew⟩ := h
  exact ⟨by rw [hclient], by rw [hclient], new, htrace,
    fun fp data hmem => hA fp data (hnew _ hmem)⟩

theorem of_fetches {reads : List ReadLog} (h : Fetches reads w w') : LeavesHandlers w w' := by
  obtain ⟨⟨_, _, hclient⟩, new, htrace, hnew, _⟩ := h
  exact ⟨by rw [hclient], by rw [hclient], new, htrace, fun fp data hmem => hnew _ hmem⟩

/-- Only other fields of the client were assigned. -/
theorem of_eq (htable : w'.client.messageHandlers = w.client.messageHandlers)
    (hdefault : w'.client.defaultMessageHandler = w.client.defaultMessageHandler)
    (htrace : w'.trace = w.trace) : LeavesHandlers w w' :=
  ⟨htable, hdefault, [], htrace.trans (List.append_nil _).symm, by simp⟩

end LeavesHandlers

theorem sendFrame_leavesHandlers : SendFrame P (LeavesHandlers (σ := σ) (H := H)) where
  refl _ := .of_eq rfl rfl rfl
  trans := .trans
  clock w := .of_emits (sendFrame_emits.clock w) fun _ _ => id
  timer w answer := .of_emits (sendFrame_emits.timer (P := P) w answer) fun _ _ => id
  write hwrite := .of_emits (sendFrame_emits.write hwrite) fun _ _ => id
  filled w bytes := .of_emits (sendFrame_emits.filled (P := P) w bytes) fun _ _ => id
  sent w := .of_emits (sendFrame_emits.sent w) fun _ _ => id

theorem prepare_leavesHandlers (request : Request) :
    Keeps LeavesHandlers (request.prepare P : Action σ H _) :=
  sendFrame_leavesHandlers.prepare (fun _ _ => .of_eq rfl rfl rfl)
    (fun _ _ _ => .of_eq rfl rfl rfl) (fun _ _ => .of_eq rfl rfl rfl) request

/-- From `w` to `w'` nothing was entered in the table, and the handlers that were called
are those that `w` serves. -/
structure Serving (w w' : World σ H) : Prop where
  maps : ∀ {topicFilter fp}, HandlerTable.Maps w'.client.messageHandlers topicFilter fp →
    HandlerTable.Maps w.client.messageHandlers topicFilter fp
  default_eq : w'.client.defaultMessageHandler = w.client.defaultMessageHandler
  calls : ∃ new, w'.trace = w.trace ++ new ∧
    ∀ fp data, .call fp data ∈ new → w.client.Serves fp data.topicName

namespace Serving

variable {w w' w'' : World σ H}

/-- What is served later was served before. -/
theorem serves (h : Serving w w') {fp : H} {topicName : MQTTString}
    (hserves : w'.client.Serves fp topicName) : w.client.Serves fp topicName := by
  rcases hserves with hdefault | ⟨topicFilter, hmaps, haccepts⟩
  · exact .inl (h.default_eq ▸ hdefault)
  · exact .inr ⟨topicFilter, h.maps hmaps, haccepts⟩

theorem trans (h : Serving w w') (h' : Serving w' w'') : Serving w w'' := by
  obtain ⟨new, htrace, hnew⟩ := h.calls
  obtain ⟨new', htrace', hnew'⟩ := h'.calls
  refine ⟨fun hmaps => h.maps (h'.maps hmaps), h'.default_eq.trans h.default_eq,
    new ++ new', ?_, ?_⟩
  · rw [htrace', htrace, List.append_assoc]
  · intro fp data hmem
    exact (List.mem_append.mp hmem).elim (hnew fp data) fun hlater =>
      h.serves (hnew' fp data hlater)

theorem of_leavesHandlers (h : LeavesHandlers w w') : Serving w w' := by
  obtain ⟨htable, hdefault, new, htrace, hnew⟩ := h
  exact ⟨fun hmaps => htable ▸ hmaps, hdefault, new, htrace,
    fun fp data hmem => absurd hmem (hnew fp data)⟩

theorem of_emits (h : Emits Event.IsSending w w') : Serving w w' :=
  of_leavesHandlers (.of_emits h fun _ _ => id)

theorem of_closeSession (w : World σ H) : Serving w (w.update MQTTClient.closeSession) where
  maps hmaps := (Idles.of_closeSession w).maps hmaps
  default_eq := by
    unfold World.update MQTTClient.closeSession
    dsimp only
    split <;> rfl
  calls := ⟨[], (List.append_nil _).symm, by simp⟩

theorem of_dropSession (w : World σ H) : Serving w (w.update MQTTClient.dropSession) := by
  unfold MQTTClient.dropSession
  by_cases hopen : w.client.isconnected = true
  · simpa only [World.update, hopen, if_true] using of_closeSession w
  · simpa [World.update, hopen] using of_leavesHandlers (.of_eq rfl rfl rfl)

end Serving

/-- A message is delivered to handlers that the table serves. -/
theorem deliverMessage_serving (topicName : MQTTString) (message : MQTTMessage) :
    Keeps Serving (deliverMessage topicName message : Action σ H _) := by
  intro w rc w' h
  obtain ⟨rc', hdeliver⟩ := run_deliverMessage topicName message w
  obtain ⟨_, rfl⟩ := run_inj hdeliver h
  refine ⟨id, rfl, _, rfl, fun fp data hmem => ?_⟩
  obtain ⟨fp', hfp, ⟨⟩⟩ := List.mem_map.mp hmem
  rcases mem_handlersFor hfp with hdefault | ⟨i, topicFilter, hfilter, hslot, haccepts⟩
  · exact .inl hdefault
  · refine .inr ⟨topicFilter, ⟨i, ?_⟩, haccepts⟩
    rw [← hfilter, ← hslot]

theorem sendFrame_serving : SendFrame P (Serving (σ := σ) (H := H)) where
  refl _ := .of_leavesHandlers (.of_eq rfl rfl rfl)
  trans := .trans
  clock w := .of_leavesHandlers (sendFrame_leavesHandlers.clock w)
  timer w answer := .of_leavesHandlers (sendFrame_leavesHandlers (P := P).timer w answer)
  write hwrite := .of_leavesHandlers (sendFrame_leavesHandlers.write hwrite)
  filled w bytes := .of_leavesHandlers (sendFrame_leavesHandlers (P := P).filled w bytes)
  sent w := .of_leavesHandlers (sendFrame_leavesHandlers.sent w)

theorem handlePublish_serving (timer : Timer) :
    Keeps Serving (handlePublish P fuel timer : Action σ H _) := by
  have hS : SendFrame P (Serving (σ := σ) (H := H)) := sendFrame_serving
  have hlocals : Keeps Serving (cycleLocals P : Action σ H _) := fun w locals w' h =>
    .of_emits (emits_cycleLocals w locals w' h)
  refine hS.bind hlocals fun locals => hS.bind hS.client fun c => ?_
  split
  refine .ite (hS.pure _) (hS.bind (deliverMessage_serving _ _) fun _ => .ite ?_ (hS.pure _))
  exact hS.bind (hS.acknowledgePublish _ timer) fun _ => .ite (hS.pure _) (hS.pure _)

theorem dispatch_serving (packetType : Int) (timer : Timer) :
    Keeps Serving (dispatch P fuel packetType timer : Action σ H _) := by
  intro w jump w' h
  by_cases htype : packetType = MsgType.publish.code
  · subst htype
    exact handlePublish_serving timer w jump w' h
  · refine .of_leavesHandlers (.of_emits (dispatch_spec h).1 ?_)
    rintro fp data (hsending | ⟨hpublish, _⟩)
    · exact hsending
    · exact htype hpublish

theorem cycle_serving (timer : Timer) : Keeps Serving (cycle P fuel timer : Action σ H _) := by
  intro w rc w' h
  obtain ⟨packetType, w₁, jump, w₂, rc', w₃, hread, hdispatch, hkeep, hend⟩ := cycle_parts h
  obtain ⟨reads, w₀, hfetch, rfl, _⟩ := readPacket_cases hread
  have hlog : LeavesHandlers w₀ (w₀.log (.packet packetType)) := ⟨rfl, rfl, _, rfl, by simp⟩
  have hturn : Serving w w₃ := (Serving.of_leavesHandlers (.trans (.of_fetches hfetch) hlog)).trans
    ((dispatch_serving packetType timer _ _ _ hdispatch).trans
      (.of_emits (checkKeepalive_spec hkeep).1))
  split at hend
  · rw [hend.2]
    exact hturn
  · rw [hend.2]
    exact hturn.trans (.of_dropSession w₃)

theorem turnFrame_serving : TurnFrame P fuel (Serving (σ := σ) (H := H)) where
  refl := sendFrame_serving (P := P).refl
  trans := .trans
  timer := sendFrame_serving.timerIsExpired
  turn := cycle_serving

/-! ## Calls serve the table they start with -/

/-- The handlers that a call calls are those of the table in which it was made, although
a subscription may enter another one before the call is over. -/
theorem CallStep.serves {call : Call H} {w w' : World σ H} (h : CallStep P fuel w call w')
    {fp : H} {data : MessageData} (hcall : .call fp data ∈ since w w') :
    w.client.Serves fp data.topicName := by
  have hS : SendFrame P (Serving (σ := σ) (H := H)) := sendFrame_serving
  have hT : TurnFrame P fuel (Serving (σ := σ) (H := H)) := turnFrame_serving
  -- all handlers are called before the end of the call
  have hserved : ∀ w₁, Serving w w₁ → w'.trace = w₁.trace →
      w.client.Serves fp data.topicName := by
    intro w₁ hserving htrace
    obtain ⟨new, hnew, hcalls⟩ := hserving.calls
    rw [since_of_append (htrace.trans hnew)] at hcall
    exact hcalls fp data hcall
  have hsent : ∀ {request : Request} {sent w₁},
      (sendRequest P fuel (request.prepare P)).run w = some (sent, w₁) → Serving w w₁ := by
    intro request sent w₁ hsend
    refine hS.sendRequest ?_ w sent w₁ hsend
    exact fun w serializer w' h => .of_leavesHandlers (prepare_leavesHandlers request w _ w' h)
  rcases h.cases endFrame_trace with
    ⟨args, rfl, rfl⟩ | ⟨rfl, rc, hrun⟩ | ⟨timeoutMs, rfl, rc, hrun⟩ | h
  · exact hserved w (hS.refl w) rfl
  · refine hserved w' ?_ rfl
    have hclosed : Keeps Serving (mqttCloseSession : Action σ H _) := fun w _ _ h => by
      cases h
      exact .of_closeSession w
    exact hS.bind hS.client (fun _ => hS.bind (hS.timerCountdownMS _) fun timer =>
      hS.bind (hS.serialize _) fun _ => .ite
        (hS.bind (hS.sendPacket _ timer) fun _ => hS.bind hclosed fun _ => hS.pure _)
        (hS.bind hclosed fun _ => hS.pure _)) w rc w' hrun
  · refine hserved w' ?_ rfl
    exact hS.bind (hS.timerCountdownMS _) (fun timer => hT.mqttYieldLoop timer fuel) w rc w' hrun
  · generalize call.request w = request at h
    cases h with
    | refused htrace => exact hserved w (hS.refl w) htrace
    | sent hsend htrace => exact hserved _ (hsent hsend) htrace
    | awaited hsend _ hwait htrace =>
        exact hserved _ ((hsent hsend).trans (hT.waitfor _ _ _ _ _ hwait)) htrace

/-! ## What calls enter -/

/-- Every slot is free. -/
def HandlerTable.IsFree (table : HandlerTable H) : Prop := ∀ i, (table i).topicFilter = none

/-- No filter stands in two slots. -/
def HandlerTable.Distinct (table : HandlerTable H) : Prop :=
  ∀ i j topicFilter, (table i).topicFilter = some topicFilter →
    (table j).topicFilter = some topicFilter → i = j

namespace HandlerTable

variable {table table' : HandlerTable H}

theorem Distinct.of_slots (h : table.Distinct)
    (hslots : ∀ i, table' i = table i ∨ (table' i).topicFilter = none) : table'.Distinct := by
  have hold : ∀ i topicFilter, (table' i).topicFilter = some topicFilter →
      (table i).topicFilter = some topicFilter := by
    intro i topicFilter hi
    rcases hslots i with hsame | hnone
    · rwa [← hsame]
    · rw [hnone] at hi
      cases hi
  exact fun i j topicFilter hi hj => h i j topicFilter (hold i _ hi) (hold j _ hj)

/-- A slot is written with the filter that it has, or that no slot has. -/
theorem Distinct.update (h : table.Distinct) {i : Fin maxMessageHandlers} {topicFilter : CString}
    (hi : ∀ j, (table j).topicFilter = some topicFilter → j = i) (fp : Option H) :
    Distinct (Function.update table i ⟨some topicFilter, fp⟩) := by
  have hother : ∀ j filter, j ≠ i →
      (Function.update table i ⟨some topicFilter, fp⟩ j).topicFilter = some filter →
      (table j).topicFilter = some filter ∧ filter ≠ topicFilter := by
    intro j filter hj hfilter
    rw [Function.update_of_ne hj] at hfilter
    refine ⟨hfilter, ?_⟩
    rintro rfl
    exact hj (hi j hfilter)
  intro j k filter hj hk
  by_cases hji : j = i
  · by_cases hki : k = i
    · rw [hji, hki]
    · subst hji
      rw [Function.update_self] at hj
      exact absurd (Option.some.inj hj).symm (hother k filter hki hk).2
  · by_cases hki : k = i
    · subst hki
      rw [Function.update_self] at hk
      exact absurd (Option.some.inj hk).symm (hother j filter hji hj).2
    · exact h j k filter (hother j filter hji hj).1 (hother k filter hki hk).1

theorem Distinct.setMessageHandler (h : table.Distinct) (topicFilter : CString)
    (messageHandler : Option H) :
    Distinct (table.setMessageHandler topicFilter messageHandler).2 := by
  unfold HandlerTable.setMessageHandler
  cases hslot : table.slotOf (some topicFilter) with
  | some i =>
      cases messageHandler with
      | none =>
          refine h.of_slots fun j => ?_
          dsimp only
          by_cases hji : j = i
          · rw [hji]
            exact .inr (by rw [Function.update_self])
          · exact .inl (Function.update_of_ne hji _ _)
      | some fp => exact h.update (fun j hj => h j i topicFilter hj (slotOf_eq_some hslot)) _
  | none =>
      cases messageHandler with
      | none => exact h
      | some fp =>
          dsimp only
          split
          · exact h.update (fun j hj => absurd hj (slotOf_eq_none hslot j)) _
          · exact h

/-- Only the handler that is set can be new in the table. -/
theorem maps_setMessageHandler {topicFilter filter : CString} {messageHandler : Option H} {fp : H}
    (h : Maps (table.setMessageHandler topicFilter messageHandler).2 filter fp) :
    table.Maps filter fp ∨ filter = topicFilter ∧ some fp = messageHandler := by
  have hupdate : ∀ {i slot}, Maps (Function.update table i slot) filter fp →
      table.Maps filter fp ∨ slot = ⟨some filter, some fp⟩ := by
    rintro i slot ⟨j, hj⟩
    by_cases hji : j = i
    · rw [hji, Function.update_self] at hj
      exact .inr hj
    · rw [Function.update_of_ne hji] at hj
      exact .inl ⟨j, hj⟩
  unfold HandlerTable.setMessageHandler at h
  split at h
  · rcases hupdate h with hold | hslot
    · exact .inl hold
    · cases hslot
  · rcases hupdate h with hold | hslot
    · exact .inl hold
    · cases hslot
      exact .inr ⟨rfl, rfl⟩
  · exact .inl h
  · split at h
    · rcases hupdate h with hold | hslot
      · exact .inl hold
      · cases hslot
        exact .inr ⟨rfl, rfl⟩
    · exact .inl h

/-- A filter that stands in one slot at most is gone when its handler was removed. -/
theorem Distinct.not_maps_setMessageHandler (h : table.Distinct) (topicFilter : CString) (fp : H) :
    ¬ Maps (table.setMessageHandler topicFilter none).2 topicFilter fp := by
  rintro ⟨j, hj⟩
  unfold HandlerTable.setMessageHandler at hj
  cases hslot : table.slotOf (some topicFilter) with
  | none =>
      simp only [hslot] at hj
      exact slotOf_eq_none hslot j (by rw [hj])
  | some i =>
      simp only [hslot] at hj
      by_cases hji : j = i
      · rw [hji, Function.update_self] at hj
        cases hj
      · rw [Function.update_of_ne hji] at hj
        exact hji (h j i topicFilter (by rw [hj]) (slotOf_eq_some hslot))

end HandlerTable

/-- From `w` to `w'` only these handlers may have been entered in the table. -/
structure Enters (sets : CString → Option H → Prop) (w w' : World σ H) : Prop where
  maps : ∀ {topicFilter fp}, HandlerTable.Maps w'.client.messageHandlers topicFilter fp →
    HandlerTable.Maps w.client.messageHandlers topicFilter fp ∨ sets topicFilter (some fp)
  default_eq : w'.client.defaultMessageHandler = w.client.defaultMessageHandler
  distinct : HandlerTable.Distinct w.client.messageHandlers →
    HandlerTable.Distinct w'.client.messageHandlers

namespace Enters

variable {sets : CString → Option H → Prop} {w w' w'' : World σ H}

theorem trans (h : Enters sets w w') (h' : Enters sets w' w'') : Enters sets w w'' where
  maps hmaps := (h'.maps hmaps).elim h.maps .inr
  default_eq := h'.default_eq.trans h.default_eq
  distinct hdistinct := h'.distinct (h.distinct hdistinct)

theorem of_leavesHandlers (h : LeavesHandlers w w') : Enters sets w w' where
  maps hmaps := .inl (h.messageHandlers_eq ▸ hmaps)
  default_eq := h.default_eq
  distinct hdistinct := h.messageHandlers_eq ▸ hdistinct

/-- Turns and the end of a session enter nothing. -/
theorem of_serving (h : Serving w w') (hidles : Idles w w') : Enters sets w w' where
  maps hmaps := .inl (h.maps hmaps)
  default_eq := h.default_eq
  distinct hdistinct := hdistinct.of_slots fun i => (hidles.slots i).imp_right And.right

end Enters

theorem callFrame_enters (asks : Request → Prop) (sets : CString → Option H → Prop) :
    CallFrame P fuel asks sets (Enters (σ := σ) sets) where
  refl _ := .of_leavesHandlers (.of_eq rfl rfl rfl)
  trans := .trans
  clock w := .of_leavesHandlers (sendFrame_leavesHandlers.clock w)
  timer w answer := .of_leavesHandlers (sendFrame_leavesHandlers (P := P).timer w answer)
  write hwrite := .of_leavesHandlers (sendFrame_leavesHandlers.write hwrite)
  filled w bytes := .of_leavesHandlers (sendFrame_leavesHandlers (P := P).filled w bytes)
  sent w := .of_leavesHandlers (sendFrame_leavesHandlers.sent w)
  turn timer w rc w' h := .of_serving (cycle_serving timer w rc w' h) (cycle_idles w rc w' h)
  prepare request _ w serializer w' h :=
    .of_leavesHandlers (prepare_leavesHandlers request w serializer w' h)
  setHandler hset w rc w' h := by
    cases h
    refine ⟨fun hmaps => ?_, rfl, fun hdistinct => hdistinct.setMessageHandler _ _⟩
    rcases HandlerTable.maps_setMessageHandler hmaps with hold | ⟨rfl, hfp⟩
    · exact .inl hold
    · exact .inr (hfp ▸ hset)
  opened w rc w' h := by
    cases h
    exact .of_leavesHandlers (.of_eq rfl rfl rfl)
  closed w _ w' h := by
    cases h
    exact .of_serving (.of_closeSession w) (.of_closeSession w)

/-- A call enters at most what it hands to `MQTTSetMessageHandler`. -/
theorem CallStep.enters {call : Call H} {w w' : World σ H} (h : CallStep P fuel w call w')
    (hcall : ∀ args, call ≠ .clientInit args) : Enters call.Sets w w' := by
  rcases h.keeps (callFrame_enters _ _) with ⟨args, hinit, _⟩ | henters
  · exact absurd hinit (hcall args)
  · exact henters

/-- An UNSUBACK is accepted whatever its body. -/
theorem HoldsFrame.mqttDeserializeUnsuback_fst {buf : Memory} {header : UInt8} {body : List UInt8}
    (h : HoldsFrame buf header body)
    (htype : (MQTTHeader.ofByte header).type = MsgType.unsuback.code) (packetid : UInt16) :
    (mqttDeserializeUnsuback buf packetid).1 = 1 := by
  simp [mqttDeserializeUnsuback, h.mqttDeserializeAck_eq, htype]

/-- A call of `MQTTUnsubscribe` that succeeds leaves no handler for the filter. -/
theorem mqttUnsubscribe_removes {topicFilter : CString} {w w' : World σ H}
    (hdistinct : HandlerTable.Distinct w.client.messageHandlers)
    (h : (mqttUnsubscribe P fuel topicFilter).run w = some (mqttSuccess, w')) (fp : H) :
    ¬ HandlerTable.Maps w'.client.messageHandlers topicFilter fp := by
  have hC : CallFrame P fuel (fun _ => True) (fun _ _ => False)
      (Enters (σ := σ) (H := H) fun _ _ => False) := callFrame_enters _ _
  have hfail : ∀ {w₁ : World σ H}, (finishRequest failure).run w₁ ≠ some (mqttSuccess, w') := by
    intro w₁ hrun
    rw [run_finishRequest] at hrun
    cases hrun
  rw [mqttUnsubscribe, run_bind_of_eq_some (run_client w)] at h
  split at h
  · obtain ⟨sent, w₁, hsend, h⟩ := run_bind_eq_some.mp h
    cases sent with
    | none => exact absurd h hfail
    | some timer =>
        obtain ⟨answer, w₂, hwait, h⟩ := run_bind_eq_some.mp h
        split at h
        · rename_i hanswer
          subst hanswer
          obtain ⟨_, _, header, _, _, body, _, _, hframe⟩ := waitfor_answered (by decide) hwait
          have htype : (MQTTHeader.ofByte header).type = MsgType.unsuback.code :=
            Int.ofNat_inj.mp hframe.rc_eq.symm
          have hsent := hC.sendRequest (hC.prepare (.unsubscribe topicFilter) trivial) _ _ _ hsend
          have hkept := hsent.trans (hC.turnFrame.waitfor _ _ _ _ _ hwait)
          have haccept := run_acceptUnsuback topicFilter
            (hframe.holds.mqttDeserializeUnsuback_fst htype 0)
          rw [run_bind_of_eq_some haccept, run_finishRequest] at h
          cases h
          exact (hkept.distinct hdistinct).not_maps_setMessageHandler topicFilter fp
        · exact absurd h hfail
  · exact absurd h hfail

/-! ## Back to the call that entered the handler -/

/-- One of the calls entered the handler for the filter, and it has stood in the table
after that call and every later one. -/
def Registered (calls : List (Transition (World σ H) (Call H))) (topicFilter : CString) (fp : H) :
    Prop :=
  ∃ earlier entry later, calls = earlier ++ entry :: later ∧
    entry.label.Sets topicFilter (some fp) ∧
    ∀ step ∈ entry :: later, HandlerTable.Maps step.target.client.messageHandlers topicFilter fp

/-- What is known of the table after some calls. -/
structure Accounted (calls : List (Transition (World σ H) (Call H))) (w : World σ H) : Prop where
  default_eq : w.client.defaultMessageHandler = none
  distinct : HandlerTable.Distinct w.client.messageHandlers
  registered : ∀ {topicFilter fp}, HandlerTable.Maps w.client.messageHandlers topicFilter fp →
    Registered calls topicFilter fp

theorem HandlerTable.IsFree.not_maps {table : HandlerTable H} (h : table.IsFree)
    (topicFilter : CString) (fp : H) : ¬ table.Maps topicFilter fp := by
  rintro ⟨i, hi⟩
  have hfree := h i
  rw [hi] at hfree
  cases hfree

theorem accounted_of_free {calls : List (Transition (World σ H) (Call H))} {w : World σ H}
    (hdefault : w.client.defaultMessageHandler = none)
    (hfree : HandlerTable.IsFree w.client.messageHandlers) : Accounted calls w where
  default_eq := hdefault
  distinct i j topicFilter hi := by
    rw [hfree i] at hi
    cases hi
  registered hmaps := absurd hmaps (hfree.not_maps _ _)

theorem Accounted.step {calls : List (Transition (World σ H) (Call H))}
    {tr : Transition (World σ H) (Call H)} (h : Accounted calls tr.source)
    (hstep : CallStep P fuel tr.source tr.label tr.target) :
    Accounted (calls ++ [tr]) tr.target := by
  rcases hstep.keeps (callFrame_enters _ _) with ⟨args, _, htarget⟩ | henters
  · refine accounted_of_free ?_ ?_
    · rw [htarget]
      rfl
    · rw [htarget]
      exact fun i => rfl
  · refine ⟨henters.default_eq.trans h.default_eq, henters.distinct h.distinct, fun hmaps => ?_⟩
    rcases henters.maps hmaps with hold | hset
    · -- the entry is an old one, and stood through this call
      obtain ⟨earlier, entry, later, rfl, hentry, hstood⟩ := h.registered hold
      refine ⟨earlier, entry, later ++ [tr], by simp, hentry, fun step hmem => ?_⟩
      rw [← List.cons_append] at hmem
      rcases List.mem_append.mp hmem with hmem | hlast
      · exact hstood step hmem
      · rw [List.mem_singleton.mp hlast]
        exact hmaps
    · refine ⟨calls, tr, [], rfl, hset, fun step hmem => ?_⟩
      rw [List.mem_singleton.mp hmem]
      exact hmaps

/-- No handler is called that was not asked for.  In every run of calls of the interface,
from a client without handlers, each call of a handler with a message goes back to an
earlier call of the interface that entered this handler for a filter accepting the topic.
The handler has stood in the table under this filter after every call since; in particular
no `MQTTUnsubscribe` for the filter has succeeded in between. -/
theorem handlerCalls_registered (P : Platform σ) (fuel : Nat) {w w' : World σ H}
    {run : List (Transition (World σ H) (Call H))} (hrun : Run (CallStep P fuel) w run w')
    (hdefault : w.client.defaultMessageHandler = none)
    (hfree : HandlerTable.IsFree w.client.messageHandlers) :
    ∀ before tr after, run = before ++ tr :: after →
      ∀ fp data, .call fp data ∈ since tr.source tr.target →
      ∃ topicFilter earlier entry later, before = earlier ++ entry :: later ∧
        filterAccepts topicFilter data.topicName = true ∧
        entry.label.Sets topicFilter (some fp) ∧
        ∀ step ∈ entry :: later,
          HandlerTable.Maps step.target.client.messageHandlers topicFilter fp ∧
          (mqttUnsubscribe P fuel topicFilter).run step.source ≠
            some (mqttSuccess, step.target) := by
  have hhistory : ∀ {before : List (Transition (World σ H) (Call H))} {w₁},
      Run (CallStep P fuel) w before w₁ → Accounted before w₁ := fun hbefore =>
    hbefore.history Accounted (accounted_of_free hdefault hfree) fun _ _ _ _ hstep h => h.step hstep
  rintro before tr after rfl fp data hcall
  obtain ⟨hbefore, hstep, _⟩ := hrun.split
  have haccounted := hhistory hbefore
  rcases hstep.serves hcall with hdefault' | ⟨topicFilter, hmaps, haccepts⟩
  · rw [haccounted.default_eq] at hdefault'
    cases hdefault'
  · obtain ⟨earlier, entry, later, rfl, hentry, hstood⟩ := haccounted.registered hmaps
    refine ⟨topicFilter, earlier, entry, later, rfl, haccepts, hentry, fun step hmem => ?_⟩
    refine ⟨hstood step hmem, fun hunsubscribe => ?_⟩
    -- the calls before this one left a table without repetitions
    obtain ⟨first, last, hsplit⟩ := List.append_of_mem (List.mem_append_right earlier hmem)
    rw [hsplit] at hbefore
    have hdistinct := (hhistory hbefore.split.1).distinct
    exact mqttUnsubscribe_removes hdistinct hunsubscribe fp (hstood step hmem)

/-- After a SUBACK the message of a PUBLISH is handed to the handler that was subscribed. -/
theorem handlerCalls_registered_subscribed :
    ∃ w₁ w₂ data,
      CallStep (linuxPlatform Recording.host 1030) 8
        (connectedWorld [0x90, 3, 0, 2, 0, 0x30, 4, 0, 1, 97, 98])
        (.subscribe ⟨[97], zero_notMem_a⟩ 0 (some ()) 0) w₁ ∧
      CallStep (linuxPlatform Recording.host 1030) 8 w₁ (.yield 0) w₂ ∧
      .call () data ∈ since w₁ w₂ ∧
      filterAccepts ⟨[97], zero_notMem_a⟩ data.topicName = true ∧
      HandlerTable.Maps w₁.client.messageHandlers ⟨[97], zero_notMem_a⟩ () := by
  have hcalls : (((mqttSubscribe (linuxPlatform Recording.host 1030) 8 ⟨[97], zero_notMem_a⟩ 0
      (some ()) 0).run (connectedWorld [0x90, 3, 0, 2, 0, 0x30, 4, 0, 1, 97, 98])).bind fun first =>
        ((mqttYield (linuxPlatform Recording.host 1030) 8 0).run first.2).map fun second =>
          (deliveries (since first.2 second.2)).length) = some 1 := by decide
  obtain ⟨⟨rc, w₁⟩, hfirst, hcalls⟩ := Option.bind_eq_some_iff.mp hcalls
  obtain ⟨⟨rc', w₂⟩, hsecond, hcalls⟩ := Option.map_eq_some_iff.mp hcalls
  obtain ⟨delivery, hmem⟩ := List.exists_mem_of_length_pos (l := deliveries (since w₁ w₂))
    (by rw [hcalls]; decide)
  obtain ⟨event, hevent, hdelivery⟩ := List.mem_filterMap.mp hmem
  cases event with
  | call fp data =>
      have hrun : Run (CallStep (linuxPlatform Recording.host 1030) 8) _ _ w₂ :=
        .cons (l := Call.subscribe ⟨[97], zero_notMem_a⟩ 0 (some ()) 0) ⟨rc, hfirst⟩
          (.single (l := Call.yield 0) ⟨rc', hsecond⟩)
      obtain ⟨topicFilter, earlier, entry, later, hsplit, haccepts, hsets, hstood⟩ :=
        handlerCalls_registered _ 8 hrun rfl (fun _ => rfl) [_] _ [] rfl fp data hevent
      -- the subscription is the only call before
      cases earlier with
      | nil =>
          cases hsplit
          obtain ⟨rfl, _⟩ := hsets
          exact ⟨w₁, w₂, data, ⟨rc, hfirst⟩, ⟨rc', hsecond⟩, hevent, haccepts,
            (hstood _ List.mem_cons_self).1⟩
      | cons _ earlier => simp at hsplit
  | _ => cases hdelivery

end MqttClient

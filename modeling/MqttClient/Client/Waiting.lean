/-
# Waiting for an answer

A request goes out and `waitfor` runs turns of the client until a packet of the
awaited type ends the wait.  Two things are said about it here.  `Idles` is what
waiting may change behind the caller's back: the session may end, and with a clean
session the handler table may be emptied, but nothing is ever added.  And the
packet on which a wait ends is the last one received and the only one of its type;
the read buffer still holds it.
-/

import MqttClient.Client.Session

namespace MqttClient

open Semantics Program

variable {σ H : Type} {P : Platform σ} {fuel : Nat}

/-! ## What waiting may change -/

/-- From `w` to `w'` turns were taken: packets were received, the session may have
ended, and slots may have been emptied if sessions are clean. -/
structure Idles (w w' : World σ H) : Prop where
  isconnected : w'.client.isconnected = true → w.client.isconnected = true
  cleansession : w'.client.cleansession = w.client.cleansession
  slots : ∀ i, w'.client.messageHandlers i = w.client.messageHandlers i ∨
    w.client.cleansession = true ∧ (w'.client.messageHandlers i).topicFilter = none
  received : ∃ calls, Received calls w w'

namespace Idles

variable {w w' w'' : World σ H}

theorem trans (h : Idles w w') (h' : Idles w' w'') : Idles w w'' where
  isconnected hconn := h.isconnected (h'.isconnected hconn)
  cleansession := h'.cleansession.trans h.cleansession
  slots i := by
    rcases h'.slots i with hsame' | ⟨hclean, hnone⟩
    · rw [hsame']
      exact h.slots i
    · exact .inr ⟨h.cleansession ▸ hclean, hnone⟩
  received := by
    obtain ⟨calls, hcalls⟩ := h.received
    obtain ⟨calls', hcalls'⟩ := h'.received
    exact ⟨calls ++ calls', hcalls.trans hcalls'⟩

theorem of_emits {A : Event H → Prop} (h : Emits A w w') (hA : ∀ e, A e → e.IsSilent) :
    Idles w w' := by
  obtain ⟨⟨_, _, _, hclient⟩, _⟩ := id h
  refine ⟨?_, ?_, ?_, [], .of_emits h hA⟩
  · rw [hclient]
    exact id
  · rw [hclient]
  · rw [hclient]
    exact fun i => .inl rfl

theorem of_closeSession (w : World σ H) : Idles w (w.update MQTTClient.closeSession) := by
  have hclosed := w.client.closeSession_sessionClosed
  have hclean : w.client.closeSession.cleansession = w.client.cleansession := by
    unfold MQTTClient.closeSession
    dsimp only
    split <;> rfl
  refine ⟨fun hconn => absurd hconn (by simp [World.update, hclosed.isconnected]), hclean, ?_,
    [], .of_trace_eq rfl⟩
  intro i
  by_cases hc : w.client.cleansession = true
  · exact .inr ⟨hc, hclosed.slots_empty (hclean.trans hc) i⟩
  · refine .inl ?_
    simp [World.update, MQTTClient.closeSession, hc]

theorem of_dropSession (w : World σ H) : Idles w (w.update MQTTClient.dropSession) := by
  by_cases hconn : w.client.isconnected = true
  · have heq : w.update MQTTClient.dropSession = w.update MQTTClient.closeSession := by
      simp [World.update, MQTTClient.dropSession, hconn]
    rw [heq]
    exact .of_closeSession w
  · have heq : w.update MQTTClient.dropSession = w := by
      simp [World.update, MQTTClient.dropSession, hconn]
    rw [heq]
    exact ⟨id, rfl, fun i => .inl rfl, [], .refl w⟩

/-- Nothing is added to the table. -/
theorem slot_eq (h : Idles w w') {i : Fin maxMessageHandlers} {topicFilter : CString}
    {fp : Option H} (hslot : w'.client.messageHandlers i = ⟨some topicFilter, fp⟩) :
    w.client.messageHandlers i = ⟨some topicFilter, fp⟩ := by
  rcases h.slots i with hsame | ⟨_, hnone⟩
  · rw [← hsame, hslot]
  · rw [hslot] at hnone
    cases hnone

/-- Without clean sessions the table stays. -/
theorem messageHandlers_eq (h : Idles w w') (hclean : w.client.cleansession = false) :
    w'.client.messageHandlers = w.client.messageHandlers := by
  funext i
  rcases h.slots i with hsame | ⟨htrue, _⟩
  · exact hsame
  · rw [hclean] at htrue
    cases htrue

end Idles

theorem cycle_idles {timer : Timer} : Keeps Idles (cycle P fuel timer : Action σ H _) := by
  intro w rc w' h
  obtain ⟨packetType, w₁, w₂, hread, hreact, hend⟩ := cycle_cases h
  obtain ⟨reads, w₀, hfetch, rfl, _⟩ := readPacket_cases hread
  have hread : Idles w (w₀.log (.packet packetType)) := by
    obtain ⟨⟨_, _, hclient⟩, _⟩ := id hfetch
    refine ⟨?_, ?_, ?_, _, hfetch.received packetType⟩
    · rw [World.log, hclient]
      exact id
    · rw [World.log, hclient]
    · rw [World.log, hclient]
      exact fun i => .inl rfl
  have hturn := hread.trans (.of_emits hreact fun e he => he.isSilent)
  rcases hend with ⟨_, _, rfl⟩ | ⟨_, rfl⟩
  · exact hturn
  · exact hturn.trans (.of_dropSession w₂)

theorem turnFrame_idles : TurnFrame P fuel (Idles (σ := σ) (H := H)) where
  refl w := ⟨id, rfl, fun _ => .inl rfl, [], .refl w⟩
  trans := .trans
  timer timer _ _ _ h :=
    .of_emits (sendFrame_emits.timerIsExpired timer _ _ _ h) fun _ he => he.isSilent
  turn _ := cycle_idles

theorem waitfor_idles {packetType : MsgType} {timer : Timer} :
    Keeps Idles (waitfor P fuel packetType timer : Action σ H _) :=
  turnFrame_idles.waitfor packetType timer

/-! ## The request -/

/-- A request samples the clock, is prepared, and is then serialized and sent. -/
theorem sendRequest_cases {prepare : Action σ H (Int → Serialized)} {sent : Option Timer}
    {w w' : World σ H} (h : (sendRequest P fuel prepare).run w = some (sent, w')) :
    ∃ w₁ w₂ serializer, Emits Event.IsSending w w₁ ∧ prepare.run w₁ = some (serializer, w₂) ∧
      Emits Event.IsSending w₂ w' := by
  obtain ⟨c, w₀, hclient, h⟩ := run_bind_eq_some.mp h
  cases hclient
  obtain ⟨timer, w₁, htimer, h⟩ := run_bind_eq_some.mp h
  obtain ⟨serializer, w₂, hprepare, h⟩ := run_bind_eq_some.mp h
  obtain ⟨len, w₃, hserialize, h⟩ := run_bind_eq_some.mp h
  refine ⟨w₁, w₂, serializer, sendFrame_emits.timerCountdownMS _ _ _ _ htimer, hprepare, ?_⟩
  have hfirst := (sendFrame_emits (P := P)).serialize _ _ _ _ hserialize
  split at h
  · obtain ⟨_, rfl⟩ := run_pure_eq_some.mp h
    exact hfirst
  · obtain ⟨rc, w₄, hsend, h⟩ := run_bind_eq_some.mp h
    have hsecond := hfirst.trans (sendFrame_emits.sendPacket _ _ _ _ _ hsend)
    split at h
    · obtain ⟨_, rfl⟩ := run_pure_eq_some.mp h
      exact hsecond
    · obtain ⟨_, rfl⟩ := run_pure_eq_some.mp h
      exact hsecond

/-- What a request may do while it is prepared: take the next packet identifier. -/
def TakesId (w w' : World σ H) : Prop :=
  ∃ nextPacketid, w' = w.update fun c => { c with nextPacketid }

theorem TakesId.idles {w w' : World σ H} (h : TakesId w w') : Idles w w' := by
  obtain ⟨nextPacketid, rfl⟩ := h
  exact ⟨id, rfl, fun i => .inl rfl, [], .of_trace_eq rfl⟩

theorem takesId_getNextPacketId : Keeps TakesId (getNextPacketId : Action σ H _) := by
  intro w id w' h
  obtain ⟨c, w₁, hclient, h⟩ := run_bind_eq_some.mp h
  cases hclient
  obtain ⟨_, w₂, hset, h⟩ := run_bind_eq_some.mp h
  cases hset
  obtain ⟨_, rfl⟩ := run_pure_eq_some.mp h
  exact ⟨w.client.nextId, rfl⟩

theorem takesId_prepareSubscribe (topicFilter : CString) (qos : Int) :
    Keeps TakesId (prepareSubscribe topicFilter qos : Action σ H _) := by
  intro w serializer w' h
  obtain ⟨id, w₁, hid, h⟩ := run_bind_eq_some.mp h
  obtain ⟨_, rfl⟩ := run_pure_eq_some.mp h
  exact takesId_getNextPacketId _ _ _ hid

theorem takesId_prepareUnsubscribe (topicFilter : CString) :
    Keeps TakesId (prepareUnsubscribe topicFilter : Action σ H _) := by
  intro w serializer w' h
  obtain ⟨id, w₁, hid, h⟩ := run_bind_eq_some.mp h
  obtain ⟨_, rfl⟩ := run_pure_eq_some.mp h
  exact takesId_getNextPacketId _ _ _ hid

theorem takesId_preparePublish (topicName : CString) (message : MQTTMessage) :
    Keeps TakesId (preparePublish topicName message : Action σ H _) := by
  intro w serializer w' h
  obtain ⟨id, w₁, hid, h⟩ := run_bind_eq_some.mp h
  obtain ⟨_, rfl⟩ := run_pure_eq_some.mp h
  unfold publishId at hid
  split at hid
  · obtain ⟨id', w₂, htake, hid⟩ := run_bind_eq_some.mp hid
    obtain ⟨_, rfl⟩ := run_pure_eq_some.mp hid
    exact takesId_getNextPacketId _ _ _ htake
  · obtain ⟨_, rfl⟩ := run_pure_eq_some.mp hid
    exact ⟨w.client.nextPacketid, rfl⟩

theorem sendRequest_idles {prepare : Action σ H (Int → Serialized)}
    (hprepare : Keeps TakesId prepare) {sent : Option Timer} {w w' : World σ H}
    (h : (sendRequest P fuel prepare).run w = some (sent, w')) :
    Idles w w' ∧ Received [] w w' := by
  obtain ⟨w₁, w₂, serializer, hbefore, hrun, hafter⟩ := sendRequest_cases h
  have htakes := hprepare _ _ _ hrun
  have hsilent : ∀ e : Event H, e.IsSending → e.IsSilent := fun e he => he.isSilent
  refine ⟨((Idles.of_emits hbefore hsilent).trans htakes.idles).trans (.of_emits hafter hsilent),
    ?_⟩
  have htrace : Received [] w₁ w₂ := by
    obtain ⟨_, rfl⟩ := htakes
    exact .of_trace_eq rfl
  exact ((Received.of_emits hbefore hsilent).trans htrace).trans (.of_emits hafter hsilent)

/-! ## The packet that ends a wait -/

theorem FrameRead.of_emits {A : Event H → Prop} {call : Reception} {header : UInt8}
    {field : List UInt8} {cut : List ReadLog} {body : List UInt8} {w w' : World σ H}
    (h : FrameRead w.client call header field cut body) (hemits : Emits A w w') :
    FrameRead w'.client call header field cut body := by
  obtain ⟨⟨_, _, _, hclient⟩, _⟩ := hemits
  rw [hclient]
  exact ⟨h.toReadsPacket, h.rc_eq, h.fits, h.holds⟩

/-- A turn that returns a type it has a case for has just read a packet of that type
into the read buffer. -/
theorem cycle_answered {packetType : MsgType} (hhandled : isHandled packetType.code = true)
    {timer : Timer} {w w' : World σ H}
    (h : (cycle P fuel timer).run w = some ((packetType.code : Int), w')) :
    ∃ reads header field cut body, Received [⟨packetType.code, reads⟩] w w' ∧
      FrameRead w'.client ⟨packetType.code, reads⟩ header field cut body := by
  obtain ⟨t, w₁, w₂, hread, hreact, hend⟩ := cycle_cases h
  obtain ⟨reads, w₀, hfetch, rfl, hframe⟩ := readPacket_cases hread
  rcases hend with ⟨_, rfl, rfl⟩ | ⟨hdropped, _⟩
  · have hpos := packetType.code_pos
    rcases hframe with hle | ⟨header, field, cut, body, hframe⟩
    · omega
    · exact ⟨reads, header, field, cut, body,
        (hfetch.received _).trans (.of_emits hreact fun e he => he.isSilent),
        hframe.of_emits hreact⟩
  · exfalso
    split at hdropped
    · have hpos := packetType.code_pos
      exact absurd hdropped (by simp only [failure]; omega)
    · rename_i hother
      exact hother (hdropped ▸ hhandled)

theorem waitforLoop_answered {packetType : MsgType} {timer : Timer} :
    ∀ {steps : Nat} {before : Int} {w w' : World σ H}, before ≠ packetType.code →
      (waitforLoop P fuel packetType timer steps before).run w =
          some ((packetType.code : Int), w') →
      ∃ (earlier : List Reception) (w₁ : World σ H), (∀ call ∈ earlier, call.rc ≠ packetType.code) ∧
        Received earlier w w₁ ∧
        (cycle P fuel timer).run w₁ = some ((packetType.code : Int), w') := by
  intro steps
  induction steps with
  | zero => intro before w w' _ h; cases h
  | succ steps ih =>
      intro before w w' hbefore h
      obtain ⟨expired, w₁, htimer, h⟩ := run_bind_eq_some.mp h
      have hfirst : Received [] w w₁ :=
        .of_emits (sendFrame_emits.timerIsExpired _ _ _ _ htimer) fun e he => he.isSilent
      split at h
      · exact absurd (run_pure_eq_some.mp h).1 hbefore
      · obtain ⟨rc, w₂, hcycle, h⟩ := run_bind_eq_some.mp h
        split at h
        · -- the turn returned another type, which is the type of its packet
          rename_i hmore
          obtain ⟨call, hreceived, hend⟩ := cycle_turn hcycle
          have hrc : rc = call.rc := by
            rcases hend with ⟨_, hrc, _⟩ | ⟨hdropped, _⟩
            · exact hrc
            · split at hdropped
              · exact absurd hmore.2 (by rw [hdropped]; decide)
              · exact hdropped
          obtain ⟨earlier, w₃, hother, hearlier, hlast⟩ := ih hmore.1 h
          refine ⟨call :: earlier, w₃, ?_, (hfirst.trans hreceived).trans hearlier, hlast⟩
          intro call' hmem
          rcases List.mem_cons.mp hmem with rfl | hmem
          · exact hrc ▸ hmore.1
          · exact hother call' hmem
        · obtain ⟨rfl, rfl⟩ := run_pure_eq_some.mp h
          exact ⟨[], w₁, by simp, hfirst, hcycle⟩

/-- A wait that ends on its packet: that packet came last, nothing before it had its
type, and the read buffer holds it. -/
theorem waitfor_answered {packetType : MsgType} (hhandled : isHandled packetType.code = true)
    {timer : Timer} {w w' : World σ H}
    (h : (waitfor P fuel packetType timer).run w = some ((packetType.code : Int), w')) :
    ∃ (earlier : List Reception) (reads : List ReadLog) (header : UInt8) (field : List UInt8)
      (cut : List ReadLog) (body : List UInt8), (∀ call ∈ earlier, call.rc ≠ packetType.code) ∧
      Received (earlier ++ [⟨packetType.code, reads⟩]) w w' ∧
      FrameRead w'.client ⟨packetType.code, reads⟩ header field cut body := by
  have hpos := packetType.code_pos
  obtain ⟨earlier, w₁, hother, hearlier, hcycle⟩ :=
    waitforLoop_answered (by simp only [failure]; omega) h
  obtain ⟨reads, header, field, cut, body, hlast, hframe⟩ := cycle_answered hhandled hcycle
  exact ⟨earlier, reads, header, field, cut, body, hother, hearlier.trans hlast, hframe⟩

/-! ## Speaking about answers -/

/-- `readPacket` handed over a packet of the given type between `w` and `w'`, after
reads in `Q`. -/
def HandedOver (packetType : MsgType) (Q : List ReadLog → Prop) (w w' : World σ H) : Prop :=
  ∃ call ∈ receptions (since w w'), call.rc = packetType.code ∧ Q call.reads

/-- The reads are those of a complete packet with a body in `Q`. -/
def IsComplete (Q : List UInt8 → Prop) (reads : List ReadLog) : Prop :=
  ∃ F : Frame, reads = F.readLogs ∧ Q F.body

/-- A complete packet of the given type, with a body in `Q`, was received between
`w` and `w'`. -/
def Arrived (packetType : MsgType) (Q : List UInt8 → Prop) (w w' : World σ H) : Prop :=
  HandedOver packetType (IsComplete Q) w w'

theorem ReadsPacket.isComplete_iff {reads : List ReadLog} {header : UInt8} {field : List UInt8}
    {cut : List ReadLog} {body : List UInt8} (h : ReadsPacket reads header field cut body)
    (Q : List UInt8 → Prop) : IsComplete Q reads ↔ Terminates field ∧ Q body :=
  h.exists_frame_iff fun _ body => Q body

theorem Received.not_handedOver {packetType : MsgType} {Q : List ReadLog → Prop}
    {w w' : World σ H} (h : Received [] w w') : ¬ HandedOver packetType Q w w' := by
  rintro ⟨call, hmem, _⟩
  rw [h.receptions_since] at hmem
  cases hmem

/-- The last packet received between `w` and `w'` had these bytes in its length
field, finished or not, and this body. -/
def LastPacket (w w' : World σ H) (field body : List UInt8) : Prop :=
  ∃ call header cut, (receptions (since w w')).getLast? = some call ∧
    ReadsPacket call.reads header field cut body

/-- Whenever the request goes out and a packet of the given type ends the wait for
it, the packet's length field and body, and the client at that point, are in `Q`. -/
def AnswerSatisfies (P : Platform σ) (fuel : Nat) (prepare : Action σ H (Int → Serialized))
    (packetType : MsgType) (w : World σ H)
    (Q : List UInt8 → List UInt8 → MQTTClient H → Prop) : Prop :=
  ∀ timer w₁ w₂, (sendRequest P fuel prepare).run w = some (some timer, w₁) →
    (waitfor P fuel packetType timer).run w₁ = some ((packetType.code : Int), w₂) →
    ∃ field body, LastPacket w₁ w₂ field body ∧ Q field body w₂.client

theorem answerSatisfies_of_not_sent {prepare : Action σ H (Int → Serialized)}
    {packetType : MsgType} {w w₁ : World σ H}
    {Q : List UInt8 → List UInt8 → MQTTClient H → Prop}
    (h : (sendRequest P fuel prepare).run w = some (none, w₁)) :
    AnswerSatisfies P fuel prepare packetType w Q := by
  intro timer w₁' w₂ hsent
  rw [h] at hsent
  cases hsent

theorem answerSatisfies_of_not_answered {prepare : Action σ H (Int → Serialized)}
    {packetType : MsgType} {timer : Timer} {answer : Int} {w w₁ w₂ : World σ H}
    {Q : List UInt8 → List UInt8 → MQTTClient H → Prop}
    (hsent : (sendRequest P fuel prepare).run w = some (some timer, w₁))
    (hwait : (waitfor P fuel packetType timer).run w₁ = some (answer, w₂))
    (hne : answer ≠ packetType.code) : AnswerSatisfies P fuel prepare packetType w Q := by
  intro timer' w₁' w₂' hsent' hwait'
  obtain ⟨⟨⟩, rfl⟩ := run_inj hsent hsent'
  obtain ⟨rfl, rfl⟩ := run_inj hwait hwait'
  exact absurd rfl hne

/-- Everything the requests need to know about an answer: the packet that the read
buffer holds decides what was handed over and what the answer satisfies. -/
theorem exists_answer {prepare : Action σ H (Int → Serialized)} {packetType : MsgType}
    (hhandled : isHandled packetType.code = true) {timer : Timer} {w w₁ w₂ : World σ H}
    (hsent : (sendRequest P fuel prepare).run w = some (some timer, w₁))
    (hwait : (waitfor P fuel packetType timer).run w₁ = some ((packetType.code : Int), w₂)) :
    ∃ reads header field cut body, ReadsPacket reads header field cut body ∧
      HoldsFrame w₂.client.readbuf header body ∧
      (MQTTHeader.ofByte header).type = packetType.code ∧
      (∀ Q, AnswerSatisfies P fuel prepare packetType w Q ↔ Q field body w₂.client) ∧
      (∀ w₀ w', Received [] w₀ w₁ → w'.trace = w₂.trace →
        ∀ Q, HandedOver packetType Q w₀ w' ↔ Q reads) := by
  obtain ⟨earlier, reads, header, field, cut, body, hother, hreceived, hframe⟩ :=
    waitfor_answered hhandled hwait
  have htype : (MQTTHeader.ofByte header).type = packetType.code := by
    have hrc := hframe.rc_eq
    simp only [Nat.cast_inj] at hrc
    exact hrc.symm
  refine ⟨reads, header, field, cut, body, hframe.toReadsPacket, hframe.holds, htype, ?_, ?_⟩
  · intro Q
    constructor
    · intro hanswer
      obtain ⟨field', body', ⟨call, header', cut', hlast, hreads⟩, hQ⟩ :=
        hanswer timer w₁ w₂ hsent hwait
      rw [hreceived.receptions_since, List.getLast?_concat] at hlast
      cases hlast
      obtain ⟨_, rfl, _, rfl⟩ := hreads.unique hframe.toReadsPacket
      exact hQ
    · intro hQ timer' w₁' w₂' hsent' hwait'
      obtain ⟨⟨⟩, rfl⟩ := run_inj hsent hsent'
      obtain ⟨_, rfl⟩ := run_inj hwait hwait'
      refine ⟨field, body, ⟨_, header, cut, ?_, hframe.toReadsPacket⟩, hQ⟩
      rw [hreceived.receptions_since, List.getLast?_concat]
  · intro w₀ w' hbefore htrace Q
    have hall : Received (earlier ++ [⟨packetType.code, reads⟩]) w₀ w' := by
      have h := (hbefore.trans hreceived).trans (.of_trace_eq htrace)
      simpa using h
    rw [HandedOver, hall.receptions_since]
    constructor
    · rintro ⟨call, hmem, hrc, hQ⟩
      rcases List.mem_append.mp hmem with hmem | hmem
      · exact absurd hrc (hother call hmem)
      · obtain rfl := List.mem_singleton.mp hmem
        exact hQ
    · intro hQ
      exact ⟨_, List.mem_append_right _ (List.mem_singleton_self _), rfl, hQ⟩

end MqttClient

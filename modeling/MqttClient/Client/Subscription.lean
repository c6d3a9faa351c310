/-
# What a successful subscription means

A subscription should succeed exactly if the broker granted it and the handler is
in the table afterwards.  The decoder takes SUBACKs that are too short to carry a
return code, no return code is ever recognised as the failure code, and a SUBACK
with more codes than were asked for is refused without the caller noticing, so the
equivalence holds only for some answers.
-/

import MqttClient.Client.Answer
import MqttClient.Client.Handlers

namespace MqttClient

open Semantics Program

variable {σ H : Type} {P : Platform σ} {fuel : Nat}

/-! ## The handler table -/

namespace HandlerTable

variable {table : HandlerTable H} {topicFilter : CString} {fp : H}

/-- Some slot of the table maps the filter to the handler. -/
def Maps (table : HandlerTable H) (topicFilter : CString) (fp : H) : Prop :=
  ∃ i, table i = ⟨some topicFilter, some fp⟩

/-- Entering a handler either maps its filter to it, or fails because the filter is
new and the table is full, and then changes nothing. -/
theorem setMessageHandler_some (table : HandlerTable H) (topicFilter : CString) (fp : H) :
    ((table.setMessageHandler topicFilter (some fp)).1 = mqttSuccess ∧
      Maps (table.setMessageHandler topicFilter (some fp)).2 topicFilter fp) ∨
    ((table.setMessageHandler topicFilter (some fp)).1 = failure ∧
      (table.setMessageHandler topicFilter (some fp)).2 = table ∧ ¬ table.Maps topicFilter fp) := by
  unfold setMessageHandler
  cases hslot : table.slotOf (some topicFilter) with
  | some i => exact .inl ⟨rfl, i, Function.update_self _ _ _⟩
  | none =>
      dsimp only
      cases hfree : table.slotOf none with
      | some i => exact .inl ⟨rfl, i, Function.update_self _ _ _⟩
      | none =>
          refine .inr ⟨rfl, rfl, ?_⟩
          rintro ⟨i, hi⟩
          exact slotOf_eq_none hslot i (by rw [hi])

end HandlerTable

/-- While idling nothing is mapped that was not. -/
theorem Idles.maps {topicFilter : CString} {fp : H} {w w' : World σ H} (h : Idles w w')
    (hmaps : HandlerTable.Maps w'.client.messageHandlers topicFilter fp) :
    HandlerTable.Maps w.client.messageHandlers topicFilter fp := by
  obtain ⟨i, hi⟩ := hmaps
  exact ⟨i, h.slot_eq hi⟩

/-- After a closed session the table maps what it did before, unless sessions are
clean. -/
theorem maps_closeSession_iff (topicFilter : CString) (fp : H) {w w₂ : World σ H}
    (h : Idles w w₂) :
    HandlerTable.Maps (w₂.update MQTTClient.closeSession).client.messageHandlers topicFilter fp ↔
      w.client.cleansession = false ∧
        HandlerTable.Maps w.client.messageHandlers topicFilter fp := by
  have hidle := h.trans (.of_closeSession w₂)
  have hclosed := w₂.client.closeSession_sessionClosed
  constructor
  · rintro ⟨i, hi⟩
    refine ⟨?_, hidle.maps ⟨i, hi⟩⟩
    by_contra hclean
    have hnone := hclosed.slots_empty (hidle.cleansession.trans (by simpa using hclean)) i
    change (w₂.client.closeSession.messageHandlers i) = _ at hi
    rw [hi] at hnone
    cases hnone
  · rintro ⟨hclean, i, hi⟩
    exact ⟨i, by rw [hidle.messageHandlers_eq hclean, hi]⟩

/-! ## Granting and refusing answers -/

/-- The body of a SUBACK that grants: long enough for a return code, which is 0, 1
or 2. -/
def Grants (body : List UInt8) : Prop :=
  3 ≤ body.length ∧ (body[2]? = some 0 ∨ body[2]? = some 1 ∨ body[2]? = some 2)

/-- The reads of a SUBACK that carries the failure code or is malformed. -/
def Refuses (reads : List ReadLog) : Prop :=
  ¬ IsComplete (fun body => 3 ≤ body.length ∧ body[2]? ≠ some 0x80) reads

/-- The subscription succeeded exactly if it was granted and the table maps the
filter; an answer that refuses neither succeeds nor registers anything. -/
structure SubscribeIsHonest (topicFilter : CString) (fp : H) (rc : Int) (w w' : World σ H) :
    Prop where
  success_iff : rc = mqttSuccess ↔ Arrived .suback Grants w w' ∧
    HandlerTable.Maps w'.client.messageHandlers topicFilter fp
  refused : HandedOver .suback Refuses w w' → rc ≠ mqttSuccess ∧
    (HandlerTable.Maps w'.client.messageHandlers topicFilter fp →
      HandlerTable.Maps w.client.messageHandlers topicFilter fp)

/-- The answers for which that holds: one that the decoder takes and the table has no
room for, or a complete and granting one that is short enough for the decoder, or
whose filter is mapped already. -/
def AnswerIsHonest (P : Platform σ) (fuel : Nat) (topicFilter : CString) (qos : Int) (fp : H)
    (w : World σ H) : Prop :=
  AnswerSatisfies P fuel (prepareSubscribe topicFilter qos) .suback w fun field body c =>
    (body.length ≤ 4 ∧
      (HandlerTable.setMessageHandler c.messageHandlers topicFilter (some fp)).1 = failure) ∨
    (Terminates field ∧ Grants body ∧
      (body.length ≤ 4 ∨ HandlerTable.Maps c.messageHandlers topicFilter fp))

/-- A wait that fails although a granting SUBACK came, by its keepalive, must not
leave the filter mapped from before. -/
def FailedWaitIsHonest (P : Platform σ) (fuel : Nat) (topicFilter : CString) (qos : Int) (fp : H)
    (w : World σ H) : Prop :=
  ∀ timer w₁ answer w₂,
    (sendRequest P fuel (prepareSubscribe topicFilter qos)).run w = some (some timer, w₁) →
    (waitfor P fuel .suback timer).run w₁ = some (answer, w₂) → answer ≠ MsgType.suback.code →
    w.client.cleansession = true ∨ ¬ HandlerTable.Maps w.client.messageHandlers topicFilter fp ∨
      ¬ Arrived .suback Grants w₁ w₂

theorem Grants.not_refuses {reads : List ReadLog} (h : IsComplete Grants reads) :
    ¬ Refuses reads := by
  obtain ⟨F, hF, hlen, hcode⟩ := h
  refine not_not.mpr ⟨F, hF, hlen, ?_⟩
  rcases hcode with hcode | hcode | hcode <;> rw [hcode] <;> decide

/-- A reception between `w₁` and `w₂` is one between `w` and `w'` if nothing else was
received. -/
theorem handedOver_congr {packetType : MsgType} {Q : List ReadLog → Prop} {w w₁ w₂ w' : World σ H}
    (hbefore : Received [] w w₁) (hidle : Idles w₁ w₂) (htrace : w'.trace = w₂.trace) :
    HandedOver packetType Q w w' ↔ HandedOver packetType Q w₁ w₂ := by
  obtain ⟨calls, hcalls⟩ := hidle.received
  have hall : Received calls w w' := by
    simpa using (hbefore.trans hcalls).trans (.of_trace_eq htrace)
  rw [HandedOver, HandedOver, hcalls.receptions_since, hall.receptions_since]

/-- The wait failed: no handler was entered, and only a granting SUBACK that came
anyhow could make the failure wrong. -/
theorem subscribe_unanswered_iff {topicFilter : CString} {qos : Int} {fp : H} {timer : Timer}
    {answer : Int} {w w₁ w₂ : World σ H}
    (hsent : (sendRequest P fuel (prepareSubscribe topicFilter qos)).run w = some (some timer, w₁))
    (hwait : (waitfor P fuel .suback timer).run w₁ = some (answer, w₂))
    (hne : answer ≠ MsgType.suback.code) :
    SubscribeIsHonest topicFilter fp failure w (w₂.update MQTTClient.closeSession) ↔
      FailedWaitIsHonest P fuel topicFilter qos fp w := by
  obtain ⟨hidle₁, hquiet⟩ := sendRequest_idles (takesId_prepareSubscribe _ _) hsent
  have hidle₂ := waitfor_idles _ _ _ hwait
  have hmaps := maps_closeSession_iff topicFilter fp (hidle₁.trans hidle₂)
  have harrived : Arrived .suback Grants w (w₂.update MQTTClient.closeSession) ↔
      Arrived .suback Grants w₁ w₂ := handedOver_congr hquiet hidle₂ rfl
  have hfailed : FailedWaitIsHonest P fuel topicFilter qos fp w ↔
      (w.client.cleansession = true ∨
        ¬ HandlerTable.Maps w.client.messageHandlers topicFilter fp ∨
        ¬ Arrived .suback Grants w₁ w₂) := by
    constructor
    · exact fun h => h timer w₁ answer w₂ hsent hwait hne
    · intro h timer' w₁' answer' w₂' hsent' hwait' _
      obtain ⟨⟨⟩, rfl⟩ := run_inj hsent hsent'
      obtain ⟨rfl, rfl⟩ := run_inj hwait hwait'
      exact h
  rw [hfailed]
  constructor
  · intro hhonest
    by_contra hbad
    rw [not_or, not_or, not_not, not_not] at hbad
    obtain ⟨hclean, hmapped, hgranted⟩ := hbad
    have hsuccess := hhonest.success_iff.mpr
      ⟨harrived.mpr hgranted, hmaps.mpr ⟨by simpa using hclean, hmapped⟩⟩
    exact absurd hsuccess (by decide)
  · intro hor
    refine ⟨⟨fun hsuccess => absurd hsuccess (by decide), ?_⟩,
      fun _ => ⟨by decide, fun hmapped => (hmaps.mp hmapped).2⟩⟩
    rintro ⟨hgranted, hmapped⟩
    obtain ⟨hclean, hbefore⟩ := hmaps.mp hmapped
    rcases hor with hclean' | hnot | hnot
    · exact absurd (hclean.symm.trans hclean') (by decide)
    · exact absurd hbefore hnot
    · exact absurd (harrived.mp hgranted) hnot

/-- A call that succeeded on the only SUBACK it was handed is honest if that one
granted and the filter is mapped. -/
theorem subscribeIsHonest_success_iff {topicFilter : CString} {fp : H} {reads : List ReadLog}
    {w w' : World σ H} (hhanded : ∀ Q, HandedOver .suback Q w w' ↔ Q reads) :
    SubscribeIsHonest topicFilter fp mqttSuccess w w' ↔ IsComplete Grants reads ∧
      HandlerTable.Maps w'.client.messageHandlers topicFilter fp := by
  rw [← hhanded (IsComplete Grants)]
  constructor
  · exact fun hhonest => hhonest.success_iff.mp rfl
  · intro hgood
    refine ⟨iff_of_true rfl hgood, fun hrefused => absurd ((hhanded _).mp hrefused) ?_⟩
    exact Grants.not_refuses ((hhanded _).mp hgood.1)

/-- A call that failed with the filter unmapped is honest. -/
theorem subscribeIsHonest_of_failure {topicFilter : CString} {fp : H} {w w' : World σ H}
    (hmaps : ¬ HandlerTable.Maps w'.client.messageHandlers topicFilter fp) :
    SubscribeIsHonest topicFilter fp failure w w' where
  success_iff := iff_of_false (by decide) fun h => hmaps h.2
  refused _ := ⟨by decide, fun h => absurd h hmaps⟩

theorem subscribe_answered_iff {topicFilter : CString} {qos : Int} {fp : H} {timer : Timer}
    {rc : Int} {w w₁ w₂ w' : World σ H}
    (hsent : (sendRequest P fuel (prepareSubscribe topicFilter qos)).run w = some (some timer, w₁))
    (hwait : (waitfor P fuel .suback timer).run w₁ = some ((MsgType.suback.code : Int), w₂))
    (haccepted : AcceptsSuback topicFilter (some fp) w₂ rc w') :
    SubscribeIsHonest topicFilter fp rc w w' ↔ AnswerIsHonest P fuel topicFilter qos fp w := by
  obtain ⟨reads, header, field, cut, body, hreads, hholds, htype, hanswer, hhanded⟩ :=
    exists_answer (by decide) hsent hwait
  have hquiet := (sendRequest_idles (takesId_prepareSubscribe _ _) hsent).2
  replace hhanded := hhanded w w' hquiet haccepted.trace_eq
  rw [AnswerIsHonest, hanswer]
  rcases haccepted.of_holds hholds htype with ⟨hlen, hrc, hw'⟩ | ⟨hlen, rfl, rfl⟩
  · obtain ⟨hset, hmaps⟩ | ⟨hset, htable, hunmapped⟩ :=
      HandlerTable.setMessageHandler_some w₂.client.messageHandlers topicFilter fp
    · -- the handler is in the table, whatever the SUBACK said
      obtain rfl : rc = mqttSuccess := hrc.trans hset
      have hmapped : HandlerTable.Maps w'.client.messageHandlers topicFilter fp := by
        rw [hw']
        exact hmaps
      rw [subscribeIsHonest_success_iff hhanded, hreads.isComplete_iff, hset]
      simp [hmapped, hlen]
    · obtain rfl : rc = failure := hrc.trans hset
      refine iff_of_true (subscribeIsHonest_of_failure ?_) (.inl ⟨hlen, hset⟩)
      intro hmapped
      rw [hw', htable] at hmapped
      exact hunmapped ((Idles.of_closeSession _).maps hmapped)
  · -- refused by the decoder, which the caller takes for success
    rw [subscribeIsHonest_success_iff hhanded, hreads.isComplete_iff]
    simp [Nat.not_le.mpr hlen, and_assoc]

/-- For a connected client, success means a granted subscription with its handler in
place and a refusal registers nothing, exactly if the answer and the wait were
honest. -/
theorem subscribe_honest_iff (P : Platform σ) (fuel : Nat) (topicFilter : CString) (qos : Int)
    (fp : H) (grantedQoS rc grantedQoS' : Int) (w w' : World σ H)
    (hconn : w.client.isconnected = true)
    (h : (mqttSubscribeWithResults P fuel topicFilter qos (some fp) grantedQoS).run w =
      some ((rc, grantedQoS'), w')) :
    SubscribeIsHonest topicFilter fp rc w w' ↔
      AnswerIsHonest P fuel topicFilter qos fp w ∧
        FailedWaitIsHonest P fuel topicFilter qos fp w := by
  cases mqttSubscribeWithResults_ends h with
  | refused hclosed _ _ => exact absurd (hclosed.symm.trans hconn) (by decide)
  | @unsent w₁ _ hsent hrc hw' =>
      -- nothing went out, so nothing can have come back
      obtain rfl : rc = failure := hrc
      have hnone : Received [] w w' := by
        rw [hw']
        exact (sendRequest_idles (takesId_prepareSubscribe _ _) hsent).2.trans (.of_trace_eq rfl)
      refine iff_of_true ⟨iff_of_false (by decide) fun hgood => hnone.not_handedOver hgood.1,
        fun hrefused => absurd hrefused hnone.not_handedOver⟩
        ⟨answerSatisfies_of_not_sent hsent, ?_⟩
      intro timer' w₁' answer' w₂' hsent'
      obtain ⟨⟨⟩, rfl⟩ := run_inj hsent hsent'
  | unanswered _ hsent hwait hne hrc hw' =>
      obtain rfl : rc = failure := hrc
      rw [hw', subscribe_unanswered_iff hsent hwait hne]
      exact (and_iff_right (answerSatisfies_of_not_answered hsent hwait hne)).symm
  | answered _ hsent hwait haccepted =>
      rw [subscribe_answered_iff hsent hwait haccepted]
      refine (and_iff_left ?_).symm
      intro timer' w₁' answer' w₂' hsent' hwait' hne
      obtain ⟨⟨⟩, rfl⟩ := run_inj hsent hsent'
      obtain ⟨rfl, rfl⟩ := run_inj hwait hwait'
      exact absurd rfl hne

/-- The broker grants QoS 0. -/
theorem subscribe_honest_iff_granted :
    ∃ rc granted w', (connectedWorld [0x90, 3, 0, 2, 0]).client.isconnected = true ∧
      (mqttSubscribeWithResults (linuxPlatform Recording.host 8) 8 ⟨[97], by decide⟩ 0 (some ())
        0).run (connectedWorld [0x90, 3, 0, 2, 0]) = some ((rc, granted), w') ∧
      (SubscribeIsHonest ⟨[97], by decide⟩ () rc (connectedWorld [0x90, 3, 0, 2, 0]) w' ↔
        AnswerIsHonest (linuxPlatform Recording.host 8) 8 ⟨[97], by decide⟩ 0 ()
            (connectedWorld [0x90, 3, 0, 2, 0]) ∧
          FailedWaitIsHonest (linuxPlatform Recording.host 8) 8 ⟨[97], by decide⟩ 0 ()
            (connectedWorld [0x90, 3, 0, 2, 0])) := by
  obtain ⟨⟨rc, granted⟩, w', hrun, _⟩ := returns_of_map_eq
    (show ((mqttSubscribeWithResults (linuxPlatform Recording.host 8) 8 ⟨[97], by decide⟩ 0
      (some ()) 0).run (connectedWorld [0x90, 3, 0, 2, 0])).map (fun r => r.1.1) = some 0
      by decide)
  exact ⟨rc, granted, w', rfl, hrun, subscribe_honest_iff _ 8 _ _ _ _ _ _ _ _ rfl hrun⟩

/-- The broker refuses with code `0x80`: the call succeeds and the handler is in the
table. -/
theorem subscribe_refused_succeeds :
    ((mqttSubscribeWithResults (linuxPlatform Recording.host 8) 8 ⟨[97], by decide⟩ 0 (some ())
      0).run (connectedWorld [0x90, 3, 0, 2, 0x80])).map
        (fun r => (r.1.1, (r.2.client.messageHandlers ⟨0, by decide⟩).topicFilter.map CString.bytes,
          (r.2.client.messageHandlers ⟨0, by decide⟩).fp, receptions r.2.trace)) =
      some (mqttSuccess, some [97], some (),
        [⟨MsgType.suback.code, [byteLog 0x90, byteLog 3, ⟨3, 3, [0, 2, 0x80]⟩]⟩]) := by
  decide

end MqttClient

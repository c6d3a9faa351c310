/-
# Which topics a filter accepts

`deliverMessage` decides with `MQTTPacket_equals` and the loop of `isTopicMatched`
whether a slot's filter covers the topic of a message.  The loop walks through the
characters of both; MQTT defines the match by levels.

What is accepted matches, as long as `strlen` of the filter survives its conversion to
`int`.  What matches is accepted exactly if every wildcard stands over a level that is
not empty: a `+` consumes a character before it skips to the separator, and the loop
ends with the name, before it looks at a `#`.
-/

import MqttClient.Client.Transducer
import MqttClient.Semantics.Levels

namespace MqttClient

open Semantics

/-! ## The loop -/

/-- The loop reaches the end of both strings exactly if the filter matches strictly. -/
theorem isTopicMatchedLoop_iff (curf curn : List UInt8)
    (hwf : WellFormed plus hash (levels slash curf)) :
    isTopicMatchedLoop curf curn = ([], []) ↔
      StrictMatch plus hash (levels slash curf) (levels slash curn) := by
  have hne : plus ≠ hash := by decide
  fun_induction isTopicMatchedLoop curf curn with
  | case1 curn =>
      obtain ⟨rest, hlevels, _⟩ := levels_eq_cons slash curn
      rw [levels_nil, hlevels, strictMatch_empty_iff, strictMatch_nil_iff, Prod.mk.injEq,
        eq_self_iff_true, true_and]
      constructor
      · rintro rfl
        cases hlevels
        exact ⟨rfl, rfl⟩
      · rintro ⟨hfirst, rfl⟩
        rw [hfirst] at hlevels
        exact levels_eq_singleton_nil slash hlevels
  | case2 f curf =>
      refine iff_of_false (fun h => List.cons_ne_nil _ _ (Prod.mk.inj h).1) ?_
      by_cases hf : f = slash
      · obtain ⟨rest, hlevels, _⟩ := levels_eq_cons slash curf
        rw [hf, levels_sep, levels_nil, strictMatch_empty_iff, hlevels]
        exact fun h => not_strictMatch_nil h.2
      · obtain ⟨level, rest, hlevels, _⟩ := levels_cons_eq slash hf curf
        rw [hlevels, levels_nil]
        exact not_strictMatch_empty (List.cons_ne_nil _ _)
  | case3 f curf n curn hslash =>
      refine iff_of_false (fun h => List.cons_ne_nil _ _ (Prod.mk.inj h).1) ?_
      obtain ⟨rfl, hf⟩ := hslash
      obtain ⟨level, rest, hlevels, _⟩ := levels_cons_eq slash hf curf
      rw [hlevels, levels_sep]
      exact not_strictMatch_empty (List.cons_ne_nil _ _)
  | case4 f curf n curn hslash hdiffer =>
      refine iff_of_false (fun h => List.cons_ne_nil _ _ (Prod.mk.inj h).1) ?_
      obtain ⟨hplus, hhash, hn⟩ := hdiffer
      rw [strictMatch_symbol_iff hplus hhash hwf]
      exact fun h => hn h.1
  | case5 curf n curn hslash hdiffer ih =>
      have hn : n ≠ slash := fun hn => hslash ⟨hn, by decide⟩
      refine (ih (hwf.of_single hne (by decide))).trans ?_
      exact (strictMatch_single_symbol_iff hne (by decide) hn hwf).symm
  | case6 curf n curn hslash hdiffer hplus ih =>
      have hn : n ≠ slash := fun hn => hslash ⟨hn, by decide⟩
      obtain ⟨rfl, hmatch⟩ := strictMatch_multi_symbol hne (by decide) hn hwf
      exact iff_of_true rfl hmatch
  | case7 f curf n curn hslash hdiffer hplus hhash ih =>
      have hn : f = n := by
        by_contra hn
        exact hdiffer ⟨hplus, hhash, hn⟩
      refine (ih (hwf.of_symbol hplus hhash)).trans ?_
      rw [strictMatch_symbol_iff hplus hhash hwf, and_iff_right hn]

/-! ## The test of a slot -/

/-- The string is delimited by its length, and these are its bytes. -/
structure MQTTString.Delimits (s : MQTTString) (topic : List UInt8) : Prop where
  cstring_eq : s.cstring = none
  len_eq : s.lenstring.len = topic.length
  load_eq : s.lenstring.data.deref.load 0 topic.length = topic

theorem topicString_delimits (topic : List UInt8) : (topicString topic).Delimits topic :=
  ⟨rfl, rfl, load_topicString topic⟩

/-- A topic filter: `+` and `#` are whole levels, and `#` is the last. -/
def IsTopicFilter (topicFilter : CString) : Prop :=
  WellFormed plus hash (levels slash topicFilter.bytes)

/-- The filter covers the topic. -/
def TopicMatches (topicFilter : CString) (topic : List UInt8) : Prop :=
  LevelsMatch plus hash (levels slash topicFilter.bytes) (levels slash topic)

/-- Every wildcard of the filter stands over a level of the topic that is not empty. -/
def TopicFillsWildcards (topicFilter : CString) (topic : List UInt8) : Prop :=
  WildcardsFilled plus hash (levels slash topicFilter.bytes) (levels slash topic)

variable {topicFilter : CString} {topicName : MQTTString} {topic : List UInt8}

theorem isTopicMatched_iff (hwf : IsTopicFilter topicFilter) (hname : topicName.Delimits topic) :
    isTopicMatched topicFilter topicName = true ↔
      TopicMatches topicFilter topic ∧ TopicFillsWildcards topicFilter topic := by
  refine Iff.trans ?_ (isTopicMatchedLoop_iff topicFilter.bytes topic hwf)
  have hnonneg : ¬ (topic.length : Int) < 0 := by omega
  simp only [isTopicMatched, hname.len_eq, if_neg hnonneg, Int.toNat_natCast, hname.load_eq]
  rcases isTopicMatchedLoop topicFilter.bytes topic with ⟨curf, curn⟩
  simp [and_comm]

/-- `strlen` of the filter is an `int`, so lengths are compared modulo `2 ^ 32`. -/
theorem mqttPacketEquals_iff (hname : topicName.Delimits topic) :
    mqttPacketEquals topicName topicFilter = true ↔
      toInt topicFilter.bytes.length = topic.length ∧
        topicFilter.memory.load 0 topic.length = topic := by
  simp only [mqttPacketEquals, hname.cstring_eq, hname.len_eq, Int.toNat_natCast, hname.load_eq,
    CString.strlen, Bool.and_eq_true, beq_iff_eq]
  rw [eq_comm, eq_comm (a := topic)]

theorem filterAccepts_iff (hwf : IsTopicFilter topicFilter) (hname : topicName.Delimits topic) :
    filterAccepts topicFilter topicName = true ↔
      mqttPacketEquals topicName topicFilter = true ∨
        TopicMatches topicFilter topic ∧ TopicFillsWildcards topicFilter topic := by
  rw [filterAccepts, Bool.or_eq_true, isTopicMatched_iff hwf hname]

/-- Of a filter whose length is not changed by the conversion, equal is equal. -/
theorem eq_of_mqttPacketEquals (hname : topicName.Delimits topic)
    (hlength : topicFilter.bytes.length < 2 ^ 32)
    (h : mqttPacketEquals topicName topicFilter = true) : topic = topicFilter.bytes := by
  obtain ⟨hlen, hload⟩ := (mqttPacketEquals_iff hname).mp h
  obtain ⟨hmod, -⟩ := eq_mod_of_toInt_eq hlen
  have heq : topic.length = topicFilter.bytes.length := by omega
  rw [heq, CString.load_memory _ le_rfl, List.take_length] at hload
  exact hload.symm

theorem topicMatches_of_filterAccepts (hwf : IsTopicFilter topicFilter)
    (hlength : topicFilter.bytes.length < 2 ^ 32) (hname : topicName.Delimits topic)
    (h : filterAccepts topicFilter topicName = true) : TopicMatches topicFilter topic := by
  rcases (filterAccepts_iff hwf hname).mp h with hequals | hmatched
  · rw [eq_of_mqttPacketEquals hname hlength hequals]
    exact LevelsMatch.refl _
  · exact hmatched.1

theorem handlerFor_eq_some {slot : MessageHandlers H} {fp : H}
    (h : slot.handlerFor topicName = some fp) :
    ∃ topicFilter, slot.topicFilter = some topicFilter ∧ slot.fp = some fp ∧
      filterAccepts topicFilter topicName = true := by
  obtain ⟨slotFilter, slotHandler⟩ := slot
  cases slotFilter with
  | none => cases h
  | some topicFilter =>
      by_cases haccepts : filterAccepts topicFilter topicName = true
      · refine ⟨topicFilter, rfl, ?_, haccepts⟩
        exact (if_pos haccepts).symm.trans h
      · exact absurd ((if_neg haccepts).symm.trans h) (Option.some_ne_none fp).symm

/-- A handler for a topic is the default, or that of a slot that accepts it. -/
theorem mem_handlersFor {c : MQTTClient H} {fp : H} (h : fp ∈ c.handlersFor topicName) :
    c.defaultMessageHandler = some fp ∨
      ∃ i topicFilter, (c.messageHandlers i).topicFilter = some topicFilter ∧
        (c.messageHandlers i).fp = some fp ∧ filterAccepts topicFilter topicName = true := by
  unfold MQTTClient.handlersFor at h
  cases hslots : (List.ofFn c.messageHandlers).filterMap (·.handlerFor topicName) with
  | nil =>
      rw [hslots] at h
      exact .inl (Option.mem_toList.mp h)
  | cons first rest =>
      simp only [hslots] at h
      rw [← hslots] at h
      obtain ⟨slot, hslot, hhandler⟩ := List.mem_filterMap.mp h
      obtain ⟨i, rfl⟩ := List.mem_ofFn.mp hslot
      exact .inr ⟨i, handlerFor_eq_some hhandler⟩

/-- A filter accepts only topics it covers, so `deliverMessage` calls only handlers whose
filter covers the topic, and the default handler. -/
theorem deliverMessage_calls_inside_filters (hname : topicName.Delimits topic) :
    (∀ topicFilter, IsTopicFilter topicFilter → topicFilter.bytes.length < 2 ^ 32 →
      filterAccepts topicFilter topicName = true → TopicMatches topicFilter topic) ∧
    ∀ (message : MQTTMessage) (w : World σ H),
      (∀ i topicFilter, (w.client.messageHandlers i).topicFilter = some topicFilter →
        IsTopicFilter topicFilter ∧ topicFilter.bytes.length < 2 ^ 32) →
      ∃ rc, ∃ fps : List H, (deliverMessage topicName message).run w =
          some (rc, { w with trace := w.trace ++ fps.map (.call · ⟨message, topicName⟩) }) ∧
        ∀ fp ∈ fps, w.client.defaultMessageHandler = some fp ∨
          ∃ i topicFilter, (w.client.messageHandlers i).topicFilter = some topicFilter ∧
            (w.client.messageHandlers i).fp = some fp ∧ TopicMatches topicFilter topic := by
  constructor
  · intro topicFilter hwf hlength h
    exact topicMatches_of_filterAccepts hwf hlength hname h
  · intro message w hfilters
    obtain ⟨rc, hrun⟩ := run_deliverMessage topicName message w
    refine ⟨rc, w.client.handlersFor topicName, hrun, ?_⟩
    intro fp hfp
    rcases mem_handlersFor hfp with hdefault | ⟨i, topicFilter, hslot, hhandler, haccepts⟩
    · exact .inl hdefault
    · obtain ⟨hwf, hlength⟩ := hfilters i topicFilter hslot
      exact .inr ⟨i, topicFilter, hslot, hhandler,
        topicMatches_of_filterAccepts hwf hlength hname haccepts⟩

/-- `"a/+"` accepts `"a/b"`, and covers it. -/
theorem deliverMessage_calls_inside_filters_sample :
    let topicFilter : CString := ⟨[97, slash, plus], by decide⟩
    let topic : List UInt8 := [97, slash, 98]
    IsTopicFilter topicFilter ∧ (topicString topic).Delimits topic ∧
      filterAccepts topicFilter (topicString topic) = true ∧ TopicMatches topicFilter topic := by
  intro topicFilter topic
  have hwf : IsTopicFilter topicFilter :=
    .cons (.inr (by unfold IsPlain; decide)) (.last (.inr (.inl rfl)))
  have haccepts : filterAccepts topicFilter (topicString topic) = true := by decide
  refine ⟨hwf, topicString_delimits topic, haccepts, ?_⟩
  exact (deliverMessage_calls_inside_filters (σ := Unit) (H := Unit)
    (topicString_delimits topic)).1 topicFilter hwf (by decide) haccepts

/-- The filter of so many letters `a`. -/
def letterFilter (n : Nat) : CString := ⟨List.replicate n 97, by
  intro h
  exact absurd (List.eq_of_mem_replicate h) (by decide)⟩

theorem isTopicFilter_letterFilter (n : Nat) : IsTopicFilter (letterFilter n) := by
  have hother : ∀ b : UInt8, b ≠ 97 → b ∉ (letterFilter n).bytes := fun b hb hmem =>
    hb (List.eq_of_mem_replicate hmem)
  obtain ⟨rest, hlevels, _⟩ := levels_eq_cons slash (letterFilter n).bytes
  refine WellFormed.of_isPlain (fun level hlevel => ?_) (hlevels ▸ List.cons_ne_nil _ _)
  exact isPlain_of_mem_levels (hother plus (by decide)) (hother hash (by decide)) hlevel

/-- A filter accepts its first letter if it has one letter modulo `2 ^ 32`. -/
theorem letterFilter_accepts {n : Nat} (h : toInt n = 1) :
    filterAccepts (letterFilter n) (topicString [97]) = true := by
  have hlength : (letterFilter n).bytes.length = n := List.length_replicate
  refine (filterAccepts_iff (isTopicFilter_letterFilter n) (topicString_delimits _)).mpr (.inl ?_)
  refine (mqttPacketEquals_iff (topicString_delimits _)).mpr ⟨?_, ?_⟩
  · rw [hlength]
    exact h
  · have hpos : 0 < n := Nat.pos_of_ne_zero fun hzero => by
      rw [hzero] at h
      exact absurd h (by decide)
    rw [CString.load_memory _ (by rw [hlength]; exact hpos), letterFilter, List.take_replicate,
      List.length_singleton, Nat.min_eq_left hpos]
    rfl

/-- `2 ^ 32 + 1` letters are 1 letter for the `int` in which `MQTTPacket_equals` keeps the
length, so this filter accepts a topic it does not cover. -/
theorem letterFilter_accepts_outside :
    IsTopicFilter (letterFilter (2 ^ 32 + 1)) ∧ (topicString [97]).Delimits [97] ∧
      filterAccepts (letterFilter (2 ^ 32 + 1)) (topicString [97]) = true ∧
      ¬ TopicMatches (letterFilter (2 ^ 32 + 1)) [97] := by
  refine ⟨isTopicFilter_letterFilter _, topicString_delimits _, letterFilter_accepts ?_, ?_⟩
  · decide
  · intro hmatches
    have hle := hmatches.length_le
    rw [letterFilter, List.length_replicate, List.length_singleton] at hle
    omega

/-- Of two strings that match, the filter's length survives the conversion to `int` if
the comparison finds them equal. -/
theorem TopicMatches.length_lt (h : TopicMatches topicFilter topic)
    (hname : topicName.Delimits topic) (hequals : mqttPacketEquals topicName topicFilter = true) :
    topicFilter.bytes.length < 2 ^ 32 := by
  obtain ⟨hmod, hlt⟩ := eq_mod_of_toInt_eq ((mqttPacketEquals_iff hname).mp hequals).1
  have hle := h.length_le
  omega

/-- A topic the filter covers is accepted exactly if every wildcard of the filter stands
over a level of the topic that is not empty. -/
theorem filterAccepts_iff_fillsWildcards (hwf : IsTopicFilter topicFilter)
    (hname : topicName.Delimits topic) (hplus : plus ∉ topic) (hhash : hash ∉ topic)
    (hmatches : TopicMatches topicFilter topic) :
    filterAccepts topicFilter topicName = true ↔ TopicFillsWildcards topicFilter topic := by
  rw [filterAccepts_iff hwf hname]
  constructor
  · rintro (hequals | hmatched)
    · have heq := eq_of_mqttPacketEquals hname (hmatches.length_lt hname hequals) hequals
      rw [TopicFillsWildcards, ← heq]
      exact wildcardsFilled_of_isPlain fun level hlevel => isPlain_of_mem_levels hplus hhash hlevel
    · exact hmatched.2
  · intro hfills
    exact .inr ⟨hmatches, hfills⟩

/-- `"a/+"` accepts `"a/b"`. -/
theorem filterAccepts_iff_fillsWildcards_sample :
    filterAccepts ⟨[97, slash, plus], by decide⟩ (topicString [97, slash, 98]) = true := by
  refine (filterAccepts_iff_fillsWildcards ?_ (topicString_delimits _) (by decide) (by decide)
    ?_).mpr ?_
  · exact .cons (.inr (by unfold IsPlain; decide)) (.last (.inr (.inl rfl)))
  · exact .equal [97] (.single [98] .nil)
  · exact ⟨by decide, by decide, trivial⟩

/-- `"x/#"` covers the parent level `"x"`, and `"a/+"` covers `"a/"`; neither is accepted. -/
theorem filterAccepts_drops_covered :
    (IsTopicFilter ⟨[120, slash, hash], by decide⟩ ∧ plus ∉ [120] ∧ hash ∉ [120] ∧
      TopicMatches ⟨[120, slash, hash], by decide⟩ [120] ∧
      filterAccepts ⟨[120, slash, hash], by decide⟩ (topicString [120]) = false) ∧
    IsTopicFilter ⟨[97, slash, plus], by decide⟩ ∧ plus ∉ [97, slash] ∧ hash ∉ [97, slash] ∧
      TopicMatches ⟨[97, slash, plus], by decide⟩ [97, slash] ∧
      filterAccepts ⟨[97, slash, plus], by decide⟩ (topicString [97, slash]) = false := by
  refine ⟨⟨?_, by decide, by decide, ?_, by decide⟩, ?_, by decide, by decide, ?_, by decide⟩
  · exact .cons (.inr (by unfold IsPlain; decide)) (.last (.inl rfl))
  · exact .equal [120] (.multi [])
  · exact .cons (.inr (by unfold IsPlain; decide)) (.last (.inr (.inl rfl)))
  · exact .equal [97] (.single [] .nil)

end MqttClient

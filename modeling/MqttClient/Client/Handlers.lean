/-
# The table of message handlers

`MQTTSetMessageHandler` keeps its handlers in five slots and finds them with two loops
that share an index and a return code.  What the table is for is a finite map from
filters to handlers.  After `MQTTClientInit`, and through any further calls of
`MQTTClientInit`, `MQTTSetMessageHandler` and `MQTTCleanSession`, the table represents
the map that the same calls build, and every call returns what the map says.

The function pointers of the slots are not cleared with the filters, so a free slot may
hold an old one; it is never looked at.
-/

import MqttClient.Semantics.SlotMap
import MqttClient.Client.Operations

namespace MqttClient

open Semantics Program

variable {σ H : Type}

/-! ## What the table is for -/

/-- The handlers of a client by their filters. -/
abbrev HandlerMap (H : Type) : Type := Finmap fun _ : CString => H

/-- A call that changes the table. -/
inductive HandlerCall (H : Type)
  | clientInit (commandTimeoutMs : Nat) (sendbuf : Memory) (sendbufSize : Nat) (readbuf : Memory)
      (readbufSize : Nat)
  | setMessageHandler (topicFilter : CString) (messageHandler : Option H)
  | cleanSession

namespace HandlerCall

/-- The call as it stands in the client, with its return value if it has one. -/
def action : HandlerCall H → Action σ H (Option Int)
  | clientInit commandTimeoutMs sendbuf sendbufSize readbuf readbufSize => do
      modifyClient fun c =>
        mqttClientInit c commandTimeoutMs sendbuf sendbufSize readbuf readbufSize
      pure none
  | setMessageHandler topicFilter messageHandler => do
      let rc ← mqttSetMessageHandler topicFilter messageHandler
      pure (some rc)
  | cleanSession => do
      modifyClient MQTTClient.cleanSession
      pure none

/-- The call as it should be: a handler is set if its filter is there or there is room
for it, and removed if its filter is there. -/
def spec (map : HandlerMap H) : HandlerCall H → Option Int × HandlerMap H
  | clientInit .. => (none, ∅)
  | cleanSession => (none, ∅)
  | setMessageHandler topicFilter (some fp) =>
      if topicFilter ∈ map ∨ map.keys.card < maxMessageHandlers then
        (some mqttSuccess, map.insert topicFilter fp)
      else (some failure, map)
  | setMessageHandler topicFilter none =>
      if topicFilter ∈ map then (some mqttSuccess, map.erase topicFilter)
      else (some failure, map)

/-- Several calls, one after the other, with what they return. -/
def actionAll : List (HandlerCall H) → Action σ H (List (Option Int))
  | [] => pure []
  | call :: calls => do
      let rc ← call.action
      let rcs ← actionAll calls
      pure (rc :: rcs)

@[inherit_doc actionAll]
def specAll (map : HandlerMap H) : List (HandlerCall H) → List (Option Int) × HandlerMap H
  | [] => ([], map)
  | call :: calls =>
      let (rc, map) := spec map call
      let (rcs, map) := specAll map calls
      (rc :: rcs, map)

end HandlerCall

/-! ## The table represents the map -/

/-- What stands in a slot. -/
def MessageHandlers.entry (slot : MessageHandlers H) : Option (CString × H) :=
  slot.topicFilter.bind fun topicFilter => slot.fp.map fun fp => (topicFilter, fp)

theorem MessageHandlers.entry_eq_some {slot : MessageHandlers H} {topicFilter : CString} {fp : H} :
    slot.entry = some (topicFilter, fp) ↔
      slot.topicFilter = some topicFilter ∧ slot.fp = some fp := by
  obtain ⟨filter, pointer⟩ := slot
  cases filter with
  | none => simp [entry]
  | some filter => cases pointer <;> simp [entry]

theorem MessageHandlers.entry_of_free {slot : MessageHandlers H} (h : slot.topicFilter = none) :
    slot.entry = none := by
  rw [entry, h]
  rfl

namespace HandlerTable

variable {table : HandlerTable H} {map : HandlerMap H}

theorem slotOf_eq_none {filter : Option CString} (h : table.slotOf filter = none)
    (i : Fin maxMessageHandlers) : (table i).topicFilter ≠ filter := by
  have hall := List.find?_eq_none.mp h i (List.mem_finRange i)
  simpa using hall

theorem slotOf_eq_some {filter : Option CString} {i : Fin maxMessageHandlers}
    (h : table.slotOf filter = some i) : (table i).topicFilter = filter := by
  have hfound := List.find?_some h
  simpa using hfound

/-- Occupied slots have a handler, and the entries represent the map. -/
structure Refines (table : HandlerTable H) (map : HandlerMap H) : Prop where
  occupied : ∀ i, (table i).topicFilter ≠ none → (table i).fp ≠ none
  represents : Represents (fun i => (table i).entry) map

/-- A table whose filters are all null has no handlers, whatever its pointers hold. -/
theorem refines_empty (h : ∀ i, (table i).topicFilter = none) : table.Refines ∅ where
  occupied := fun i hi => absurd (h i) hi
  represents := .empty fun i => MessageHandlers.entry_of_free (h i)

namespace Refines

variable (h : table.Refines map)

include h

theorem entry_of_filter {i : Fin maxMessageHandlers} {topicFilter : CString}
    (hi : (table i).topicFilter = some topicFilter) :
    ∃ fp, (table i).entry = some (topicFilter, fp) := by
  have hne := h.occupied i (by rw [hi]; exact Option.some_ne_none _)
  obtain ⟨fp, hfp⟩ := Option.ne_none_iff_exists'.mp hne
  exact ⟨fp, MessageHandlers.entry_eq_some.mpr ⟨hi, hfp⟩⟩

/-- A filter is in the map exactly if the first loop of `MQTTSetMessageHandler` finds it. -/
theorem mem_iff (topicFilter : CString) :
    topicFilter ∈ map ↔ ∃ i, table.slotOf (some topicFilter) = some i := by
  rw [h.represents.mem_iff]
  constructor
  · rintro ⟨i, fp, hentry⟩
    cases hslot : table.slotOf (some topicFilter) with
    | none =>
        exact absurd (MessageHandlers.entry_eq_some.mp hentry).1 (slotOf_eq_none hslot i)
    | some j => exact ⟨j, rfl⟩
  · rintro ⟨i, hslot⟩
    obtain ⟨fp, hentry⟩ := h.entry_of_filter (slotOf_eq_some hslot)
    exact ⟨i, fp, hentry⟩

/-- There is room in the map exactly if the second loop finds a free slot. -/
theorem card_lt_iff :
    map.keys.card < maxMessageHandlers ↔ ∃ i, table.slotOf none = some i := by
  have hcard := h.represents.exists_free_iff
  rw [Fintype.card_fin] at hcard
  rw [← hcard]
  constructor
  · rintro ⟨i, hentry⟩
    cases hslot : table.slotOf none with
    | none =>
        obtain ⟨filter, hfilter⟩ := Option.ne_none_iff_exists'.mp (slotOf_eq_none hslot i)
        obtain ⟨fp, hsome⟩ := h.entry_of_filter hfilter
        rw [hentry] at hsome
        cases hsome
    | some j => exact ⟨j, rfl⟩
  · rintro ⟨i, hslot⟩
    exact ⟨i, MessageHandlers.entry_of_free (slotOf_eq_some hslot)⟩

/-- Writing an occupied slot. -/
theorem update_some {i : Fin maxMessageHandlers} {topicFilter : CString} (fp : H)
    (hi : (table i).topicFilter = some topicFilter ∨
      (table i).topicFilter = none ∧ topicFilter ∉ map) :
    Refines (Function.update table i ⟨some topicFilter, some fp⟩) (map.insert topicFilter fp) := by
  constructor
  · intro j hj
    by_cases hji : j = i
    · rw [hji, Function.update_self]
      exact Option.some_ne_none _
    · rw [Function.update_of_ne hji] at hj ⊢
      exact h.occupied j hj
  · have hentries : (fun j => (Function.update table i ⟨some topicFilter, some fp⟩ j).entry) =
        Function.update (fun j => (table j).entry) i (some (topicFilter, fp)) :=
      Function.comp_update MessageHandlers.entry table i _
    rw [hentries]
    refine h.represents.insert fp ?_ ?_
    · intro j fp' hj
      rcases hi with hi | ⟨_, habsent⟩
      · obtain ⟨_, hentry⟩ := h.entry_of_filter hi
        exact h.represents.distinct hj hentry
      · exact absurd ((h.represents.mem_iff topicFilter).mpr ⟨j, fp', hj⟩) habsent
    · intro filter fp' hj
      have hfilter := (MessageHandlers.entry_eq_some.mp hj).1
      rcases hi with hi | ⟨hi, _⟩
      · rw [hi] at hfilter
        exact (Option.some.inj hfilter).symm
      · rw [hi] at hfilter
        cases hfilter

/-- Clearing an occupied slot. -/
theorem update_none {i : Fin maxMessageHandlers} {topicFilter : CString}
    (hi : (table i).topicFilter = some topicFilter) :
    Refines (Function.update table i ⟨none, none⟩) (map.erase topicFilter) := by
  constructor
  · intro j hj
    by_cases hji : j = i
    · rw [hji, Function.update_self] at hj
      exact absurd rfl hj
    · rw [Function.update_of_ne hji] at hj ⊢
      exact h.occupied j hj
  · have hentries : (fun j => (Function.update table i ⟨none, none⟩ j).entry) =
        Function.update (fun j => (table j).entry) i none :=
      Function.comp_update MessageHandlers.entry table i _
    obtain ⟨_, hentry⟩ := h.entry_of_filter hi
    rw [hentries]
    exact h.represents.erase hentry

/-- One call of `MQTTSetMessageHandler` does to the map what it should, and a call that
fails leaves the table as it was. -/
theorem setMessageHandler (topicFilter : CString) (messageHandler : Option H) :
    ∃ map', HandlerCall.spec map (.setMessageHandler topicFilter messageHandler) =
        (some (table.setMessageHandler topicFilter messageHandler).1, map') ∧
      Refines (table.setMessageHandler topicFilter messageHandler).2 map' ∧
      ((table.setMessageHandler topicFilter messageHandler).1 = failure →
        (table.setMessageHandler topicFilter messageHandler).2 = table) := by
  have hmem := h.mem_iff topicFilter
  have hroom := h.card_lt_iff
  have hok : ¬ mqttSuccess = failure := by decide
  unfold HandlerTable.setMessageHandler
  cases hslot : table.slotOf (some topicFilter) with
  | some i =>
      have hi := slotOf_eq_some hslot
      have hin := hmem.mpr ⟨i, hslot⟩
      cases messageHandler with
      | none => exact ⟨_, if_pos hin, h.update_none hi, fun hrc => absurd hrc hok⟩
      | some fp =>
          exact ⟨_, if_pos (.inl hin), h.update_some fp (.inl hi), fun hrc => absurd hrc hok⟩
  | none =>
      have hout : topicFilter ∉ map := by
        rw [hmem, hslot]
        rintro ⟨i, hi⟩
        cases hi
      cases messageHandler with
      | none => exact ⟨map, if_neg hout, h, fun _ => rfl⟩
      | some fp =>
          dsimp only
          cases hfree : table.slotOf none with
          | some i =>
              exact ⟨_, if_pos (.inr (hroom.mpr ⟨i, hfree⟩)),
                h.update_some fp (.inr ⟨slotOf_eq_some hfree, hout⟩),
                fun hrc => absurd hrc hok⟩
          | none =>
              refine ⟨map, if_neg ?_, h, fun _ => rfl⟩
              rw [hroom, hfree, not_or]
              refine ⟨hout, ?_⟩
              rintro ⟨i, hi⟩
              cases hi

end Refines

end HandlerTable

/-! ## Runs -/

theorem run_mqttSetMessageHandler (topicFilter : CString) (messageHandler : Option H)
    (w : World σ H) :
    (mqttSetMessageHandler topicFilter messageHandler).run w =
      some ((HandlerTable.setMessageHandler w.client.messageHandlers topicFilter messageHandler).1,
        w.update fun c => { c with messageHandlers :=
          (HandlerTable.setMessageHandler w.client.messageHandlers topicFilter
            messageHandler).2 }) := rfl

/-- `MQTTSetMessageHandler` on a client whose table represents a map. -/
theorem mqttSetMessageHandler_spec (topicFilter : CString) (messageHandler : Option H)
    {w : World σ H} {map : HandlerMap H}
    (h : HandlerTable.Refines w.client.messageHandlers map) :
    (mqttSetMessageHandler topicFilter messageHandler).Returns w fun rc w' =>
      some rc = (HandlerCall.spec map (.setMessageHandler topicFilter messageHandler)).1 ∧
        HandlerTable.Refines w'.client.messageHandlers
          (HandlerCall.spec map (.setMessageHandler topicFilter messageHandler)).2 ∧
        (rc = failure → w' = w) := by
  obtain ⟨map', hspec, hrefines, hkept⟩ := h.setMessageHandler topicFilter messageHandler
  refine ⟨_, _, run_mqttSetMessageHandler topicFilter messageHandler w, ?_, ?_, fun hrc => ?_⟩
  · rw [hspec]
  · rw [hspec]
    exact hrefines
  · rw [hkept hrc]
    rfl

/-- One call on a client whose table represents a map. -/
theorem HandlerCall.action_spec (call : HandlerCall H) {w : World σ H} {map : HandlerMap H}
    (h : HandlerTable.Refines w.client.messageHandlers map) :
    call.action.Returns w fun rc w' =>
      rc = (call.spec map).1 ∧
        HandlerTable.Refines w'.client.messageHandlers (call.spec map).2 := by
  cases call with
  | clientInit commandTimeoutMs sendbuf sendbufSize readbuf readbufSize =>
      exact ⟨none, _, rfl, rfl, HandlerTable.refines_empty fun _ => rfl⟩
  | cleanSession => exact ⟨none, _, rfl, rfl, HandlerTable.refines_empty fun _ => rfl⟩
  | setMessageHandler topicFilter messageHandler =>
      apply (mqttSetMessageHandler_spec topicFilter messageHandler h).bind
      rintro rc w' ⟨hrc, hrefines, _⟩
      exact returns_pure ⟨hrc, hrefines⟩

/-- All calls of a sequence. -/
theorem HandlerCall.actionAll_spec (calls : List (HandlerCall H)) :
    ∀ {w : World σ H} {map : HandlerMap H},
      HandlerTable.Refines w.client.messageHandlers map →
      (actionAll calls).Returns w fun rcs w' =>
        rcs = (specAll map calls).1 ∧
          HandlerTable.Refines w'.client.messageHandlers (specAll map calls).2 := by
  induction calls with
  | nil => exact fun h => returns_pure ⟨rfl, h⟩
  | cons call calls ih =>
      intro w map h
      apply (call.action_spec h).bind
      rintro rc w₁ ⟨hrc, hrefines⟩
      apply (ih hrefines).bind
      rintro rcs w₂ ⟨hrcs, hrefines'⟩
      refine returns_pure ⟨?_, hrefines'⟩
      rw [hrc, hrcs]
      rfl

/-- What it means for the table that it represents a map. -/
structure HandlerTable.IsMap (table : HandlerTable H) (map : HandlerMap H) : Prop where
  /-- Occupied slots have a function. -/
  fp_ne_null : ∀ i, (table i).topicFilter ≠ none → (table i).fp ≠ none
  /-- Two occupied slots have different filters. -/
  filters_differ : ∀ i j, (table i).topicFilter ≠ none →
    (table i).topicFilter = (table j).topicFilter → i = j
  /-- The map holds what the occupied slots hold. -/
  lookup_iff : ∀ topicFilter fp, map.lookup topicFilter = some fp ↔
    ∃ i, (table i).topicFilter = some topicFilter ∧ (table i).fp = some fp
  card_le : map.keys.card ≤ maxMessageHandlers

theorem HandlerTable.Refines.isMap {table : HandlerTable H} {map : HandlerMap H}
    (h : table.Refines map) : table.IsMap map where
  fp_ne_null := h.occupied
  filters_differ := fun i j hi heq => by
    obtain ⟨filter, hfilter⟩ := Option.ne_none_iff_exists'.mp hi
    obtain ⟨_, hentry⟩ := h.entry_of_filter hfilter
    obtain ⟨_, hentry'⟩ := h.entry_of_filter (heq ▸ hfilter)
    exact h.represents.distinct hentry hentry'
  lookup_iff := fun topicFilter fp => by
    rw [h.represents.lookup_iff]
    simp only [MessageHandlers.entry_eq_some]
  card_le := by
    have hcard := h.represents.card_keys_le
    rwa [Fintype.card_fin] at hcard

/-- After `MQTTClientInit`, of a client with any contents, and any calls that follow, each
call has returned what the finite map says and the table is that map.  One more call of
`MQTTSetMessageHandler` again does what the map says, or fails and changes nothing. -/
theorem handlerTable_refines_map (w : World σ H) (commandTimeoutMs : Nat) (sendbuf : Memory)
    (sendbufSize : Nat) (readbuf : Memory) (readbufSize : Nat) (calls : List (HandlerCall H)) :
    (HandlerCall.actionAll (.clientInit commandTimeoutMs sendbuf sendbufSize readbuf readbufSize ::
        calls)).Returns w fun rcs w' =>
      rcs = none :: (HandlerCall.specAll ∅ calls).1 ∧
        HandlerTable.IsMap w'.client.messageHandlers (HandlerCall.specAll ∅ calls).2 ∧
        ∀ topicFilter messageHandler,
          (mqttSetMessageHandler topicFilter messageHandler).Returns w' fun rc w'' =>
            some rc = (HandlerCall.spec (HandlerCall.specAll ∅ calls).2
              (.setMessageHandler topicFilter messageHandler)).1 ∧
            HandlerTable.IsMap w''.client.messageHandlers
              (HandlerCall.spec (HandlerCall.specAll ∅ calls).2
                (.setMessageHandler topicFilter messageHandler)).2 ∧
            (rc = failure → w'' = w') := by
  have hinit : HandlerTable.Refines (fun i => { w.client.messageHandlers i with
      topicFilter := none }) ∅ := HandlerTable.refines_empty fun _ => rfl
  have hcalls := HandlerCall.actionAll_spec calls (w := w.update fun c =>
    mqttClientInit c commandTimeoutMs sendbuf sendbufSize readbuf readbufSize) hinit
  obtain ⟨rcs, w', hrun, hrcs, hrefines⟩ := hcalls
  refine ⟨none :: rcs, w', ?_, by rw [hrcs], hrefines.isMap, fun topicFilter messageHandler => ?_⟩
  · rw [HandlerCall.actionAll, run_bind_of_eq_some rfl, run_bind_of_eq_some hrun]
    rfl
  · apply (mqttSetMessageHandler_spec topicFilter messageHandler hrefines).mono
    rintro rc w'' ⟨hrc, hrefines', hkept⟩
    exact ⟨hrc, hrefines'.isMap, hkept⟩

end MqttClient

/-
# Output arrays and their bound

`MQTTDeserialize_suback`, `MQTTDeserialize_subscribe` and
`MQTTDeserialize_unsubscribe` fill arrays of the caller with one element per entry of
the packet, and the caller says in `maxcount` how many elements there are.  The number
of entries is chosen by the peer.

The entries of a frame are counted here from its bytes alone.  The first function
compares its counter with `maxcount` one store too late, the other two do not look at
`maxcount`; so a frame stays within the arrays exactly if it has room for every entry
that it begins.
-/

import MqttClient.Packet.Server

namespace MqttClient

open Semantics

/-! ## The entries of a frame -/

/-- The length of the string at the front of the bytes, with its length field, if all of
it is there: an entry of an UNSUBSCRIBE. -/
def stringLength? (rest : List UInt8) : Option Nat :=
  (leadingInt? rest).bind fun n => if 2 + n ≤ rest.length then some (2 + n) else none

/-- A string and one byte for the QoS: an entry of a SUBSCRIBE. -/
def requestLength? (rest : List UInt8) : Option Nat :=
  (stringLength? rest).bind fun n => if n < rest.length then some (n + 1) else none

/-- One byte: an entry of a SUBACK. -/
def codeLength? : List UInt8 → Option Nat
  | [] => none
  | _ :: _ => some 1

/-- The number of entries in the bytes, where one that is cut off counts `broken`.  Each
has at least one byte, so as many steps as there are bytes are enough. -/
def countEntries (entryLength? : List UInt8 → Option Nat) (broken : Nat) :
    (steps : Nat) → List UInt8 → Nat
  | 0, _ => 0
  | _ + 1, [] => 0
  | steps + 1, b :: rest =>
      match entryLength? (b :: rest) with
      | some n => 1 + countEntries entryLength? broken steps ((b :: rest).drop n)
      | none => broken

/-- The entries of a frame stand behind the packet identifier. -/
def frameEntries (broken : Nat) (header : UInt8) (body : List UInt8) : Nat :=
  match MsgType.ofCode? (MQTTHeader.ofByte header).type with
  | some .suback => countEntries codeLength? broken body.length (body.drop 2)
  | some .subscribe => countEntries requestLength? broken body.length (body.drop 2)
  | some .unsubscribe => countEntries stringLength? broken body.length (body.drop 2)
  | _ => 0

/-- The complete entries of a frame. -/
def completeEntries (header : UInt8) (body : List UInt8) : Nat := frameEntries 0 header body

/-- The entries a frame begins, the last of which may be cut off. -/
def entriesBegun (header : UInt8) (body : List UInt8) : Nat := frameEntries 1 header body

theorem countEntries_mono (entryLength? : List UInt8 → Option Nat) {broken more : Nat}
    (h : broken ≤ more) :
    ∀ steps rest, countEntries entryLength? broken steps rest ≤
      countEntries entryLength? more steps rest
  | 0, _ => Nat.le_refl 0
  | _ + 1, [] => Nat.le_refl 0
  | steps + 1, b :: rest => by
      rw [countEntries, countEntries]
      cases entryLength? (b :: rest) with
      | none => exact h
      | some n => exact Nat.add_le_add_left (countEntries_mono entryLength? h steps _) 1

/-- A frame of another type has no entries for any of the three decoders. -/
theorem frameEntries_of_ne (broken : Nat) {header : UInt8} (body : List UInt8)
    (hsuback : (MQTTHeader.ofByte header).type ≠ MsgType.suback.code)
    (hsubscribe : (MQTTHeader.ofByte header).type ≠ MsgType.subscribe.code)
    (hunsubscribe : (MQTTHeader.ofByte header).type ≠ MsgType.unsubscribe.code) :
    frameEntries broken header body = 0 := by
  unfold frameEntries
  split
  · rename_i hcode
    exact absurd (Int.ofNat_inj.mp (MsgType.ofCode?_eq_some hcode)) hsuback
  · rename_i hcode
    exact absurd (Int.ofNat_inj.mp (MsgType.ofCode?_eq_some hcode)) hsubscribe
  · rename_i hcode
    exact absurd (Int.ofNat_inj.mp (MsgType.ofCode?_eq_some hcode)) hunsubscribe
  · rfl

theorem completeEntries_le (header : UInt8) (body : List UInt8) :
    completeEntries header body ≤ entriesBegun header body := by
  unfold completeEntries entriesBegun frameEntries
  split
  · exact countEntries_mono _ (Nat.zero_le 1) _ _
  · exact countEntries_mono _ (Nat.zero_le 1) _ _
  · exact countEntries_mono _ (Nat.zero_le 1) _ _
  · exact Nat.le_refl 0

/-- Every byte behind the identifier is an entry of a SUBACK. -/
theorem countEntries_code (broken : Nat) :
    ∀ {steps : Nat} {rest : List UInt8}, rest.length ≤ steps →
      countEntries codeLength? broken steps rest = rest.length
  | 0, [], _ => rfl
  | 0, _ :: _, h => absurd h (Nat.not_succ_le_zero _)
  | _ + 1, [], _ => rfl
  | steps + 1, b :: rest, h => by
      have ih := countEntries_code broken (Nat.le_of_succ_le_succ h)
      rw [countEntries]
      show 1 + countEntries codeLength? broken steps rest = _
      rw [ih, List.length_cons, Nat.add_comm]

/-! ## The property -/

/-- A call that fills an array of `maxcount` elements stores into no other, and it refuses
a frame with more entries than that. -/
def StaysWithin {Out α : Type} (deserialize : Out → Int × Out) (array : Out → Nat → α)
    (maxcount entries : Nat) : Prop :=
  ∀ out, (∀ i, maxcount ≤ i → array (deserialize out).2 i = array out i) ∧
    (maxcount < entries → (deserialize out).1 ≠ 1)

/-- The two arrays of `MQTTDeserialize_subscribe`, side by side. -/
def SubscribeOut.requests (out : SubscribeOut) (i : Nat) : MQTTString × Int :=
  (out.topicFilters i, out.requestedQoSs i)

/-! ## The three loops -/

section Strings

variable {buf : Memory} {ptr enddata : Nat} {rest : List UInt8}

theorem stringLength?_eq_some {n : Nat} :
    stringLength? rest = some n ↔ ∃ k, leadingInt? rest = some k ∧ n = 2 + k ∧ n ≤ rest.length := by
  simp only [stringLength?, Option.bind_eq_some_iff, Option.ite_none_right_eq_some,
    Option.some.injEq]
  constructor
  · rintro ⟨k, hlead, hle, rfl⟩
    exact ⟨k, hlead, rfl, hle⟩
  · rintro ⟨k, hlead, rfl, hle⟩
    exact ⟨k, hlead, hle, rfl⟩

/-- A string that is all there is read, and the pointer stands behind it. -/
theorem readMQTTLenString_of_some (hat : buf.HasAt ptr rest) (hend : rest.length = enddata - ptr)
    (old : MQTTString) {n : Nat} (h : stringLength? rest = some n) :
    ∃ filter : MQTTString, readMQTTLenString old buf ptr enddata = (1, filter, ptr + n) := by
  obtain ⟨k, hlead, rfl, hle⟩ := stringLength?_eq_some.mp h
  refine ⟨⟨none, k, .into buf (ptr + 2)⟩, ?_⟩
  rw [readMQTTLenString, if_pos (by omega), readInt_of_leadingInt? hat hlead]
  dsimp only
  rw [if_pos (by omega), Nat.add_assoc]

theorem readMQTTLenString_of_none (hat : buf.HasAt ptr rest) (hend : rest.length = enddata - ptr)
    (old : MQTTString) (h : stringLength? rest = none) :
    (readMQTTLenString old buf ptr enddata).1 = 0 := by
  unfold readMQTTLenString
  cases hlead : leadingInt? rest with
  | none =>
      have hshort := leadingInt?_eq_none_iff.mp hlead
      rw [if_neg (by omega)]
  | some k =>
      have hover : ¬ 2 + k ≤ rest.length := fun hle => by
        rw [stringLength?_eq_some.mpr ⟨k, hlead, rfl, hle⟩] at h
        cases h
      rw [readInt_of_leadingInt? hat hlead]
      dsimp only
      split
      · rw [if_neg (by omega)]
      · rfl

end Strings

/-- From one array to the next, `count` elements from `first` on were stored, and no
others.  What was stored is `Written`. -/
structure Stored {α : Type} (Written : α → Prop) (before after : Nat → α) (first count : Nat) :
    Prop where
  kept : ∀ i, i < first ∨ first + count ≤ i → after i = before i
  written : ∀ i, first ≤ i → i < first + count → Written (after i)

namespace Stored

variable {α : Type} {Written : α → Prop} {before after : Nat → α} {first count : Nat}

theorem refl (before : Nat → α) (first : Nat) : Stored Written before before first 0 :=
  ⟨fun _ _ => rfl, fun i hle hlt => absurd hlt (by omega)⟩

/-- One element, and then the others. -/
theorem cons {a : α} (ha : Written a)
    (h : Stored Written (Function.update before first a) after (first + 1) count) :
    Stored Written before after first (1 + count) where
  kept := fun i hi => by
    rw [h.kept i (by omega), Function.update_of_ne (by omega)]
  written := fun i hle hlt => by
    by_cases heq : i = first
    · rw [heq, h.kept first (.inl (Nat.lt_succ_self first)), Function.update_self]
      exact ha
    · exact h.written i (by omega) (by omega)

theorem single {a : α} (ha : Written a) :
    Stored Written before (Function.update before first a) first 1 :=
  cons ha (refl _ _)

/-- A call that stores `count` elements stays within the array exactly if there are as
many.  The stores show in an array where nothing is `Written`. -/
theorem staysWithin_iff {Out : Type} {deserialize : Out → Int × Out} {array : Out → Nat → α}
    (h : ∀ out, Stored Written (array out) (array (deserialize out).2) 0 count)
    {maxcount entries : Nat} (hentries : count ≤ maxcount → entries ≤ maxcount)
    (out : Out) (hout : ∀ i, ¬ Written (array out i)) :
    StaysWithin deserialize array maxcount entries ↔ count ≤ maxcount := by
  constructor
  · intro hstays
    by_contra hover
    have hwritten := (h out).written maxcount (Nat.zero_le _) (by omega)
    rw [(hstays out).1 maxcount (Nat.le_refl _)] at hwritten
    exact hout maxcount hwritten
  · intro hle out
    refine ⟨fun i hi => (h out).kept i (by omega), fun hover => ?_⟩
    exact absurd hover (Nat.not_lt.mpr (hentries hle))

end Stored

/-- The form that `readMQTTLenString` gives a string, and no C string has. -/
def MQTTString.IsDelimited (filter : MQTTString) : Prop := filter.cstring = none

theorem readMQTTLenString_isDelimited (old : MQTTString) (buf : Memory) (ptr enddata : Nat) :
    (readMQTTLenString old buf ptr enddata).2.1.IsDelimited :=
  readMQTTLenString_cstring old buf ptr enddata

theorem mqttDeserializeUnsubscribeLoop_stored (buf : Memory) (rc : Int) (enddata : Nat) :
    ∀ (passes : Nat) {curdata : Nat} {rest : List UInt8} (out : UnsubscribeOut),
      buf.HasAt curdata rest → rest.length = enddata - curdata → rest.length ≤ passes →
      Stored MQTTString.IsDelimited out.topicFilters
        (mqttDeserializeUnsubscribeLoop buf rc enddata passes curdata out).2.topicFilters
        out.count (countEntries stringLength? 1 passes rest) := by
  intro passes
  induction passes with
  | zero => exact fun out _ _ _ => .refl _ _
  | succ passes ih =>
      intro curdata rest out hat hend hpasses
      rw [mqttDeserializeUnsubscribeLoop]
      cases rest with
      | nil =>
          rw [List.length_nil] at hend
          rw [if_neg (by omega)]
          exact .refl _ _
      | cons b rest =>
          have hlength : (b :: rest).length = rest.length + 1 := rfl
          rw [if_pos (by omega), countEntries]
          have hform :=
            readMQTTLenString_isDelimited (out.topicFilters out.count) buf curdata enddata
          cases hentry : stringLength? (b :: rest) with
          | none =>
              have hok := readMQTTLenString_of_none hat hend (out.topicFilters out.count) hentry
              dsimp only
              rw [if_pos hok]
              exact .single hform
          | some n =>
              obtain ⟨filter, hread⟩ :=
                readMQTTLenString_of_some hat hend (out.topicFilters out.count) hentry
              obtain ⟨k, _, hn, hle⟩ := stringLength?_eq_some.mp hentry
              have hleft : ((b :: rest).drop n).length = enddata - (curdata + n) := by
                rw [List.length_drop]
                omega
              rw [hread] at hform ⊢
              dsimp only at hform ⊢
              rw [if_neg one_ne_zero]
              exact .cons hform (ih ⟨out.dup, out.packetid, out.count + 1,
                Function.update out.topicFilters out.count filter⟩ (hat.drop _) hleft (by omega))

theorem requestLength?_eq_some {rest : List UInt8} {n : Nat} :
    requestLength? rest = some n ↔
      ∃ k, stringLength? rest = some k ∧ n = k + 1 ∧ n ≤ rest.length := by
  simp only [requestLength?, Option.bind_eq_some_iff, Option.ite_none_right_eq_some,
    Option.some.injEq]
  constructor
  · rintro ⟨k, hstring, hlt, rfl⟩
    exact ⟨k, hstring, rfl, hlt⟩
  · rintro ⟨k, hstring, rfl, hle⟩
    exact ⟨k, hstring, hle, rfl⟩

/-- Storing into both arrays is storing into the pair of them. -/
theorem requests_update (dup : UInt8) (packetid : UInt16) (count count' : Nat)
    (topicFilters : Nat → MQTTString) (requestedQoSs : Nat → Int) (filter : MQTTString)
    (qos : Int) :
    SubscribeOut.requests ⟨dup, packetid, count', Function.update topicFilters count filter,
        Function.update requestedQoSs count qos⟩ =
      Function.update (SubscribeOut.requests ⟨dup, packetid, count, topicFilters, requestedQoSs⟩)
        count (filter, qos) := by
  funext i
  by_cases h : i = count
  · subst h
    simp only [SubscribeOut.requests, Function.update_self]
  · simp only [SubscribeOut.requests, Function.update_of_ne h]

/-- An entry that is cut off leaves its filter, and the QoS as it was. -/
theorem requests_update_filter (out : SubscribeOut) (filter : MQTTString) :
    SubscribeOut.requests
        { out with topicFilters := Function.update out.topicFilters out.count filter } =
      Function.update out.requests out.count (filter, out.requestedQoSs out.count) := by
  have hboth := requests_update out.dup out.packetid out.count out.count out.topicFilters
    out.requestedQoSs filter (out.requestedQoSs out.count)
  rwa [Function.update_eq_self] at hboth

theorem mqttDeserializeSubscribeLoop_stored (buf : Memory) (rc : Int) (enddata : Nat) :
    ∀ (passes : Nat) {curdata : Nat} {rest : List UInt8} (out : SubscribeOut),
      buf.HasAt curdata rest → rest.length = enddata - curdata → rest.length ≤ passes →
      Stored (fun request => request.1.IsDelimited) out.requests
        (mqttDeserializeSubscribeLoop buf rc enddata passes curdata out).2.requests
        out.count (countEntries requestLength? 1 passes rest) := by
  intro passes
  induction passes with
  | zero => exact fun out _ _ _ => .refl _ _
  | succ passes ih =>
      intro curdata rest out hat hend hpasses
      rw [mqttDeserializeSubscribeLoop]
      cases rest with
      | nil =>
          rw [List.length_nil] at hend
          rw [if_neg (by omega)]
          exact .refl _ _
      | cons b rest =>
          have hlength : (b :: rest).length = rest.length + 1 := rfl
          rw [if_pos (by omega), countEntries]
          have hform :=
            readMQTTLenString_isDelimited (out.topicFilters out.count) buf curdata enddata
          cases hstring : stringLength? (b :: rest) with
          | none =>
              have hok := readMQTTLenString_of_none hat hend (out.topicFilters out.count) hstring
              have hentry : requestLength? (b :: rest) = none := by
                rw [requestLength?, hstring]
                rfl
              rw [hentry]
              dsimp only
              rw [if_pos hok, requests_update_filter]
              exact .single hform
          | some k =>
              obtain ⟨filter, hread⟩ :=
                readMQTTLenString_of_some hat hend (out.topicFilters out.count) hstring
              rw [hread] at hform ⊢
              dsimp only at hform ⊢
              rw [if_neg one_ne_zero]
              by_cases hroom : k < (b :: rest).length
              · have hentry := requestLength?_eq_some.mpr ⟨k, hstring, rfl, hroom⟩
                have hle : k + 1 ≤ (b :: rest).length := hroom
                have hleft : ((b :: rest).drop (k + 1)).length = enddata - (curdata + k + 1) := by
                  rw [List.length_drop]
                  omega
                rw [hentry, if_neg (by omega)]
                have hstored := ih ⟨out.dup, out.packetid, out.count + 1,
                  Function.update out.topicFilters out.count filter,
                  Function.update out.requestedQoSs out.count (toChar (buf (curdata + k)))⟩
                  (hat.drop _) hleft (by omega)
                rw [requests_update] at hstored
                exact .cons hform hstored
              · have hentry : requestLength? (b :: rest) = none := by
                  rw [requestLength?, hstring]
                  exact if_neg hroom
                rw [hentry, if_pos (by omega), requests_update_filter]
                exact .single hform

/-- The counter is compared with `maxcount` one store too late: as many codes are stored
as there are, but no more than `maxcount + 1`. -/
theorem mqttDeserializeSubackLoop_stored (buf : Memory) (maxcount : Nat) :
    ∀ (left curdata : Nat) (out : SubackOut),
      Stored (fun code => ∃ b, code = toChar b) out.grantedQoSs
        (mqttDeserializeSubackLoop buf maxcount left curdata out).2.grantedQoSs out.count
        (min left (maxcount + 1 - out.count)) := by
  intro left
  induction left with
  | zero =>
      intro curdata out
      rw [Nat.zero_min]
      exact .refl _ _
  | succ left ih =>
      intro curdata out
      rw [mqttDeserializeSubackLoop]
      by_cases hfull : maxcount < out.count
      · have hnone : min (left + 1) (maxcount + 1 - out.count) = 0 := by omega
        rw [if_pos hfull, hnone]
        exact .refl _ _
      · have hmore : min (left + 1) (maxcount + 1 - out.count) =
            1 + min left (maxcount + 1 - (out.count + 1)) := by omega
        rw [if_neg hfull, hmore]
        exact .cons ⟨buf curdata, rfl⟩ (ih (curdata + 1) ⟨out.packetid, out.count + 1,
          Function.update out.grantedQoSs out.count (toChar (buf curdata))⟩)

/-! ## Frames -/

/-- A call that stores nothing and does not report success. -/
theorem staysWithin_of_refused {Out α : Type} {deserialize : Out → Int × Out}
    (array : Out → Nat → α) (maxcount entries : Nat) {rc : Int} (hrc : rc ≠ 1)
    (h : ∀ out, deserialize out = (rc, out)) : StaysWithin deserialize array maxcount entries := by
  intro out
  rw [h out]
  exact ⟨fun _ _ => rfl, fun _ => hrc⟩

/-- A C string, which no decoder leaves in an array of filters. -/
def placeholder : MQTTString := ⟨some mqttProtocolName, 0, .null⟩

namespace HoldsFrame

variable {buf : Memory} {header : UInt8} {body : List UInt8}

theorem length_drop_two (body : List UInt8) :
    (body.drop 2).length = frameLength body - (bodyStart body + 2) := by
  rw [List.length_drop, frameLength]
  omega

variable (h : HoldsFrame buf header body) (maxcount : Nat) {entries : Nat}

include h

theorem suback_staysWithin_iff
    (htype : (MQTTHeader.ofByte header).type = MsgType.suback.code)
    (hentries : entries ≤ (body.drop 2).length) :
    StaysWithin (mqttDeserializeSuback buf maxcount) SubackOut.grantedQoSs maxcount entries ↔
      (body.drop 2).length ≤ maxcount := by
  rw [List.length_drop] at hentries ⊢
  have hstored : ∀ out : SubackOut, Stored (fun code => ∃ b, code = toChar b) out.grantedQoSs
      (mqttDeserializeSuback buf maxcount out).2.grantedQoSs 0
      (min (body.length - 2) (maxcount + 1)) := by
    intro out
    by_cases hshort : body.length < 2
    · have hnone : min (body.length - 2) (maxcount + 1) = 0 := by omega
      rw [hnone]
      simp only [mqttDeserializeSuback, readChar, Nat.zero_add, h.readChar_header, h.decodeBuf,
        htype, ne_eq, not_true_eq_false, if_false, if_pos hshort]
      exact .refl _ _
    · have hloop := mqttDeserializeSubackLoop_stored buf maxcount (body.length - 2)
        (bodyStart body + 2) ⟨UInt16.ofNat (readInt buf (bodyStart body)).1, 0, out.grantedQoSs⟩
      simp only [mqttDeserializeSuback, readChar, Nat.zero_add, h.readChar_header, h.decodeBuf,
        htype, ne_eq, not_true_eq_false, if_false, if_neg hshort]
      exact hloop
  -- no code that is read comes out as 128
  have hcode : ¬ ∃ b : UInt8, (128 : Int) = toChar b := by
    rintro ⟨b, hb⟩
    have hlt := b.toNat_lt
    rw [toChar] at hb
    split at hb <;> omega
  rw [Stored.staysWithin_iff hstored (by omega) ⟨0, 0, fun _ => 128⟩ fun _ => hcode]
  omega

theorem unsubscribe_staysWithin_iff
    (htype : (MQTTHeader.ofByte header).type = MsgType.unsubscribe.code)
    (hentries : entries ≤ countEntries stringLength? 1 body.length (body.drop 2)) :
    StaysWithin (mqttDeserializeUnsubscribe buf maxcount) UnsubscribeOut.topicFilters maxcount
        entries ↔
      countEntries stringLength? 1 body.length (body.drop 2) ≤ maxcount := by
  have hstored : ∀ out : UnsubscribeOut, Stored MQTTString.IsDelimited out.topicFilters
      (mqttDeserializeUnsubscribe buf maxcount out).2.topicFilters 0
      (countEntries stringLength? 1 body.length (body.drop 2)) := by
    intro out
    have hloop := mqttDeserializeUnsubscribeLoop_stored buf (mqttPacketEncode body.length).length
      (frameLength body) body.length ⟨UInt8.ofNat (MQTTHeader.ofByte header).dup,
        UInt16.ofNat (readInt buf (bodyStart body)).1, 0, out.topicFilters⟩
      (h.hasAt_body.drop 2) (length_drop_two body) (by simp)
    simp only [mqttDeserializeUnsubscribe, readChar, Nat.zero_add, h.readChar_header, h.decodeBuf,
      htype, ne_eq, not_true_eq_false, if_false]
    exact hloop
  exact Stored.staysWithin_iff hstored hentries.trans ⟨0, 0, 0, fun _ => placeholder⟩
    fun _ => Option.some_ne_none _

theorem subscribe_staysWithin_iff
    (htype : (MQTTHeader.ofByte header).type = MsgType.subscribe.code)
    (hentries : entries ≤ countEntries requestLength? 1 body.length (body.drop 2)) :
    StaysWithin (mqttDeserializeSubscribe buf maxcount) SubscribeOut.requests maxcount entries ↔
      countEntries requestLength? 1 body.length (body.drop 2) ≤ maxcount := by
  have hstored : ∀ out : SubscribeOut, Stored (fun request => request.1.IsDelimited) out.requests
      (mqttDeserializeSubscribe buf maxcount out).2.requests 0
      (countEntries requestLength? 1 body.length (body.drop 2)) := by
    intro out
    have hloop := mqttDeserializeSubscribeLoop_stored buf (mqttPacketEncode body.length).length
      (frameLength body) body.length ⟨UInt8.ofNat (MQTTHeader.ofByte header).dup,
        UInt16.ofNat (readInt buf (bodyStart body)).1, 0, out.topicFilters, out.requestedQoSs⟩
      (h.hasAt_body.drop 2) (length_drop_two body) (by simp)
    simp only [mqttDeserializeSubscribe, readChar, Nat.zero_add, h.readChar_header, h.decodeBuf,
      htype, ne_eq, not_true_eq_false, if_false]
    exact hloop
  exact Stored.staysWithin_iff hstored hentries.trans
    ⟨0, 0, 0, fun _ => placeholder, fun _ => 0⟩ fun _ => Option.some_ne_none _

end HoldsFrame

/-- None of the three decoders stores behind arrays of `maxcount` elements, or accepts a
frame with more entries, for this frame. -/
structure FrameStaysWithin (buf : Memory) (header : UInt8) (body : List UInt8) (maxcount : Nat) :
    Prop where
  suback : StaysWithin (mqttDeserializeSuback buf maxcount) SubackOut.grantedQoSs maxcount
    (completeEntries header body)
  subscribe : StaysWithin (mqttDeserializeSubscribe buf maxcount) SubscribeOut.requests maxcount
    (completeEntries header body)
  unsubscribe : StaysWithin (mqttDeserializeUnsubscribe buf maxcount) UnsubscribeOut.topicFilters
    maxcount (completeEntries header body)

section Refused

variable {buf : Memory} {header : UInt8} {body : List UInt8} (h : HoldsFrame buf header body)
  (maxcount entries : Nat)

include h

theorem suback_staysWithin_of_ne
    (htype : (MQTTHeader.ofByte header).type ≠ MsgType.suback.code) :
    StaysWithin (mqttDeserializeSuback buf maxcount) SubackOut.grantedQoSs maxcount entries := by
  refine staysWithin_of_refused _ maxcount entries (show (0 : Int) ≠ 1 by decide) fun out => ?_
  simp only [mqttDeserializeSuback, readChar, h.readChar_header]
  rw [if_pos htype]

theorem subscribe_staysWithin_of_ne
    (htype : (MQTTHeader.ofByte header).type ≠ MsgType.subscribe.code) :
    StaysWithin (mqttDeserializeSubscribe buf maxcount) SubscribeOut.requests maxcount entries := by
  refine staysWithin_of_refused _ maxcount entries (show (-1 : Int) ≠ 1 by decide) fun out => ?_
  simp only [mqttDeserializeSubscribe, readChar, h.readChar_header]
  rw [if_pos htype]

theorem unsubscribe_staysWithin_of_ne
    (htype : (MQTTHeader.ofByte header).type ≠ MsgType.unsubscribe.code) :
    StaysWithin (mqttDeserializeUnsubscribe buf maxcount) UnsubscribeOut.topicFilters maxcount
      entries := by
  refine staysWithin_of_refused _ maxcount entries (show (0 : Int) ≠ 1 by decide) fun out => ?_
  simp only [mqttDeserializeUnsubscribe, readChar, h.readChar_header]
  rw [if_pos htype]

end Refused

/-- A frame stays within arrays of `maxcount` elements exactly if it begins no more entries
than that. -/
theorem frameStaysWithin_iff {buf : Memory} {header : UInt8} {body : List UInt8}
    (h : HoldsFrame buf header body) (maxcount : Nat) :
    FrameStaysWithin buf header body maxcount ↔ entriesBegun header body ≤ maxcount := by
  have hcomplete := completeEntries_le header body
  by_cases hsuback : (MQTTHeader.ofByte header).type = MsgType.suback.code
  · have hbegun : entriesBegun header body = (body.drop 2).length := by
      rw [entriesBegun, frameEntries, hsuback]
      exact countEntries_code 1 (by simp)
    rw [hbegun] at hcomplete ⊢
    rw [← h.suback_staysWithin_iff maxcount hsuback hcomplete]
    refine ⟨FrameStaysWithin.suback, fun hstays => ⟨hstays, ?_, ?_⟩⟩
    · exact subscribe_staysWithin_of_ne h _ _ (by rw [hsuback]; decide)
    · exact unsubscribe_staysWithin_of_ne h _ _ (by rw [hsuback]; decide)
  by_cases hsubscribe : (MQTTHeader.ofByte header).type = MsgType.subscribe.code
  · have hbegun : entriesBegun header body =
        countEntries requestLength? 1 body.length (body.drop 2) := by
      rw [entriesBegun, frameEntries, hsubscribe]
      rfl
    rw [hbegun] at hcomplete ⊢
    rw [← h.subscribe_staysWithin_iff maxcount hsubscribe hcomplete]
    refine ⟨FrameStaysWithin.subscribe, fun hstays => ⟨?_, hstays, ?_⟩⟩
    · exact suback_staysWithin_of_ne h _ _ hsuback
    · exact unsubscribe_staysWithin_of_ne h _ _ (by rw [hsubscribe]; decide)
  by_cases hunsubscribe : (MQTTHeader.ofByte header).type = MsgType.unsubscribe.code
  · have hbegun : entriesBegun header body =
        countEntries stringLength? 1 body.length (body.drop 2) := by
      rw [entriesBegun, frameEntries, hunsubscribe]
      rfl
    rw [hbegun] at hcomplete ⊢
    rw [← h.unsubscribe_staysWithin_iff maxcount hunsubscribe hcomplete]
    refine ⟨FrameStaysWithin.unsubscribe, fun hstays => ⟨?_, ?_, hstays⟩⟩
    · exact suback_staysWithin_of_ne h _ _ hsuback
    · exact subscribe_staysWithin_of_ne h _ _ hsubscribe
  · refine iff_of_true ⟨suback_staysWithin_of_ne h _ _ hsuback,
      subscribe_staysWithin_of_ne h _ _ hsubscribe,
      unsubscribe_staysWithin_of_ne h _ _ hunsubscribe⟩ ?_
    rw [entriesBegun, frameEntries_of_ne 1 body hsuback hsubscribe hunsubscribe]
    exact Nat.zero_le maxcount

/-- A SUBACK with one code, for one element. -/
theorem frameStaysWithin_iff_one :
    let buf : Memory := Memory.store (fun _ => 0) 0 [0x90, 3, 0, 1, 0]
    HoldsFrame buf 0x90 [0, 1, 0] ∧ FrameStaysWithin buf 0x90 [0, 1, 0] 1 := by
  intro buf
  have hframe : HoldsFrame buf 0x90 [0, 1, 0] := ⟨by decide, rfl, by decide, by decide⟩
  exact ⟨hframe, (frameStaysWithin_iff hframe 1).mpr (by decide)⟩

/-- A SUBACK with two codes, decoded as `MQTTSubscribeWithResults` does it with room for
one: the second code is stored behind it, and the result is 1.  A SUBSCRIBE and an
UNSUBSCRIBE are decoded past arrays without elements. -/
theorem subscribe_stores_behind_arrays :
    let suback : Memory := Memory.store (fun _ => 0) 0 [0x90, 4, 0, 1, 2, 2]
    let subscribe : Memory := Memory.store (fun _ => 0) 0 [0x82, 6, 0, 1, 0, 1, 97, 1]
    let unsubscribe : Memory := Memory.store (fun _ => 0) 0 [0xA2, 5, 0, 1, 0, 1, 97]
    HoldsFrame suback 0x90 [0, 1, 2, 2] ∧ completeEntries 0x90 [0, 1, 2, 2] = 2 ∧
      (mqttDeserializeSuback suback 1 ⟨0, 0, fun _ => 0⟩).1 = 1 ∧
      (mqttDeserializeSuback suback 1 ⟨0, 0, fun _ => 0⟩).2.grantedQoSs 1 = 2 ∧
      ¬ FrameStaysWithin suback 0x90 [0, 1, 2, 2] 1 ∧
      (mqttDeserializeSubscribe subscribe 0
        ⟨0, 0, 0, fun _ => placeholder, fun _ => 0⟩).1 = 1 ∧
      (mqttDeserializeSubscribe subscribe 0
        ⟨0, 0, 0, fun _ => placeholder, fun _ => 0⟩).2.requestedQoSs 0 = 1 ∧
      (mqttDeserializeUnsubscribe unsubscribe 0 ⟨0, 0, 0, fun _ => placeholder⟩).1 = 1 ∧
      ((mqttDeserializeUnsubscribe unsubscribe 0
        ⟨0, 0, 0, fun _ => placeholder⟩).2.topicFilters 0).lenstring.len = 1 := by
  refine ⟨⟨by decide, rfl, by decide, by decide⟩, by decide, by decide, by decide, fun hstays => ?_,
    by decide, by decide, by decide, by decide⟩
  have hkept := (hstays.suback ⟨0, 0, fun _ => 0⟩).1 1 (Nat.le_refl 1)
  exact absurd hkept (by decide)

end MqttClient

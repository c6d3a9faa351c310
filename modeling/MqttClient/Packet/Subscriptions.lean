/-
# Lists of topic filters are read back

SUBSCRIBE and UNSUBSCRIBE carry no count.  Their decoders take entries until the
pointer stands at the end that the length field announces, so the length computed
before anything is written and the bytes written for every entry have to meet exactly
there.  The loops are followed entry by entry: what stands in front of the pointer has
been stored, what stands behind it is the rest of the list.
-/

import MqttClient.Packet.Entries
import MqttClient.Packet.RoundTrip

namespace MqttClient

open Semantics

/-- From one array to the next, elements that show those of the list were stored in order
from `first` on, and no others. -/
structure Filled {α β : Type} (Shows : α → β → Prop) (before after : Nat → α) (first : Nat)
    (items : List β) : Prop where
  kept : ∀ i, i < first ∨ first + items.length ≤ i → after i = before i
  shown : ∀ i b, items[i]? = some b → Shows (after (first + i)) b

namespace Filled

variable {α β : Type} {Shows : α → β → Prop} {before after : Nat → α} {first : Nat}

theorem nil (before : Nat → α) (first : Nat) : Filled Shows before before first [] :=
  ⟨fun _ _ => rfl, fun _ _ hget => by cases hget⟩

/-- One element, and then the others. -/
theorem cons {a : α} {b : β} {rest : List β} (ha : Shows a b)
    (h : Filled Shows (Function.update before first a) after (first + 1) rest) :
    Filled Shows before after first (b :: rest) where
  kept := fun i hi => by
    rw [List.length_cons] at hi
    rw [h.kept i (by omega), Function.update_of_ne (by omega)]
  shown := fun i c hget => by
    cases i with
    | zero =>
        obtain rfl : b = c := Option.some.inj hget
        rw [Nat.add_zero, h.kept first (.inl (Nat.lt_succ_self first)), Function.update_self]
        exact ha
    | succ i =>
        have hrest := h.shown i c hget
        rwa [Nat.add_assoc, Nat.add_comm 1 i] at hrest

end Filled

/-- The string has the bytes of the filter. -/
def MQTTString.SameBytes (s filter : MQTTString) : Prop := s.bytes = filter.bytes

/-- The element of the two arrays has the bytes and the QoS of the request. -/
def SameRequest (element request : MQTTString × Int) : Prop :=
  element.1.bytes = request.1.bytes ∧ element.2 = request.2

/-! ## The two loops -/

section Loops

variable {buf : Memory} (rc : Int) (enddata : Nat)

theorem mqttDeserializeUnsubscribeLoop_of_hasAt :
    ∀ (topicFilters : List MQTTString) (passes : Nat) {curdata : Nat} (out : UnsubscribeOut),
      (∀ filter ∈ topicFilters, filter.IsPlain) →
      buf.HasAt curdata (topicFilters.flatMap writeMQTTString) →
      enddata = curdata + (topicFilters.flatMap writeMQTTString).length →
      (topicFilters.flatMap writeMQTTString).length ≤ passes →
      ∃ filters, mqttDeserializeUnsubscribeLoop buf rc enddata passes curdata out =
          (1, { out with count := out.count + topicFilters.length, topicFilters := filters }) ∧
        Filled MQTTString.SameBytes out.topicFilters filters out.count topicFilters := by
  intro topicFilters
  induction topicFilters with
  | nil =>
      intro passes curdata out _ _ hend _
      refine ⟨out.topicFilters, ?_, .nil _ _⟩
      cases passes with
      | zero => rfl
      | succ passes =>
          rw [mqttDeserializeUnsubscribeLoop, if_neg (by simp at hend; omega)]
          rfl
  | cons filter rest ih =>
      intro passes curdata out hplain hat hend hpasses
      obtain ⟨hfilter, hrest⟩ := List.forall_mem_cons.mp hplain
      rw [List.flatMap_cons] at hat hend hpasses
      rw [List.length_append] at hend hpasses
      obtain ⟨hhead, htail⟩ := Memory.hasAt_append.mp hat
      have hpos := writeMQTTString_length_copied filter
      obtain ⟨passes, rfl⟩ : ∃ k, passes = k + 1 := ⟨passes - 1, by omega⟩
      have hfits : curdata + (writeMQTTString filter).length ≤ enddata := by omega
      obtain ⟨s, hread, hbytes⟩ :=
        readMQTTLenString_of_hasAt hfilter hhead (out.topicFilters out.count) hfits
      obtain ⟨filters, hloop, hfilled⟩ := ih passes
        { out with
          count := out.count + 1
          topicFilters := Function.update out.topicFilters out.count s }
        hrest htail (by omega) (by omega)
      refine ⟨filters, ?_, .cons hbytes hfilled⟩
      rw [mqttDeserializeUnsubscribeLoop, if_pos (by omega), hread]
      dsimp only
      rw [if_neg one_ne_zero, hloop, List.length_cons, Nat.add_assoc, Nat.add_comm 1]

theorem mqttDeserializeSubscribeLoop_of_hasAt :
    ∀ (requests : List (MQTTString × Int)) (passes : Nat) {curdata : Nat} (out : SubscribeOut),
      (∀ request ∈ requests, request.1.IsPlain) →
      (∀ request ∈ requests, 0 ≤ request.2 ∧ request.2 ≤ 2) →
      buf.HasAt curdata (requests.flatMap writeRequest) →
      enddata = curdata + (requests.flatMap writeRequest).length →
      (requests.flatMap writeRequest).length ≤ passes →
      ∃ out', mqttDeserializeSubscribeLoop buf rc enddata passes curdata out = (1, out') ∧
        out'.dup = out.dup ∧ out'.packetid = out.packetid ∧
        out'.count = out.count + requests.length ∧
        Filled SameRequest out.requests out'.requests out.count requests := by
  intro requests
  induction requests with
  | nil =>
      intro passes curdata out _ _ _ hend _
      refine ⟨out, ?_, rfl, rfl, rfl, .nil _ _⟩
      cases passes with
      | zero => rfl
      | succ passes => rw [mqttDeserializeSubscribeLoop, if_neg (by simp at hend; omega)]
  | cons request rest ih =>
      intro passes curdata out hplain hqos hat hend hpasses
      obtain ⟨hfilter, hrest⟩ := List.forall_mem_cons.mp hplain
      obtain ⟨hrange, hqosRest⟩ := List.forall_mem_cons.mp hqos
      rw [List.flatMap_cons, writeRequest] at hat hend hpasses
      simp only [List.length_append, List.length_singleton] at hend hpasses
      rw [Memory.hasAt_append, Memory.hasAt_append, Memory.hasAt_cons] at hat
      obtain ⟨⟨hhead, hcode, _⟩, htail⟩ := hat
      rw [List.length_append, List.length_singleton, ← Nat.add_assoc] at htail
      obtain ⟨passes, rfl⟩ : ∃ k, passes = k + 1 := ⟨passes - 1, by omega⟩
      have hfits : curdata + (writeMQTTString request.1).length ≤ enddata := by omega
      obtain ⟨s, hread, hbytes⟩ :=
        readMQTTLenString_of_hasAt hfilter hhead (out.topicFilters out.count) hfits
      -- the QoS is stored as a byte and read back through a signed `char`
      have hchar : toChar (buf (curdata + (writeMQTTString request.1).length)) = request.2 := by
        obtain ⟨q, hq⟩ := Int.eq_ofNat_of_zero_le hrange.1
        rw [hcode, hq]
        exact toChar_toUnsignedChar (by omega)
      obtain ⟨out', hloop, hdup, hid, hcount, hfilled⟩ := ih passes
        ⟨out.dup, out.packetid, out.count + 1, Function.update out.topicFilters out.count s,
          Function.update out.requestedQoSs out.count request.2⟩
        hrest hqosRest htail (by omega) (by omega)
      rw [requests_update] at hfilled
      have hsame : SameRequest (s, request.2) request := ⟨hbytes, rfl⟩
      refine ⟨out', ?_, hdup, hid, ?_, .cons hsame hfilled⟩
      · rw [mqttDeserializeSubscribeLoop, if_pos (by omega), hread]
        dsimp only
        rw [if_neg one_ne_zero, if_neg (by omega), readChar, hchar]
        exact hloop
      · rw [hcount, List.length_cons]
        show out.count + 1 + rest.length = _
        omega

end Loops

/-! ## The packets -/

section Packets

variable {buf : Memory} {dup : UInt8} {packetid : UInt16}

/-- The header byte of both packets, read through its bit fields. -/
theorem MQTTHeader.ofByte_byte_qos1 (type : MsgType) (hdup : dup.toNat ≤ 1) :
    ofByte (byte ⟨type.code, dup.toNat, 1, 0⟩) = ⟨type.code, dup.toNat, 1, 0⟩ :=
  ofByte_byte type.code_lt (Nat.lt_succ_of_le hdup) (show 1 < 4 by decide) (show 0 < 2 by decide)

theorem HoldsFrame.mqttDeserializeSubscribe_of_requests {requests : List (MQTTString × Int)}
    (hdup : dup.toNat ≤ 1) (hplain : ∀ request ∈ requests, request.1.IsPlain)
    (hqos : ∀ request ∈ requests, 0 ≤ request.2 ∧ request.2 ≤ 2)
    (h : HoldsFrame buf (MQTTHeader.byte ⟨MsgType.subscribe.code, dup.toNat, 1, 0⟩)
      (subscribeBody packetid requests)) (maxcount : Nat) (out : SubscribeOut) :
    ∃ out', mqttDeserializeSubscribe buf maxcount out = (1, out') ∧ out'.dup = dup ∧
      out'.packetid = packetid ∧ out'.count = requests.length ∧
      Filled SameRequest out.requests out'.requests 0 requests := by
  have hheader := MQTTHeader.ofByte_byte_qos1 .subscribe hdup
  obtain ⟨hidAt, hat⟩ := Memory.hasAt_append.mp h.hasAt_body
  rw [writeInt_length] at hat
  have hid := readInt_of_hasAt packetid.toNat_lt hidAt
  have hlength : (subscribeBody packetid requests).length =
      2 + (requests.flatMap writeRequest).length := by
    rw [subscribeBody, List.length_append, writeInt_length]
  obtain ⟨out', hloop, hdup', hid', hcount, hfilled⟩ := mqttDeserializeSubscribeLoop_of_hasAt
    (mqttPacketEncode (subscribeBody packetid requests).length).length
    (frameLength (subscribeBody packetid requests)) requests
    (subscribeBody packetid requests).length
    ⟨UInt8.ofNat dup.toNat, UInt16.ofNat packetid.toNat, 0, out.topicFilters, out.requestedQoSs⟩
    hplain hqos hat (by rw [frameLength]; omega) (by omega)
  refine ⟨out', ?_, ?_, ?_, ?_, hfilled⟩
  · simp only [mqttDeserializeSubscribe, readChar, Nat.zero_add, h.readChar_header, h.decodeBuf,
      hheader]
    rw [if_neg (fun hne => hne rfl)]
    rw [bodyStart] at hid
    rw [hid]
    exact hloop
  · rw [hdup', UInt8.ofNat_toNat]
  · rw [hid', UInt16.ofNat_toNat]
  · rw [hcount, Nat.zero_add]

theorem HoldsFrame.mqttDeserializeUnsubscribe_of_filters {topicFilters : List MQTTString}
    (hdup : dup.toNat ≤ 1) (hplain : ∀ filter ∈ topicFilters, filter.IsPlain)
    (h : HoldsFrame buf (MQTTHeader.byte ⟨MsgType.unsubscribe.code, dup.toNat, 1, 0⟩)
      (unsubscribeBody packetid topicFilters)) (maxcount : Nat) (out : UnsubscribeOut) :
    ∃ filters, mqttDeserializeUnsubscribe buf maxcount out =
        (1, ⟨dup, packetid, topicFilters.length, filters⟩) ∧
      Filled MQTTString.SameBytes out.topicFilters filters 0 topicFilters := by
  have hheader := MQTTHeader.ofByte_byte_qos1 .unsubscribe hdup
  obtain ⟨hidAt, hat⟩ := Memory.hasAt_append.mp h.hasAt_body
  rw [writeInt_length] at hat
  have hid := readInt_of_hasAt packetid.toNat_lt hidAt
  have hlength : (unsubscribeBody packetid topicFilters).length =
      2 + (topicFilters.flatMap writeMQTTString).length := by
    rw [unsubscribeBody, List.length_append, writeInt_length]
  obtain ⟨filters, hloop, hfilled⟩ := mqttDeserializeUnsubscribeLoop_of_hasAt
    (mqttPacketEncode (unsubscribeBody packetid topicFilters).length).length
    (frameLength (unsubscribeBody packetid topicFilters)) topicFilters
    (unsubscribeBody packetid topicFilters).length ⟨dup, packetid, 0, out.topicFilters⟩
    hplain hat (by rw [frameLength]; omega) (by omega)
  refine ⟨filters, ?_, hfilled⟩
  simp only [mqttDeserializeUnsubscribe, readChar, Nat.zero_add, h.readChar_header, h.decodeBuf,
    hheader]
  rw [if_neg (fun hne => hne rfl)]
  rw [bodyStart] at hid
  rw [hid, UInt8.ofNat_toNat, UInt16.ofNat_toNat]
  exact hloop.trans (by rw [Nat.zero_add])

/-- Whatever the two serializers have written for a list of filters is read back from the
front of any buffer: dup bit and identifier, the number of entries, and every entry in
its place.  No element behind them is touched. -/
theorem mqttDeserialize_filters_serialize (hdup : dup.toNat ≤ 1) :
    (∀ {buflen : Int} {requests : List (MQTTString × Int)},
      (∀ request ∈ requests, request.1.IsPlain) →
      (∀ request ∈ requests, 0 ≤ request.2 ∧ request.2 ≤ 2) →
      mqttSerializeSubscribeLength (requests.map Prod.fst) ≤ 268435455 →
      0 < (mqttSerializeSubscribe buflen dup packetid requests).rc →
      ∀ {buf : Memory}, buf.HasAt 0 (mqttSerializeSubscribe buflen dup packetid requests).written →
      ∀ (maxcount : Nat) (out : SubscribeOut),
        ∃ out', mqttDeserializeSubscribe buf maxcount out = (1, out') ∧ out'.dup = dup ∧
          out'.packetid = packetid ∧ out'.count = requests.length ∧
          (∀ i request, requests[i]? = some request →
            (out'.topicFilters i).bytes = request.1.bytes ∧ out'.requestedQoSs i = request.2) ∧
          ∀ i, requests.length ≤ i → out'.requests i = out.requests i) ∧
    (∀ {buflen : Int} {topicFilters : List MQTTString},
      (∀ filter ∈ topicFilters, filter.IsPlain) →
      mqttSerializeUnsubscribeLength topicFilters ≤ 268435455 →
      0 < (mqttSerializeUnsubscribe buflen dup packetid topicFilters).rc →
      ∀ {buf : Memory},
        buf.HasAt 0 (mqttSerializeUnsubscribe buflen dup packetid topicFilters).written →
      ∀ (maxcount : Nat) (out : UnsubscribeOut),
        ∃ out', mqttDeserializeUnsubscribe buf maxcount out = (1, out') ∧ out'.dup = dup ∧
          out'.packetid = packetid ∧ out'.count = topicFilters.length ∧
          (∀ i filter, topicFilters[i]? = some filter →
            (out'.topicFilters i).bytes = filter.bytes) ∧
          ∀ i, topicFilters.length ≤ i → out'.topicFilters i = out.topicFilters i) := by
  constructor
  · intro buflen requests hplain hqos hle hrc buf hbuf maxcount out
    rw [mqttSerializeSubscribeLength_eq packetid hplain] at hle
    rw [mqttSerializeSubscribe_eq hplain] at hrc hbuf
    have hframe := HoldsFrame.of_serialized (by omega) hrc hbuf
    obtain ⟨out', hout, hdup', hid, hcount, hfilled⟩ :=
      hframe.mqttDeserializeSubscribe_of_requests hdup hplain hqos maxcount out
    refine ⟨out', hout, hdup', hid, hcount, fun i request hget => ?_, fun i hi => ?_⟩
    · have hsame := hfilled.shown i request hget
      rwa [Nat.zero_add] at hsame
    · exact hfilled.kept i (.inr (by omega))
  · intro buflen topicFilters hplain hle hrc buf hbuf maxcount out
    rw [mqttSerializeUnsubscribeLength_eq packetid hplain] at hle
    rw [mqttSerializeUnsubscribe_eq hplain] at hrc hbuf
    have hframe := HoldsFrame.of_serialized (by omega) hrc hbuf
    obtain ⟨filters, hout, hfilled⟩ :=
      hframe.mqttDeserializeUnsubscribe_of_filters hdup hplain maxcount out
    refine ⟨_, hout, rfl, rfl, rfl, fun i filter hget => ?_, fun i hi => ?_⟩
    · have hsame := hfilled.shown i filter hget
      rwa [Nat.zero_add] at hsame
    · exact hfilled.kept i (.inr (by omega))

/-- The filters `"MQTT"` and the empty one. -/
def sampleFilters : List MQTTString := [⟨some mqttProtocolName, 0, .null⟩, .initializer]

theorem sampleFilters_isPlain : ∀ filter ∈ sampleFilters, filter.IsPlain := by
  simp only [sampleFilters, List.forall_mem_cons]
  exact ⟨⟨rfl, by decide⟩, ⟨by decide, by decide⟩, fun filter hmem => by cases hmem⟩

/-- Both packets with these filters, in buffers that were full of other bytes. -/
theorem mqttDeserialize_filters_serialize_sample :
    let requests := sampleFilters.zip [2, 0]
    let subscribe := mqttSerializeSubscribe 64 1 300 requests
    let unsubscribe := mqttSerializeUnsubscribe 64 1 300 sampleFilters
    (0 < subscribe.rc ∧
      ∃ out', mqttDeserializeSubscribe (Memory.store (fun _ => 255) 0 subscribe.written) 2
          ⟨0, 0, 0, fun _ => .initializer, fun _ => 0⟩ = (1, out') ∧ out'.count = 2) ∧
    0 < unsubscribe.rc ∧
      ∃ out', mqttDeserializeUnsubscribe (Memory.store (fun _ => 255) 0 unsubscribe.written) 2
          ⟨0, 0, 0, fun _ => .initializer⟩ = (1, out') ∧ out'.packetid = 300 := by
  intro requests subscribe unsubscribe
  have hsubscribe : 0 < subscribe.rc := by decide
  have hunsubscribe : 0 < unsubscribe.rc := by decide
  have hplain : ∀ request ∈ requests, request.1.IsPlain := fun request hmem =>
    sampleFilters_isPlain request.1 (List.of_mem_zip hmem).1
  obtain ⟨hread, hread'⟩ := @mqttDeserialize_filters_serialize 1 300 (by decide)
  obtain ⟨out', hout, _, _, hcount, _⟩ := hread hplain (by decide) (by decide) hsubscribe
    (Memory.hasAt_store (fun _ => 255) 0 subscribe.written) 2
    ⟨0, 0, 0, fun _ => .initializer, fun _ => 0⟩
  obtain ⟨out'', hout', _, hid, _⟩ := hread' sampleFilters_isPlain (by decide) hunsubscribe
    (Memory.hasAt_store (fun _ => 255) 0 unsubscribe.written) 2 ⟨0, 0, 0, fun _ => .initializer⟩
  exact ⟨⟨hsubscribe, out', hout, hcount⟩, hunsubscribe, out'', hout', hid⟩

end Packets

end MqttClient

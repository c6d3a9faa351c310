/-
# Serializers write whole packets

A serializer computes the length of its packet in one function and writes the
fields in another, and it compares with its buffer a third number, the estimate of
`MQTTPacket_len`.  The three agree as far as they must: the fields add up to the
computed length, and the estimate is never too small.  It is too large by one at
the upper end of each size of the length field, where a packet that would just fit
is refused.
-/

import MqttClient.Packet.RemainingLength
import MqttClient.Packet.Serialize

namespace MqttClient

open Semantics

/-- The call found the buffer too short and wrote nothing; or it wrote one packet of
the given type, of the length it returned, into the front of the buffer. -/
def Serialized.IsPacket (s : Serialized) (buflen : Int) (type : MsgType) : Prop :=
  s = .tooShort ∨
    0 < s.rc ∧ s.rc ≤ buflen ∧ s.rc = s.written.length ∧
      ∃ header body, s.written = header :: (mqttPacketEncode body.length ++ body) ∧
        (MQTTHeader.ofByte header).type = type.code

/-! ## The estimate of the packet's length -/

/-- A length with few enough base-128 digits has a short field. -/
theorem mqttPacketEncode_length_le_of_lt {n : Nat} (digits : Nat) (hpos : 0 < digits)
    (hle : digits ≤ 5)
    (h : n < 128 ^ digits) : (mqttPacketEncode n).length ≤ digits :=
  (mqttPacketEncodeLoop_spec digits 5 n hle hpos h).2.1

/-- A length with more base-128 digits needs a longer field. -/
theorem lt_mqttPacketEncode_length_of_le {n : Nat} (digits : Nat) (hn : n < 268435456)
    (h : 128 ^ digits ≤ n) : digits < (mqttPacketEncode n).length := by
  by_contra hshort
  have hvalue := lengthValue_lt (mqttPacketEncode n)
  have hpow : 128 ^ (mqttPacketEncode n).length ≤ 128 ^ digits :=
    Nat.pow_le_pow_right (by decide) (by omega)
  rw [lengthValue_mqttPacketEncode hn] at hvalue
  omega

/-- The size of the length field, by the range of the length. -/
theorem mqttPacketEncode_length_eq {n : Nat} (hn : n < 268435456) :
    (mqttPacketEncode n).length =
      if n < 128 then 1 else if n < 16384 then 2 else if n < 2097152 then 3 else 4 := by
  have hpos := (terminates_mqttPacketEncode hn).length_pos
  have hfour := mqttPacketEncode_length_le hn
  split_ifs with hone htwo hthree
  · have hle := mqttPacketEncode_length_le_of_lt 1 (by decide) (by decide) hone
    omega
  · have hle := mqttPacketEncode_length_le_of_lt 2 (by decide) (by decide) htwo
    have hlt := lt_mqttPacketEncode_length_of_le 1 hn (by omega)
    omega
  · have hle := mqttPacketEncode_length_le_of_lt 3 (by decide) (by decide) hthree
    have hlt := lt_mqttPacketEncode_length_of_le 2 hn (by omega)
    omega
  · have hlt := lt_mqttPacketEncode_length_of_le 3 hn (by omega)
    omega

/-- The estimate covers header, length field and body. -/
theorem packet_length_le_mqttPacketLen {n : Nat} (hn : n < 268435456) :
    ((1 + (mqttPacketEncode n).length + n : Nat) : Int) ≤ mqttPacketLen n := by
  rw [mqttPacketEncode_length_eq hn]
  unfold mqttPacketLen
  dsimp only
  split_ifs <;> omega

/-- It is exact but for the largest lengths of a field of one and of two bytes, and the
two largest of a field of three. -/
theorem mqttPacketLen_eq_iff {n : Nat} (hn : n < 268435456) :
    mqttPacketLen n = ((1 + (mqttPacketEncode n).length + n : Nat) : Int) ↔
      n ∉ [127, 16383, 2097150, 2097151] := by
  rw [mqttPacketEncode_length_eq hn]
  unfold mqttPacketLen
  simp only [List.mem_cons, List.not_mem_nil, or_false]
  split_ifs <;> omega

theorem MsgType.code_lt (type : MsgType) : type.code < 16 := by
  cases type <;> decide

/-- The common shape of a serializer: compare with an estimate that is not too small,
then write header, length and body. -/
theorem isPacket_of_estimate (buflen : Int) (type : MsgType) (header : MQTTHeader)
    (body : List UInt8) {estimate : Int} (htype : header.type = type.code)
    (hestimate : ((1 + (mqttPacketEncode body.length).length + body.length : Nat) : Int) ≤
      estimate) :
    (if buflen < estimate then .tooShort
      else .ofBytes (header.byte :: (mqttPacketEncode body.length ++ body)) : Serialized).IsPacket
        buflen type := by
  have hread : (MQTTHeader.ofByte header.byte).type = type.code := by
    rw [MQTTHeader.ofByte_byte_type (htype ▸ type.code_lt), htype]
  split
  · exact .inl rfl
  · refine .inr ⟨?_, ?_, rfl, header.byte, body, rfl, hread⟩
    · simp only [Serialized.ofBytes, List.length_cons]
      omega
    · simp only [Serialized.ofBytes, List.length_cons, List.length_append]
      omega

/-- The same with the estimate of `MQTTPacket_len` and a length computed beforehand. -/
theorem isPacket_of_length_eq (buflen : Int) (type : MsgType) (header : MQTTHeader)
    (body : List UInt8) {remLen : Int} (htype : header.type = type.code)
    (hlen : remLen = body.length) (hle : remLen ≤ 268435455) :
    (if buflen < mqttPacketLen remLen then .tooShort
      else .ofBytes (header.byte :: (mqttPacketEncode remLen ++ body)) : Serialized).IsPacket
        buflen type := by
  subst hlen
  exact isPacket_of_estimate buflen type header body htype
    (packet_length_le_mqttPacketLen (by omega))

/-! ## Strings -/

/-- The string uses only one of its two forms, and its length fits the two bytes in
front of it. -/
def MQTTString.IsPlain (s : MQTTString) : Prop :=
  match s.cstring with
  | some cstring => s.lenstring.len = 0 ∧ cstring.bytes.length ≤ 65535
  | none => 0 ≤ s.lenstring.len ∧ s.lenstring.len ≤ 65535

theorem writeInt_length (i : Int) : (writeInt i).length = 2 := rfl

/-- The number of bytes `writeMQTTString` copies behind the length. -/
def MQTTString.copied (s : MQTTString) : Nat :=
  if 0 < s.lenstring.len then s.lenstring.len.toNat
  else
    match s.cstring with
    | some cstring => toSizeT cstring.strlen
    | none => 0

theorem writeMQTTString_length_copied (s : MQTTString) :
    (writeMQTTString s).length = s.copied + 2 := by
  obtain ⟨cstring, lenstring⟩ := s
  unfold writeMQTTString MQTTString.copied
  split
  · rw [List.length_append, writeInt_length, Memory.load_length, Nat.add_comm]
  · cases cstring with
    | some cstring =>
        simp only [writeCString, List.length_append, writeInt_length, Memory.load_length]
        omega
    | none => rfl

/-- `writeMQTTString` and `MQTTstrlen` choose between the two forms by different tests.
They cannot disagree about a string without a C string, nor about one whose delimited
form is empty and whose length is an `int`; where both forms are there, the lengths
have to be the same by chance. -/
def MQTTString.FormsAgree (s : MQTTString) : Prop :=
  match s.cstring with
  | some cstring =>
      if 0 < s.lenstring.len then s.lenstring.len = cstring.strlen else 0 ≤ cstring.strlen
  | none => True

theorem MQTTString.copied_eq_iff {s : MQTTString} (hlen : 0 ≤ s.lenstring.len) :
    (s.copied : Int) = mqttStrlen s ↔ s.FormsAgree := by
  obtain ⟨cstring, lenstring⟩ := s
  simp only [copied, mqttStrlen, FormsAgree]
  simp only at hlen
  cases cstring with
  | some cstring =>
      have hrange := toInt_mem_range cstring.bytes.length
      dsimp only
      split
      · rw [Int.toNat_of_nonneg hlen]
      · exact toSizeT_eq_iff hrange.1 hrange.2
  | none =>
      dsimp only
      rw [iff_true]
      split <;> omega

/-- What is written is as long as `MQTTstrlen` says, plus two, exactly when the forms
agree. -/
theorem writeMQTTString_length_iff {s : MQTTString} (hlen : 0 ≤ s.lenstring.len) :
    ((writeMQTTString s).length : Int) = mqttStrlen s + 2 ↔ s.FormsAgree := by
  rw [writeMQTTString_length_copied, ← MQTTString.copied_eq_iff hlen]
  omega

/-- A C string `"a"` with a delimited string of three bytes beside it. -/
def bothForms : MQTTString := ⟨some ⟨[97], zero_notMem_a⟩, 3, .into (fun _ => 98) 0⟩

/-- Five bytes are written where `MQTTstrlen` plus two announces three. -/
theorem bothForms_lengths_differ :
    0 ≤ bothForms.lenstring.len ∧
      ¬ ((writeMQTTString bothForms).length : Int) = mqttStrlen bothForms + 2 := by
  decide

/-- The C string alone, and beside a delimited string of the same length. -/
theorem writeMQTTString_length_agreeing :
    ((writeMQTTString ⟨some ⟨[97], zero_notMem_a⟩, 0, .null⟩).length : Int) =
        mqttStrlen ⟨some ⟨[97], zero_notMem_a⟩, 0, .null⟩ + 2 ∧
      ((writeMQTTString ⟨some ⟨[97], zero_notMem_a⟩, 1, .into (fun _ => 98) 0⟩).length : Int) =
        mqttStrlen ⟨some ⟨[97], zero_notMem_a⟩, 1, .into (fun _ => 98) 0⟩ + 2 :=
  ⟨(writeMQTTString_length_iff (by decide)).mpr (by decide : (0 : Int) ≤ 1),
    (writeMQTTString_length_iff (by decide)).mpr rfl⟩

/-- What is written for a plain string is as long as `MQTTstrlen` says, plus two. -/
theorem writeMQTTString_length {s : MQTTString} (h : s.IsPlain) :
    ((writeMQTTString s).length : Int) = mqttStrlen s + 2 := by
  obtain ⟨cstring, lenstring⟩ := s
  have hcopied : ((⟨cstring, lenstring⟩ : MQTTString).copied : Int) =
      mqttStrlen ⟨cstring, lenstring⟩ := by
    cases cstring with
    | some cstring =>
        obtain ⟨hlen, hle⟩ : lenstring.len = 0 ∧ cstring.bytes.length ≤ 65535 := h
        refine (MQTTString.copied_eq_iff (le_of_eq hlen.symm)).mpr ?_
        show if 0 < lenstring.len then _ else _
        rw [if_neg (by rw [hlen]; decide), CString.strlen, toInt_of_lt (by omega)]
        omega
    | none => exact (MQTTString.copied_eq_iff h.1).mpr trivial
  rw [writeMQTTString_length_copied, ← hcopied]
  rfl

theorem mqttStrlen_le {s : MQTTString} (h : s.IsPlain) : mqttStrlen s ≤ 65535 := by
  obtain ⟨cstring, lenstring⟩ := s
  cases cstring with
  | some cstring =>
      obtain ⟨_, hle⟩ : lenstring.len = 0 ∧ cstring.bytes.length ≤ 65535 := h
      show cstring.strlen ≤ 65535
      rw [CString.strlen, toInt_of_lt (by omega)]
      omega
  | none =>
      obtain ⟨_, hle⟩ : 0 ≤ lenstring.len ∧ lenstring.len ≤ 65535 := h
      exact hle

/-! ## The serializers -/

variable {buflen : Int}

/-- The body of a PUBLISH: topic, identifier above QoS 0, payload. -/
def publishBody (qos : Int) (packetid : UInt16) (topicName : MQTTString) (payload : Pointer)
    (size : Nat) : List UInt8 :=
  writeMQTTString topicName ++
    ((if 0 < qos then writeInt packetid.toNat else []) ++ payload.deref.load 0 size)

theorem mqttSerializePublishLength_eq {topicName : MQTTString} (htopic : topicName.IsPlain)
    (qos : Int) (packetid : UInt16) (payload : Pointer) (size : Nat) :
    mqttSerializePublishLength qos topicName size =
      (publishBody qos packetid topicName payload size).length := by
  have hstring := writeMQTTString_length htopic
  unfold mqttSerializePublishLength
  simp only [publishBody, List.length_append, Memory.load_length]
  split
  · rw [writeInt_length]
    omega
  · rw [List.length_nil]
    omega

/-- The call in the common shape: an estimate, then header, length and body. -/
theorem mqttSerializePublish_eq {dup retained : UInt8} {qos : Int} {packetid : UInt16}
    {topicName : MQTTString} {payload : Pointer} {size : Nat} (htopic : topicName.IsPlain)
    (hle : mqttSerializePublishLength qos topicName size ≤ 268435455) :
    mqttSerializePublish buflen dup qos retained packetid topicName payload size =
      if buflen < mqttPacketLen (publishBody qos packetid topicName payload size).length then
        .tooShort
      else .ofBytes (MQTTHeader.byte
        ⟨MsgType.publish.code, dup.toNat, (qos % 4).toNat, retained.toNat⟩ ::
          (mqttPacketEncode (publishBody qos packetid topicName payload size).length ++
            publishBody qos packetid topicName payload size)) := by
  have hlength := mqttSerializePublishLength_eq htopic qos packetid payload size
  have hsize : size < 2 ^ 64 := by
    simp only [publishBody, List.length_append, Memory.load_length] at hlength
    omega
  rw [mqttSerializePublish, hlength]
  refine if_congr Iff.rfl rfl ?_
  simp only [Serialized.ofBytes, Serialized.mk.injEq, toSizeT_of_lt hsize, List.append_assoc,
    List.cons_append, List.length_cons, List.length_append, Memory.load_length, publishBody]
  exact ⟨by omega, trivial⟩

theorem mqttSerializePublish_isPacket {dup retained : UInt8} {qos payloadlen : Int}
    {packetid : UInt16} {topicName : MQTTString} {payload : Pointer} (htopic : topicName.IsPlain)
    (hpayload : 0 ≤ payloadlen)
    (hle : mqttSerializePublishLength qos topicName payloadlen ≤ 268435455) :
    (mqttSerializePublish buflen dup qos retained packetid topicName payload payloadlen).IsPacket
      buflen .publish := by
  obtain ⟨size, rfl⟩ := Int.eq_ofNat_of_zero_le hpayload
  rw [mqttSerializePublish_eq htopic hle]
  refine isPacket_of_length_eq buflen .publish _ _ rfl rfl ?_
  rwa [← mqttSerializePublishLength_eq htopic]

theorem mqttSerializeAck_isPacket (packettype : MsgType) (dup : UInt8) (packetid : UInt16) :
    (mqttSerializeAck buflen packettype dup packetid).IsPacket buflen packettype :=
  isPacket_of_estimate buflen packettype
    ⟨packettype.code, dup.toNat, if packettype = .pubrel then 1 else 0, 0⟩
    (writeInt packetid.toNat) rfl (by rw [writeInt_length]; decide)

theorem mqttSerializeZero_isPacket (packettype : MsgType) :
    (mqttSerializeZero buflen packettype).IsPacket buflen packettype :=
  isPacket_of_estimate buflen packettype ⟨packettype.code, 0, 0, 0⟩ [] rfl (le_refl 2)

/-- The loop that adds up the lengths of the filters. -/
theorem foldl_add_eq {α : Type} (f : α → Int) (write : α → List UInt8) (rest : List α)
    (h : ∀ a ∈ rest, f a = (write a).length) (len : Int) :
    rest.foldl (fun len a => len + f a) len = len + (rest.flatMap write).length := by
  induction rest generalizing len with
  | nil => simp
  | cons a rest ih =>
      have hhead := h a List.mem_cons_self
      rw [List.foldl_cons, ih (fun b hb => h b (List.mem_cons_of_mem a hb))]
      simp only [List.flatMap_cons, List.length_append]
      omega

/-- An entry of a SUBSCRIBE: the filter, and one byte for the QoS. -/
def writeRequest (request : MQTTString × Int) : List UInt8 :=
  writeMQTTString request.1 ++ [toUnsignedChar request.2]

/-- The body of a SUBSCRIBE: identifier and entries. -/
def subscribeBody (packetid : UInt16) (requests : List (MQTTString × Int)) : List UInt8 :=
  writeInt packetid.toNat ++ requests.flatMap writeRequest

theorem mqttSerializeSubscribeLength_eq (packetid : UInt16) {requests : List (MQTTString × Int)}
    (hplain : ∀ request ∈ requests, request.1.IsPlain) :
    mqttSerializeSubscribeLength (requests.map Prod.fst) =
      (subscribeBody packetid requests).length := by
  rw [mqttSerializeSubscribeLength, List.foldl_map, foldl_add_eq _ writeRequest requests ?_]
  · simp only [subscribeBody, List.length_append, writeInt_length]
    omega
  · intro request hmem
    have hstring := writeMQTTString_length (hplain request hmem)
    simp only [writeRequest, List.length_append, List.length_singleton]
    omega

/-- The call in the common shape. -/
theorem mqttSerializeSubscribe_eq {dup : UInt8} {packetid : UInt16}
    {requests : List (MQTTString × Int)} (hplain : ∀ request ∈ requests, request.1.IsPlain) :
    mqttSerializeSubscribe buflen dup packetid requests =
      if buflen < mqttPacketLen (subscribeBody packetid requests).length then .tooShort
      else .ofBytes (MQTTHeader.byte ⟨MsgType.subscribe.code, dup.toNat, 1, 0⟩ ::
        (mqttPacketEncode (subscribeBody packetid requests).length ++
          subscribeBody packetid requests)) := by
  rw [← mqttSerializeSubscribeLength_eq packetid hplain]
  simp only [mqttSerializeSubscribe, subscribeBody, List.cons_append, List.append_assoc]
  rfl

theorem mqttSerializeSubscribe_isPacket {dup : UInt8} {packetid : UInt16}
    {requests : List (MQTTString × Int)} (hplain : ∀ request ∈ requests, request.1.IsPlain)
    (hle : mqttSerializeSubscribeLength (requests.map Prod.fst) ≤ 268435455) :
    (mqttSerializeSubscribe buflen dup packetid requests).IsPacket buflen .subscribe := by
  rw [mqttSerializeSubscribe_eq hplain]
  rw [mqttSerializeSubscribeLength_eq packetid hplain] at hle
  exact isPacket_of_length_eq buflen .subscribe _ _ rfl rfl hle

/-- The body of an UNSUBSCRIBE. -/
def unsubscribeBody (packetid : UInt16) (topicFilters : List MQTTString) : List UInt8 :=
  writeInt packetid.toNat ++ topicFilters.flatMap writeMQTTString

theorem mqttSerializeUnsubscribeLength_eq (packetid : UInt16) {topicFilters : List MQTTString}
    (hplain : ∀ filter ∈ topicFilters, filter.IsPlain) :
    mqttSerializeUnsubscribeLength topicFilters =
      (unsubscribeBody packetid topicFilters).length := by
  rw [mqttSerializeUnsubscribeLength, foldl_add_eq _ writeMQTTString _ ?_]
  · simp only [unsubscribeBody, List.length_append, writeInt_length]
    omega
  · intro filter hmem
    have hstring := writeMQTTString_length (hplain filter hmem)
    omega

theorem mqttSerializeUnsubscribe_eq {dup : UInt8} {packetid : UInt16}
    {topicFilters : List MQTTString} (hplain : ∀ filter ∈ topicFilters, filter.IsPlain) :
    mqttSerializeUnsubscribe buflen dup packetid topicFilters =
      if buflen < mqttPacketLen (unsubscribeBody packetid topicFilters).length then .tooShort
      else .ofBytes (MQTTHeader.byte ⟨MsgType.unsubscribe.code, dup.toNat, 1, 0⟩ ::
        (mqttPacketEncode (unsubscribeBody packetid topicFilters).length ++
          unsubscribeBody packetid topicFilters)) := by
  rw [← mqttSerializeUnsubscribeLength_eq packetid hplain]
  simp only [mqttSerializeUnsubscribe, unsubscribeBody, List.cons_append, List.append_assoc]

theorem mqttSerializeUnsubscribe_isPacket {dup : UInt8} {packetid : UInt16}
    {topicFilters : List MQTTString} (hplain : ∀ filter ∈ topicFilters, filter.IsPlain)
    (hle : mqttSerializeUnsubscribeLength topicFilters ≤ 268435455) :
    (mqttSerializeUnsubscribe buflen dup packetid topicFilters).IsPacket buflen .unsubscribe := by
  rw [mqttSerializeUnsubscribe_eq hplain]
  rw [mqttSerializeUnsubscribeLength_eq packetid hplain] at hle
  exact isPacket_of_length_eq buflen .unsubscribe _ _ rfl rfl hle

/-- The strings among the options. -/
def MQTTPacketConnectData.strings (options : MQTTPacketConnectData) : List MQTTString :=
  [options.clientID, options.will.topicName, options.will.message, options.username,
    options.password]

/-- Name and level of the protocol. -/
def connectProtocol (options : MQTTPacketConnectData) : List UInt8 :=
  if options.mqttVersion = 4 then writeCString mqttProtocolName ++ [4]
  else writeCString mqIsdpProtocolName ++ [3]

/-- Topic and message of the will, if there is one. -/
def writeWill (options : MQTTPacketConnectData) : List UInt8 :=
  if options.willFlag ≠ 0 then
    writeMQTTString options.will.topicName ++ writeMQTTString options.will.message
  else []

/-- An optional string of a CONNECT. -/
def writeIfPresent (s : MQTTString) : List UInt8 := if s.isPresent then writeMQTTString s else []

/-- What follows the level of the protocol. -/
def connectFields (options : MQTTPacketConnectData) : List UInt8 :=
  [mqttConnectFlags options] ++ (writeInt options.keepAliveInterval.toNat ++
    (writeMQTTString options.clientID ++ (writeWill options ++
      (writeIfPresent options.username ++ writeIfPresent options.password))))

/-- The body of a CONNECT. -/
def connectBody (options : MQTTPacketConnectData) : List UInt8 :=
  connectProtocol options ++ connectFields options

/-- An optional string counts and is written under the same condition. -/
theorem writeIfPresent_length {s : MQTTString} (h : s.IsPlain) :
    ((writeIfPresent s).length : Int) = if s.isPresent then mqttStrlen s + 2 else 0 := by
  unfold writeIfPresent
  split
  · exact writeMQTTString_length h
  · rfl

section Connect

variable {options : MQTTPacketConnectData} (hplain : ∀ s ∈ options.strings, s.IsPlain)

include hplain

theorem mqttSerializeConnectLength_eq
    (hversion : options.mqttVersion = 3 ∨ options.mqttVersion = 4) :
    mqttSerializeConnectLength options = (connectBody options).length := by
  simp only [MQTTPacketConnectData.strings, List.forall_mem_cons] at hplain
  obtain ⟨hid, htopic, hmessage, huser, hpassword, _⟩ := hplain
  -- name and level, the flag byte and the interval are the 12 or 10 bytes counted first
  have hprotocol : (((connectProtocol options).length + 3 : Nat) : Int) =
      if options.mqttVersion = 3 then 12 else if options.mqttVersion = 4 then 10 else 0 := by
    rcases hversion with h | h <;> simp only [connectProtocol, h] <;> decide
  have hwill : ((writeWill options).length : Int) = if options.willFlag ≠ 0 then
      mqttStrlen options.will.topicName + 2 + mqttStrlen options.will.message + 2 else 0 := by
    have htopic := writeMQTTString_length htopic
    have hmessage := writeMQTTString_length hmessage
    unfold writeWill
    split
    · rw [List.length_append]
      omega
    · rfl
  have hclient := writeMQTTString_length hid
  have hname := writeIfPresent_length huser
  have hsecret := writeIfPresent_length hpassword
  rw [mqttSerializeConnectLength, ← hprotocol, ← hwill, ← hname, ← hsecret, ← hclient]
  simp only [connectBody, connectFields, List.length_append, List.length_singleton,
    writeInt_length]
  omega

theorem mqttSerializeConnectLength_le : mqttSerializeConnectLength options ≤ 268435455 := by
  simp only [MQTTPacketConnectData.strings, List.forall_mem_cons] at hplain
  obtain ⟨hid, htopic, hmessage, huser, hpassword, _⟩ := hplain
  have hid := mqttStrlen_le hid
  have htopic := mqttStrlen_le htopic
  have hmessage := mqttStrlen_le hmessage
  have huser := mqttStrlen_le huser
  have hpassword := mqttStrlen_le hpassword
  unfold mqttSerializeConnectLength
  split_ifs <;> omega

/-- The call in the common shape. -/
theorem mqttSerializeConnect_eq
    (hversion : options.mqttVersion = 3 ∨ options.mqttVersion = 4) :
    mqttSerializeConnect buflen options =
      if buflen < mqttPacketLen (connectBody options).length then .tooShort
      else .ofBytes (MQTTHeader.byte ⟨MsgType.connect.code, 0, 0, 0⟩ ::
        (mqttPacketEncode (connectBody options).length ++ connectBody options)) := by
  rw [mqttSerializeConnect, mqttSerializeConnectLength_eq hplain hversion]
  refine if_congr Iff.rfl rfl (congrArg Serialized.ofBytes ?_)
  simp only [connectBody, connectFields, connectProtocol, writeWill, writeIfPresent,
    List.cons_append, List.append_assoc]

theorem mqttSerializeConnect_isPacket
    (hversion : options.mqttVersion = 3 ∨ options.mqttVersion = 4) :
    (mqttSerializeConnect buflen options).IsPacket buflen .connect := by
  rw [mqttSerializeConnect_eq hplain hversion]
  refine isPacket_of_length_eq buflen .connect _ _ rfl rfl ?_
  rw [← mqttSerializeConnectLength_eq hplain hversion]
  exact mqttSerializeConnectLength_le hplain

end Connect

/-! ## All of them -/

/-- A call of one of the client's serializers, without its buffer. -/
inductive SerializerCall
  | connect (options : MQTTPacketConnectData)
  | publish (dup : UInt8) (qos : Int) (retained : UInt8) (packetid : UInt16)
      (topicName : MQTTString) (payload : Pointer) (payloadlen : Int)
  | subscribe (dup : UInt8) (packetid : UInt16) (requests : List (MQTTString × Int))
  | unsubscribe (dup : UInt8) (packetid : UInt16) (topicFilters : List MQTTString)
  | ack (packettype : MsgType) (dup : UInt8) (packetid : UInt16)
  | pingreq
  | disconnect

namespace SerializerCall

/-- Make the call with a buffer of this length. -/
def serialize (buflen : Int) : SerializerCall → Serialized
  | connect options => mqttSerializeConnect buflen options
  | publish dup qos retained packetid topicName payload payloadlen =>
      mqttSerializePublish buflen dup qos retained packetid topicName payload payloadlen
  | subscribe dup packetid requests => mqttSerializeSubscribe buflen dup packetid requests
  | unsubscribe dup packetid topicFilters =>
      mqttSerializeUnsubscribe buflen dup packetid topicFilters
  | ack packettype dup packetid => mqttSerializeAck buflen packettype dup packetid
  | pingreq => mqttSerializePingreq buflen
  | disconnect => mqttSerializeDisconnect buflen

/-- The packet type the call is for. -/
def packettype : SerializerCall → MsgType
  | connect _ => .connect
  | publish .. => .publish
  | subscribe .. => .subscribe
  | unsubscribe .. => .unsubscribe
  | ack packettype _ _ => packettype
  | pingreq => .pingreq
  | disconnect => .disconnect

/-- The remaining length the call computes. -/
def remLen : SerializerCall → Int
  | connect options => mqttSerializeConnectLength options
  | publish _ qos _ _ topicName _ payloadlen =>
      mqttSerializePublishLength qos topicName payloadlen
  | subscribe _ _ requests => mqttSerializeSubscribeLength (requests.map Prod.fst)
  | unsubscribe _ _ topicFilters => mqttSerializeUnsubscribeLength topicFilters
  | ack .. => 2
  | pingreq => 0
  | disconnect => 0

/-- The strings among the arguments. -/
def strings : SerializerCall → List MQTTString
  | connect options => options.strings
  | publish _ _ _ _ topicName _ _ => [topicName]
  | subscribe _ _ requests => requests.map Prod.fst
  | unsubscribe _ _ topicFilters => topicFilters
  | ack .. => []
  | pingreq => []
  | disconnect => []

/-- A CONNECT names one of the two versions, and a payload length is not negative. -/
def IsProper : SerializerCall → Prop
  | connect options => options.mqttVersion = 3 ∨ options.mqttVersion = 4
  | publish _ _ _ _ _ _ payloadlen => 0 ≤ payloadlen
  | _ => True

end SerializerCall

/-- Whatever the client serializes, and whatever the length of the buffer: either the
call reports that the buffer is too short and writes nothing, or it writes exactly one
packet and returns its length. -/
theorem serialize_isPacket (call : SerializerCall) (buflen : Int) (hproper : call.IsProper)
    (hplain : ∀ s ∈ call.strings, s.IsPlain) (hle : call.remLen ≤ 268435455) :
    (call.serialize buflen).IsPacket buflen call.packettype := by
  cases call with
  | connect options => exact mqttSerializeConnect_isPacket hplain hproper
  | publish dup qos retained packetid topicName payload payloadlen =>
      exact mqttSerializePublish_isPacket (hplain topicName List.mem_cons_self) hproper hle
  | subscribe dup packetid requests =>
      refine mqttSerializeSubscribe_isPacket (fun request hmem => ?_) hle
      exact hplain request.1 (List.mem_map_of_mem hmem)
  | unsubscribe dup packetid topicFilters => exact mqttSerializeUnsubscribe_isPacket hplain hle
  | ack packettype dup packetid => exact mqttSerializeAck_isPacket packettype dup packetid
  | pingreq => exact mqttSerializeZero_isPacket .pingreq
  | disconnect => exact mqttSerializeZero_isPacket .disconnect

/-- A CONNECT of version 3 with a will and a user name. -/
def willOptions : MQTTPacketConnectData :=
  { MQTTPacketConnectData.initializer with
    mqttVersion := 3, willFlag := 1, username := ⟨some mqttProtocolName, 0, .null⟩ }

/-- It takes 26 of the 64 bytes of its buffer. -/
theorem serialize_isPacket_connect :
    (SerializerCall.serialize 64 (.connect willOptions)).rc = 26 ∧
      (SerializerCall.serialize 64 (.connect willOptions)).IsPacket 64 .connect := by
  refine ⟨by decide, serialize_isPacket (.connect willOptions) 64 (.inl rfl) ?_ (by decide)⟩
  simp [SerializerCall.strings, MQTTPacketConnectData.strings, MQTTString.IsPlain, willOptions,
    MQTTPacketConnectData.initializer, MQTTString.initializer, mqttProtocolName]

/-! ## Refusing a buffer -/

/-- The size of a packet with this remaining length. -/
def packetSize (remLen : Nat) : Nat := 1 + (mqttPacketEncode remLen).length + remLen

/-- The four calls that compare their buffer with the estimate of `MQTTPacket_len`. -/
def SerializerCall.usesEstimate : SerializerCall → Bool
  | connect _ | publish .. | subscribe .. | unsubscribe .. => true
  | ack .. | pingreq | disconnect => false

theorem ite_tooShort_iff {refused : Prop} [Decidable refused] {s : Serialized}
    (h : s.written ≠ []) : (if refused then .tooShort else s) = Serialized.tooShort ↔ refused := by
  by_cases hrefused : refused
  · rw [if_pos hrefused]
    exact ⟨fun _ => hrefused, fun _ => rfl⟩
  · rw [if_neg hrefused]
    exact ⟨fun heq => absurd (congrArg Serialized.written heq) h, fun hyes => absurd hyes hrefused⟩

/-- Whatever their strings are, the four refuse by the estimate. -/
theorem serialize_eq_tooShort_iff {call : SerializerCall} (huses : call.usesEstimate = true)
    (buflen : Int) :
    call.serialize buflen = .tooShort ↔ buflen < mqttPacketLen call.remLen := by
  cases call with
  | connect options => exact ite_tooShort_iff (by simp [Serialized.ofBytes])
  | publish dup qos retained packetid topicName payload payloadlen =>
      exact ite_tooShort_iff (by simp)
  | subscribe dup packetid requests => exact ite_tooShort_iff (by simp [Serialized.ofBytes])
  | unsubscribe dup packetid topicFilters =>
      exact ite_tooShort_iff (by simp [Serialized.ofBytes])
  | ack packettype dup packetid => cases huses
  | pingreq => cases huses
  | disconnect => cases huses

/-- With plain strings they have the common shape, and the remaining length they compute
is that of the body. -/
theorem serialize_eq_ite {call : SerializerCall} (huses : call.usesEstimate = true)
    (hproper : call.IsProper) (hplain : ∀ s ∈ call.strings, s.IsPlain)
    (hle : call.remLen ≤ 268435455) :
    ∃ header body, call.remLen = (body.length : Int) ∧ ∀ buflen, call.serialize buflen =
      if buflen < mqttPacketLen body.length then .tooShort
      else .ofBytes (header :: (mqttPacketEncode body.length ++ body)) := by
  cases call with
  | connect options =>
      exact ⟨_, _, mqttSerializeConnectLength_eq hplain hproper,
        fun _ => mqttSerializeConnect_eq hplain hproper⟩
  | publish dup qos retained packetid topicName payload payloadlen =>
      obtain ⟨size, rfl⟩ := Int.eq_ofNat_of_zero_le hproper
      have htopic := hplain topicName List.mem_cons_self
      exact ⟨_, _, mqttSerializePublishLength_eq htopic qos packetid payload size,
        fun _ => mqttSerializePublish_eq htopic hle⟩
  | subscribe dup packetid requests =>
      have hfilters : ∀ request ∈ requests, request.1.IsPlain :=
        fun request hmem => hplain request.1 (List.mem_map_of_mem hmem)
      exact ⟨_, _, mqttSerializeSubscribeLength_eq packetid hfilters,
        fun _ => mqttSerializeSubscribe_eq hfilters⟩
  | unsubscribe dup packetid topicFilters =>
      exact ⟨_, _, mqttSerializeUnsubscribeLength_eq packetid hplain,
        fun _ => mqttSerializeUnsubscribe_eq hplain⟩
  | ack packettype dup packetid => cases huses
  | pingreq => cases huses
  | disconnect => cases huses

/-- Where the estimate is wrong it is too large by one. -/
theorem mqttPacketLen_of_mem {remLen : Nat} (h : remLen ∈ [127, 16383, 2097150, 2097151]) :
    mqttPacketLen remLen = packetSize remLen + 1 := by
  simp only [List.mem_cons, List.not_mem_nil, or_false] at h
  rcases h with rfl | rfl | rfl | rfl
  · decide
  · decide
  · decide
  · decide

/-- The estimate is the size of the packet, and the four calls refuse a buffer exactly
when their packet does not fit. -/
structure EstimateIsExact (remLen : Nat) : Prop where
  mqttPacketLen_eq : mqttPacketLen remLen = packetSize remLen
  tooShort_iff : ∀ (call : SerializerCall) (buflen : Int), call.usesEstimate = true →
    call.remLen = remLen → (call.serialize buflen = .tooShort ↔ buflen < packetSize remLen)

/-- The estimate is exact for all remaining lengths but four.  At one of the four a call
is wrong about one buffer, the one that its packet would fill.  The size it is about is
the number of bytes that are written, given room, if the strings are plain. -/
theorem estimateIsExact_iff (remLen : Nat) (hle : remLen ≤ 268435455) :
    (EstimateIsExact remLen ↔ remLen ∉ [127, 16383, 2097150, 2097151]) ∧
      ∀ call : SerializerCall, call.usesEstimate = true → call.remLen = remLen →
        ∀ buflen : Int,
          ((call.serialize buflen = .tooShort ↔ buflen < packetSize remLen) ↔
            (remLen ∈ [127, 16383, 2097150, 2097151] → buflen ≠ packetSize remLen)) ∧
          (call.IsProper → (∀ s ∈ call.strings, s.IsPlain) → call.serialize buflen ≠ .tooShort →
            (call.serialize buflen).written.length = packetSize remLen) := by
  have hlen := mqttPacketLen_eq_iff (n := remLen) (by omega)
  refine ⟨⟨fun h => hlen.mp h.mqttPacketLen_eq, fun hnot => ⟨hlen.mpr hnot, ?_⟩⟩, ?_⟩
  · intro call buflen huses hremLen
    rw [serialize_eq_tooShort_iff huses, hremLen, hlen.mpr hnot, packetSize]
  · intro call huses hremLen buflen
    constructor
    · rw [serialize_eq_tooShort_iff huses, hremLen]
      by_cases hmem : remLen ∈ [127, 16383, 2097150, 2097151]
      · rw [mqttPacketLen_of_mem hmem]
        have hone : (buflen < (packetSize remLen : Int) + 1 ↔ buflen < packetSize remLen) ↔
            buflen ≠ packetSize remLen := by omega
        exact hone.trans ⟨fun hne _ => hne, fun hne => hne hmem⟩
      · rw [hlen.mpr hmem, packetSize]
        exact ⟨fun _ hyes => absurd hyes hmem, fun _ => Iff.rfl⟩
    · intro hproper hplain hroom
      obtain ⟨header, body, hbody, hserialize⟩ :=
        serialize_eq_ite huses hproper hplain (by omega)
      obtain rfl : remLen = body.length := by omega
      rw [hserialize] at hroom ⊢
      rw [Ne, ite_tooShort_iff (by simp [Serialized.ofBytes])] at hroom
      rw [if_neg hroom]
      simp only [Serialized.ofBytes, List.length_cons, List.length_append, packetSize]
      omega

/-- A QoS 0 message of 124 bytes under the topic `"a"`: its packet takes 129 bytes. -/
def fullPublish : SerializerCall :=
  .publish 0 0 0 0 ⟨some ⟨[97], zero_notMem_a⟩, 0, .null⟩ (.into (fun _ => 98) 0) 124

/-- It is refused by a buffer of 129 bytes, because `MQTTPacket_len` says 130. -/
theorem not_estimateIsExact_127 :
    fullPublish.remLen = 127 ∧ packetSize 127 = 129 ∧ mqttPacketLen 127 = 130 ∧
      fullPublish.serialize 129 = .tooShort ∧ ¬ EstimateIsExact 127 := by
  refine ⟨by decide, by decide, by decide, by decide, fun h => ?_⟩
  exact absurd h.mqttPacketLen_eq (by decide)

/-- One byte less and the estimate is exact. -/
theorem estimateIsExact_126 : EstimateIsExact 126 :=
  (estimateIsExact_iff 126 (by decide)).1.mpr (by decide)

end MqttClient

/-
# What is written is read back

A packet that a serializer has written into the front of a buffer is handed to the
deserializer of the same type, with anything behind it.  For a PUBLISH every field
comes back.  The same lemmas about its deserializer say which frames it accepts at
all: it takes a frame that ends within the packet identifier, and it takes every frame
whose topic does not fit as long as the length field is a single byte.

The CONNECT is written by the client and read by the server-side code.  Its flag byte
is derived from pointers on one side and decides which strings are expected on the
other.
-/

import MqttClient.Packet.Server
import MqttClient.Packet.WholePackets

namespace MqttClient

open Semantics

/-! ## Strings -/

/-- The bytes a string stands for. -/
def MQTTString.bytes (s : MQTTString) : List UInt8 :=
  match s.cstring with
  | some cstring => cstring.bytes
  | none => s.lenstring.data.deref.load 0 s.lenstring.len.toNat

namespace MQTTString.IsPlain

variable {s : MQTTString}

theorem length_bytes_le (h : s.IsPlain) : s.bytes.length ≤ 65535 := by
  obtain ⟨cstring, lenstring⟩ := s
  cases cstring with
  | some cstring =>
      obtain ⟨_, hle⟩ : lenstring.len = 0 ∧ cstring.bytes.length ≤ 65535 := h
      exact hle
  | none =>
      obtain ⟨hnonneg, hle⟩ : 0 ≤ lenstring.len ∧ lenstring.len ≤ 65535 := h
      simp only [bytes, Memory.load_length]
      omega

/-- Either form is written as its length and its bytes. -/
theorem writeMQTTString_eq (h : s.IsPlain) :
    writeMQTTString s = writeInt s.bytes.length ++ s.bytes := by
  obtain ⟨cstring, lenstring⟩ := s
  cases cstring with
  | some cstring =>
      obtain ⟨hlen, hle⟩ : lenstring.len = 0 ∧ cstring.bytes.length ≤ 65535 := h
      have hwrite : writeMQTTString ⟨some cstring, lenstring⟩ = writeCString cstring :=
        if_neg (by rw [hlen]; decide)
      rw [hwrite, writeCString_of_lt (by omega)]
      rfl
  | none =>
      obtain ⟨hnonneg, _⟩ : 0 ≤ lenstring.len ∧ lenstring.len ≤ 65535 := h
      obtain ⟨n, hn⟩ := Int.eq_ofNat_of_zero_le hnonneg
      simp only [writeMQTTString, bytes, hn, Memory.load_length, Int.toNat_natCast]
      split
      · rfl
      · obtain rfl : n = 0 := by omega
        rfl

end MQTTString.IsPlain

theorem leadingInt?_writeInt {n : Nat} (h : n < 65536) (rest : List UInt8) :
    leadingInt? (writeInt n ++ rest) = some n := by
  rw [writeInt_natCast h]
  simp only [List.cons_append, leadingInt?, UInt8.toNat_ofNat', Option.some.injEq]
  omega

section Reading

variable {buf : Memory} {ptr : Nat}

theorem readInt_of_hasAt {n : Nat} (hn : n < 65536) (h : buf.HasAt ptr (writeInt n)) :
    readInt buf ptr = (n, ptr + 2) := by
  rw [writeInt_natCast hn, Memory.hasAt_cons, Memory.hasAt_cons] at h
  obtain ⟨hhi, hlo, _⟩ := h
  rw [readInt, hhi, hlo]
  simp only [UInt8.toNat_ofNat', Prod.mk.injEq, and_true]
  omega

/-- A string that stands before `enddata` is read with its bytes. -/
theorem readMQTTLenString_of_hasAt {s : MQTTString} (hplain : s.IsPlain)
    (h : buf.HasAt ptr (writeMQTTString s)) (old : MQTTString) {enddata : Nat}
    (hend : ptr + (writeMQTTString s).length ≤ enddata) :
    ∃ s', readMQTTLenString old buf ptr enddata =
        (1, s', ptr + (writeMQTTString s).length) ∧ s'.bytes = s.bytes := by
  have hle := hplain.length_bytes_le
  rw [hplain.writeMQTTString_eq] at h hend ⊢
  rw [List.length_append, writeInt_length] at hend
  obtain ⟨hlen, hbytes⟩ := Memory.hasAt_append.mp h
  have hread := readInt_of_hasAt (by omega) hlen
  refine ⟨⟨none, s.bytes.length, .into buf (ptr + 2)⟩, ?_, ?_⟩
  · rw [readMQTTLenString, if_pos (by omega), hread]
    dsimp only
    rw [if_pos (by omega), List.length_append, writeInt_length, Nat.add_assoc]
  · have hload : buf.load (ptr + 2) s.bytes.length = s.bytes := hbytes
    simpa [MQTTString.bytes, Memory.load_shift] using hload

/-- What a serializer of the common shape has written is a frame. -/
theorem HoldsFrame.of_serialized {buflen estimate : Int} {header : UInt8} {body : List UInt8}
    (hlt : body.length < 268435456)
    (hrc : 0 < (if buflen < estimate then .tooShort
      else .ofBytes (header :: (mqttPacketEncode body.length ++ body)) : Serialized).rc)
    (hbuf : buf.HasAt 0 (if buflen < estimate then .tooShort
      else .ofBytes (header :: (mqttPacketEncode body.length ++ body)) : Serialized).written) :
    HoldsFrame buf header body := by
  by_cases hroom : buflen < estimate
  · rw [if_pos hroom] at hrc
    exact absurd hrc (by decide)
  · rw [if_neg hroom] at hbuf
    exact HoldsFrame.of_hasAt hlt hbuf

/-- And it returns the size of the frame. -/
theorem frameLength_of_serialized {buflen estimate : Int} {header : UInt8} {body : List UInt8}
    (hrc : 0 < (if buflen < estimate then .tooShort
      else .ofBytes (header :: (mqttPacketEncode body.length ++ body)) : Serialized).rc) :
    (if buflen < estimate then .tooShort
      else .ofBytes (header :: (mqttPacketEncode body.length ++ body)) : Serialized).rc.toNat =
        HoldsFrame.frameLength body := by
  by_cases hroom : buflen < estimate
  · rw [if_pos hroom] at hrc
    exact absurd hrc (by decide)
  · rw [if_neg hroom]
    simp only [Serialized.ofBytes, List.length_cons, List.length_append, HoldsFrame.frameLength,
      HoldsFrame.bodyStart, Int.toNat_natCast]
    omega

end Reading

/-! ## PUBLISH -/

/-- The fields of a PUBLISH are the parts of its body. -/
theorem HoldsFrame.mqttDeserializePublish_of_parts {buf : Memory} {header : UInt8}
    {topic id payload : List UInt8}
    (h : HoldsFrame buf header (writeInt topic.length ++ topic ++ id ++ payload))
    (htype : (MQTTHeader.ofByte header).type = MsgType.publish.code) (htopic : topic.length ≤ 65535)
    (hid : id.length = if 0 < (MQTTHeader.ofByte header).qos then 2 else 0) (out : PublishOut) :
    ∃ out', mqttDeserializePublish buf out = (1, out') ∧
      out'.dup = UInt8.ofNat (MQTTHeader.ofByte header).dup ∧
      out'.qos = (MQTTHeader.ofByte header).qos ∧
      out'.retained = UInt8.ofNat (MQTTHeader.ofByte header).retain ∧
      out'.topicName.bytes = topic ∧ out'.payloadlen = payload.length ∧
      out'.payload.deref.load 0 payload.length = payload ∧
      (0 < (MQTTHeader.ofByte header).qos → ∀ n : Nat, n < 65536 → id = writeInt n →
        out'.packetid = UInt16.ofNat n) := by
  obtain ⟨body, hbody⟩ : ∃ body, body = writeInt topic.length ++ topic ++ id ++ payload := ⟨_, rfl⟩
  rw [← hbody] at h
  have hlead : leadingInt? body = some topic.length := by
    rw [hbody, List.append_assoc, List.append_assoc, leadingInt?_writeInt (by omega)]
  have hlength : body.length = 2 + topic.length + id.length + payload.length := by
    simp only [hbody, List.length_append, writeInt_length]
  -- where each part stands in the buffer
  have hat := h.hasAt_body
  nth_rewrite 2 [hbody] at hat
  rw [Memory.hasAt_append, Memory.hasAt_append, Memory.hasAt_append] at hat
  simp only [List.length_append, writeInt_length, ← Nat.add_assoc] at hat
  obtain ⟨⟨⟨_, htopicAt⟩, hidAt⟩, hpayloadAt⟩ := hat
  have hstart : payloadStart header body topic.length =
      bodyStart body + 2 + topic.length + id.length := by
    rw [payloadStart, hid]
  refine ⟨_, h.mqttDeserializePublish_of_fits htype hlead (by omega) out, rfl, rfl, rfl, ?_, ?_, ?_,
    ?_⟩
  · have hload : buf.load (bodyStart body + 2) topic.length = topic := htopicAt
    simpa [MQTTString.bytes, Memory.load_shift] using hload
  · simp only [hstart, frameLength, hlength]
    omega
  · have hload : buf.load (bodyStart body + 2 + topic.length + id.length) payload.length =
        payload := hpayloadAt
    rw [hstart, Pointer.deref_into, Memory.load_shift]
    exact hload
  · rintro hqos n hn rfl
    rw [if_pos hqos, readInt_of_hasAt hn hidAt]

/-- Whatever `MQTTSerialize_publish` has written is read back from the front of any
buffer, with every field as it was. -/
theorem mqttDeserializePublish_serialize {buflen : Int} {dup retained : UInt8} {qos : Int}
    {packetid : UInt16} {topicName : MQTTString} {payload : Pointer} {payloadlen : Int}
    (hdup : dup.toNat ≤ 1) (hretained : retained.toNat ≤ 1) (hqos : 0 ≤ qos ∧ qos ≤ 2)
    (htopic : topicName.IsPlain) (hpayload : 0 ≤ payloadlen)
    (hle : mqttSerializePublishLength qos topicName payloadlen ≤ 268435455)
    (hrc : 0 < (mqttSerializePublish buflen dup qos retained packetid topicName payload
      payloadlen).rc) {buf : Memory}
    (hbuf : buf.HasAt 0 (mqttSerializePublish buflen dup qos retained packetid topicName payload
      payloadlen).written) (out : PublishOut) :
    ∃ out', mqttDeserializePublish buf out = (1, out') ∧
      out'.dup = dup ∧ out'.qos = qos ∧ out'.retained = retained ∧
      out'.topicName.bytes = topicName.bytes ∧ out'.payloadlen = payloadlen ∧
      out'.payload.deref.load 0 payloadlen.toNat = payload.deref.load 0 payloadlen.toNat ∧
      (0 < qos → out'.packetid = packetid) := by
  obtain ⟨size, rfl⟩ := Int.eq_ofNat_of_zero_le hpayload
  obtain ⟨q, rfl⟩ := Int.eq_ofNat_of_zero_le hqos.1
  have hlt : (publishBody q packetid topicName payload size).length < 268435456 := by
    rw [mqttSerializePublishLength_eq htopic q packetid payload] at hle
    omega
  rw [mqttSerializePublish_eq htopic hle] at hrc hbuf
  have hframe := HoldsFrame.of_serialized hlt hrc hbuf
  -- the bit fields hold what was assigned to them
  have hq : ((q : Int) % 4).toNat = q := by omega
  rw [hq] at hframe
  have hfields : MQTTHeader.ofByte
      (MQTTHeader.byte ⟨MsgType.publish.code, dup.toNat, q, retained.toNat⟩) =
        ⟨MsgType.publish.code, dup.toNat, q, retained.toNat⟩ :=
    MQTTHeader.ofByte_byte MsgType.publish.code_lt (Nat.lt_succ_of_le hdup) (by simp only; omega)
      (Nat.lt_succ_of_le hretained)
  have hbody : publishBody q packetid topicName payload size =
      writeInt topicName.bytes.length ++ topicName.bytes ++
        (if 0 < q then writeInt packetid.toNat else []) ++ payload.deref.load 0 size := by
    rw [publishBody, htopic.writeMQTTString_eq, if_congr Int.natCast_pos rfl rfl]
    simp only [List.append_assoc]
  rw [hbody] at hframe
  have hid : (if 0 < q then writeInt packetid.toNat else []).length = if 0 < q then 2 else 0 := by
    split <;> rfl
  obtain ⟨out', hout, hdup', hqos', hretained', htopic', hlen, hload, hpacketid⟩ :=
    hframe.mqttDeserializePublish_of_parts (by rw [hfields]) htopic.length_bytes_le
      (by rw [hfields]; exact hid) out
  rw [hfields] at hdup' hqos' hretained' hpacketid
  rw [Memory.load_length] at hlen hload
  refine ⟨out', hout, ?_, hqos', ?_, htopic', hlen, hload, fun hpos => ?_⟩
  · rw [hdup', UInt8.ofNat_toNat]
  · rw [hretained', UInt8.ofNat_toNat]
  · have hpos : 0 < q := by omega
    rw [hpacketid hpos packetid.toNat packetid.toNat_lt (by rw [if_pos hpos]), UInt16.ofNat_toNat]

/-- A retained duplicate at QoS 2, under the topic `"MQTT"` with a payload of three bytes. -/
def samplePublish : Serialized :=
  mqttSerializePublish 64 1 2 1 300 ⟨some mqttProtocolName, 0, .null⟩ (.into (fun _ => 7) 0) 3

/-- It comes back from a buffer that was full of other bytes. -/
theorem mqttDeserializePublish_serialize_sample :
    0 < samplePublish.rc ∧
      ∃ out', mqttDeserializePublish (Memory.store (fun _ => 255) 0 samplePublish.written)
          ⟨0, 0, 0, 0, .initializer, .null, 0⟩ = (1, out') ∧
        out'.qos = 2 ∧ out'.topicName.bytes = mqttProtocolName.bytes ∧ out'.packetid = 300 := by
  have hrc : 0 < samplePublish.rc := by decide
  have hplain : MQTTString.IsPlain ⟨some mqttProtocolName, 0, .null⟩ := ⟨rfl, by decide⟩
  obtain ⟨out', hout, _, hqos, _, htopic, _, _, hid⟩ :=
    mqttDeserializePublish_serialize (by decide) (by decide) (by decide) hplain
      (by decide) (by decide) hrc (Memory.hasAt_store (fun _ => 255) 0 samplePublish.written)
      ⟨0, 0, 0, 0, .initializer, .null, 0⟩
  exact ⟨hrc, out', hout, hqos, htopic, hid (by decide)⟩

/-! ## Which frames are taken for a PUBLISH -/

/-- Topic and, above QoS 0, packet identifier lie within the body. -/
def PublishFits (header : UInt8) (body : List UInt8) : Prop :=
  ∃ n, leadingInt? body = some n ∧
    2 + n + (if 0 < (MQTTHeader.ofByte header).qos then 2 else 0) ≤ body.length

theorem PublishFits.topicFits {header : UInt8} {body : List UInt8} (h : PublishFits header body) :
    TopicFits body := by
  obtain ⟨n, hlead, hle⟩ := h
  exact ⟨n, hlead, by omega⟩

/-- Every frame with a topic that fits is accepted, whether or not it goes on. -/
theorem HoldsFrame.mqttDeserializePublish_rc {buf : Memory} {header : UInt8} {body : List UInt8}
    (h : HoldsFrame buf header body) (out : PublishOut) :
    (mqttDeserializePublish buf out).1 = 1 ↔
      (MQTTHeader.ofByte header).type = MsgType.publish.code ∧
        (TopicFits body ∨ body.length < 128) := by
  by_cases htype : (MQTTHeader.ofByte header).type = MsgType.publish.code
  · by_cases hfits : TopicFits body
    · obtain ⟨n, hlead, hle⟩ := hfits
      rw [h.mqttDeserializePublish_of_fits htype hlead hle]
      exact iff_of_true rfl ⟨htype, .inl ⟨n, hlead, hle⟩⟩
    · rw [h.mqttDeserializePublish_of_not_fits htype hfits]
      by_cases hshort : body.length < 128
      · rw [mqttPacketEncode_of_lt hshort]
        exact iff_of_true rfl ⟨htype, .inr hshort⟩
      · have hlong := mqttPacketEncode_length_of_ge (by omega) h.length_lt
        exact iff_of_false (by omega) fun hacc => hacc.2.elim hfits hshort
  · have hrefused : mqttDeserializePublish buf out = (0, out) := by
      simp only [mqttDeserializePublish, readChar, h.readChar_header]
      rw [if_pos htype]
    rw [hrefused]
    exact iff_of_false (fun hone : (0 : Int) = 1 => absurd hone (by decide))
      fun hacc => htype hacc.1

/-- The decoder accepts exactly the frames it should if the frame is of another type, is
well formed, or has a topic that does not fit and a length field of two bytes or more. -/
theorem mqttDeserializePublish_accepts_iff {buf : Memory} {header : UInt8} {body : List UInt8}
    (h : HoldsFrame buf header body) (out : PublishOut) :
    ((mqttDeserializePublish buf out).1 = 1 ↔
        (MQTTHeader.ofByte header).type = MsgType.publish.code ∧ PublishFits header body) ↔
      (MQTTHeader.ofByte header).type ≠ MsgType.publish.code ∨ PublishFits header body ∨
        ¬ TopicFits body ∧ 128 ≤ body.length := by
  rw [h.mqttDeserializePublish_rc out]
  have htopic : PublishFits header body → TopicFits body := PublishFits.topicFits
  constructor
  · intro hiff
    by_contra hnot
    obtain ⟨htype, hfits, hrest⟩ := not_or.mp hnot |>.imp not_not.mp not_or.mp
    refine hfits (hiff.mp ⟨htype, ?_⟩).2
    by_contra htaken
    obtain ⟨hno, hlong⟩ := not_or.mp htaken
    exact hrest ⟨hno, Nat.not_lt.mp hlong⟩
  · rintro (htype | hfits | ⟨hno, hlong⟩)
    · exact iff_of_false (fun hacc => htype hacc.1) fun hacc => htype hacc.1
    · exact ⟨fun hacc => ⟨hacc.1, hfits⟩, fun hacc => ⟨hacc.1, .inl (htopic hfits)⟩⟩
    · refine iff_of_false (fun hacc => ?_) fun hacc => hno (htopic hacc.2)
      exact hacc.2.elim hno (Nat.not_lt.mpr hlong)

/-- A PUBLISH that ends within its packet identifier is accepted, and so is one that has
no room for the length of its topic. -/
theorem mqttDeserializePublish_accepts_truncated :
    let noIdentifier : Memory := Memory.store (fun _ => 0) 0 [0x32, 3, 0, 1, 97]
    let noTopic : Memory := Memory.store (fun _ => 0) 0 [0x30, 1, 0]
    let out : PublishOut := ⟨0, 0, 0, 0, .initializer, .null, 0⟩
    HoldsFrame noIdentifier 0x32 [0, 1, 97] ∧ (mqttDeserializePublish noIdentifier out).1 = 1 ∧
      ¬ PublishFits 0x32 [0, 1, 97] ∧
      HoldsFrame noTopic 0x30 [0] ∧ (mqttDeserializePublish noTopic out).1 = 1 ∧
      ¬ PublishFits 0x30 [0] := by
  refine ⟨⟨by decide, rfl, by decide, by decide⟩, by decide, ?_,
    ⟨by decide, rfl, by decide, by decide⟩, by decide, ?_⟩
  · rintro ⟨n, hlead, hle⟩
    cases hlead
    exact absurd hle (by decide)
  · rintro ⟨n, hlead, _⟩
    cases hlead

/-- A well-formed frame: QoS 1, topic `"a"`, identifier 7, no payload. -/
theorem mqttDeserializePublish_accepts_iff_wellFormed :
    let buf : Memory := Memory.store (fun _ => 0) 0 [0x32, 5, 0, 1, 97, 0, 7]
    let out : PublishOut := ⟨0, 0, 0, 0, .initializer, .null, 0⟩
    HoldsFrame buf 0x32 [0, 1, 97, 0, 7] ∧
      ((mqttDeserializePublish buf out).1 = 1 ↔
        (MQTTHeader.ofByte 0x32).type = MsgType.publish.code ∧
          PublishFits 0x32 [0, 1, 97, 0, 7]) := by
  intro buf out
  have hframe : HoldsFrame buf 0x32 [0, 1, 97, 0, 7] := ⟨by decide, rfl, by decide, by decide⟩
  exact ⟨hframe, (mqttDeserializePublish_accepts_iff hframe out).mpr
    (.inr (.inl ⟨1, rfl, by decide⟩))⟩

/-! ## CONNECT -/

/-- Bit fields in range are read back. -/
theorem MQTTConnectFlags.ofByte_ofNat {flags : MQTTConnectFlags} (hsession : flags.cleansession < 2)
    (hwill : flags.will < 2) (hqos : flags.willQoS < 4) (hretain : flags.willRetain < 2)
    (hpassword : flags.password < 2) (huser : flags.username < 2) :
    ofByte (UInt8.ofNat (flags.cleansession * 2 + flags.will * 4 + flags.willQoS * 8 +
      flags.willRetain * 32 + flags.password * 64 + flags.username * 128)) = flags := by
  obtain ⟨cleansession, will, willQoS, willRetain, password, username⟩ := flags
  dsimp only at hsession hwill hqos hretain hpassword huser ⊢
  have hsum : cleansession * 2 + will * 4 + willQoS * 8 + willRetain * 32 + password * 64 +
      username * 128 < 2 ^ 8 := by omega
  simp only [ofByte, UInt8.toNat_ofNat', Nat.mod_eq_of_lt hsum, MQTTConnectFlags.mk.injEq]
  refine ⟨?_, ?_, ?_, ?_, ?_, ?_⟩ <;> omega

theorem ite_one_zero_lt (p : Prop) [Decidable p] : (if p then 1 else 0) < 2 := by
  split <;> decide

/-- The flag byte, read through its bit fields. -/
theorem MQTTConnectFlags.ofByte_mqttConnectFlags (options : MQTTPacketConnectData) :
    ofByte (mqttConnectFlags options) =
      { cleansession := options.cleansession.toNat % 2
        will := if options.willFlag ≠ 0 then 1 else 0
        willQoS := if options.willFlag ≠ 0 then (options.will.qos % 4).toNat else 0
        willRetain := if options.willFlag ≠ 0 then options.will.retained.toNat % 2 else 0
        password := if options.password.isPresent then 1 else 0
        username := if options.username.isPresent then 1 else 0 } := by
  have hqos : (if options.willFlag ≠ 0 then (options.will.qos % 4).toNat else 0) < 4 := by
    split <;> omega
  have hretain : (if options.willFlag ≠ 0 then options.will.retained.toNat % 2 else 0) < 2 := by
    split <;> omega
  refine Eq.trans (congrArg (fun n => ofByte (UInt8.ofNat n)) ?_)
    (ofByte_ofNat (Nat.mod_lt _ (by decide)) (ite_one_zero_lt _) hqos hretain (ite_one_zero_lt _)
      (ite_one_zero_lt _))
  simp only [ite_mul, Nat.zero_mul, Nat.one_mul]
  by_cases hwill : options.willFlag ≠ 0
  · simp only [if_pos hwill]
    omega
  · simp only [if_neg hwill]

/-- The user name and the password that the server-side code accepts. -/
def CredentialsReadable (username password : MQTTString) : Prop :=
  (password.isPresent → username.isPresent ∧ password.bytes ≠ []) ∧
    (username.isPresent → ¬ password.isPresent → username.bytes ≠ [])

theorem writeIfPresent_of_present {s : MQTTString} (h : s.isPresent = true) :
    writeIfPresent s = writeMQTTString s :=
  if_pos h

theorem writeIfPresent_of_absent {s : MQTTString} (h : s.isPresent = false) :
    writeIfPresent s = [] :=
  if_neg (by rw [h]; decide)

theorem MQTTString.IsPlain.length_written {s : MQTTString} (h : s.IsPlain) :
    (writeMQTTString s).length = 2 + s.bytes.length := by
  rw [h.writeMQTTString_eq, List.length_append, writeInt_length]

section Connect

variable {flags : MQTTConnectFlags} {d : MQTTPacketConnectData} {buf : Memory}
  {curdata enddata : Nat}

/-- What the end of `MQTTDeserialize_connect` makes of the strings written there. -/
theorem mqttDeserializeConnectCredentials_spec {username password : MQTTString}
    (huser : username.IsPlain) (hpassword : password.IsPlain)
    (hflag : flags.username = if username.isPresent then 1 else 0)
    (hflag' : flags.password = if password.isPresent then 1 else 0)
    (hat : buf.HasAt curdata (writeIfPresent username ++ writeIfPresent password))
    (hend : enddata = curdata + (writeIfPresent username ++ writeIfPresent password).length) :
    ∃ rc username' password',
      mqttDeserializeConnectCredentials flags d buf curdata enddata =
          (rc, { d with username := username', password := password' }) ∧
        (rc = 1 ↔ CredentialsReadable username password) ∧
        (rc = 1 → (username.isPresent → username'.bytes = username.bytes) ∧
          (password.isPresent → password'.bytes = password.bytes)) := by
  rw [Memory.hasAt_append] at hat
  rw [List.length_append] at hend
  unfold mqttDeserializeConnectCredentials CredentialsReadable
  cases hu : username.isPresent with
  | false =>
      rw [hflag, hu, if_neg (by decide)]
      cases hp : password.isPresent with
      | false =>
          rw [hflag', hp, if_neg (by decide)]
          exact ⟨1, d.username, d.password, rfl, by simp, by simp⟩
      | true =>
          rw [hflag', hp, if_pos (by decide)]
          exact ⟨0, d.username, d.password, rfl, by simp, by simp⟩
  | true =>
      rw [writeIfPresent_of_present hu, huser.length_written] at hend
      rw [writeIfPresent_of_present hu] at hat
      have hfirst : curdata + (writeMQTTString username).length ≤ enddata := by
        rw [huser.length_written]
        omega
      obtain ⟨username', hread, hbytes⟩ :=
        readMQTTLenString_of_hasAt huser hat.1 d.username hfirst
      rw [hflag, hu, if_pos (by decide)]
      cases hp : password.isPresent with
      | false =>
          rw [writeIfPresent_of_absent hp, List.length_nil] at hend
          by_cases hempty : username.bytes = []
          · rw [hempty, List.length_nil] at hend
            rw [if_pos (by omega)]
            exact ⟨0, d.username, d.password, rfl, by simp [hempty], by simp⟩
          · have hpos := List.length_pos_iff.mpr hempty
            rw [if_neg (by omega), hread, hflag', hp]
            exact ⟨1, username', d.password, rfl, by simp [hempty], by simp [hbytes]⟩
      | true =>
          rw [writeIfPresent_of_present hp, hpassword.length_written] at hend
          rw [writeIfPresent_of_present hp] at hat
          rw [if_neg (by omega), hread, hflag', hp]
          dsimp only
          rw [if_neg (by decide), if_pos (by decide), huser.length_written]
          by_cases hempty : password.bytes = []
          · rw [hempty, List.length_nil] at hend
            rw [if_pos (by omega)]
            exact ⟨0, username', d.password, rfl, by simp [hempty], by simp⟩
          · have hpos := List.length_pos_iff.mpr hempty
            rw [huser.length_written] at hat
            have hsecond : curdata + (2 + username.bytes.length) +
                (writeMQTTString password).length ≤ enddata := by
              rw [hpassword.length_written]
              omega
            obtain ⟨password', hread', hbytes'⟩ :=
              readMQTTLenString_of_hasAt hpassword hat.2 d.password hsecond
            rw [if_neg (by omega), hread']
            exact ⟨1, username', password', rfl, by simp [hempty], by simp [hbytes, hbytes']⟩

/-- The will is there if and only if its flag is. -/
theorem mqttDeserializeConnectWill_spec {options : MQTTPacketConnectData}
    (htopic : options.will.topicName.IsPlain) (hmessage : options.will.message.IsPlain)
    (hflag : flags.will = if options.willFlag ≠ 0 then 1 else 0)
    (hat : buf.HasAt curdata (writeWill options))
    (hend : curdata + (writeWill options).length ≤ enddata) :
    ∃ will', mqttDeserializeConnectWill flags d buf curdata enddata =
        (1, { d with will := will' }, curdata + (writeWill options).length) ∧
      (options.willFlag ≠ 0 →
        will'.qos = flags.willQoS ∧ will'.retained = UInt8.ofNat flags.willRetain ∧
        will'.topicName.bytes = options.will.topicName.bytes ∧
        will'.message.bytes = options.will.message.bytes) := by
  unfold writeWill at hat hend ⊢
  by_cases hwill : options.willFlag ≠ 0
  · rw [if_pos hwill] at hflag hat hend
    rw [if_pos hwill]
    rw [Memory.hasAt_append] at hat
    rw [List.length_append] at hend ⊢
    have hsecond : curdata + (writeMQTTString options.will.topicName).length +
        (writeMQTTString options.will.message).length ≤ enddata := by omega
    have hfirst := Nat.le_of_add_right_le hsecond
    obtain ⟨topicName', hread, hbytes⟩ :=
      readMQTTLenString_of_hasAt htopic hat.1 d.will.topicName hfirst
    obtain ⟨message', hread', hbytes'⟩ :=
      readMQTTLenString_of_hasAt hmessage hat.2 d.will.message hsecond
    rw [mqttDeserializeConnectWill, if_neg (by omega), hread]
    dsimp only
    rw [if_neg (by decide), hread', Nat.add_assoc]
    exact ⟨_, rfl, fun _ => ⟨rfl, rfl, hbytes, hbytes'⟩⟩
  · rw [if_neg hwill] at hflag
    rw [if_neg hwill, mqttDeserializeConnectWill, if_pos hflag]
    exact ⟨d.will, rfl, fun h => absurd h hwill⟩

end Connect

/-- The fields of a CONNECT that the deserializer has to give back. -/
structure SameConnect (options data : MQTTPacketConnectData) : Prop where
  cleansession_eq : data.cleansession = options.cleansession
  keepAliveInterval_eq : data.keepAliveInterval = options.keepAliveInterval
  clientID_eq : data.clientID.bytes = options.clientID.bytes
  willFlag_eq : data.willFlag = options.willFlag
  will_eq : options.willFlag ≠ 0 →
    data.will.qos = options.will.qos ∧ data.will.retained = options.will.retained ∧
      data.will.topicName.bytes = options.will.topicName.bytes ∧
      data.will.message.bytes = options.will.message.bytes
  username_eq : options.username.isPresent → data.username.bytes = options.username.bytes
  password_eq : options.password.isPresent → data.password.bytes = options.password.bytes

/-- The values of the options that the flag byte can carry. -/
structure MQTTPacketConnectData.InRange (options : MQTTPacketConnectData) : Prop where
  cleansession_le : options.cleansession.toNat ≤ 1
  willFlag_le : options.willFlag.toNat ≤ 1
  retained_le : options.will.retained.toNat ≤ 1
  qos_range : 0 ≤ options.will.qos ∧ options.will.qos ≤ 3

theorem MQTTString.startsLike_of_bytes {protocol : MQTTString} {name : CString}
    (hform : protocol.cstring = none) (hbytes : protocol.bytes = name.bytes)
    (hname : name.bytes ≠ []) : protocol.startsLike name = true := by
  have hload : protocol.lenstring.data.deref.load 0 protocol.lenstring.len.toNat = name.bytes := by
    rw [← hbytes, MQTTString.bytes, hform]
  have hlength := congrArg List.length hload
  rw [Memory.load_length] at hlength
  have hpos := List.length_pos_iff.mpr hname
  have hmin : (min (name.bytes.length : Int) protocol.lenstring.len).toNat = name.bytes.length := by
    omega
  rw [startsLike, hmin, List.take_length, ← hlength, hload]
  exact beq_self_eq_true name.bytes

/-- Protocol name and level of either version are recognised. -/
theorem mqttPacketCheckVersion_spec {name : CString} {level : UInt8}
    (hpair : (name, level) = (mqttProtocolName, 4) ∨ (name, level) = (mqIsdpProtocolName, 3))
    {protocol : MQTTString} (hform : protocol.cstring = none)
    (hbytes : protocol.bytes = name.bytes) :
    mqttPacketCheckVersion protocol (toChar level) = true := by
  unfold mqttPacketCheckVersion
  rcases hpair with hpair | hpair
  · cases hpair
    have hlike := MQTTString.startsLike_of_bytes hform hbytes (by decide)
    rw [if_neg (fun h => absurd h.1 (by decide)), if_pos ⟨by decide, hlike⟩]
  · cases hpair
    have hlike := MQTTString.startsLike_of_bytes hform hbytes (by decide)
    rw [if_pos ⟨by decide, hlike⟩]

/-- On a frame with a protocol that is recognised only the fields matter. -/
theorem HoldsFrame.mqttDeserializeConnect_eq {buf : Memory} {header : UInt8} {name : CString}
    {level : UInt8} {fields : List UInt8}
    (hpair : (name, level) = (mqttProtocolName, 4) ∨ (name, level) = (mqIsdpProtocolName, 3))
    {body : List UInt8} (hbody : body = writeCString name ++ [level] ++ fields)
    (h : HoldsFrame buf header body)
    (htype : (MQTTHeader.ofByte header).type = MsgType.connect.code)
    (data : MQTTPacketConnectData) :
    ∃ start, mqttDeserializeConnect data buf (frameLength body) =
        mqttDeserializeConnectFields data buf start (frameLength body) ∧
      buf.HasAt start fields ∧ frameLength body = start + fields.length := by
  have hplain : MQTTString.IsPlain ⟨some name, 0, .null⟩ := by
    rcases hpair with hpair | hpair <;> cases hpair <;> exact ⟨rfl, by decide⟩
  have hlength : body.length = (writeCString name).length + 1 + fields.length := by
    simp only [hbody, List.length_append, List.length_singleton]
  have hat := h.hasAt_body
  nth_rewrite 2 [hbody] at hat
  rw [Memory.hasAt_append, Memory.hasAt_append] at hat
  obtain ⟨⟨hnameAt, hlevelAt⟩, hfieldsAt⟩ := hat
  have hlevel := (Memory.hasAt_cons.mp hlevelAt).1
  have hend : bodyStart body + (writeCString name).length ≤ frameLength body := by
    rw [frameLength]
    omega
  obtain ⟨protocol, hread, hbytes⟩ := readMQTTLenString_of_hasAt hplain hnameAt .initializer hend
  have hform := readMQTTLenString_cstring .initializer buf (bodyStart body) (frameLength body)
  rw [hread] at hform
  have hcheck := mqttPacketCheckVersion_spec hpair hform hbytes
  refine ⟨bodyStart body + (writeCString name).length + 1, ?_, ?_, ?_⟩
  · have hread' : readMQTTLenString .initializer buf (1 + (mqttPacketEncode body.length).length)
        (frameLength body) = (1, protocol, bodyStart body + (writeCString name).length) := hread
    simp only [mqttDeserializeConnect, readChar, Nat.zero_add, h.readChar_header, h.decodeBuf,
      hread', hlevel, hcheck]
    rw [if_neg (not_not.mpr htype), if_neg (by omega), if_pos trivial]
  · rw [List.length_append, List.length_singleton, ← Nat.add_assoc] at hfieldsAt
    exact hfieldsAt
  · rw [frameLength]
    omega

/-- A flag that is 0 or 1 is the bit it is stored in. -/
theorem ofNat_mod_two {flag : UInt8} (h : flag.toNat ≤ 1) :
    UInt8.ofNat (flag.toNat % 2) = flag := by
  rw [Nat.mod_eq_of_lt (Nat.lt_succ_of_le h), UInt8.ofNat_toNat]

theorem ofNat_ite_ne_zero {flag : UInt8} (h : flag.toNat ≤ 1) :
    UInt8.ofNat (if flag ≠ 0 then 1 else 0) = flag := by
  by_cases hset : flag ≠ 0
  · have hne : flag.toNat ≠ 0 := fun hzero => hset (UInt8.toNat_inj.mp hzero)
    have hone : flag.toNat = 1 := by omega
    rw [if_pos hset]
    exact UInt8.toNat_inj.mp hone.symm
  · rw [if_neg hset]
    exact (not_not.mp hset).symm

/-- Behind the protocol level. -/
theorem mqttDeserializeConnectFields_spec {options : MQTTPacketConnectData}
    (hplain : ∀ s ∈ options.strings, s.IsPlain) (hrange : options.InRange) {buf : Memory}
    {curdata enddata : Nat} (hat : buf.HasAt curdata (connectFields options))
    (hend : enddata = curdata + (connectFields options).length) (data : MQTTPacketConnectData) :
    ((mqttDeserializeConnectFields data buf curdata enddata).1 = 1 ↔
        CredentialsReadable options.username options.password) ∧
      ((mqttDeserializeConnectFields data buf curdata enddata).1 = 1 →
        SameConnect options (mqttDeserializeConnectFields data buf curdata enddata).2) := by
  simp only [MQTTPacketConnectData.strings, List.forall_mem_cons] at hplain
  obtain ⟨hid, htopic, hmessage, huser, hpassword, _⟩ := hplain
  obtain ⟨hcleansession, hwillFlag, hretained, hqos⟩ := hrange
  have hflags := MQTTConnectFlags.ofByte_mqttConnectFlags options
  -- where each field stands in the buffer
  simp only [connectFields, List.length_append, writeInt_length, List.length_singleton] at hend
  obtain ⟨hflagsAt, hat⟩ := Memory.hasAt_append.mp hat
  obtain ⟨hkeepAt, hat⟩ := Memory.hasAt_append.mp hat
  obtain ⟨hidAt, hat⟩ := Memory.hasAt_append.mp hat
  obtain ⟨hwillAt, hat⟩ := Memory.hasAt_append.mp hat
  rw [List.length_singleton] at hkeepAt
  rw [List.length_singleton, writeInt_length] at hidAt hwillAt hat
  have hall : buf curdata = mqttConnectFlags options := (Memory.hasAt_cons.mp hflagsAt).1
  have hkeep := readInt_of_hasAt options.keepAliveInterval.toNat_lt hkeepAt
  have hidEnd : curdata + 1 + 2 + (writeMQTTString options.clientID).length ≤ enddata := by omega
  obtain ⟨clientID', hread, hbytes⟩ := readMQTTLenString_of_hasAt hid hidAt data.clientID hidEnd
  obtain ⟨flags, hflagsEq⟩ : ∃ flags, flags = MQTTConnectFlags.ofByte (mqttConnectFlags options) :=
    ⟨_, rfl⟩
  rw [← hflagsEq] at hflags
  let read : MQTTPacketConnectData :=
    { data with
      cleansession := UInt8.ofNat flags.cleansession
      keepAliveInterval := UInt16.ofNat options.keepAliveInterval.toNat
      clientID := clientID'
      willFlag := UInt8.ofNat flags.will }
  have hwillEnd : curdata + 1 + 2 + (writeMQTTString options.clientID).length +
      (writeWill options).length ≤ enddata := by omega
  have hcredentialsEnd : enddata = curdata + 1 + 2 + (writeMQTTString options.clientID).length +
      (writeWill options).length +
        (writeIfPresent options.username ++ writeIfPresent options.password).length := by
    rw [List.length_append]
    omega
  obtain ⟨will', hwillRead, hwill⟩ := mqttDeserializeConnectWill_spec (d := read) htopic hmessage
    (congrArg MQTTConnectFlags.will hflags) hwillAt hwillEnd
  obtain ⟨rc, username', password', hcredentials, hrc, hsame⟩ :=
    mqttDeserializeConnectCredentials_spec (d := { read with will := will' }) huser hpassword
      (congrArg MQTTConnectFlags.username hflags) (congrArg MQTTConnectFlags.password hflags) hat
      hcredentialsEnd
  have heval : mqttDeserializeConnectFields data buf curdata enddata =
      (rc, { read with will := will', username := username', password := password' }) := by
    simp only [mqttDeserializeConnectFields, readChar, hall, toUnsignedChar_toChar, hkeep, hread,
      ← hflagsEq]
    rw [if_neg one_ne_zero]
    show (if (mqttDeserializeConnectWill flags read buf _ enddata).1 = 0 then _ else
      mqttDeserializeConnectCredentials flags _ buf _ enddata) = _
    rw [hwillRead, if_neg one_ne_zero]
    exact hcredentials
  rw [heval]
  refine ⟨hrc, fun hone => ?_⟩
  obtain ⟨hname, hsecret⟩ := hsame hone
  refine ⟨?_, UInt16.ofNat_toNat, hbytes, ?_, fun hflag => ?_, hname, hsecret⟩
  · show UInt8.ofNat flags.cleansession = options.cleansession
    rw [hflags]
    exact ofNat_mod_two hcleansession
  · show UInt8.ofNat flags.will = options.willFlag
    rw [hflags]
    exact ofNat_ite_ne_zero hwillFlag
  · obtain ⟨hwillQos, hwillRetained, hwillTopic, hwillMessage⟩ := hwill hflag
    refine ⟨?_, ?_, hwillTopic, hwillMessage⟩
    · show will'.qos = _
      rw [hwillQos, hflags]
      simp only [if_pos hflag]
      omega
    · show will'.retained = _
      rw [hwillRetained, hflags]
      simp only [if_pos hflag]
      exact ofNat_mod_two hretained

/-- Whatever `MQTTSerialize_connect` has written is accepted by `MQTTDeserialize_connect`
exactly if a password comes with a user name and is not empty, and a user name without a
password is not empty; and then every field is as it was. -/
theorem mqttDeserializeConnect_serialize {buflen : Int} {options : MQTTPacketConnectData}
    (hversion : options.mqttVersion = 3 ∨ options.mqttVersion = 4) (hrange : options.InRange)
    (hplain : ∀ s ∈ options.strings, s.IsPlain) (hrc : 0 < (mqttSerializeConnect buflen options).rc)
    {buf : Memory} (hbuf : buf.HasAt 0 (mqttSerializeConnect buflen options).written)
    (data : MQTTPacketConnectData) :
    ((mqttDeserializeConnect data buf (mqttSerializeConnect buflen options).rc.toNat).1 = 1 ↔
        CredentialsReadable options.username options.password) ∧
      ((mqttDeserializeConnect data buf (mqttSerializeConnect buflen options).rc.toNat).1 = 1 →
        SameConnect options
          (mqttDeserializeConnect data buf (mqttSerializeConnect buflen options).rc.toNat).2) := by
  have hlt : (connectBody options).length < 268435456 := by
    have hle := mqttSerializeConnectLength_le hplain
    rw [mqttSerializeConnectLength_eq hplain hversion] at hle
    omega
  rw [mqttSerializeConnect_eq hplain hversion] at hrc hbuf ⊢
  have hframe := HoldsFrame.of_serialized hlt hrc hbuf
  have htype : (MQTTHeader.ofByte (MQTTHeader.byte ⟨MsgType.connect.code, 0, 0, 0⟩)).type =
      MsgType.connect.code := by decide
  obtain ⟨name, level, hpair, hprotocol⟩ : ∃ (name : CString) (level : UInt8),
      ((name, level) = (mqttProtocolName, 4) ∨ (name, level) = (mqIsdpProtocolName, 3)) ∧
        connectProtocol options = writeCString name ++ [level] := by
    by_cases hfour : options.mqttVersion = 4
    · exact ⟨_, _, .inl rfl, if_pos hfour⟩
    · exact ⟨_, _, .inr rfl, if_neg hfour⟩
  have hbody : connectBody options = writeCString name ++ [level] ++ connectFields options := by
    rw [connectBody, hprotocol]
  obtain ⟨start, heq, hat, hend⟩ := hframe.mqttDeserializeConnect_eq hpair hbody htype data
  rw [frameLength_of_serialized hrc, heq]
  exact mqttDeserializeConnectFields_spec hplain hrange hat hend data

/-- The CONNECT of version 3 with a will and a user name comes back. -/
theorem mqttDeserializeConnect_serialize_will :
    0 < (mqttSerializeConnect 64 willOptions).rc ∧
      (mqttDeserializeConnect .initializer
        (Memory.store (fun _ => 255) 0 (mqttSerializeConnect 64 willOptions).written) 26).1 = 1 ∧
      SameConnect willOptions (mqttDeserializeConnect .initializer
        (Memory.store (fun _ => 255) 0 (mqttSerializeConnect 64 willOptions).written) 26).2 := by
  have hrc : 0 < (mqttSerializeConnect 64 willOptions).rc := by decide
  have hplain : ∀ s ∈ willOptions.strings, s.IsPlain := by
    simp [MQTTPacketConnectData.strings, MQTTString.IsPlain, willOptions,
      MQTTPacketConnectData.initializer, MQTTString.initializer, mqttProtocolName]
  obtain ⟨hiff, hsame⟩ := mqttDeserializeConnect_serialize (.inl rfl)
    ⟨by decide, by decide, by decide, by decide⟩ hplain hrc
    (Memory.hasAt_store (fun _ => 255) 0 (mqttSerializeConnect 64 willOptions).written) .initializer
  have hone := hiff.mpr ⟨fun h => absurd h (by decide), fun _ _ => by decide⟩
  exact ⟨hrc, hone, hsame hone⟩

end MqttClient

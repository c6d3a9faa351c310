/-
# Every acknowledgement answers a packet

The client acknowledges a packet in the turn that has read it, and nowhere else.  Over a run
this gives the client's half of the two handshakes: nothing is acknowledged that did not come
in, no packet is acknowledged twice, and the acknowledgements go out in the order of the
packets.  This asks nothing of the network and nothing of the broker.

The identifier that is acknowledged is that of the packet, if the packet has one.  A packet that
ends before its identifier is answered too: a PUBLISH with what lies behind it in the read
buffer, a PUBREC or PUBREL with what the variable held before.
-/

import Mathlib.Data.List.Forall2
import MqttClient.Client.Outbound
import MqttClient.Client.Transducer
import MqttClient.Client.Waiting

namespace MqttClient

open Semantics Program

variable {σ H : Type} {P : Platform σ} {fuel : Nat}

/-! ## Acknowledgements and what they answer -/

/-- The packet is a PUBACK, PUBREC, PUBREL or PUBCOMP, by its first byte. -/
def isAck (packet : List UInt8) : Bool :=
  packet.head?.any fun byte =>
    (MsgType.ofCode? (MQTTHeader.ofByte byte).type).any MsgType.isReply

/-- The type of the reply that a packet with this header calls for. -/
def MQTTHeader.replyType? (header : MQTTHeader) : Option MsgType :=
  match MsgType.ofCode? header.type with
  | some .publish =>
      if header.qos = 1 then some .puback else if header.qos = 2 then some .pubrec else none
  | some .pubrec => some .pubrel
  | some .pubrel => some .pubcomp
  | _ => none

/-- The packet answers this call of `readPacket`: it is of the type that the header calls for,
and if what was read is well formed, it is the reply to that. -/
structure Answers (packet : List UInt8) (call : Reception) : Prop where
  type_eq : ∃ header field cut body reply id, ReadsPacket call.reads header field cut body ∧
    (MQTTHeader.ofByte header).replyType? = some reply ∧ packet = ackBytes reply id
  reply_eq : ∀ {F : Frame} {p : Inbound}, call.reads = F.readLogs → F.packet? = some p →
    p.reply? = some packet

theorem isAck_of_isPacketOf {type : MsgType} {packet : List UInt8} (h : IsPacketOf type packet) :
    isAck packet = type.isReply := by
  obtain ⟨header, body, rfl, hcode⟩ := h
  simp [isAck, hcode]

theorem MQTTHeader.isReply_of_replyType? {header : MQTTHeader} {reply : MsgType}
    (h : header.replyType? = some reply) : reply.isReply = true := by
  unfold replyType? at h
  split at h
  · split at h
    · cases h
      rfl
    · split at h
      · cases h
        rfl
      · cases h
  · cases h
    rfl
  · cases h
    rfl
  · cases h

theorem isAck_ackBytes (reply : MsgType) (id : UInt16) :
    isAck (ackBytes reply id) = reply.isReply := by
  have htype : ∀ qos, (MQTTHeader.ofByte (MQTTHeader.byte ⟨reply.code, 0, qos, 0⟩)).type =
      reply.code := fun qos => MQTTHeader.ofByte_byte_type reply.code_lt
  simp [isAck, ackBytes, htype]

theorem Answers.isAck {packet : List UInt8} {call : Reception} (h : Answers packet call) :
    isAck packet = true := by
  obtain ⟨header, field, cut, body, reply, id, _, hreply, rfl⟩ := h.type_eq
  rw [isAck_ackBytes, MQTTHeader.isReply_of_replyType? hreply]

/-! ## One turn -/

theorem mqttSerializeAck_writes (buflen : Int) (reply : MsgType) (id : UInt16) :
    (mqttSerializeAck buflen reply 0 id).Writes (· = ackBytes reply id) := by
  intro hpos
  by_cases hsize : 4 ≤ buflen
  · rw [mqttSerializeAck_of_le hsize reply id]
    exact ⟨rfl, rfl⟩
  · rw [mqttSerializeAck, if_pos (by omega)] at hpos
    exact absurd hpos (by decide)

theorem sendAck_sendsAtMostOne {reply : MsgType} {id : UInt16} {timer : Timer} {rc : Int}
    {w w' : World σ H} (h : (sendAck P fuel reply id timer).run w = some (rc, w')) :
    SendsAtMostOne (· = ackBytes reply id) w w' := by
  obtain ⟨len, w₁, hserialize, h⟩ := run_bind_eq_some.mp h
  split at h
  · obtain ⟨_, rfl⟩ := run_pure_eq_some.mp h
    exact .inl (SendsOnly.sends_nil (sends_serialize _ _ _ _ hserialize))
  · rename_i hpos
    exact sendsAtMostOne_of_serialized (fun buflen => mqttSerializeAck_writes buflen reply id)
      hserialize (Int.not_le.mp hpos) h

theorem acknowledgePublish_sendsAtMostOne {message : MQTTMessage} {timer : Timer} {rc : Int}
    {w w' : World σ H}
    (h : (acknowledgePublish P fuel message timer).run w = some (rc, w')) :
    SendsAtMostOne (fun packet => ∃ reply, packet = ackBytes reply message.id ∧
      (message.qos = 1 ∧ reply = .puback ∨ message.qos = 2 ∧ reply = .pubrec)) w w' := by
  unfold acknowledgePublish at h
  split at h
  · rename_i hone
    exact (sendAck_sendsAtMostOne h).mono fun packet hpacket =>
      ⟨.puback, hpacket, .inl ⟨hone, rfl⟩⟩
  · split at h
    · rename_i htwo
      exact (sendAck_sendsAtMostOne h).mono fun packet hpacket =>
        ⟨.pubrec, hpacket, .inr ⟨htwo, rfl⟩⟩
    · obtain ⟨_, rfl⟩ := run_pure_eq_some.mp h
      exact .inl (.of_trace_eq rfl)

theorem cycleLocals_quiet {locals : CycleLocals} {w w' : World σ H}
    (h : (cycleLocals P).run w = some (locals, w')) :
    w'.client = w.client ∧ SendsPackets [] w w' := by
  cases h
  exact ⟨rfl, .of_trace_eq rfl⟩

section Reply

variable {call : Reception} {header : UInt8} {field : List UInt8} {cut : List ReadLog}
  {body : List UInt8} {timer : Timer} {jump : Jump} {w w' : World σ H}
  (hframe : FrameRead w.client call header field cut body)

include hframe

/-- A frame that was read has left its header and its body in the read buffer. -/
theorem FrameRead.eq_frame {F : Frame} (hreads : call.reads = F.readLogs) :
    F.header = header ∧ F.body = body := by
  obtain ⟨hheader, _, _, hbody⟩ := (ReadsPacket.of_readLogs hreads).unique hframe.toReadsPacket
  exact ⟨hheader, hbody⟩

/-- A PUBREC or PUBREL is answered at most once, with the identifier it carries. -/
theorem handleHandshake_answers {type reply : MsgType}
    (hkind : type = .pubrec ∧ reply = .pubrel ∨ type = .pubrel ∧ reply = .pubcomp)
    (hcode : MsgType.ofCode? (MQTTHeader.ofByte header).type = some type)
    (h : (handleHandshake P fuel reply timer).run w = some (jump, w')) :
    SendsAtMostOne (Answers · call) w w' := by
  obtain ⟨locals, w₁, hlocals, h⟩ := run_bind_eq_some.mp h
  obtain ⟨hsame, hquiet⟩ := cycleLocals_quiet hlocals
  refine SendsAtMostOne.after ?_ hquiet
  -- `MQTTDeserialize_ack` returns 1 whether there is an identifier or not
  rw [run_bind_of_eq_some (run_client w₁), hsame, hframe.holds.mqttDeserializeAck_eq] at h
  dsimp only at h
  rw [if_neg (by decide)] at h
  obtain ⟨rc, w₃, hack, h⟩ := run_bind_eq_some.mp h
  obtain rfl : w₃ = w' := by
    split at h
    · exact (run_pure_eq_some.mp h).2
    · exact (run_pure_eq_some.mp h).2
  refine (sendAck_sendsAtMostOne hack).mono fun packet hpacket => ?_
  subst hpacket
  refine ⟨⟨header, field, cut, body, reply, _, hframe.toReadsPacket, ?_, rfl⟩, ?_⟩
  · rcases hkind with ⟨rfl, rfl⟩ | ⟨rfl, rfl⟩
    · rw [MQTTHeader.replyType?, hcode]
    · rw [MQTTHeader.replyType?, hcode]
  · intro F p hreads hpacket
    obtain ⟨rfl, rfl⟩ := hframe.eq_frame hreads
    rcases hkind with ⟨rfl, rfl⟩ | ⟨rfl, rfl⟩
    · rw [Frame.packet?, Frame.type, hcode] at hpacket
      obtain ⟨id, hid, rfl⟩ := Option.map_eq_some_iff.mp hpacket
      simp [Inbound.reply?, hid]
    · rw [Frame.packet?, Frame.type, hcode] at hpacket
      obtain ⟨id, hid, rfl⟩ := Option.map_eq_some_iff.mp hpacket
      simp [Inbound.reply?, hid]

/-- Whatever the decoder makes of a PUBLISH, the QoS is that of the header. -/
theorem FrameRead.decoded_qos
    (hcode : MsgType.ofCode? (MQTTHeader.ofByte header).type = some .publish) (out : PublishOut) :
    (mqttDeserializePublish w.client.readbuf out).2.qos = (MQTTHeader.ofByte header).qos := by
  have htype : (MQTTHeader.ofByte header).type = MsgType.publish.code :=
    Int.natCast_inj.mp (MsgType.ofCode?_eq_some hcode)
  simp only [mqttDeserializePublish, readChar, Nat.zero_add, hframe.holds.readChar_header, htype,
    ne_eq, not_true_eq_false, if_false]
  split
  · rfl
  · split
    · rfl
    · rfl

/-- The reply to a PUBLISH answers it. -/
theorem FrameRead.answers_publish {out out' : PublishOut} {reply : MsgType}
    (hcode : MsgType.ofCode? (MQTTHeader.ofByte header).type = some .publish)
    (hdecoded : mqttDeserializePublish w.client.readbuf out = (1, out'))
    (hreply : out'.qos = 1 ∧ reply = .puback ∨ out'.qos = 2 ∧ reply = .pubrec) :
    Answers (ackBytes reply out'.packetid) call := by
  have htype : (MQTTHeader.ofByte header).type = MsgType.publish.code :=
    Int.natCast_inj.mp (MsgType.ofCode?_eq_some hcode)
  have hqos : out'.qos = (MQTTHeader.ofByte header).qos := by
    have hdecoded_qos := hframe.decoded_qos hcode out
    rwa [hdecoded] at hdecoded_qos
  have hkind : (MQTTHeader.ofByte header).qos = 1 ∧ reply = .puback ∨
      (MQTTHeader.ofByte header).qos = 2 ∧ reply = .pubrec := by
    rw [hqos] at hreply
    exact_mod_cast hreply
  refine ⟨⟨header, field, cut, body, reply, _, hframe.toReadsPacket, ?_, rfl⟩, ?_⟩
  · rcases hkind with ⟨hone, rfl⟩ | ⟨htwo, rfl⟩
    · simp only [MQTTHeader.replyType?, hcode, hone, if_true]
    · simp [MQTTHeader.replyType?, hcode, htwo]
  · intro F p hreads hpacket
    obtain ⟨rfl, rfl⟩ := hframe.eq_frame hreads
    simp only [Frame.packet?, Frame.type, hcode] at hpacket
    split at hpacket
    · obtain ⟨⟨topic, id, payload⟩, hparts, rfl⟩ := Option.map_eq_some_iff.mp hpacket
      obtain ⟨carried, hcarried, hcarries⟩ := hframe.holds.carries htype hparts out
      obtain rfl : out' = carried := (Prod.mk.inj (hdecoded.symm.trans hcarried)).2
      have hid : out'.packetid = UInt16.ofNat id := hcarries.packetid_eq (by omega)
      rcases hkind with ⟨hone, rfl⟩ | ⟨htwo, rfl⟩
      · simp [Inbound.reply?, hone, hid]
      · simp [Inbound.reply?, htwo, hid]
    · cases hpacket

/-- A PUBLISH is answered at most once, with the identifier it carries. -/
theorem handlePublish_answers
    (hcode : MsgType.ofCode? (MQTTHeader.ofByte header).type = some .publish)
    (h : (handlePublish P fuel timer).run w = some (jump, w')) :
    SendsAtMostOne (Answers · call) w w' := by
  obtain ⟨locals, w₁, hlocals, h⟩ := run_bind_eq_some.mp h
  obtain ⟨hsame, hquiet⟩ := cycleLocals_quiet hlocals
  refine SendsAtMostOne.after ?_ hquiet
  rw [run_bind_of_eq_some (run_client w₁), hsame] at h
  cases hdecoded : mqttDeserializePublish w.client.readbuf { locals.publish with payloadlen := 0 }
  rename_i rc out
  rw [hdecoded] at h
  dsimp only at h
  split at h
  · obtain ⟨_, rfl⟩ := run_pure_eq_some.mp h
    exact .inl (.of_trace_eq rfl)
  · rename_i hrc
    obtain rfl := not_not.mp hrc
    obtain ⟨_, w₂, hdeliver, h⟩ := run_bind_eq_some.mp h
    refine SendsAtMostOne.after ?_ (sends_deliverMessage _ _ _ _ _ hdeliver).sends_nil
    split at h
    · obtain ⟨sent, w₃, hack, h⟩ := run_bind_eq_some.mp h
      obtain rfl : w₃ = w' := by
        split at h
        · exact (run_pure_eq_some.mp h).2
        · exact (run_pure_eq_some.mp h).2
      refine (acknowledgePublish_sendsAtMostOne hack).mono fun packet hpacket => ?_
      obtain ⟨reply, rfl, hreply⟩ := hpacket
      exact hframe.answers_publish hcode hdecoded hreply
    · obtain ⟨_, rfl⟩ := run_pure_eq_some.mp h
      exact .inl (.of_trace_eq rfl)

end Reply

/-- The `switch` of a turn sends at most one packet, and that answers what was read. -/
theorem dispatch_answers {call : Reception} {timer : Timer} {jump : Jump} {w w' : World σ H}
    (hcall : call.rc ≤ 0 ∨ ∃ header field cut body, FrameRead w.client call header field cut body)
    (h : (dispatch P fuel call.rc timer).run w = some (jump, w')) :
    SendsAtMostOne (Answers · call) w w' := by
  -- a result that is a type comes from a call that got to its end
  have hread : ∀ {type : MsgType}, MsgType.ofCode? call.rc = some type →
      ∃ header field cut body, FrameRead w.client call header field cut body ∧
        MsgType.ofCode? (MQTTHeader.ofByte header).type = some type := by
    intro type hcode
    have hpos := type.code_pos
    have hrc := MsgType.ofCode?_eq_some hcode
    rcases hcall with hle | ⟨header, field, cut, body, hframe⟩
    · omega
    · exact ⟨header, field, cut, body, hframe, hframe.rc_eq ▸ hcode⟩
  unfold dispatch at h
  split at h
  case h_5 hcode =>
    obtain ⟨header, field, cut, body, hframe, hcode⟩ := hread hcode
    exact handlePublish_answers hframe hcode h
  case h_6 hcode =>
    obtain ⟨header, field, cut, body, hframe, hcode⟩ := hread hcode
    exact handleHandshake_answers hframe (.inl ⟨rfl, rfl⟩) hcode h
  case h_7 hcode =>
    obtain ⟨header, field, cut, body, hframe, hcode⟩ := hread hcode
    exact handleHandshake_answers hframe (.inr ⟨rfl, rfl⟩) hcode h
  case h_9 =>
    cases h
    exact .inl (.of_trace_eq rfl)
  case h_10 =>
    obtain rfl : w = w' := by
      split at h
      · exact (run_pure_eq_some.mp h).2
      · exact (run_pure_eq_some.mp h).2
    exact .inl (.of_trace_eq rfl)
  all_goals
    obtain ⟨_, rfl⟩ := run_pure_eq_some.mp h
    exact .inl (.of_trace_eq rfl)

/-! ## Runs -/

/-- From `w` to `w'` the acknowledgements answer calls of `readPacket`, each another one, and
in their order. -/
def Acknowledges (w w' : World σ H) : Prop :=
  ∃ calls packets answered, Received calls w w' ∧ SendsPackets packets w w' ∧
    answered.Sublist calls ∧ List.Forall₂ Answers (packets.filter isAck) answered

namespace Acknowledges

variable {w w' w'' : World σ H}

theorem trans (h : Acknowledges w w') (h' : Acknowledges w' w'') : Acknowledges w w'' := by
  obtain ⟨calls, packets, answered, hcalls, hpackets, hsublist, hanswers⟩ := h
  obtain ⟨calls', packets', answered', hcalls', hpackets', hsublist', hanswers'⟩ := h'
  refine ⟨calls ++ calls', packets ++ packets', answered ++ answered', hcalls.trans hcalls',
    hpackets.trans hpackets', hsublist.append hsublist', ?_⟩
  rw [List.filter_append]
  exact List.rel_append hanswers hanswers'

/-- Nothing was read, and nothing acknowledged. -/
theorem of_quiet (hcalls : Received [] w w')
    (hsends : SendsOnly (fun packet => isAck packet = false) w w') : Acknowledges w w' := by
  obtain ⟨packets, hpackets, hquiet⟩ := hsends
  refine ⟨[], packets, [], hcalls, hpackets, .slnil, ?_⟩
  rw [List.filter_eq_nil_iff.mpr fun packet hpacket => by simp [hquiet packet hpacket]]
  exact .nil

theorem of_trace_eq (h : w'.trace = w.trace) : Acknowledges w w' :=
  .of_quiet (.of_trace_eq h) (.of_sends_nil (.of_trace_eq h))

/-- One packet was read, and it was answered at most once. -/
theorem of_answers {call : Reception} (hcall : Received [call] w w')
    (hsends : SendsAtMostOne (Answers · call) w w') : Acknowledges w w' := by
  rcases hsends with hnone | ⟨packet, hanswers, hone⟩
  · exact ⟨[call], [], [], hcall, hnone, List.nil_sublist _, .nil⟩
  · refine ⟨[call], [packet], [call], hcall, hone, List.Sublist.refl _, ?_⟩
    rw [List.filter_cons_of_pos hanswers.isAck]
    exact .cons hanswers .nil

end Acknowledges

theorem cycle_acknowledges {timer : Timer} {rc : Int} {w w' : World σ H}
    (h : (cycle P fuel timer).run w = some (rc, w')) : Acknowledges w w' := by
  obtain ⟨packetType, w₁, jump, w₂, rc', w₃, hread, hdispatch, hkeep, hfinish⟩ := cycle_parts h
  have hsilent := (sends_readPacket timer _ _ _ hread).sends_nil
  obtain ⟨reads, w₀, hfetch, rfl, hframe⟩ := readPacket_cases hread
  have hcall : Received [⟨packetType, reads⟩] w w₂ := (hfetch.received packetType).trans
    (.of_emits (dispatch_spec hdispatch).1 fun e he => he.isSilent)
  have hreply : SendsAtMostOne (Answers · ⟨packetType, reads⟩) (w₀.log (.packet packetType)) w₂ :=
    dispatch_answers hframe hdispatch
  have hkept : Acknowledges w₂ w₃ := by
    refine .of_quiet (.of_emits (checkKeepalive_spec hkeep).1 fun e he => he.isSilent) ?_
    refine sends_checkKeepalive (fun buflen => ?_) jump _ _ _ hkeep
    exact (mqttSerializeZero_isPacket .pingreq).writes.mono fun packet hpacket =>
      isAck_of_isPacketOf hpacket
  have htrace : w'.trace = w₃.trace := by
    split at hfinish
    · rw [hfinish.2]
    · rw [hfinish.2]
      rfl
  exact ((Acknowledges.of_answers hcall (hreply.after hsilent)).trans hkept).trans
    (.of_trace_eq htrace)

theorem sendFrame_received : SendFrame P (Received (σ := σ) (H := H) []) where
  refl := .refl
  trans := .trans
  clock _ := ⟨[.clock _], rfl, rfl⟩
  timer _ answer := ⟨[.timerIsExpired answer], rfl, rfl⟩
  write _ := ⟨[.write _ _], rfl, rfl⟩
  filled _ _ := .of_trace_eq rfl
  sent _ := ⟨[.clock _], rfl, rfl⟩

theorem turnFrame_acknowledges : TurnFrame P fuel (Acknowledges (σ := σ) (H := H)) where
  refl _ := .of_trace_eq rfl
  trans := .trans
  timer timer _ _ _ h := .of_quiet (sendFrame_received.timerIsExpired timer _ _ _ h)
    (sends_timerIsExpired timer _ _ _ h)
  turn _ _ _ _ h := cycle_acknowledges h

theorem Request.isReply_type (request : Request) : request.type.isReply = false := by
  cases request <;> rfl

theorem sendRequest_acknowledges {request : Request} (hwell : request.IsWellFormed)
    {sent : Option Timer} {w w' : World σ H}
    (h : (sendRequest P fuel (request.prepare P)).run w = some (sent, w')) :
    Acknowledges w w' := by
  have hprepare : Keeps (Received (σ := σ) (H := H) []) (request.prepare P) :=
    sendFrame_received.prepare (fun _ _ => .of_trace_eq rfl) (fun _ _ _ => .of_trace_eq rfl)
      (fun _ _ => .of_trace_eq rfl) request
  refine .of_quiet (sendFrame_received.sendRequest hprepare _ _ _ h) ?_
  rcases Request.sendRequest_sends hwell h with ⟨_, hnone⟩ | ⟨hone, hpacket⟩
  · exact .of_sends_nil hnone
  · refine ⟨_, hone, List.forall_mem_singleton.mpr ?_⟩
    rw [isAck_of_isPacketOf hpacket, request.isReply_type]

theorem mqttDisconnect_acknowledges {rc : Int} {w w' : World σ H}
    (h : (mqttDisconnect P fuel).run w = some (rc, w')) : Acknowledges w w' := by
  have hR : SendFrame P (Received (σ := σ) (H := H) []) := sendFrame_received
  rw [mqttDisconnect, run_bind_of_eq_some (run_client w)] at h
  obtain ⟨timer, w₀, htimer, h⟩ := run_bind_eq_some.mp h
  obtain ⟨len, w₁, hserialize, h⟩ := run_bind_eq_some.mp h
  have hstart : Received [] w w₁ :=
    (hR.timerCountdownMS _ _ _ _ htimer).trans (hR.serialize _ _ _ _ hserialize)
  have htimed : SendsOnly (fun packet => isAck packet = false) w w₀ :=
    sends_timerCountdownMS _ _ _ _ htimer
  split at h
  · rename_i hpos
    obtain ⟨sent, w₂, hsend, h⟩ := run_bind_eq_some.mp h
    have hsent : Acknowledges w w₂ := by
      refine .of_quiet (hstart.trans (hR.sendPacket _ _ _ _ _ hsend))
        (htimed.trans (sends_of_serialized (fun buflen => ?_) hserialize hpos hsend))
      exact (mqttSerializeZero_isPacket .disconnect).writes.mono fun packet hpacket =>
        isAck_of_isPacketOf hpacket
    cases h
    exact hsent.trans (.of_trace_eq rfl)
  · have hfilled : Acknowledges w w₁ :=
      .of_quiet hstart (htimed.trans (sends_serialize _ _ _ _ hserialize))
    cases h
    exact hfilled.trans (.of_trace_eq rfl)

theorem CallStep.acknowledges {call : Call H} {w w' : World σ H} (h : CallStep P fuel w call w')
    (hwell : call.IsWellFormed) : Acknowledges w w' := by
  have hT : TurnFrame P fuel (Acknowledges (σ := σ) (H := H)) := turnFrame_acknowledges
  rcases h.cases endFrame_trace with
    ⟨args, rfl, rfl⟩ | ⟨rfl, rc, hrun⟩ | ⟨timeoutMs, rfl, rc, hrun⟩ | h
  · exact .of_trace_eq rfl
  · exact mqttDisconnect_acknowledges hrun
  · refine hT.bind (fun _ _ _ h => ?_) (fun timer => hT.mqttYieldLoop timer fuel) _ _ _ hrun
    exact .of_quiet (sendFrame_received.timerCountdownMS _ _ _ _ h)
      (sends_timerCountdownMS _ _ _ _ h)
  · cases hrequest : call.request w with
    | none =>
        rw [hrequest] at h
        cases h with
        | refused htrace => exact .of_trace_eq htrace
    | some request =>
        obtain ⟨hasks, _⟩ := Call.asks_of_request hrequest
        rw [hrequest] at h
        cases h with
        | sent hsend htrace =>
            exact (sendRequest_acknowledges (hwell request hasks) hsend).trans
              (.of_trace_eq htrace)
        | awaited hsend _ hwait htrace =>
            exact ((sendRequest_acknowledges (hwell request hasks) hsend).trans
              (hT.waitfor _ _ _ _ _ hwait)).trans (.of_trace_eq htrace)

/-- In every run of well-formed calls, whatever the network does, the acknowledgements that the
client sends answer packets that it has read: each another one, and in the order in which they
were read. -/
theorem acks_answer_receptions (P : Platform σ) (fuel : Nat) {w w' : World σ H}
    {run : List (Transition (World σ H) (Call H))} (hrun : Run (CallStep P fuel) w run w')
    (hwell : ∀ tr ∈ run, tr.label.IsWellFormed) :
    ∃ answered, answered.Sublist (receptions (since w w')) ∧
      List.Forall₂ Answers ((sentPackets (since w w')).filter isAck) answered := by
  suffices h : Acknowledges w w' by
    obtain ⟨calls, packets, answered, hcalls, hpackets, hsublist, hanswers⟩ := h
    rw [hcalls.receptions_since, hpackets.sentPackets_since]
    exact ⟨answered, hsublist, hanswers⟩
  induction hrun with
  | nil w => exact .of_trace_eq rfl
  | cons first rest ih =>
      exact (first.acknowledges (hwell _ List.mem_cons_self)).trans
        (ih fun tr htr => hwell tr (List.mem_cons_of_mem _ htr))

/-- The broker sends a PUBLISH of QoS 1, and then one that is too long. -/
def publishedTo : World Recording Unit :=
  connectedWorld [0x32, 6, 0, 1, 97, 0, 7, 98, 0x30, 0xFF, 0x7F]

/-- The PUBACK answers one of the packets that were read. -/
theorem acks_answer_receptions_puback :
    ∃ w call, CallStep (linuxPlatform Recording.host 1030) 8 publishedTo (.yield 500) w ∧
      call ∈ receptions (since publishedTo w) ∧ Answers [0x40, 2, 0, 7] call := by
  have hyield : ((mqttYield (linuxPlatform Recording.host 1030) 8 500).run publishedTo).map
      (fun result => (sentPackets (since publishedTo result.2)).filter isAck) =
        some [[0x40, 2, 0, 7]] := by decide
  obtain ⟨⟨rc, w⟩, hrun, hacks⟩ := Option.map_eq_some_iff.mp hyield
  have hstep : CallStep (linuxPlatform Recording.host 1030) 8 publishedTo (.yield 500) w :=
    ⟨rc, hrun⟩
  obtain ⟨answered, hsublist, hanswers⟩ := acks_answer_receptions _ 8 (.single hstep) (by
    intro tr hmem request hasks
    obtain rfl := List.mem_singleton.mp hmem
    cases hasks)
  rw [hacks] at hanswers
  cases hanswers with
  | @cons _ call _ _ hanswer =>
      exact ⟨w, call, hstep, hsublist.subset List.mem_cons_self, hanswer⟩

end MqttClient

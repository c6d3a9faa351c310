/-
# The packets a run sends

A network may take a packet in several pieces, so not every write begins a packet.  The
trace still tells the packets apart: one is under way from its first write until as many
bytes as were offered are gone, or a write fails, or the timer is found expired.
`sentPackets` collects each packet as it was first offered to the network.

What the turns of the client send are acknowledgements and pings.  None of them carries
an identifier that the client has chosen, and none takes one from the counter.
-/

import MqttClient.Packet.WholePackets
import MqttClient.Client.Ping

namespace MqttClient

open Semantics Program

variable {σ H : Type} {P : Platform σ} {fuel : Nat}

/-! ## Packets in a trace -/

/-- The packets whose first write is in the trace, if `pending` bytes of an earlier one
are still to go; and how many are to go at the end. -/
def sentFrom (pending : Nat) : List (Event H) → List (List UInt8) × Nat
  | [] => ([], pending)
  | .write offered rc :: trace =>
      if pending = 0 then
        let (later, pending') := sentFrom (if rc < 0 then 0 else offered.length - rc.toNat) trace
        (offered :: later, pending')
      else sentFrom (if rc < 0 then 0 else pending - rc.toNat) trace
  | .timerIsExpired answer :: trace => sentFrom (if answer then 0 else pending) trace
  | .clock _ :: trace | .read _ :: trace | .packet _ :: trace | .call _ _ :: trace =>
      sentFrom pending trace

/-- The packets in a trace that starts between two packets. -/
def sentPackets (trace : List (Event H)) : List (List UInt8) := (sentFrom 0 trace).1

theorem sentFrom_append (first second : List (Event H)) :
    ∀ pending, sentFrom pending (first ++ second) =
      ((sentFrom pending first).1 ++ (sentFrom (sentFrom pending first).2 second).1,
        (sentFrom (sentFrom pending first).2 second).2) := by
  induction first with
  | nil => intro pending; rfl
  | cons e trace ih =>
      intro pending
      cases e with
      | write offered rc =>
          simp only [List.cons_append, sentFrom]
          split
          · rw [ih]
            rfl
          · exact ih _
      | clock now => exact ih _
      | timerIsExpired answer => exact ih _
      | read log => exact ih _
      | packet rc => exact ih _
      | call fp data => exact ih _

/-- Without a write no packet begins. -/
theorem sentFrom_of_writes_nil {trace : List (Event H)} (h : writes trace = []) :
    sentFrom 0 trace = ([], 0) := by
  induction trace with
  | nil => rfl
  | cons e trace ih =>
      cases e with
      | write offered rc => cases h
      | clock now => exact ih h
      | timerIsExpired answer =>
          rw [sentFrom, ite_self]
          exact ih h
      | read log => exact ih h
      | packet rc => exact ih h
      | call fp data => exact ih h

/-- From `w` to `w'` these packets were sent, whole or given up. -/
structure SendsPackets (packets : List (List UInt8)) (w w' : World σ H) : Prop where
  trace_eq : ∃ new, w'.trace = w.trace ++ new ∧ sentFrom 0 new = (packets, 0)

namespace SendsPackets

variable {packets packets' : List (List UInt8)} {w w' w'' : World σ H}

theorem trans (h : SendsPackets packets w w') (h' : SendsPackets packets' w' w'') :
    SendsPackets (packets ++ packets') w w'' := by
  obtain ⟨new, htrace, hsent⟩ := h
  obtain ⟨new', htrace', hsent'⟩ := h'
  refine ⟨new ++ new', by rw [htrace', htrace, List.append_assoc], ?_⟩
  rw [sentFrom_append, hsent, hsent']

theorem of_writes_nil {new : List (Event H)} (htrace : w'.trace = w.trace ++ new)
    (hnew : writes new = []) : SendsPackets [] w w' :=
  ⟨new, htrace, sentFrom_of_writes_nil hnew⟩

theorem of_trace_eq (h : w'.trace = w.trace) : SendsPackets [] w w' :=
  of_writes_nil (by rw [h, List.append_nil]) rfl

/-- The packets are those found in the trace. -/
theorem sentPackets_since (h : SendsPackets packets w w') : sentPackets (since w w') = packets := by
  obtain ⟨new, htrace, hsent⟩ := h
  rw [sentPackets, since_of_append htrace, hsent]

end SendsPackets

/-! ## Sending -/

/-- One iteration with this many bytes to go, of a packet under way or one that begins. -/
theorem sentFrom_iteration (pending : Nat) (env : σ) {timer : Timer}
    (hrunning : timer.isExpiredAt (P.gettimeofday env).1 = false) (now : Timeval)
    (offered : List UInt8) (rc : Int) :
    sentFrom pending (askedEvents P env timer ++ [.clock now, .write offered rc] :
        List (Event H)) =
      if pending = 0 then ([offered], if rc < 0 then 0 else offered.length - rc.toNat)
      else ([], if rc < 0 then 0 else pending - rc.toNat) := by
  simp only [askedEvents, hrunning, List.cons_append, List.nil_append, sentFrom,
    Bool.false_eq_true, if_false]

/-- The rest of the loop, with a packet under way: nothing else begins, and in the end
nothing is to go. -/
theorem sendPacketLoop_pending {length : Nat} {timer : Timer} :
    ∀ {fuel sent sent' : Nat} {w w' : World σ H},
      (sendPacketLoop P length timer fuel sent).run w = some (sent', w') →
      ∃ new, w'.trace = w.trace ++ new ∧ sentFrom (length - sent) new = ([], 0) := by
  intro fuel
  induction fuel with
  | zero => intro sent sent' w w' h; cases h
  | succ fuel ih =>
      intro sent sent' w w' h
      by_cases hlt : sent < length
      · obtain ⟨hexpired, _, rfl⟩ | ⟨hrunning, now, rc, w₁, htrace, hrest⟩ :=
          sendPacketLoop_iteration hlt h
        · refine ⟨_, asked_trace w timer, ?_⟩
          simp only [askedEvents, hexpired, sentFrom, if_true]
        · have hfirst := sentFrom_iteration (H := H) (length - sent) w.env hrunning now
            (w.client.buf.load sent length) rc
          rw [if_neg (by omega)] at hfirst
          split at hrest
          · rename_i hneg
            obtain ⟨_, rfl⟩ := hrest
            rw [if_pos hneg] at hfirst
            exact ⟨_, htrace, hfirst⟩
          · rename_i hneg
            obtain ⟨new, hnew, hsent⟩ := ih hrest
            rw [if_neg hneg, Nat.sub_sub] at hfirst
            refine ⟨_, by rw [hnew, htrace, List.append_assoc], ?_⟩
            rw [sentFrom_append, hfirst, hsent]
            rfl
      · rw [sendPacketLoop, if_neg hlt] at h
        obtain ⟨_, rfl⟩ := run_pure_eq_some.mp h
        exact ⟨[], by rw [List.append_nil], by rw [Nat.sub_eq_zero_of_le (by omega)]; rfl⟩

/-- A packet is offered to the network at its start, or its timer has expired. -/
theorem sendPacketLoop_sendsPackets {length : Nat} (hlength : 0 < length) {timer : Timer}
    {sent : Nat} {w w' : World σ H}
    (h : (sendPacketLoop P length timer fuel 0).run w = some (sent, w')) :
    sent = 0 ∧ SendsPackets [] w w' ∨ SendsPackets [w.client.buf.load 0 length] w w' := by
  cases fuel with
  | zero => cases h
  | succ fuel =>
      obtain ⟨_, hsent, rfl⟩ | ⟨hrunning, now, rc, w₁, htrace, hrest⟩ :=
        sendPacketLoop_iteration hlength h
      · exact .inl ⟨hsent, .of_writes_nil (asked_trace w timer) rfl⟩
      · have hfirst := sentFrom_iteration (H := H) 0 w.env hrunning now
          (w.client.buf.load 0 length) rc
        rw [if_pos rfl, Memory.load_length] at hfirst
        refine .inr ?_
        split at hrest
        · rename_i hneg
          obtain ⟨_, rfl⟩ := hrest
          rw [if_pos hneg] at hfirst
          exact ⟨_, htrace, hfirst⟩
        · rename_i hneg
          obtain ⟨new, hnew, hsent⟩ := sendPacketLoop_pending hrest
          rw [Nat.zero_add] at hsent
          rw [if_neg hneg] at hfirst
          refine ⟨_, by rw [hnew, htrace, List.append_assoc], ?_⟩
          rw [sentFrom_append, hfirst, hsent]
          rfl

theorem sendPacket_sendsPackets {length : Nat} (hlength : 0 < length) {timer : Timer} {rc : Int}
    {w w' : World σ H} (h : (sendPacket P fuel length timer).run w = some (rc, w')) :
    rc = failure ∧ SendsPackets [] w w' ∨ SendsPackets [w.client.buf.load 0 length] w w' := by
  obtain ⟨sent, w₁, hloop, h⟩ := run_bind_eq_some.mp h
  have hend : SendsPackets [] w₁ w' ∧ (sent = 0 → rc = failure) := by
    split at h
    · rename_i hall
      cases h
      exact ⟨.of_writes_nil rfl rfl, fun hzero => absurd (hall.symm.trans hzero) (by omega)⟩
    · obtain ⟨rfl, rfl⟩ := run_pure_eq_some.mp h
      exact ⟨.of_trace_eq rfl, fun _ => rfl⟩
  rcases sendPacketLoop_sendsPackets hlength hloop with ⟨hzero, hnone⟩ | hone
  · exact .inl ⟨hend.2 hzero, hnone.trans hend.1⟩
  · exact .inr (hone.trans hend.1)

/-- A packet that was serialized is sent as it was written. -/
theorem sends_serialized {serializer : Int → Serialized} {len rc : Int} {timer : Timer}
    {w w₁ w₂ : World σ H} (hserialize : (serialize serializer).run w = some (len, w₁))
    (hpos : 0 < len) (hsend : (sendPacket P fuel len.toNat timer).run w₁ = some (rc, w₂))
    (hlength : (serializer (toInt w.client.bufSize)).rc =
      (serializer (toInt w.client.bufSize)).written.length) :
    rc = failure ∧ SendsPackets [] w w₂ ∨
      SendsPackets [(serializer (toInt w.client.bufSize)).written] w w₂ := by
  rw [run_serialize serializer rfl] at hserialize
  cases hserialize
  have hload : ((w.client.buf.store 0 (serializer (toInt w.client.bufSize)).written).load 0
      (serializer (toInt w.client.bufSize)).rc.toNat) =
        (serializer (toInt w.client.bufSize)).written := by
    rw [hlength]
    exact Memory.load_store_self _ 0 _
  obtain ⟨hrc, ⟨hnone⟩⟩ | ⟨⟨hone⟩⟩ := sendPacket_sendsPackets (by omega) hsend
  · exact .inl ⟨hrc, ⟨hnone⟩⟩
  · rw [← hload]
    exact .inr ⟨hone⟩

/-! ## Packets of one kind -/

/-- What the call wrote is a packet of this kind, if it wrote one. -/
def Serialized.Writes (A : List UInt8 → Prop) (s : Serialized) : Prop :=
  0 < s.rc → s.rc = s.written.length ∧ A s.written

theorem Serialized.Writes.mono {s : Serialized} {A B : List UInt8 → Prop} (h : s.Writes A)
    (hAB : ∀ packet, A packet → B packet) : s.Writes B :=
  fun hpos => ⟨(h hpos).1, hAB _ (h hpos).2⟩

/-- From `w` to `w'` only packets of this kind were sent. -/
def SendsOnly (A : List UInt8 → Prop) (w w' : World σ H) : Prop :=
  ∃ packets, SendsPackets packets w w' ∧ ∀ packet ∈ packets, A packet

namespace SendsOnly

variable {A B : List UInt8 → Prop} {w w' w'' : World σ H}

theorem of_sends_nil (h : SendsPackets [] w w') : SendsOnly A w w' := ⟨[], h, nofun⟩

theorem refl (w : World σ H) : SendsOnly A w w := .of_sends_nil (.of_trace_eq rfl)

theorem trans (h : SendsOnly A w w') (h' : SendsOnly A w' w'') : SendsOnly A w w'' := by
  obtain ⟨packets, hsends, hpackets⟩ := h
  obtain ⟨packets', hsends', hpackets'⟩ := h'
  refine ⟨packets ++ packets', hsends.trans hsends', ?_⟩
  exact List.forall_mem_append.mpr ⟨hpackets, hpackets'⟩

theorem mono (h : SendsOnly A w w') (hAB : ∀ packet, A packet → B packet) : SendsOnly B w w' := by
  obtain ⟨packets, hsends, hpackets⟩ := h
  exact ⟨packets, hsends, fun packet hmem => hAB packet (hpackets packet hmem)⟩

/-- Nothing was written. -/
theorem of_emits {E : Event H → Prop} (h : Emits E w w')
    (hE : ∀ offered rc, ¬ E (.write offered rc)) : SendsOnly A w w' := by
  obtain ⟨_, new, htrace, hnew⟩ := h
  refine .of_sends_nil (.of_writes_nil htrace (List.filterMap_eq_nil_iff.mpr fun e he => ?_))
  cases e with
  | write offered rc => exact absurd (hnew _ he) (hE offered rc)
  | clock _ | timerIsExpired _ | read _ | packet _ | call _ _ => rfl

/-- Nothing was sent. -/
theorem sends_nil (h : SendsOnly (fun _ => False) w w') : SendsPackets [] w w' := by
  obtain ⟨packets, hsends, hpackets⟩ := h
  obtain rfl := List.eq_nil_iff_forall_not_mem.mpr hpackets
  exact hsends

end SendsOnly

/-- From `w` to `w'` at most one packet was sent, and it is of this kind. -/
def SendsAtMostOne (A : List UInt8 → Prop) (w w' : World σ H) : Prop :=
  SendsPackets [] w w' ∨ ∃ packet, A packet ∧ SendsPackets [packet] w w'

namespace SendsAtMostOne

variable {A B : List UInt8 → Prop} {w w₁ w' : World σ H}

theorem after (h : SendsAtMostOne A w₁ w') (hbefore : SendsPackets [] w w₁) :
    SendsAtMostOne A w w' := by
  rcases h with hnone | ⟨packet, hpacket, hone⟩
  · exact .inl (hbefore.trans hnone)
  · exact .inr ⟨packet, hpacket, hbefore.trans hone⟩

theorem mono (h : SendsAtMostOne A w w') (hAB : ∀ packet, A packet → B packet) :
    SendsAtMostOne B w w' := by
  rcases h with hnone | ⟨packet, hpacket, hone⟩
  · exact .inl hnone
  · exact .inr ⟨packet, hAB packet hpacket, hone⟩

theorem sendsOnly (h : SendsAtMostOne A w w') : SendsOnly A w w' := by
  rcases h with hnone | ⟨packet, hpacket, hone⟩
  · exact .of_sends_nil hnone
  · exact ⟨_, hone, List.forall_mem_singleton.mpr hpacket⟩

end SendsAtMostOne

section Walk

variable {A : List UInt8 → Prop} {α β : Type}

theorem sends_bind {x : Action σ H α} {f : α → Action σ H β} (hx : Keeps (SendsOnly A) x)
    (hf : ∀ a, Keeps (SendsOnly A) (f a)) : Keeps (SendsOnly A) (x >>= f) :=
  Keeps.bind (R := SendsOnly A) SendsOnly.trans hx hf

theorem sends_pure (a : α) : Keeps (SendsOnly A) (pure a : Action σ H α) :=
  keeps_pure SendsOnly.refl a

theorem sends_client : Keeps (SendsOnly A) (client : Action σ H _) := keeps_gets SendsOnly.refl _

theorem sends_modifyClient (f : MQTTClient H → MQTTClient H) :
    Keeps (SendsOnly A) (modifyClient f : Action σ H _) :=
  keeps_modify fun _ => .of_sends_nil (.of_trace_eq rfl)

theorem sends_timerCountdownMS (timeout : Nat) :
    Keeps (SendsOnly A) (timerCountdownMS P timeout : Action σ H _) := by
  intro w timer w' h
  cases h
  exact .of_sends_nil (.of_writes_nil rfl rfl)

theorem sends_timerIsExpired (timer : Timer) :
    Keeps (SendsOnly A) (timerIsExpired P timer : Action σ H _) := by
  intro w expired w' h
  cases h
  exact .of_sends_nil (.of_writes_nil (asked_trace w timer) rfl)

theorem sends_keepaliveDue : Keeps (SendsOnly A) (keepaliveDue P : Action σ H _) := by
  intro w due w' h
  obtain ⟨_, asked, htrace, hquiet, _⟩ := keepaliveDue_cases h
  exact .of_sends_nil (.of_writes_nil htrace hquiet)

theorem sends_serialize (serializer : Int → Serialized) :
    Keeps (SendsOnly A) (serialize serializer : Action σ H _) := by
  intro w len w' h
  cases h
  exact .of_sends_nil (.of_trace_eq rfl)

/-- A packet is sent as it was serialized, and once. -/
theorem sendsAtMostOne_of_serialized {serializer : Int → Serialized}
    (hserializer : ∀ buflen, (serializer buflen).Writes A) {len rc : Int} {timer : Timer}
    {w w₁ w₂ : World σ H} (hserialize : (serialize serializer).run w = some (len, w₁))
    (hpos : 0 < len) (hsend : (sendPacket P fuel len.toNat timer).run w₁ = some (rc, w₂)) :
    SendsAtMostOne A w w₂ := by
  have hlen : len = (serializer (toInt w.client.bufSize)).rc := by
    rw [run_serialize serializer rfl] at hserialize
    cases hserialize
    rfl
  obtain ⟨hlength, hkind⟩ := hserializer (toInt w.client.bufSize) (hlen ▸ hpos)
  obtain ⟨_, hnone⟩ | hone := sends_serialized hserialize hpos hsend hlength
  · exact .inl hnone
  · exact .inr ⟨_, hkind, hone⟩

theorem sends_of_serialized {serializer : Int → Serialized}
    (hserializer : ∀ buflen, (serializer buflen).Writes A) {len rc : Int} {timer : Timer}
    {w w₁ w₂ : World σ H} (hserialize : (serialize serializer).run w = some (len, w₁))
    (hpos : 0 < len) (hsend : (sendPacket P fuel len.toNat timer).run w₁ = some (rc, w₂)) :
    SendsOnly A w w₂ :=
  (sendsAtMostOne_of_serialized hserializer hserialize hpos hsend).sendsOnly

theorem sends_deliverMessage (topicName : MQTTString) (message : MQTTMessage) :
    Keeps (SendsOnly A) (deliverMessage topicName message : Action σ H _) := by
  intro w rc w' h
  refine .of_emits (emits_deliverMessage topicName message _ _ _ h) ?_
  rintro offered rc ⟨fp, hcall⟩
  cases hcall

theorem sends_cycleLocals : Keeps (SendsOnly A) (cycleLocals P : Action σ H _) := by
  intro w locals w' h
  cases h
  exact .of_sends_nil (.of_trace_eq rfl)

theorem sends_readPacket (timer : Timer) :
    Keeps (SendsOnly A) (readPacket P timer : Action σ H _) := by
  intro w rc w' h
  obtain ⟨_, w₀, ⟨_, new, htrace, hnew, _⟩, rfl, _⟩ := readPacket_cases h
  have hquiet : writes new = [] := by
    rw [writes, List.filterMap_eq_nil_iff]
    intro e he
    have hreading := hnew e he
    cases e with
    | write offered rc => exact hreading.elim
    | clock now => rfl
    | timerIsExpired answer => rfl
    | read log => rfl
    | packet rc => rfl
    | call fp data => rfl
  have hlogged : (w₀.log (.packet rc)).trace = w.trace ++ (new ++ [.packet rc]) := by
    rw [World.log, htrace, List.append_assoc]
  refine .of_sends_nil (.of_writes_nil hlogged ?_)
  rw [writes_append, hquiet]
  rfl

theorem sends_finishCycle (packetType rc : Int) :
    Keeps (SendsOnly A) (finishCycle packetType rc : Action σ H _) :=
  .ite (sends_pure _) <| sends_bind sends_client fun _ =>
    .ite (sends_bind (sends_modifyClient _) fun _ => sends_pure _) (sends_pure _)

/-- The types of the replies to a PUBLISH, a PUBREC and a PUBREL. -/
def MsgType.isReply : MsgType → Bool
  | .puback | .pubrec | .pubrel | .pubcomp => true
  | _ => false

section Turn

variable
  (hack : ∀ {type : MsgType}, type.isReply = true → ∀ buflen id,
    (mqttSerializeAck buflen type 0 id).Writes A)
  (hping : ∀ buflen, (mqttSerializePingreq buflen).Writes A)

include hack

theorem sends_sendAck {packettype : MsgType} (hreply : packettype.isReply = true) (id : UInt16)
    (timer : Timer) : Keeps (SendsOnly A) (sendAck P fuel packettype id timer : Action σ H _) := by
  intro w rc w' h
  obtain ⟨len, w₁, hserialize, h⟩ := run_bind_eq_some.mp h
  split at h
  · obtain ⟨_, rfl⟩ := run_pure_eq_some.mp h
    exact sends_serialize _ _ _ _ hserialize
  · exact sends_of_serialized (fun buflen => hack hreply buflen id) hserialize (by omega) h

theorem sends_acknowledgePublish (message : MQTTMessage) (timer : Timer) :
    Keeps (SendsOnly A) (acknowledgePublish P fuel message timer : Action σ H _) :=
  .ite (sends_sendAck hack rfl _ _) (.ite (sends_sendAck hack rfl _ _) (sends_pure _))

theorem sends_handlePublish (timer : Timer) :
    Keeps (SendsOnly A) (handlePublish P fuel timer : Action σ H _) := by
  refine sends_bind sends_cycleLocals fun locals => sends_bind sends_client fun c => ?_
  split
  refine .ite (sends_pure _)
    (sends_bind (sends_deliverMessage _ _) fun _ => .ite ?_ (sends_pure _))
  exact sends_bind (sends_acknowledgePublish hack _ timer) fun _ =>
    .ite (sends_pure _) (sends_pure _)

theorem sends_handleHandshake {reply : MsgType} (hreply : reply.isReply = true) (timer : Timer) :
    Keeps (SendsOnly A) (handleHandshake P fuel reply timer : Action σ H _) := by
  refine sends_bind sends_cycleLocals fun locals => sends_bind sends_client fun c => ?_
  split
  exact .ite (sends_pure _) (sends_bind (sends_sendAck hack hreply _ timer) fun _ =>
    .ite (sends_pure _) (sends_pure _))

theorem sends_dispatch (packetType : Int) (timer : Timer) :
    Keeps (SendsOnly A) (dispatch P fuel packetType timer : Action σ H _) := by
  unfold dispatch
  split
  case h_5 => exact sends_handlePublish hack timer
  case h_6 => exact sends_handleHandshake hack rfl timer
  case h_7 => exact sends_handleHandshake hack rfl timer
  case h_9 => exact sends_bind (sends_modifyClient _) fun _ => sends_pure _
  case h_10 => exact .ite (sends_pure _) (sends_pure _)
  all_goals exact sends_pure _

omit hack

include hping

theorem sends_sendPing : Keeps (SendsOnly A) (sendPing P fuel : Action σ H _) := by
  intro w rc w' h
  obtain ⟨timer, w₀, htimer, h⟩ := run_bind_eq_some.mp h
  refine (sends_timerCountdownMS _ _ _ _ htimer).trans ?_
  obtain ⟨len, w₁, hserialize, h⟩ := run_bind_eq_some.mp h
  split at h
  · rename_i hpos
    obtain ⟨sent, w₂, hsend, h⟩ := run_bind_eq_some.mp h
    have hpinged := sends_of_serialized hping hserialize hpos hsend
    split at h
    · obtain ⟨_, w₃, hmodify, h⟩ := run_bind_eq_some.mp h
      obtain ⟨_, rfl⟩ := run_pure_eq_some.mp h
      exact hpinged.trans (sends_modifyClient _ _ _ _ hmodify)
    · obtain ⟨_, rfl⟩ := run_pure_eq_some.mp h
      exact hpinged
  · obtain ⟨_, rfl⟩ := run_pure_eq_some.mp h
    exact sends_serialize _ _ _ _ hserialize

theorem sends_keepalive : Keeps (SendsOnly A) (keepalive P fuel : Action σ H _) :=
  sends_bind sends_client fun _ => .ite (sends_pure _) <| sends_bind sends_keepaliveDue fun _ =>
    .ite (.ite (sends_pure _) (sends_sendPing hping)) (sends_pure _)

theorem sends_checkKeepalive (jump : Jump) :
    Keeps (SendsOnly A) (checkKeepalive P fuel jump : Action σ H _) := by
  cases jump with
  | exit rc => exact sends_pure rc
  | next rc =>
      exact sends_bind (sends_keepalive hping) fun _ => .ite (sends_pure _) (sends_pure _)

include hack

/-- A turn sends replies and pings. -/
theorem sends_cycle (timer : Timer) : Keeps (SendsOnly A) (cycle P fuel timer : Action σ H _) :=
  sends_bind (sends_readPacket timer) fun _ => sends_bind (sends_dispatch hack _ timer) fun _ =>
    sends_bind (sends_checkKeepalive hping _) fun _ => sends_finishCycle _ _

end Turn

end Walk

/-! ## Packets without an identifier of the client -/

/-- The packet is a SUBSCRIBE, an UNSUBSCRIBE or a PUBLISH of QoS 1 or 2, by its first
byte. -/
def needsIdentifier (packet : List UInt8) : Bool :=
  packet.head?.any fun byte =>
    let header := MQTTHeader.ofByte byte
    header.type = MsgType.subscribe.code ∨ header.type = MsgType.unsubscribe.code ∨
      header.type = MsgType.publish.code ∧ (header.qos = 1 ∨ header.qos = 2)

/-- The types of packet that carry no identifier of the client. -/
def MsgType.isUnnumbered : MsgType → Bool
  | .subscribe | .unsubscribe | .publish => false
  | _ => true

theorem needsIdentifier_byte {header : MQTTHeader} {type : MsgType}
    (htype : header.type = type.code) (hother : type.isUnnumbered = true) (rest : List UInt8) :
    needsIdentifier (header.byte :: rest) = false := by
  have hread : (MQTTHeader.ofByte header.byte).type = type.code := by
    rw [MQTTHeader.ofByte_byte_type (htype ▸ type.code_lt), htype]
  simp only [needsIdentifier, List.head?_cons, Option.any_some, hread]
  cases type
  case subscribe | unsubscribe | publish => cases hother
  all_goals simp [MsgType.code]

/-- The packet needs no identifier. -/
def Unnumbered (packet : List UInt8) : Prop := needsIdentifier packet = false

/-- The shape of a serializer for such a packet. -/
theorem writes_unnumbered_ite {header : MQTTHeader} {type : MsgType}
    (htype : header.type = type.code) (hother : type.isUnnumbered = true) (rest : List UInt8)
    {refused : Prop} [Decidable refused] :
    (if refused then .tooShort else .ofBytes (header.byte :: rest) : Serialized).Writes
      Unnumbered := by
  intro hpos
  split at hpos
  · exact absurd hpos (by decide)
  · rw [if_neg ‹_›]
    exact ⟨rfl, needsIdentifier_byte htype hother rest⟩

theorem mqttSerializeZero_unnumbered {packettype : MsgType}
    (hother : packettype.isUnnumbered = true) (buflen : Int) :
    (mqttSerializeZero buflen packettype).Writes Unnumbered :=
  writes_unnumbered_ite rfl hother _

theorem mqttSerializePingreq_unnumbered (buflen : Int) :
    (mqttSerializePingreq buflen).Writes Unnumbered :=
  mqttSerializeZero_unnumbered rfl buflen

theorem isUnnumbered_of_isReply {type : MsgType} (h : type.isReply = true) :
    type.isUnnumbered = true := by
  cases type <;> first | rfl | cases h

theorem mqttSerializeAck_unnumbered {packettype : MsgType} (hreply : packettype.isReply = true)
    (buflen : Int) (id : UInt16) : (mqttSerializeAck buflen packettype 0 id).Writes Unnumbered :=
  writes_unnumbered_ite rfl (isUnnumbered_of_isReply hreply) _

theorem unnumbered_cycle (timer : Timer) :
    Keeps (SendsOnly Unnumbered) (cycle P fuel timer : Action σ H _) :=
  sends_cycle mqttSerializeAck_unnumbered mqttSerializePingreq_unnumbered timer

end MqttClient

/-
# The replies of the handshake

A turn that takes a PUBREC or a PUBREL answers with the identifier of that packet, in a
PUBREL or a PUBCOMP.  The identifier is an output of `MQTTDeserialize_ack`, which assigns
it only if the body has two bytes.  For a shorter body it leaves the variable as it was
and returns the number of length bytes, which is 1, as if it had succeeded; the reply
then carries what `cycle` found on its stack.

Here the packet is any first packet of a stream, its length field encoded in any way,
the clock and the timers are arbitrary, and a write either takes all it is offered or
fails, as `mqtt_network_write` does.
-/

import MqttClient.Client.Failure
import MqttClient.Platform.Network

namespace MqttClient

open Semantics Program

variable {σ H : Type} {P : Platform σ} {fuel : Nat}

/-! ## What the network takes -/

/-- What a write handed to the network: all it was offered, unless it failed. -/
def Event.sent? : Event H → Option (List UInt8)
  | .write offered rc => if rc < 0 then none else some offered
  | _ => none

/-- What was handed to the network in a trace, in order. -/
def sent (trace : List (Event H)) : List (List UInt8) := trace.filterMap Event.sent?

@[simp]
theorem sent_append (a b : List (Event H)) : sent (a ++ b) = sent a ++ sent b :=
  List.filterMap_append

/-- Without a write nothing is sent. -/
theorem sent_eq_nil {trace : List (Event H)} (h : writes trace = []) : sent trace = [] := by
  refine List.filterMap_eq_nil_iff.mpr fun e he => ?_
  have hwritten := List.filterMap_eq_nil_iff.mp h e he
  cases e with
  | write offered rc => cases hwritten
  | _ => rfl

/-- Every write returns, and takes all it is offered or fails. -/
structure WritesWhole (P : Platform σ) : Prop where
  returns : ∀ s offered timeoutMs, ∃ rc s', P.mqttwrite s offered timeoutMs = some (rc, s')
  whole : ∀ {s s' : σ} {offered : List UInt8} {timeoutMs rc : Int},
    P.mqttwrite s offered timeoutMs = some (rc, s') → rc = offered.length ∨ rc < 0

/-- A platform where no write ever fails. -/
theorem AcceptsWrites.writesWhole (h : AcceptsWrites P fun _ => True) : WritesWhole P where
  returns s offered timeoutMs := by
    obtain ⟨s', hwrite⟩ := h s offered timeoutMs trivial
    exact ⟨_, s', hwrite⟩
  whole {s _ offered timeoutMs _} hwrite := by
    obtain ⟨s', haccepted⟩ := h s offered timeoutMs trivial
    rw [haccepted] at hwrite
    cases hwrite
    exact .inl rfl

/-- The transport of the repository writes whole packets, as long as its calls return. -/
theorem linuxPlatform_writesWhole {τ : Type} (host : TlsHost τ) (fuel : Nat)
    (hreturns : ∀ s offered timeoutMs, ∃ rc s',
      mqttNetworkWrite host fuel s offered timeoutMs = some (rc, s')) :
    WritesWhole (linuxPlatform host fuel) where
  returns := hreturns
  whole hrun := by
    obtain ⟨hrc, _⟩ | ⟨rfl, _⟩ := mqttNetworkWriteLoop_invariant (fun _ _ => trivial)
      (fun _ _ => trivial) (Nat.zero_le _) trivial hrun
    · exact .inl hrc
    · exact .inr (by decide)

/-- The trace grew, and this is what was sent meanwhile. -/
def Sends (w w' : World σ H) (packets : List (List UInt8)) : Prop :=
  ∃ new, w'.trace = w.trace ++ new ∧ sent new = packets

namespace Sends

variable {w w' w'' : World σ H} {packets packets' : List (List UInt8)}

theorem of_trace_eq (h : w'.trace = w.trace) : Sends w w' [] := ⟨[], by simp [h], rfl⟩

theorem trans (h : Sends w w' packets) (h' : Sends w' w'' packets') :
    Sends w w'' (packets ++ packets') := by
  obtain ⟨new, htrace, rfl⟩ := h
  obtain ⟨new', htrace', rfl⟩ := h'
  exact ⟨new ++ new', by rw [htrace', htrace, List.append_assoc], sent_append _ _⟩

theorem sent_since (h : Sends w w' packets) : sent (since w w') = packets := by
  obtain ⟨new, htrace, hsent⟩ := h
  rw [since_of_append htrace, hsent]

end Sends

/-- What can be in the way of a packet of `size` bytes: the buffer is too small, the timer
has expired, or the network does not take every write. -/
def Hindered (P : Platform σ) (size : Int) (timer : Timer) (w : World σ H) : Prop :=
  toInt w.client.bufSize < size ∨ timer.isExpiredAt (P.gettimeofday w.env).1 = true ∨
    ¬ AcceptsWrites P fun _ => True

theorem AcceptsWrites.not_hindered (h : AcceptsWrites P fun _ => True) {size : Int} {timer : Timer}
    {w : World σ H} (hsize : size ≤ toInt w.client.bufSize)
    (hrunning : timer.isExpiredAt (P.gettimeofday w.env).1 = false) :
    ¬ Hindered P size timer w := by
  rintro (hsmall | hexpired | hrefused)
  · exact absurd hsmall (Int.not_lt.mpr hsize)
  · exact absurd hexpired (Bool.eq_false_iff.mp hrunning)
  · exact hrefused h

section Sending

variable (hwrites : WritesWhole P) {w : World σ H}

include hwrites

theorem mqttwrite_sends (offered : List UInt8) (timeoutMs : Int) :
    (mqttwrite P offered timeoutMs).Returns w fun rc w' =>
      rc = offered.length ∧ Sends w w' [offered] ∨
        rc < 0 ∧ Sends w w' [] ∧ ¬ AcceptsWrites P fun _ => True := by
  obtain ⟨rc, env, hwrite⟩ := hwrites.returns w.env offered timeoutMs
  refine ⟨rc, { w with env, trace := w.trace ++ [.write offered rc] }, ?_, ?_⟩
  · simp [mqttwrite, hwrite]
  · rcases hwrites.whole hwrite with rfl | hneg
    · refine .inl ⟨rfl, _, rfl, ?_⟩
      have hnonneg : ¬ (offered.length : Int) < 0 := by omega
      simp [sent, Event.sent?, hnonneg]
    · refine .inr ⟨hneg, ⟨_, rfl, by simp [sent, Event.sent?, hneg]⟩, fun haccepts => ?_⟩
      obtain ⟨env', hwrite'⟩ := haccepts w.env offered timeoutMs trivial
      rw [hwrite] at hwrite'
      cases hwrite'
      omega

/-- Two iterations are enough: the first sends everything or ends the loop. -/
theorem sendPacketLoop_sends {length : Nat} (hlength : 0 < length) (timer : Timer) (fuel : Nat) :
    (sendPacketLoop P length timer (fuel + 2) 0).Returns w fun count w' =>
      count = length ∧ Sends w w' [w.client.buf.load 0 length] ∨
        count = 0 ∧ Sends w w' [] ∧ ∀ size, Hindered P size timer w := by
  have hasked : Sends w (w.asked P timer) [] := ⟨_, asked_trace w timer, rfl⟩
  rw [sendPacketLoop, if_pos hlength]
  apply returns_bind_of_eq_some (run_timerIsExpired timer w)
  split
  · rename_i hexpired
    exact returns_pure (.inr ⟨rfl, hasked, fun _ => .inr (.inl hexpired)⟩)
  · apply returns_bind_of_eq_some (run_timerLeftMS timer _)
    apply returns_bind_of_eq_some (run_client _)
    have hticked : Sends (w.asked P timer) ((w.asked P timer).ticked P) [] := ⟨_, rfl, rfl⟩
    apply (mqttwrite_sends hwrites _ _).bind
    rintro rc w₂ (⟨rfl, hsends⟩ | ⟨hneg, hsends, hrefused⟩)
    · rw [Memory.load_length, if_neg (by omega), Int.toNat_natCast, Nat.zero_add, sendPacketLoop,
        if_neg (Nat.lt_irrefl _)]
      exact returns_pure (.inl ⟨rfl, (hasked.trans hticked).trans hsends⟩)
    · rw [if_pos hneg]
      exact returns_pure (.inr ⟨rfl, (hasked.trans hticked).trans hsends,
        fun _ => .inr (.inr hrefused)⟩)

theorem sendPacket_sends (hfuel : 2 ≤ fuel) {length : Nat} (hlength : 0 < length) (timer : Timer) :
    (sendPacket P fuel length timer).Returns w fun rc w' =>
      rc = mqttSuccess ∧ Sends w w' [w.client.buf.load 0 length] ∨
        rc = failure ∧ Sends w w' [] ∧ ∀ size, Hindered P size timer w := by
  obtain ⟨fuel, rfl⟩ := Nat.exists_eq_add_of_le' hfuel
  apply (sendPacketLoop_sends hwrites hlength timer fuel).bind
  rintro count w₁ (⟨rfl, hsends⟩ | ⟨rfl, hsends, hhindered⟩)
  · rw [if_pos rfl]
    refine ⟨_, _, rfl, .inl ⟨rfl, ?_⟩⟩
    have hclock : Sends w₁ (w₁.ticked P) [] := ⟨_, rfl, rfl⟩
    exact hsends.trans hclock
  · rw [if_neg (Nat.ne_of_lt hlength)]
    exact returns_pure (.inr ⟨rfl, hsends, hhindered⟩)

/-- A reply is sent, or not because something was in the way. -/
theorem sendAck_sends (hfuel : 2 ≤ fuel) (packettype : MsgType) (id : UInt16) (timer : Timer) :
    (sendAck P fuel packettype id timer).Returns w fun rc w' =>
      rc = mqttSuccess ∧ Sends w w' [ackBytes packettype id] ∧ 4 ≤ toInt w.client.bufSize ∨
        rc = failure ∧ Sends w w' [] ∧ Hindered P 4 timer w := by
  by_cases hsize : 4 ≤ toInt w.client.bufSize
  · have hack := mqttSerializeAck_of_le hsize packettype id
    apply returns_bind_of_eq_some
      (run_serialize (fun buflen => mqttSerializeAck buflen packettype 0 id) hack)
    rw [if_neg (show ¬ (4 : Int) ≤ 0 by decide)]
    apply (sendPacket_sends hwrites hfuel (show 0 < Int.toNat 4 by decide) timer).mono
    rintro rc w' (⟨hrc, hsends⟩ | ⟨hrc, hsends, hhindered⟩)
    · refine .inl ⟨hrc, ?_, hsize⟩
      have hbytes := Memory.load_store_self w.client.buf 0 (ackBytes packettype id)
      exact hbytes ▸ hsends
    · exact .inr ⟨hrc, hsends, hhindered 4⟩
  · have hack : mqttSerializeAck (toInt w.client.bufSize) packettype 0 id = .tooShort :=
      if_pos (Int.not_le.mp hsize)
    apply returns_bind_of_eq_some
      (run_serialize (fun buflen => mqttSerializeAck buflen packettype 0 id) hack)
    rw [if_pos (by decide)]
    exact returns_pure (.inr ⟨rfl, .of_trace_eq rfl, .inl (Int.not_le.mp hsize)⟩)

theorem sendPing_sends (hfuel : 2 ≤ fuel) :
    (sendPing P fuel).Returns w fun _ w' => Sends w w' [] ∨ Sends w w' [pingreqBytes] := by
  have hticked : Sends w (w.ticked P) [] := ⟨_, rfl, rfl⟩
  apply returns_bind_of_eq_some (run_timerCountdownMS 1000 w)
  have hbytes := mqttSerializePingreq_eq (toInt (w.ticked P).client.bufSize)
  split at hbytes
  · apply returns_bind_of_eq_some (run_serialize _ hbytes)
    rw [if_neg (by decide)]
    exact returns_pure (.inl hticked)
  · apply returns_bind_of_eq_some (run_serialize _ hbytes)
    rw [if_pos (by decide)]
    apply (sendPacket_sends hwrites hfuel (by decide) _).bind
    rintro rc w₂ (⟨rfl, hsends⟩ | ⟨rfl, hsends, _⟩)
    · rw [if_pos rfl]
      have hload := Memory.load_store_self (w.ticked P).client.buf 0 pingreqBytes
      exact ⟨_, _, rfl, .inr (hticked.trans (hload ▸ hsends))⟩
    · rw [if_neg (by decide)]
      exact returns_pure (.inl (hticked.trans hsends))

/-- The keepalive check sends a PINGREQ or nothing. -/
theorem keepalive_sends (hfuel : 2 ≤ fuel) :
    (keepalive P fuel).Returns w fun _ w' => Sends w w' [] ∨ Sends w w' [pingreqBytes] := by
  apply returns_bind_of_eq_some (run_client w)
  split
  · exact returns_pure (.inl (.of_trace_eq rfl))
  · obtain ⟨due, w₁, hdue⟩ : ∃ due w₁, (keepaliveDue P).run w = some (due, w₁) := by
      rw [run_keepaliveDue]
      split
      · exact ⟨_, _, rfl⟩
      · exact ⟨_, _, rfl⟩
    obtain ⟨_, asked, htrace, hquiet, _⟩ := keepaliveDue_cases hdue
    have hasked : Sends w w₁ [] := ⟨asked, htrace, sent_eq_nil hquiet⟩
    apply returns_bind_of_eq_some hdue
    split
    · split
      · exact returns_pure (.inl hasked)
      · apply (sendPing_sends hwrites hfuel).mono
        rintro rc w' (hnone | hping)
        · exact .inl (hasked.trans hnone)
        · exact .inr (hasked.trans hping)
    · exact returns_pure (.inl hasked)

end Sending

/-! ## A turn of the handshake -/

/-- The type of the reply: `(packet_type == PUBREC) ? PUBREL : PUBCOMP`. -/
def replyType (header : UInt8) : MsgType :=
  if (MQTTHeader.ofByte header).type = MsgType.pubrec.code then .pubrel else .pubcomp

/-- The packet is a PUBREC or a PUBREL. -/
def IsHandshake (header : UInt8) : Prop :=
  (MQTTHeader.ofByte header).type = MsgType.pubrec.code ∨
    (MQTTHeader.ofByte header).type = MsgType.pubrel.code

instance (header : UInt8) : Decidable (IsHandshake header) :=
  inferInstanceAs (Decidable (_ ∨ _))

theorem dispatch_handshake {header : UInt8} (h : IsHandshake header) (timer : Timer) :
    (dispatch P fuel (MQTTHeader.ofByte header).type timer : Action σ H Jump) =
      handleHandshake P fuel (replyType header) timer := by
  unfold replyType
  rcases h with h | h
  · rw [h]
    rfl
  · rw [h]
    rfl

/-- The identifier of the reply: that of the packet, or what the locals hold. -/
def replyId (body : List UInt8) (locals : CycleLocals) : UInt16 :=
  ((leadingInt? body).map UInt16.ofNat).getD locals.ack.packetid

theorem handleHandshake_sends (hwrites : WritesWhole P) (hfuel : 2 ≤ fuel) {w : World σ H}
    {header : UInt8} {body : List UInt8} (hholds : HoldsFrame w.client.readbuf header body)
    (reply : MsgType) (timer : Timer) :
    (handleHandshake P fuel reply timer).Returns w fun jump w' =>
      jump = .next mqttSuccess ∧ 4 ≤ toInt w.client.bufSize ∧
          Sends w w' [ackBytes reply (replyId body (P.cycleLocals w.env).1)] ∨
        jump = .exit failure ∧ Sends w w' [] ∧
          Hindered P 4 timer { w with env := (P.cycleLocals w.env).2 } := by
  have hlocals : (cycleLocals P).run w =
      some ((P.cycleLocals w.env).1, { w with env := (P.cycleLocals w.env).2 }) := rfl
  apply returns_bind_of_eq_some hlocals
  apply returns_bind_of_eq_some (run_client _)
  dsimp only
  rw [hholds.mqttDeserializeAck_eq]
  dsimp only
  rw [if_neg (not_not.mpr rfl)]
  apply (sendAck_sends hwrites hfuel reply _ timer).bind
  rintro rc w₂ (⟨rfl, hsends, hsize⟩ | ⟨rfl, hsends, hhindered⟩)
  · rw [if_neg (not_not.mpr rfl)]
    exact returns_pure (.inl ⟨rfl, hsize, hsends⟩)
  · rw [if_pos (by decide)]
    exact returns_pure (.inr ⟨rfl, hsends, hhindered⟩)

/-- The reply went out, and at most a PINGREQ behind it. -/
def SendsReply (reply : List UInt8) (w w' : World σ H) : Prop :=
  Sends w w' [reply] ∨ Sends w w' [reply, pingreqBytes]

/-- The turn returned an error, ended the session, and sent nothing. -/
structure ClosesUnsent (w : World σ H) (rc : Int) (w' : World σ H) : Prop where
  rc_neg : rc < 0
  closed : w'.client.isconnected = false
  unsent : Sends w w' []

theorem SendsReply.not_unsent {reply : List UInt8} {w w' : World σ H}
    (h : SendsReply reply w w') : ¬ Sends w w' [] := by
  intro hnone
  have hsent := hnone.sent_since
  rcases h with h | h
  · rw [h.sent_since] at hsent
    cases hsent
  · rw [h.sent_since] at hsent
    cases hsent

theorem readPacket_sends {timer : Timer} {rc : Int} {w w' : World σ H}
    (h : (readPacket P timer).run w = some (rc, w')) : Sends w w' [] := by
  obtain ⟨reads, w₀, ⟨_, new, htrace, hreading, _⟩, rfl, _⟩ := readPacket_cases h
  have hquiet : Sends w w₀ [] := ⟨new, htrace, sent_eq_nil (observe_of_reading hreading).2⟩
  have hlogged : Sends w₀ (w₀.log (.packet rc)) [] := ⟨_, rfl, rfl⟩
  exact hquiet.trans hlogged

theorem readPacket_bufSize {timer : Timer} {rc : Int} {w w' : World σ H}
    (h : (readPacket P timer).run w = some (rc, w')) : w'.client.bufSize = w.client.bufSize := by
  obtain ⟨_, w₀, ⟨⟨_, _, hclient⟩, _⟩, rfl, _⟩ := readPacket_cases h
  rw [World.log, hclient]

/-- What a turn does with a PUBREC or PUBREL that stands in the buffer. -/
theorem cycle_handshake (hwrites : WritesWhole P) (hfuel : 2 ≤ fuel) {timer : Timer}
    {w w₁ : World σ H} {header : UInt8} {body : List UInt8} (htype : IsHandshake header)
    (hread : (readPacket P timer).run w = some (((MQTTHeader.ofByte header).type : Int), w₁))
    (hholds : HoldsFrame w₁.client.readbuf header body) :
    (cycle P fuel timer).Returns w fun rc w' =>
      4 ≤ toInt w₁.client.bufSize ∧
          SendsReply (ackBytes (replyType header) (replyId body (P.cycleLocals w₁.env).1)) w w' ∨
        ClosesUnsent w rc w' ∧
          Hindered P 4 timer { w₁ with env := (P.cycleLocals w₁.env).2 } := by
  have hquiet := readPacket_sends hread
  apply returns_bind_of_eq_some hread
  rw [dispatch_handshake htype]
  apply (handleHandshake_sends hwrites hfuel hholds _ timer).bind
  rintro jump w₂ (⟨rfl, hsize, hsends⟩ | ⟨rfl, hsends, hhindered⟩)
  · -- whatever the keepalive check decides, the reply is out
    have hchecked : (checkKeepalive P fuel (.next mqttSuccess)).Returns w₂ fun _ w₃ =>
        Sends w₂ w₃ [] ∨ Sends w₂ w₃ [pingreqBytes] := by
      apply (keepalive_sends hwrites hfuel).bind
      intro kept w₃ hsends
      split
      · exact returns_pure hsends
      · exact returns_pure hsends
    apply hchecked.bind
    intro rc w₃ hpings
    have hreply : SendsReply _ w w₃ :=
      hpings.imp (hquiet.trans hsends).trans (hquiet.trans hsends).trans
    by_cases hrc : rc = mqttSuccess
    · exact ⟨_, _, (run_finishCycle _ rc w₃).trans (if_pos hrc), .inl ⟨hsize, hreply⟩⟩
    · exact ⟨_, _, (run_finishCycle _ rc w₃).trans (if_neg hrc), .inl ⟨hsize, hreply⟩⟩
  · have hexit : (checkKeepalive P fuel (.exit failure)).run w₂ = some (failure, w₂) := rfl
    apply returns_bind_of_eq_some hexit
    refine ⟨_, _, (run_finishCycle _ failure w₂).trans (if_neg (by decide)), .inr ⟨?_, hhindered⟩⟩
    exact ⟨by decide, w₂.client.dropSession_isconnected, hquiet.trans hsends⟩

/-! ## Other contents of the locals -/

/-- The platform with other contents of the locals of `cycle`. -/
def Platform.withLocals (P : Platform σ) (locals : σ → CycleLocals) : Platform σ :=
  { P with cycleLocals := fun s => (locals s, (P.cycleLocals s).2) }

section Locals

variable (locals : σ → CycleLocals)

theorem sendPacketLoop_withLocals (length : Nat) (timer : Timer) :
    ∀ fuel sent, (sendPacketLoop (P.withLocals locals) length timer fuel sent : Action σ H Nat) =
      sendPacketLoop P length timer fuel sent := by
  intro fuel
  induction fuel with
  | zero => exact fun _ => rfl
  | succ fuel ih =>
      intro sent
      simp only [sendPacketLoop, ih]
      rfl

theorem sendPacket_withLocals (length : Nat) (timer : Timer) :
    (sendPacket (P.withLocals locals) fuel length timer : Action σ H Int) =
      sendPacket P fuel length timer := by
  unfold sendPacket
  rw [sendPacketLoop_withLocals]
  rfl

theorem sendAck_withLocals (packettype : MsgType) (id : UInt16) (timer : Timer) :
    (sendAck (P.withLocals locals) fuel packettype id timer : Action σ H Int) =
      sendAck P fuel packettype id timer := by
  simp only [sendAck, sendPacket_withLocals]

theorem checkKeepalive_withLocals (jump : Jump) :
    (checkKeepalive (P.withLocals locals) fuel jump : Action σ H Int) =
      checkKeepalive P fuel jump := by
  have hkeep : (keepalive (P.withLocals locals) fuel : Action σ H Int) = keepalive P fuel := by
    simp only [keepalive, sendPing, sendPacket_withLocals]
    rfl
  simp only [checkKeepalive, hkeep]

/-- A send buffer without room for a reply does not see its identifier. -/
theorem run_sendAck_of_lt {w : World σ H} (hsize : toInt w.client.bufSize < 4)
    (packettype : MsgType) (id : UInt16) (timer : Timer) :
    (sendAck P fuel packettype id timer).run w =
      some (failure, w.update fun c => { c with buf := c.buf.store 0 [] }) := by
  have hack : mqttSerializeAck (toInt w.client.bufSize) packettype 0 id = .tooShort := if_pos hsize
  rw [sendAck, run_bind_of_eq_some
    (run_serialize (fun buflen => mqttSerializeAck buflen packettype 0 id) hack)]
  rfl

/-- The locals do not show if the packet has an identifier or nothing can be sent. -/
theorem handleHandshake_withLocals {w : World σ H} {header : UInt8} {body : List UInt8}
    (hholds : HoldsFrame w.client.readbuf header body)
    (hdefinite : 2 ≤ body.length ∨ toInt w.client.bufSize < 4) (reply : MsgType) (timer : Timer) :
    (handleHandshake (P.withLocals locals) fuel reply timer).run w =
      (handleHandshake P fuel reply timer).run w := by
  have hlocals : ∀ Q : Platform σ, (cycleLocals Q).run w =
      some ((Q.cycleLocals w.env).1, { w with env := (Q.cycleLocals w.env).2 }) := fun _ => rfl
  rw [handleHandshake, handleHandshake, run_bind_of_eq_some (hlocals _),
    run_bind_of_eq_some (hlocals _), run_bind_of_eq_some (run_client _),
    run_bind_of_eq_some (run_client _)]
  dsimp only
  rw [hholds.mqttDeserializeAck_eq, hholds.mqttDeserializeAck_eq]
  dsimp only
  rw [if_neg (not_not.mpr rfl), if_neg (not_not.mpr rfl), sendAck_withLocals]
  rcases hdefinite with hlong | hsmall
  · cases hid : leadingInt? body with
    | none => exact absurd (leadingInt?_eq_none_iff.mp hid) (Nat.not_lt.mpr hlong)
    | some id => rfl
  · have hsmall :
        toInt ({ w with env := (P.cycleLocals w.env).2 } : World σ H).client.bufSize < 4 := hsmall
    dsimp only [Platform.withLocals]
    rw [run_bind_of_eq_some (run_sendAck_of_lt hsmall _ _ _),
      run_bind_of_eq_some (run_sendAck_of_lt hsmall _ _ _)]

theorem cycle_withLocals {timer : Timer} {w w₁ : World σ H} {header : UInt8} {body : List UInt8}
    (htype : IsHandshake header)
    (hread : (readPacket P timer).run w = some (((MQTTHeader.ofByte header).type : Int), w₁))
    (hholds : HoldsFrame w₁.client.readbuf header body)
    (hdefinite : 2 ≤ body.length ∨ toInt w₁.client.bufSize < 4) :
    (cycle (P.withLocals locals) fuel timer).run w = (cycle P fuel timer).run w := by
  have hread' : (readPacket (P.withLocals locals) timer).run w =
    some (((MQTTHeader.ofByte header).type : Int), w₁) := hread
  rw [cycle, cycle, run_bind_of_eq_some hread, run_bind_of_eq_some hread',
    dispatch_handshake htype, dispatch_handshake htype]
  simp only [checkKeepalive_withLocals]
  rw [run_bind, handleHandshake_withLocals locals hholds hdefinite, run_bind]

end Locals

/-! ## What is asked of the turn -/

/-- The body of the first packet on the stream. -/
def firstBody (stream : Memory) : List UInt8 :=
  stream.load (1 + (lengthField stream 4 1).length) (announced stream)

@[simp]
theorem firstBody_length (stream : Memory) : (firstBody stream).length = announced stream :=
  Memory.load_length _ _ _

/-- With these sizes of the buffers, every turn that finds this PUBREC or PUBREL answers
it with its identifier or closes the session, and what it sends does not depend on the
locals. -/
def AnswersHandshake (stream : Memory) (readbufSize bufSize : Nat) : Prop :=
  ∀ (σ H : Type) (P : Platform σ) (position : σ → Nat) (w : World σ H) (timer : Timer)
    (fuel : Nat), Serves P stream none position → WritesWhole P → position w.env = 0 →
    w.client.isconnected = true → w.client.readbufSize = readbufSize →
    w.client.bufSize = bufSize → 2 ≤ fuel →
    (cycle P fuel timer).Returns w fun rc w' =>
      ((∃ id, leadingInt? (firstBody stream) = some id ∧
          SendsReply (ackBytes (replyType (stream 0)) (UInt16.ofNat id)) w w') ∨
        ClosesUnsent w rc w') ∧
      ∀ locals, (cycle (P.withLocals locals) fuel timer).Returns w fun _ w'' =>
        sent (since w w'') = sent (since w w')

/-- The packet has an identifier, or it does not fit the read buffer, or a reply does not
fit the send buffer. -/
def IsAnswerable (stream : Memory) (readbufSize bufSize : Nat) : Prop :=
  2 ≤ announced stream ∨
    toSizeT (readbufSize - headLength (announced stream)) < announced stream ∨ toInt bufSize < 4

instance (stream : Memory) (readbufSize bufSize : Nat) :
    Decidable (IsAnswerable stream readbufSize bufSize) :=
  inferInstanceAs (Decidable (_ ∨ _))

/-- A packet with room in the read buffer is read, and stands there. -/
theorem readPacket_holds {stream : Memory} {position : σ → Nat} {w : World σ H}
    (hserves : Serves P stream none position) (hstart : position w.env = 0) (timer : Timer)
    (hroom : ¬ toSizeT (w.client.readbufSize - headLength (announced stream)) < announced stream) :
    (readPacket P timer).Returns w fun rc w₁ =>
      rc = (MQTTHeader.ofByte (stream 0)).type ∧
        HoldsFrame w₁.client.readbuf (stream 0) (firstBody stream) := by
  have hserved : ∀ stop, Before none stop := fun _ => trivial
  apply (readPacket_served hserves timer hstart).mono
  rintro rc w₁ ⟨rfl, hstores⟩
  constructor
  · rw [readPacketResult_served, if_neg hroom]
  · exact hstores (hserved 1) ⟨hroom, fun _ => hserved _⟩

theorem answersHandshake_of_isAnswerable {stream : Memory} {readbufSize bufSize : Nat}
    (htype : IsHandshake (stream 0)) (h : IsAnswerable stream readbufSize bufSize) :
    AnswersHandshake stream readbufSize bufSize := by
  intro σ H P position w timer fuel hserves hwrites hstart _ hread hsend hfuel
  subst hread hsend
  by_cases hroom : toSizeT (w.client.readbufSize - headLength (announced stream)) <
      announced stream
  · -- the packet is refused before anything is done with it
    obtain ⟨_, w₁, hread, rfl, _⟩ := readPacket_served hserves timer hstart
    have hneg : readPacketResult stream none w.client.readbufSize < 0 := by
      rw [readPacketResult_served, if_pos hroom]
      decide
    have hquiet := readPacket_sends hread
    refine ⟨_, _, run_cycle_of_neg hread hneg, .inr ⟨hneg, ?_, hquiet⟩, fun locals => ?_⟩
    · exact w₁.client.dropSession_isconnected
    · have hread' : (readPacket (P.withLocals locals) timer).run w = some (_, w₁) := hread
      exact ⟨_, _, run_cycle_of_neg hread' hneg, rfl⟩
  · obtain ⟨_, w₁, hread, rfl, hholds⟩ := readPacket_holds hserves hstart timer hroom
    have hdefinite : 2 ≤ (firstBody stream).length ∨ toInt w₁.client.bufSize < 4 := by
      rw [firstBody_length, readPacket_bufSize hread]
      exact h.imp_right fun h => h.resolve_left hroom
    obtain ⟨rc, w', hrun, hturn⟩ := cycle_handshake hwrites hfuel htype hread hholds
    refine ⟨rc, w', hrun, ?_, fun locals =>
      ⟨rc, w', (cycle_withLocals locals htype hread hholds hdefinite).trans hrun, rfl⟩⟩
    rcases hturn with ⟨hsend, hreply⟩ | ⟨hcloses, _⟩
    · have hlong := hdefinite.resolve_right (Int.not_lt.mpr hsend)
      cases hid : leadingInt? (firstBody stream) with
      | none => exact absurd (leadingInt?_eq_none_iff.mp hid) (Nat.not_lt.mpr hlong)
      | some id =>
          rw [replyId, hid] at hreply
          exact .inl ⟨id, rfl, hreply⟩
    · exact .inr hcloses

/-- The application's client with its session open and buffers of these sizes. -/
def handshakeWorld (readbufSize bufSize : Nat) : World Nat Unit :=
  ⟨{ brokerClient with
      isconnected := true
      readbufSize := readbufSize
      bufSize := bufSize }, 0, []⟩

theorem streamPlatform_acceptsWrites (stream : Memory) (breakAt : Option Nat) :
    AcceptsWrites (streamPlatform stream breakAt) fun _ => True :=
  fun _ _ _ _ => ⟨_, rfl⟩

theorem not_answersHandshake_of_not_isAnswerable {stream : Memory} {readbufSize bufSize : Nat}
    (htype : IsHandshake (stream 0)) (h : ¬ IsAnswerable stream readbufSize bufSize) :
    ¬ AnswersHandshake stream readbufSize bufSize := by
  intro hanswers
  obtain ⟨hshort, hrest⟩ := not_or.mp h
  obtain ⟨hroom, hsend⟩ := not_or.mp hrest
  have hserves := streamPlatform_serves stream none
  have haccepts := streamPlatform_acceptsWrites stream none
  obtain ⟨rc, w', hrun, hanswered, _⟩ := hanswers Nat Unit _ id (handshakeWorld readbufSize bufSize)
    second 2 hserves haccepts.writesWhole rfl rfl rfl rfl (Nat.le_refl 2)
  obtain ⟨_, w₁, hread, rfl, hholds⟩ :=
    readPacket_holds hserves (w := handshakeWorld readbufSize bufSize) rfl second hroom
  obtain ⟨rc', w'', hrun', hturn⟩ :=
    cycle_handshake haccepts.writesWhole (Nat.le_refl 2) htype hread hholds
  obtain ⟨rfl, rfl⟩ := run_inj hrun hrun'
  rcases hturn with ⟨_, hreply⟩ | ⟨_, hhindered⟩
  · rcases hanswered with ⟨id, hid, _⟩ | hcloses
    · have hnone : leadingInt? (firstBody stream) = none := by
        rw [leadingInt?_eq_none_iff, firstBody_length]
        omega
      rw [hnone] at hid
      cases hid
    · exact hreply.not_unsent hcloses.unsent
  · -- the clock stands still, and every write is accepted
    have hsize : w₁.client.bufSize = bufSize := readPacket_bufSize hread
    rw [← hsize] at hsend
    exact haccepts.not_hindered (Int.not_lt.mp hsend) rfl hhindered

/-- The turn answers a PUBREC or PUBREL with its identifier, or closes the session,
exactly if there is an identifier, no room for the packet, or none for the reply. -/
theorem answersHandshake_iff (stream : Memory) (readbufSize bufSize : Nat)
    (htype : IsHandshake (stream 0)) :
    AnswersHandshake stream readbufSize bufSize ↔ IsAnswerable stream readbufSize bufSize := by
  constructor
  · intro hanswers
    by_contra h
    exact not_answersHandshake_of_not_isAnswerable htype h hanswers
  · exact answersHandshake_of_isAnswerable htype

/-- A PUBREC with an identifier. -/
theorem answersHandshake_iff_pubrec :
    IsHandshake (streamOf [0x50, 2, 0, 7] 0) ∧
      AnswersHandshake (streamOf [0x50, 2, 0, 7]) 1024 1024 :=
  ⟨by decide, (answersHandshake_iff _ 1024 1024 (by decide)).mpr (by decide)⟩

/-- The locals of `cycle` with this identifier. -/
def localsWith (id : UInt16) : Nat → CycleLocals :=
  fun _ => ⟨⟨0, 0, 0, 0, .initializer, .null, 0⟩, ⟨0, 0, id⟩⟩

/-- A PUBREC without a body is answered, and the identifier of the PUBREL is the one the
locals hold. -/
theorem not_answersHandshake_empty_pubrec :
    let turn (id : UInt16) := (cycle ((streamPlatform (streamOf [0x50, 0]) none).withLocals
      (localsWith id)) 2 second).run (handshakeWorld 1024 1024)
    (turn 1).map (fun r => (r.1, sent r.2.trace)) = some (5, [[0x62, 2, 0, 1]]) ∧
      (turn 0x1234).map (fun r => (r.1, sent r.2.trace)) = some (5, [[0x62, 2, 0x12, 0x34]]) ∧
      ¬ AnswersHandshake (streamOf [0x50, 0]) 1024 1024 :=
  ⟨by decide, by decide, not_answersHandshake_of_not_isAnswerable (by decide) (by decide)⟩

end MqttClient

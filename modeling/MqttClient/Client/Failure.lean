/-
# Turns in which the transport fails

A read can fail in each of the three steps of `readPacket`.  Only the first step
looks at the result of its read.  A failure within the length field is taken for
the end of the field, and a failure within the body for a timeout, so such a turn
goes on with what it has: with a packet that never arrived, or with none.

Here the transport fails at some byte of the packet and the turn is asked to end
the session, to return an error, and to do nothing else.  It does so for every
client and every platform if the failure comes at the header byte, or if the length
decoded before it is too large for the read buffer; for every other failure there is
a client for which it does not.
-/

import MqttClient.Client.Ping
import MqttClient.Client.Readers
import MqttClient.Client.Transducer

namespace MqttClient

open Semantics Program

variable {σ H : Type} {P : Platform σ} {fuel : Nat}

/-! ## A negative result of `readPacket` -/

theorem MsgType.ofCode?_of_neg {packetType : Int} (h : packetType < 0) :
    MsgType.ofCode? packetType = none := by
  cases hcode : MsgType.ofCode? packetType with
  | none => rfl
  | some t =>
      have heq := MsgType.ofCode?_eq_some hcode
      omega

/-- An error of `readPacket` is returned as it is, and the session is over. -/
theorem run_cycle_of_neg {timer : Timer} {rc : Int} {w w₁ : World σ H}
    (hread : (readPacket P timer).run w = some (rc, w₁)) (hneg : rc < 0) :
    (cycle P fuel timer).run w = some (rc, w₁.update MQTTClient.dropSession) := by
  have hdispatch : (dispatch P fuel rc timer).run w₁ = some (.exit rc, w₁) := by
    unfold dispatch
    rw [MsgType.ofCode?_of_neg hneg]
    dsimp only
    rw [if_neg (by omega)]
    rfl
  have hkeep : (checkKeepalive P fuel (.exit rc)).run w₁ = some (rc, w₁) := rfl
  rw [cycle, run_bind_of_eq_some hread, run_bind_of_eq_some hdispatch, run_bind_of_eq_some hkeep,
    run_finishCycle, if_neg (Int.ne_of_lt hneg)]

/-- `readPacket` calls no handler and writes nothing. -/
theorem readPacket_observe {timer : Timer} {rc : Int} {w w' : World σ H}
    (h : (readPacket P timer).run w = some (rc, w')) :
    deliveries (since w w') = [] ∧ writes (since w w') = [] := by
  obtain ⟨reads, w₀, ⟨_, new, htrace, hreading, _⟩, rfl, _⟩ := readPacket_cases h
  obtain ⟨hcalls, hsent⟩ := observe_of_reading hreading
  have hsince : since w (w₀.log (.packet rc)) = new ++ [.packet rc] := by
    simp [since, World.log, htrace]
  rw [hsince, deliveries_append, writes_append, hcalls, hsent]
  exact ⟨rfl, rfl⟩

/-! ## What is asked of the turn -/

/-- The turn returned an error, ended the session, and did nothing else. -/
structure StoppedQuietly (w : World σ H) (rc : Int) (w' : World σ H) : Prop where
  rc_neg : rc < 0
  closed : w'.client.isconnected = false
  deliveries_eq : deliveries (since w w') = []
  writes_eq : writes (since w w') = []

/-- With this size of the read buffer, every turn in which the transport fails at byte
`k` of the stream stops there. -/
def StopsAtFailure (stream : Memory) (k readbufSize : Nat) : Prop :=
  ∀ (σ H : Type) (P : Platform σ) (position : σ → Nat) (w : World σ H) (timer : Timer),
    Serves P stream (some k) position → position w.env = 0 → w.client.isconnected = true →
    w.client.readbufSize = readbufSize →
    ∃ enough, ∀ fuel, enough ≤ fuel → (cycle P fuel timer).Returns w (StoppedQuietly w)

/-- The byte at which the transport fails belongs to the first packet of the stream. -/
def FailsInPacket (stream : Memory) (k : Nat) : Prop :=
  k < 1 + (lengthField stream 4 1).length + announced stream

instance (stream : Memory) (k : Nat) : Decidable (FailsInPacket stream k) :=
  inferInstanceAs (Decidable (k < _))

/-- The length decoded from the bytes before the failure. -/
def decodedBefore (stream : Memory) (k : Nat) : Nat :=
  lengthValue (lengthField stream (fieldBytes (some k)) 1)

/-- The failures that the client notices: those at the header byte, and those before
which a length was decoded that is too large for the buffer. -/
def IsNoticed (stream : Memory) (k readbufSize : Nat) : Prop :=
  k = 0 ∨ toSizeT (readbufSize - headLength (decodedBefore stream k)) < decodedBefore stream k

instance (stream : Memory) (k readbufSize : Nat) : Decidable (IsNoticed stream k readbufSize) :=
  inferInstanceAs (Decidable (_ ∨ _))

theorem readPacketResult_neg_of_isNoticed {stream : Memory} {k readbufSize : Nat}
    (h : IsNoticed stream k readbufSize) : readPacketResult stream (some k) readbufSize < 0 := by
  unfold readPacketResult
  split
  · rename_i hheader
    rcases h with rfl | hover
    · exact absurd hheader (by decide)
    · show readBodyResult (some k) (stream 0) readbufSize _ (decodedBefore stream k) < 0
      rw [readBodyResult, if_pos hover]
      decide
  · decide

theorem stopsAtFailure_of_isNoticed {stream : Memory} {k readbufSize : Nat}
    (h : IsNoticed stream k readbufSize) : StopsAtFailure stream k readbufSize := by
  intro σ H P position w timer hserves hstart _ hsize
  refine ⟨0, fun fuel _ => ?_⟩
  obtain ⟨_, w₁, hread, rfl, _⟩ := readPacket_served hserves timer hstart
  rw [hsize] at hread
  have hneg := readPacketResult_neg_of_isNoticed h
  obtain ⟨hcalls, hsent⟩ := readPacket_observe hread
  exact ⟨_, _, run_cycle_of_neg hread hneg, hneg, w₁.client.dropSession_isconnected, hcalls, hsent⟩

/-- Behind a failure in the packet that the client does not notice there is no body: none
is announced, or the read of it fails. -/
theorem readPacketResult_of_not_isNoticed {stream : Memory} {k readbufSize : Nat}
    (hin : FailsInPacket stream k) (h : ¬ IsNoticed stream k readbufSize) :
    readPacketResult stream (some k) readbufSize = 0 ∨
      readPacketResult stream (some k) readbufSize = (MQTTHeader.ofByte (stream 0)).type ∧
        decodedBefore stream k = 0 := by
  obtain ⟨hpos, hroom⟩ := not_or.mp h
  have hheader : Before (some k) 1 := Nat.pos_of_ne_zero hpos
  rw [readPacketResult, if_pos hheader]
  show readBodyResult (some k) (stream 0) readbufSize _ (decodedBefore stream k) = 0 ∨
    readBodyResult (some k) (stream 0) readbufSize _ (decodedBefore stream k) = _ ∧ _
  rw [readBodyResult, if_neg hroom]
  by_cases hzero : decodedBefore stream k = 0
  · rw [if_neg (by omega)]
    exact .inr ⟨rfl, hzero⟩
  · rw [if_pos]
    · exact .inl rfl
    · refine ⟨Nat.pos_of_ne_zero hzero, fun hbefore => ?_⟩
      have hbefore : 1 + (lengthField stream (fieldBytes (some k)) 1).length +
        decodedBefore stream k ≤ k := hbefore
      by_cases hend : fieldBytes (some k) = 4 ∨
          Terminates (lengthField stream (fieldBytes (some k)) 1)
      · have hwhole : lengthField stream 4 1 = lengthField stream (fieldBytes (some k)) 1 := by
          rcases hend with hall | hterm
          · rw [hall]
          · exact lengthField_eq_of_terminates stream (fieldBytes_le _) hterm
        rw [FailsInPacket, announced, hwhole, ← decodedBefore] at hin
        omega
      · obtain ⟨hfew, hterm⟩ := not_or.mp hend
        have hlength := lengthField_length_of_not_terminates stream hterm
        simp only [fieldBytes] at hfew hlength hbefore
        omega

/-! ## What happens otherwise -/

/-- Without a keepalive interval the check keeps the result it is given. -/
theorem run_checkKeepalive_of_interval_zero (jump : Jump) {w : World σ H}
    (h : w.client.keepAliveInterval = 0) :
    (checkKeepalive P fuel jump).run w =
      some (match jump with | .exit rc => rc | .next rc => rc, w) := by
  cases jump with
  | exit rc => rfl
  | next rc =>
      have hkeep : (keepalive P fuel).run w = some (mqttSuccess, w) := by
        rw [keepalive, run_bind_of_eq_some (run_client w), if_pos h]
        rfl
      rw [checkKeepalive, run_bind_of_eq_some hkeep]
      rfl

/-- Without a keepalive interval, a packet that was read turns into an error only in the
`switch`. -/
theorem dispatch_exit_of_cycle_neg {timer : Timer} {packetType rc : Int} {w w₁ w' : World σ H}
    (hcycle : (cycle P fuel timer).run w = some (rc, w')) (hrc : rc < 0)
    (hread : (readPacket P timer).run w = some (packetType, w₁)) (hpacket : 0 ≤ packetType)
    (hinterval : w₁.client.keepAliveInterval = 0) :
    ∃ w₂, (dispatch P fuel packetType timer).run w₁ = some (.exit failure, w₂) ∧
      w' = w₂.update MQTTClient.dropSession := by
  rw [cycle, run_bind_of_eq_some hread] at hcycle
  obtain ⟨jump, w₂, hdispatch, hcycle⟩ := run_bind_eq_some.mp hcycle
  obtain ⟨rc', w₃, hkeep, hfinish⟩ := run_bind_eq_some.mp hcycle
  obtain ⟨⟨⟨_, _, _, hclient⟩, _⟩, hjump⟩ := dispatch_spec hdispatch
  rw [run_checkKeepalive_of_interval_zero jump (by rw [hclient]; exact hinterval)] at hkeep
  obtain ⟨rfl, rfl⟩ := Prod.mk.inj (Option.some.inj hkeep)
  rw [run_finishCycle] at hfinish
  have hdropped : ∀ {r : Int}, r ≠ mqttSuccess → jump = .exit r →
      rc = r ∧ w' = w₂.update MQTTClient.dropSession := by
    rintro r hne rfl
    rw [if_neg hne] at hfinish
    cases hfinish
    exact ⟨rfl, rfl⟩
  have hkept : jump ≠ .next mqttSuccess ∧ jump ≠ .exit mqttSuccess := by
    constructor <;> rintro rfl <;> cases hfinish <;> omega
  by_cases hhandled : isHandled packetType = true
  · rw [if_pos hhandled] at hjump
    have hexit := (hjump.resolve_left hkept.1).resolve_left hkept.2
    exact ⟨w₂, hexit ▸ hdispatch, (hdropped (by decide) hexit).2⟩
  · rw [if_neg hhandled] at hjump
    have hzero : packetType ≠ mqttSuccess := fun h => hkept.2 (h ▸ hjump)
    have heq := (hdropped hzero hjump).1
    omega

/-- The trace grew from `w` to `w'` and shows something of this kind. -/
def Shows {β : Type} (observe : Event H → Option β) (w w' : World σ H) : Prop :=
  ∃ new, w'.trace = w.trace ++ new ∧ new.filterMap observe ≠ []

namespace Shows

variable {β : Type} {observe : Event H → Option β} {w w' w'' : World σ H}

theorem append (h : Shows observe w w') (hgrew : ∃ new, w''.trace = w'.trace ++ new) :
    Shows observe w w'' := by
  obtain ⟨new, htrace, hshown⟩ := h
  obtain ⟨new', htrace'⟩ := hgrew
  refine ⟨new ++ new', by rw [htrace', htrace, List.append_assoc], ?_⟩
  rw [List.filterMap_append]
  exact List.append_ne_nil_of_left_ne_nil hshown _

theorem prepend (hgrew : ∃ new, w'.trace = w.trace ++ new) (h : Shows observe w' w'') :
    Shows observe w w'' := by
  obtain ⟨new, htrace⟩ := hgrew
  obtain ⟨new', htrace', hshown⟩ := h
  refine ⟨new ++ new', by rw [htrace', htrace, List.append_assoc], ?_⟩
  rw [List.filterMap_append]
  exact List.append_ne_nil_of_right_ne_nil _ hshown

theorem since_ne (h : Shows observe w w') : (since w w').filterMap observe ≠ [] := by
  obtain ⟨new, htrace, hshown⟩ := h
  rw [since_of_append htrace]
  exact hshown

end Shows

/-- A client with a default handler has a handler for every topic. -/
theorem handlersFor_ne_nil {c : MQTTClient H} {fp : H} (h : c.defaultMessageHandler = some fp)
    (topicName : MQTTString) : c.handlersFor topicName ≠ [] := by
  unfold MQTTClient.handlersFor
  split
  · rw [h]
    exact List.cons_ne_nil _ _
  · rename_i hne
    exact hne

theorem deliverMessage_shows {fp : H} (topicName : MQTTString) (message : MQTTMessage)
    {rc : Int} {w w' : World σ H} (hdefault : w.client.defaultMessageHandler = some fp)
    (h : (deliverMessage topicName message).run w = some (rc, w')) :
    Shows Event.delivery? w w' := by
  obtain ⟨rc', hrun⟩ := run_deliverMessage topicName message w
  obtain ⟨rfl, rfl⟩ := run_inj hrun h
  obtain ⟨first, rest, hhandlers⟩ :=
    List.exists_cons_of_ne_nil (handlersFor_ne_nil hdefault topicName)
  refine ⟨_, rfl, ?_⟩
  rw [hhandlers]
  exact List.cons_ne_nil _ _

/-- A PUBLISH without a body is delivered, under the topic the locals happen to hold. -/
theorem handlePublish_shows {timer : Timer} {jump : Jump} {w w' : World σ H} {header : UInt8}
    (hholds : HoldsFrame w.client.readbuf header [])
    (htype : (MQTTHeader.ofByte header).type = MsgType.publish.code) {fp : H}
    (hdefault : w.client.defaultMessageHandler = some fp)
    (h : (handlePublish P fuel timer).run w = some (jump, w')) : Shows Event.delivery? w w' := by
  have hshort : ¬ TopicFits [] := by
    rintro ⟨n, hlead, _⟩
    cases hlead
  obtain ⟨locals, w₁, hlocals, h⟩ := run_bind_eq_some.mp h
  cases hlocals
  rw [run_bind_of_eq_some (run_client _)] at h
  split at h
  rename_i rc out hout
  have hrc := hholds.mqttDeserializePublish_of_not_fits htype hshort
    { (P.cycleLocals w.env).1.publish with payloadlen := 0 }
  rw [hout] at hrc
  have hone : rc = 1 := hrc
  rw [if_neg (not_not.mpr hone)] at h
  obtain ⟨_, w₂, hdeliver, h⟩ := run_bind_eq_some.mp h
  have hshown : Shows Event.delivery? w w₂ := deliverMessage_shows
    (w := { w with env := (P.cycleLocals w.env).2 }) out.topicName out.message hdefault hdeliver
  refine hshown.append ?_
  split at h
  · obtain ⟨rc', w₃, hack, h⟩ := run_bind_eq_some.mp h
    have hgrew := (sendFrame_emits.acknowledgePublish _ _ _ _ _ hack).grew
    split at h
    · obtain ⟨_, rfl⟩ := run_pure_eq_some.mp h
      exact hgrew
    · obtain ⟨_, rfl⟩ := run_pure_eq_some.mp h
      exact hgrew
  · obtain ⟨_, rfl⟩ := run_pure_eq_some.mp h
    exact ⟨[], by simp⟩

/-- A send that finds its timer running offers the packet to the network. -/
theorem sendPacketLoop_shows {length : Nat} (hlength : 0 < length) {timer : Timer} {sent : Nat}
    {w w' : World σ H} (h : (sendPacketLoop P length timer fuel 0).run w = some (sent, w'))
    (hrunning : timer.isExpiredAt (P.gettimeofday w.env).1 = false) :
    Shows Event.written? w w' := by
  obtain ⟨hexpired, _⟩ | ⟨new, htrace, hhead⟩ := sendPacketLoop_offers hlength h
  · rw [hrunning] at hexpired
    cases hexpired
  · refine ⟨new, htrace, fun hnil => ?_⟩
    have hwrites : writes new = [] := hnil
    rw [hwrites] at hhead
    cases hhead

theorem sendPacket_shows {length : Nat} (hlength : 0 < length) {timer : Timer} {rc : Int}
    {w w' : World σ H} (h : (sendPacket P fuel length timer).run w = some (rc, w'))
    (hrunning : timer.isExpiredAt (P.gettimeofday w.env).1 = false) :
    Shows Event.written? w w' := by
  obtain ⟨sent, w₁, hloop, h⟩ := run_bind_eq_some.mp h
  refine (sendPacketLoop_shows hlength hloop hrunning).append ?_
  split at h
  · rw [run_bind_of_eq_some (run_client _)] at h
    obtain ⟨lastSent, w₂, hcount, h⟩ := run_bind_eq_some.mp h
    obtain ⟨_, _, hset, h⟩ := run_bind_eq_some.mp h
    cases hset
    obtain ⟨_, rfl⟩ := run_pure_eq_some.mp h
    exact (sendFrame_emits.timerCountdown _ w₁ lastSent w₂ hcount).grew
  · obtain ⟨_, rfl⟩ := run_pure_eq_some.mp h
    exact ⟨[], by simp⟩

theorem sendAck_shows {packettype : MsgType} {id : UInt16} {timer : Timer} {rc : Int}
    {w w' : World σ H} (h : (sendAck P fuel packettype id timer).run w = some (rc, w'))
    (hsize : 4 ≤ toInt w.client.bufSize)
    (hrunning : timer.isExpiredAt (P.gettimeofday w.env).1 = false) :
    Shows Event.written? w w' := by
  have hack := mqttSerializeAck_of_le hsize packettype id
  rw [sendAck, run_bind_of_eq_some
    (run_serialize (fun buflen => mqttSerializeAck buflen packettype 0 id) hack)] at h
  dsimp only at h
  rw [if_neg (by decide)] at h
  have hshown := sendPacket_shows (show 0 < Int.toNat 4 by decide) h hrunning
  exact hshown

/-- A PUBREC or PUBREL without a body is answered, with the identifier the locals happen
to hold. -/
theorem handleHandshake_shows {reply : MsgType} {timer : Timer} {jump : Jump} {w w' : World σ H}
    {header : UInt8} (hholds : HoldsFrame w.client.readbuf header [])
    (hsize : 4 ≤ toInt w.client.bufSize)
    (hrunning : timer.isExpiredAt (P.gettimeofday (P.cycleLocals w.env).2).1 = false)
    (h : (handleHandshake P fuel reply timer).run w = some (jump, w')) :
    Shows Event.written? w w' := by
  obtain ⟨locals, w₁, hlocals, h⟩ := run_bind_eq_some.mp h
  cases hlocals
  rw [run_bind_of_eq_some (run_client _)] at h
  dsimp only at h
  rw [hholds.mqttDeserializeAck_eq] at h
  dsimp only at h
  rw [if_neg (not_not.mpr rfl)] at h
  obtain ⟨rc, w₂, hack, h⟩ := run_bind_eq_some.mp h
  have hshown : Shows Event.written? w w₂ :=
    sendAck_shows (w := { w with env := (P.cycleLocals w.env).2 }) hack hsize hrunning
  split at h
  · obtain ⟨_, rfl⟩ := run_pure_eq_some.mp h
    exact hshown
  · obtain ⟨_, rfl⟩ := run_pure_eq_some.mp h
    exact hshown

/-- A packet without a body that makes the `switch` fail has been delivered or answered
by then. -/
theorem dispatch_shows {packetType : Int} {timer : Timer} {w w' : World σ H} {header : UInt8}
    {fp : H} (hpacket : packetType = (MQTTHeader.ofByte header).type)
    (hholds : HoldsFrame w.client.readbuf header [])
    (hdefault : w.client.defaultMessageHandler = some fp) (hsize : 4 ≤ toInt w.client.bufSize)
    (hrunning : timer.isExpiredAt (P.gettimeofday (P.cycleLocals w.env).2).1 = false)
    (h : (dispatch P (fuel + 1) packetType timer).run w = some (.exit failure, w')) :
    Shows Event.delivery? w w' ∨ Shows Event.written? w w' := by
  have hnonneg : packetType ≠ failure := by
    have hneg : failure < 0 := by decide
    omega
  cases hcode : MsgType.ofCode? packetType with
  | none =>
      simp only [dispatch, hcode] at h
      split at h
      · cases h
      · cases h
        exact absurd rfl hnonneg
  | some t =>
      have heq := MsgType.ofCode?_eq_some hcode
      have hpos := t.code_pos
      have htype : (MQTTHeader.ofByte header).type = t.code := by omega
      have hzero : ¬ packetType = 0 := by omega
      cases t
      case publish =>
        simp only [dispatch, hcode] at h
        exact .inl (handlePublish_shows hholds htype hdefault h)
      case pubrec =>
        simp only [dispatch, hcode] at h
        exact .inr (handleHandshake_shows hholds hsize hrunning h)
      case pubrel =>
        simp only [dispatch, hcode] at h
        exact .inr (handleHandshake_shows hholds hsize hrunning h)
      -- a notice leaves for the keepalive check, and the default branch returns the type
      all_goals
        simp only [dispatch, hcode, hzero, if_false] at h
        cases h
      all_goals exact absurd rfl hnonneg

/-- The application's client with its session open, a default handler, and a read buffer
of this size. -/
def readingWorld (readbufSize : Nat) : World Nat Unit :=
  ⟨{ brokerClient with
      isconnected := true
      readbufSize := readbufSize
      defaultMessageHandler := some () }, 0, []⟩

theorem not_stopsAtFailure_of_not_isNoticed {stream : Memory} {k readbufSize : Nat}
    (hin : FailsInPacket stream k) (h : ¬ IsNoticed stream k readbufSize) :
    ¬ StopsAtFailure stream k readbufSize := by
  intro hstops
  have hserves := streamPlatform_serves stream (some k)
  obtain ⟨enough, hall⟩ :=
    hstops Nat Unit _ id (readingWorld readbufSize) second hserves rfl rfl rfl
  obtain ⟨rc, w', hcycle, hquiet⟩ := hall (enough + 1) (Nat.le_succ enough)
  obtain ⟨_, w₁, hread, rfl, hframe⟩ :=
    readPacket_served hserves second (w := readingWorld readbufSize) rfl
  obtain ⟨reads, w₀, ⟨⟨_, _, hclient⟩, new, hgrew, _⟩, rfl, _⟩ := readPacket_cases hread
  have hresult : 0 ≤ readPacketResult stream (some k) readbufSize := by
    rcases readPacketResult_of_not_isNoticed hin h with heq | ⟨heq, _⟩ <;> omega
  obtain ⟨w₂, hdispatch, rfl⟩ := dispatch_exit_of_cycle_neg hcycle hquiet.rc_neg hread hresult
    (by rw [World.log, hclient]; rfl)
  rcases readPacketResult_of_not_isNoticed hin h with heq | ⟨heq, hzero⟩
  · -- a timeout goes straight to the keepalive check
    rw [show (readingWorld readbufSize).client.readbufSize = readbufSize from rfl, heq] at hdispatch
    cases hdispatch
  · have hheader : Before (some k) 1 := Nat.pos_of_ne_zero (not_or.mp h).1
    have hroom : (4 : Int) ≤ toInt mqttBufsize := by decide
    have hzero : lengthValue (lengthField stream (fieldBytes (some k)) 1) = 0 := hzero
    have harrives : BodyArrives (some k) readbufSize
        (1 + (lengthField stream (fieldBytes (some k)) 1).length)
        (lengthValue (lengthField stream (fieldBytes (some k)) 1)) := by
      rw [hzero]
      exact ⟨Nat.not_lt_zero _, fun h => absurd h (Nat.lt_irrefl 0)⟩
    have hholds := hframe hheader harrives
    rw [hzero, Memory.load_zero] at hholds
    have hshown := dispatch_shows heq hholds (by rw [World.log, hclient]; rfl)
      (by rw [World.log, hclient]; exact hroom) (by rfl) hdispatch
    have hgrew : ∃ new, (w₀.log (.packet (readPacketResult stream (some k) readbufSize))).trace =
        (readingWorld readbufSize).trace ++ new :=
      ⟨new ++ [.packet _], by rw [World.log, hgrew, List.append_assoc]⟩
    rcases hshown with hshown | hshown
    · exact (Shows.prepend hgrew hshown).since_ne hquiet.deliveries_eq
    · exact (Shows.prepend hgrew hshown).since_ne hquiet.writes_eq

/-- The turn stops at a failure of the transport exactly if that failure is noticed. -/
theorem stopsAtFailure_iff (stream : Memory) (k readbufSize : Nat)
    (hin : FailsInPacket stream k) :
    StopsAtFailure stream k readbufSize ↔ IsNoticed stream k readbufSize := by
  constructor
  · intro hstops
    by_contra h
    exact not_stopsAtFailure_of_not_isNoticed hin h hstops
  · exact stopsAtFailure_of_isNoticed

/-- A failure at the header byte of a PUBLISH, and one at its third length byte, when the two
before it have already announced more than the buffer holds. -/
theorem stopsAtFailure_iff_noticed :
    (FailsInPacket (streamOf [0x30, 5]) 0 ∧ StopsAtFailure (streamOf [0x30, 5]) 0 1024) ∧
      FailsInPacket (streamOf [0x30, 0xFF, 0xFF]) 3 ∧
        StopsAtFailure (streamOf [0x30, 0xFF, 0xFF]) 3 1024 :=
  ⟨⟨by decide, (stopsAtFailure_iff _ 0 1024 (by decide)).mpr (by decide)⟩,
    by decide, (stopsAtFailure_iff _ 3 1024 (by decide)).mpr (by decide)⟩

/-- The connection breaks in the body of a PUBLISH and the turn reports a timeout.  It
breaks after the header byte, and the turn delivers a message. -/
theorem not_stopsAtFailure_broken_publish :
    ((cycle (streamPlatform (streamOf [0x30, 5]) (some 2)) 8 second).run (readingWorld 1024)).map
        (fun r => (r.1, r.2.client.isconnected)) = some (0, true) ∧
      ((cycle (streamPlatform (streamOf [0x30]) (some 1)) 8 second).run (readingWorld 1024)).map
        (fun r => (r.1, r.2.client.isconnected, (deliveries r.2.trace).length)) =
          some (3, true, 1) ∧
      ¬ StopsAtFailure (streamOf [0x30, 5]) 2 1024 :=
  ⟨by decide, by decide, not_stopsAtFailure_of_not_isNoticed (by decide) (by decide)⟩

end MqttClient

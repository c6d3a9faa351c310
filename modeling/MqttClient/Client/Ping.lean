/-
# The keepalive check

A call of `keepalive` asks the two timers and then either leaves things as they are,
reports that the ping it sent before was not answered, or sends a PINGREQ.  A ping
shows from outside: the call succeeds and the packet is what it first offers to the
network.  `keepalive_cases` says that this is when the ping flag rises, and that the
sending timer then runs from the last clock reading of the call.
-/

import MqttClient.Client.Inbound

namespace MqttClient

open Semantics Program

variable {σ H : Type} {P : Platform σ} {fuel : Nat}

/-! ## The two flags -/

/-- The session flag and the ping flag did not change. -/
structure SameFlags (w w' : World σ H) : Prop where
  isconnected : w'.client.isconnected = w.client.isconnected
  pingOutstanding : w'.client.pingOutstanding = w.client.pingOutstanding

theorem SameFlags.trans {w w' w'' : World σ H} (h : SameFlags w w') (h' : SameFlags w' w'') :
    SameFlags w w'' :=
  ⟨h'.isconnected.trans h.isconnected, h'.pingOutstanding.trans h.pingOutstanding⟩

/-- Neither sending nor calling handlers touches the flags. -/
theorem reactFrame_sameFlags : ReactFrame P (SameFlags (σ := σ) (H := H)) where
  refl _ := ⟨rfl, rfl⟩
  trans := .trans
  clock _ := ⟨rfl, rfl⟩
  timer _ _ := ⟨rfl, rfl⟩
  write _ := ⟨rfl, rfl⟩
  filled _ _ := ⟨rfl, rfl⟩
  sent _ := ⟨rfl, rfl⟩
  call _ _ _ := ⟨rfl, rfl⟩
  locals _ := ⟨rfl, rfl⟩

/-- Receiving a packet does not touch the flags either. -/
theorem readPacket_sameFlags {timer : Timer} {rc : Int} {w w' : World σ H}
    (h : (readPacket P timer).run w = some (rc, w')) : SameFlags w w' := by
  obtain ⟨_, w₀, ⟨⟨_, _, hclient⟩, _⟩, rfl, _⟩ := readPacket_cases h
  constructor <;> simp only [World.log, hclient]

/-- A PINGRESP clears the ping flag, and no other packet touches the flags. -/
theorem dispatch_flags {packetType : Int} {timer : Timer} {jump : Jump} {w w' : World σ H}
    (h : (dispatch P fuel packetType timer).run w = some (jump, w')) :
    w'.client.isconnected = w.client.isconnected ∧
      w'.client.pingOutstanding =
        if packetType = MsgType.pingresp.code then false else w.client.pingOutstanding := by
  by_cases htype : packetType = MsgType.pingresp.code
  · subst htype
    cases h
    exact ⟨rfl, rfl⟩
  · have hsame := reactFrame_sameFlags.dispatch timer (fun heq => absurd heq htype) _ _ _ h
    rw [if_neg htype]
    exact ⟨hsame.isconnected, hsame.pingOutstanding⟩

/-- What the end of a turn does to the flags. -/
theorem MQTTClient.dropSession_flags (c : MQTTClient H) :
    c.dropSession.pingOutstanding = (if c.isconnected then false else c.pingOutstanding) ∧
      c.dropSession.isconnected = false := by
  unfold dropSession closeSession cleanSession
  dsimp only
  split
  · split
    · exact ⟨rfl, rfl⟩
    · exact ⟨rfl, rfl⟩
  · rename_i hclosed
    exact ⟨rfl, by simpa using hclosed⟩

/-! ## Clock readings -/

/-- The time a reading of the clock reported. -/
def Event.reading? : Event H → Option Timeval
  | .clock now => some now
  | _ => none

/-- The clock readings in a trace, in order. -/
def readings (trace : List (Event H)) : List Timeval := trace.filterMap Event.reading?

@[simp]
theorem readings_append (a b : List (Event H)) : readings (a ++ b) = readings a ++ readings b :=
  List.filterMap_append

/-- The readings at which a keepalive check would ask its two timers. -/
def checkTimes (P : Platform σ) (env : σ) : Timeval × Timeval :=
  ((P.gettimeofday env).1, (P.gettimeofday (P.gettimeofday env).2).1)

/-- The receiving timer is asked only if the sending timer is still running. -/
theorem run_keepaliveDue (w : World σ H) :
    (keepaliveDue P).run w =
      if w.client.lastSent.isExpiredAt (checkTimes P w.env).1 then
        some (true, w.asked P w.client.lastSent)
      else some (w.client.lastReceived.isExpiredAt (checkTimes P w.env).2,
        (w.asked P w.client.lastSent).asked P w.client.lastReceived) := by
  unfold keepaliveDue checkTimes
  rw [run_bind_of_eq_some (run_client w), run_bind_of_eq_some (run_timerIsExpired _ w)]
  split
  · rfl
  · rfl

/-! ## Sending a ping -/

/-- One iteration of the loop: the timer has expired, or what is left is offered to the
network, which may fail. -/
theorem sendPacketLoop_iteration {length sent : Nat} (hlt : sent < length) {timer : Timer}
    {sent' : Nat} {w w' : World σ H}
    (h : (sendPacketLoop P length timer (fuel + 1) sent).run w = some (sent', w')) :
    (timer.isExpiredAt (P.gettimeofday w.env).1 = true ∧ sent' = sent ∧ w' = w.asked P timer) ∨
      timer.isExpiredAt (P.gettimeofday w.env).1 = false ∧
        ∃ now rc w₁, w₁.trace = w.trace ++ (askedEvents P w.env timer ++
            [.clock now, .write (w.client.buf.load sent length) rc]) ∧
          if rc < 0 then sent' = sent ∧ w' = w₁
          else (sendPacketLoop P length timer fuel (sent + rc.toNat)).run w₁ = some (sent', w') := by
  rw [sendPacketLoop, if_pos hlt, run_bind_of_eq_some (run_timerIsExpired timer w)] at h
  split at h
  · rename_i hexpired
    obtain ⟨rfl, rfl⟩ := run_pure_eq_some.mp h
    exact .inl ⟨hexpired, rfl, rfl⟩
  · rename_i hrunning
    rw [run_bind_of_eq_some (run_timerLeftMS timer _), run_bind_of_eq_some (run_client _)] at h
    obtain ⟨rc, w₁, hwrite, h⟩ := run_bind_eq_some.mp h
    obtain ⟨env, _, hw₁⟩ := run_mqttwrite_eq_some hwrite
    refine .inr ⟨Bool.eq_false_iff.mpr hrunning,
      (P.gettimeofday (P.gettimeofday w.env).2).1, rc, w₁, ?_, ?_⟩
    · rw [hw₁]
      show ((w.asked P timer).trace ++ [_]) ++ [_] = _
      rw [asked_trace, List.append_assoc, List.append_assoc]
      rfl
    · split at h
      · rename_i hneg
        obtain ⟨rfl, rfl⟩ := run_pure_eq_some.mp h
        rw [if_pos hneg]
        exact ⟨rfl, rfl⟩
      · rename_i hneg
        rw [if_neg hneg]
        exact h

/-- The first thing a send does, unless its timer has expired already, is to offer
the packet to the network. -/
theorem sendPacketLoop_offers {length : Nat} (hlength : 0 < length) {timer : Timer} {sent : Nat}
    {w w' : World σ H} (h : (sendPacketLoop P length timer fuel 0).run w = some (sent, w')) :
    (timer.isExpiredAt (P.gettimeofday w.env).1 = true ∧ sent = 0) ∨
      ∃ new, w'.trace = w.trace ++ new ∧
        (writes new).head? = some (w.client.buf.load 0 length) := by
  cases fuel with
  | zero => cases h
  | succ fuel =>
      obtain ⟨hexpired, hsent, _⟩ | ⟨_, now, rc, w₁, htrace, hrest⟩ :=
        sendPacketLoop_iteration hlength h
      · exact .inl ⟨hexpired, hsent⟩
      · obtain ⟨new, hnew⟩ : ∃ new, w'.trace = w₁.trace ++ new := by
          split at hrest
          · exact ⟨[], by rw [hrest.2, List.append_nil]⟩
          · exact (sendFrame_emits.sendPacketLoop length timer fuel _ _ _ _ hrest).grew
        refine .inr ⟨_, by rw [hnew, htrace, List.append_assoc], rfl⟩

/-- A packet that was sent was offered to the network first, and the sending timer
runs from the last clock reading. -/
theorem sendPacket_success {length : Nat} (hlength : 0 < length) {timer : Timer}
    {w w' : World σ H}
    (h : (sendPacket P fuel length timer).run w = some (mqttSuccess, w')) :
    ∃ new t, w'.trace = w.trace ++ new ∧
      (writes new).head? = some (w.client.buf.load 0 length) ∧
      (readings new).getLast? = some t ∧
      w'.client.lastSent = .countdownAt t w.client.keepAliveInterval := by
  obtain ⟨sent, w₁, hloop, h⟩ := run_bind_eq_some.mp h
  split at h
  · rename_i hsent
    obtain ⟨⟨_, _, _, hclient⟩, _⟩ := sendFrame_emits.sendPacketLoop length timer fuel 0 _ _ _ hloop
    obtain ⟨_, hzero⟩ | ⟨new, htrace, hhead⟩ := sendPacketLoop_offers hlength hloop
    · omega
    cases h
    refine ⟨new ++ [.clock (P.gettimeofday w₁.env).1], (P.gettimeofday w₁.env).1, ?_, ?_, ?_, ?_⟩
    · show w₁.trace ++ [_] = _
      rw [htrace, List.append_assoc]
    · rw [writes_append, List.head?_append, hhead]
      rfl
    · rw [readings_append]
      exact List.getLast?_concat
    · show Timer.countdownAt _ w₁.client.keepAliveInterval = _
      rw [hclient]
  · cases h

/-- The PINGREQ packet. -/
def pingreqBytes : List UInt8 := [0xC0, 0]

theorem mqttSerializePingreq_eq (buflen : Int) :
    mqttSerializePingreq buflen = if buflen < 2 then .tooShort else .ofBytes pingreqBytes := rfl

/-- A PINGREQ goes out from `w` to `w'`: the keepalive check succeeds, the packet is
what it first offers to the network, and `t` is its last reading of the clock. -/
structure SendsPing (P : Platform σ) (fuel : Nat) (w : World σ H) (t : Timeval)
    (w' : World σ H) : Prop where
  run_eq : (keepalive P fuel).run w = some (mqttSuccess, w')
  written : (writes (since w w')).head? = some pingreqBytes
  time : (readings (since w w')).getLast? = some t

/-- What a ping leaves behind, with `t` the last reading of the clock. -/
structure Pinged (w : World σ H) (t : Timeval) (w' : World σ H) : Prop where
  isconnected : w'.client.isconnected = w.client.isconnected
  pingOutstanding : w'.client.pingOutstanding = true
  lastSent : w'.client.lastSent = .countdownAt t w.client.keepAliveInterval
  trace_eq : ∃ new, w'.trace = w.trace ++ new ∧ (writes new).head? = some pingreqBytes ∧
    (readings new).getLast? = some t

/-- Neither flag changed, and unless the call failed nothing was written. -/
structure NotPinged (w : World σ H) (rc : Int) (w' : World σ H) : Prop where
  flags : SameFlags w w'
  trace_eq : ∃ new, w'.trace = w.trace ++ new ∧ (rc = mqttSuccess → writes new = [])

/-- Sending a ping: the packet goes out and the ping flag is set, or the buffer is too
small for it, or the send fails. -/
theorem sendPing_cases {rc : Int} {w w' : World σ H}
    (h : (sendPing P fuel).run w = some (rc, w')) :
    (rc = mqttSuccess ∧ ∃ t, Pinged w t w') ∨ NotPinged w rc w' := by
  rw [sendPing, run_bind_of_eq_some (run_timerCountdownMS 1000 w)] at h
  have hbytes := mqttSerializePingreq_eq (toInt (w.ticked P).client.bufSize)
  split at hbytes
  · rw [run_bind_of_eq_some (run_serialize _ hbytes), if_neg (by decide)] at h
    obtain ⟨rfl, rfl⟩ := run_pure_eq_some.mp h
    exact .inr ⟨⟨rfl, rfl⟩, [.clock (P.gettimeofday w.env).1], rfl, fun _ => rfl⟩
  · rw [run_bind_of_eq_some (run_serialize _ hbytes), if_pos (by decide)] at h
    obtain ⟨rc', w₂, hsend, h⟩ := run_bind_eq_some.mp h
    have hflags := reactFrame_sameFlags.sendPacket _ _ _ _ _ hsend
    split at h
    · rename_i hsuccess
      rw [hsuccess] at hsend
      obtain ⟨new, t, htrace, hhead, hlast, hsent⟩ := sendPacket_success (by decide) hsend
      cases h
      refine .inl ⟨hsuccess, t, hflags.isconnected, rfl, hsent,
        [.clock (P.gettimeofday w.env).1] ++ new, htrace.trans (List.append_assoc _ [_] _), ?_, ?_⟩
      · rw [writes_append]
        exact hhead.trans (congrArg some (Memory.load_store_self _ 0 pingreqBytes))
      · rw [readings_append, List.getLast?_append, hlast]
        rfl
    · rename_i hfail
      obtain ⟨rfl, rfl⟩ := run_pure_eq_some.mp h
      obtain ⟨new, htrace⟩ := (sendFrame_emits.sendPacket _ _ _ _ _ hsend).grew
      exact .inr ⟨⟨hflags.isconnected, hflags.pingOutstanding⟩,
        [.clock (P.gettimeofday w.env).1] ++ new,
        htrace.trans (List.append_assoc _ [_] _), fun hsuccess => absurd hsuccess hfail⟩

/-! ## The check -/

theorem Pinged.prepend {w₀ w w' : World σ H} {t : Timeval} (hclient : w.client = w₀.client)
    {asked : List (Event H)} (htrace : w.trace = w₀.trace ++ asked) (hquiet : writes asked = [])
    (h : Pinged w t w') : Pinged w₀ t w' := by
  obtain ⟨hconn, hping, hsent, new, htrace', hhead, hlast⟩ := h
  rw [hclient] at hconn hsent
  refine ⟨hconn, hping, hsent, asked ++ new, by rw [htrace', htrace, List.append_assoc], ?_, ?_⟩
  · rw [writes_append, hquiet]
    exact hhead
  · rw [readings_append, List.getLast?_append, hlast]
    rfl

theorem NotPinged.prepend {w₀ w w' : World σ H} {rc : Int} (hclient : w.client = w₀.client)
    {asked : List (Event H)} (htrace : w.trace = w₀.trace ++ asked) (hquiet : writes asked = [])
    (h : NotPinged w rc w') : NotPinged w₀ rc w' := by
  obtain ⟨⟨hconn, hping⟩, new, htrace', hnew⟩ := h
  rw [hclient] at hconn hping
  refine ⟨⟨hconn, hping⟩, asked ++ new, by rw [htrace', htrace, List.append_assoc], ?_⟩
  intro hsuccess
  rw [writes_append, hquiet, hnew hsuccess]
  rfl

/-- What asking the timers does: nothing but two or four entries in the trace. -/
theorem keepaliveDue_cases {due : Bool} {w w' : World σ H}
    (h : (keepaliveDue P).run w = some (due, w')) :
    w'.client = w.client ∧ ∃ asked, w'.trace = w.trace ++ asked ∧ writes asked = [] ∧
      ((due = true ∧ (readings asked).getLast? = some (checkTimes P w.env).1 ∧
          w.client.lastSent.isExpiredAt (checkTimes P w.env).1 = true) ∨
        (due = w.client.lastReceived.isExpiredAt (checkTimes P w.env).2 ∧
          (readings asked).getLast? = some (checkTimes P w.env).2 ∧
          w.client.lastSent.isExpiredAt (checkTimes P w.env).1 = false)) := by
  rw [run_keepaliveDue] at h
  split at h
  · rename_i hexpired
    cases h
    exact ⟨rfl, _, asked_trace w _, rfl, .inl ⟨rfl, rfl, hexpired⟩⟩
  · rename_i hrunning
    cases h
    refine ⟨rfl, askedEvents P w.env w.client.lastSent ++
      askedEvents P (P.gettimeofday w.env).2 w.client.lastReceived, ?_, rfl,
      .inr ⟨rfl, rfl, by simpa using hrunning⟩⟩
    rw [asked_trace, asked_trace, List.append_assoc]
    rfl

/-- A check sends a ping exactly when it raises the ping flag; otherwise it leaves the
flags alone, and unless it fails it writes nothing. -/
theorem keepalive_cases {rc : Int} {w w' : World σ H}
    (h : (keepalive P fuel).run w = some (rc, w')) :
    (rc = mqttSuccess ∧ w.client.pingOutstanding = false ∧ ∃ t, Pinged w t w') ∨
      NotPinged w rc w' := by
  rw [keepalive, run_bind_of_eq_some (run_client w)] at h
  split at h
  · obtain ⟨rfl, rfl⟩ := run_pure_eq_some.mp h
    exact .inr ⟨⟨rfl, rfl⟩, [], by simp, fun _ => rfl⟩
  · obtain ⟨due, w₁, hdue, h⟩ := run_bind_eq_some.mp h
    obtain ⟨hclient, asked, htrace, hquiet, _⟩ := keepaliveDue_cases hdue
    have hstay : NotPinged w₁ rc w₁ := ⟨⟨rfl, rfl⟩, [], by simp, fun _ => rfl⟩
    split at h
    · split at h
      · obtain ⟨rfl, rfl⟩ := run_pure_eq_some.mp h
        exact .inr (hstay.prepend hclient htrace hquiet)
      · rename_i hping
        obtain ⟨hsuccess, t, hpinged⟩ | hnot := sendPing_cases h
        · exact .inl ⟨hsuccess, by simpa using hping, t, hpinged.prepend hclient htrace hquiet⟩
        · exact .inr (hnot.prepend hclient htrace hquiet)
    · obtain ⟨rfl, rfl⟩ := run_pure_eq_some.mp h
      exact .inr (hstay.prepend hclient htrace hquiet)

/-- A check does not open or close the session. -/
theorem keepalive_isconnected {rc : Int} {w w' : World σ H}
    (h : (keepalive P fuel).run w = some (rc, w')) :
    w'.client.isconnected = w.client.isconnected := by
  obtain ⟨_, _, _, hpinged⟩ | hnot := keepalive_cases h
  · exact hpinged.isconnected
  · exact hnot.flags.isconnected

/-- What a sent ping leaves behind, and that it was the first. -/
theorem SendsPing.pinged {w w' : World σ H} {t : Timeval} (h : SendsPing P fuel w t w') :
    w.client.pingOutstanding = false ∧ Pinged w t w' := by
  obtain ⟨hrun, hwritten, htime⟩ := h
  obtain ⟨_, hping, t', hpinged⟩ | ⟨_, new, htrace, hnew⟩ := keepalive_cases hrun
  · obtain ⟨new, htrace, _, hlast⟩ := hpinged.trace_eq
    rw [since_of_append htrace, hlast] at htime
    cases htime
    exact ⟨hping, hpinged⟩
  · rw [since_of_append htrace, hnew rfl] at hwritten
    cases hwritten

theorem sendsPing_of_pinged {w w' : World σ H} {t : Timeval}
    (hrun : (keepalive P fuel).run w = some (mqttSuccess, w')) (h : Pinged w t w') :
    SendsPing P fuel w t w' := by
  obtain ⟨new, htrace, hhead, hlast⟩ := h.trace_eq
  exact ⟨hrun, by rw [since_of_append htrace, hhead], by rw [since_of_append htrace, hlast]⟩

/-! ## The check of a turn -/

/-- The world in which a turn makes its keepalive check, unless it leaves the
`switch` by `goto exit`. -/
def checkWorld (P : Platform σ) (fuel : Nat) (timer : Timer) (w : World σ H) :
    Option (World σ H) := do
  let (packetType, w₁) ← (readPacket P timer).run w
  let (jump, w₂) ← (dispatch P fuel packetType timer).run w₁
  match jump with
  | .next _ => some w₂
  | .exit _ => none

/-- A turn as seen from its keepalive check: the packet, the `switch`, the check
unless there is none, and the end of the turn. -/
theorem cycle_check {timer : Timer} {rc : Int} {w w' : World σ H}
    (h : (cycle P fuel timer).run w = some (rc, w')) :
    ∃ packetType w₁ w₂ w₃ jump, (readPacket P timer).run w = some (packetType, w₁) ∧
      (dispatch P fuel packetType timer).run w₁ = some (jump, w₂) ∧
      ((checkWorld P fuel timer w = none ∧ w₃ = w₂) ∨
        (checkWorld P fuel timer w = some w₂ ∧
          ∃ kept, (keepalive P fuel).run w₂ = some (kept, w₃))) ∧
      (w' = w₃ ∨ w' = w₃.update MQTTClient.dropSession) := by
  obtain ⟨packetType, w₁, jump, w₂, rc', w₃, hread, hdispatch, hcheck, hfinish⟩ := cycle_parts h
  refine ⟨packetType, w₁, w₂, w₃, jump, hread, hdispatch, ?_, ?_⟩
  · cases jump with
    | exit rc =>
        have hworld : checkWorld P fuel timer w = none := by
          simp only [checkWorld, hread, hdispatch, Option.bind_eq_bind, Option.bind_some]
        exact .inl ⟨hworld, (run_pure_eq_some.mp hcheck).2.symm⟩
    | next rc =>
        have hworld : checkWorld P fuel timer w = some w₂ := by
          simp only [checkWorld, hread, hdispatch, Option.bind_eq_bind, Option.bind_some]
        obtain ⟨kept, w₄, hkeep, hrest⟩ := run_bind_eq_some.mp hcheck
        obtain rfl : w₄ = w₃ := by
          split at hrest
          · exact (run_pure_eq_some.mp hrest).2
          · exact (run_pure_eq_some.mp hrest).2
        exact .inr ⟨hworld, kept, hkeep⟩
  · split at hfinish
    · exact .inl hfinish.2
    · exact .inr hfinish.2

end MqttClient

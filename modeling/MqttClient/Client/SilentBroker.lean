/-
# A broker that has gone silent

When the receiving timer has run out, the next turn sends a PINGREQ, and the turn after it
gives up, unless something came in.  So a broker from which nothing comes any more is
noticed: as long as the session is open, only the last turn can have found the receiving
timer expired.  The other half, that a broker is not given up too early, is the matter of
`Keepalive`.

This takes a transport whose read comes back when its time is up.  `mqtt_network_read`, which
the program installs, is none: it does not look at its timeout, and no turn over it ends without
a byte or an error.
-/

import MqttClient.Client.Failure
import MqttClient.Client.Keepalive
import MqttClient.Client.Waiting

namespace MqttClient

open Semantics Program

variable {σ H : Type} {P : Platform σ} {fuel : Nat}

/-! ## Silence -/

/-- The event is no read that brought something. -/
def Event.bringsNothing : Event H → Bool
  | .read log => log.rc ≤ 0
  | _ => true

/-- No read has brought a byte. -/
def NothingArrives (trace : List (Event H)) : Prop := ∀ e ∈ trace, e.bringsNothing = true

instance (trace : List (Event H)) : Decidable (NothingArrives trace) :=
  inferInstanceAs (Decidable (∀ e ∈ trace, e.bringsNothing = true))

theorem NothingArrives.of_append {a b : List (Event H)} (h : NothingArrives (a ++ b)) :
    NothingArrives a ∧ NothingArrives b :=
  ⟨fun e hmem => h e (List.mem_append_left b hmem),
    fun e hmem => h e (List.mem_append_right a hmem)⟩

/-- What follows the header byte in `readPacket` only adds to the trace. -/
theorem readRest_grows {timer : Timer} {header : UInt8} {m : Memory} {rc : Int} {w w' : World σ H}
    (hbuf : w.client.readbuf = m.store 0 [header])
    (h : (do
        let left ← timerLeftMS P timer
        let (_, remLen) ← decodePacket P left
        let field := mqttPacketEncode remLen
        modifyClient fun c => { c with readbuf := c.readbuf.store 1 field }
        readBody P timer (1 + field.length) remLen).run w = some (rc, w')) :
    ∃ new, w'.trace = w.trace ++ new := by
  obtain ⟨left, w₁, hleft, h⟩ := run_bind_eq_some.mp h
  obtain ⟨⟨len, n⟩, w₂, hdecode, h⟩ := run_bind_eq_some.mp h
  obtain ⟨_, w₃, hfield, h⟩ := run_bind_eq_some.mp h
  cases hfield
  obtain ⟨hsame, hfetch⟩ := Fetches.of_timerLeftMS hleft
  obtain ⟨field, cut, hlength, hvalue, hsame', hfetch'⟩ := decodePacket_cases hdecode
  obtain rfl : n = lengthValue field := hvalue
  have hstored : (w₂.client.readbuf.store 1 (mqttPacketEncode (lengthValue field))) =
      (m.store 0 [header]).store 1 (mqttPacketEncode (lengthValue field)) := by
    rw [hsame', hsame, hbuf]
  obtain ⟨logs, hfetch'', _⟩ :=
    readBody_cases (lengthValue_lt_of_length_le hlength.length_le) hstored h
  obtain ⟨_, new, htrace, _⟩ := hfetch.trans hfetch'
  obtain ⟨_, new', htrace', _⟩ := hfetch''
  exact ⟨new ++ new', by rw [htrace', ← List.append_assoc, ← htrace]; rfl⟩

theorem readInto_trace {start len : Nat} {timeoutMs rc : Int} {w w' : World σ H}
    (h : (readInto P start len timeoutMs).run w = some (rc, w')) :
    ∃ r : ReadResult len, r.rc = rc ∧
      w'.client = { w.client with readbuf := w.client.readbuf.store start r.stored } ∧
      w'.trace = w.trace ++ [.read ⟨len, r.rc, r.stored⟩] := by
  obtain ⟨r, w₁, hread, h⟩ := run_bind_eq_some.mp h
  obtain ⟨_, w₂, hstore, h⟩ := run_bind_eq_some.mp h
  obtain ⟨env, _, rfl⟩ := run_mqttread_eq_some hread
  cases hstore
  obtain ⟨rfl, rfl⟩ := run_pure_eq_some.mp h
  exact ⟨r, rfl, rfl, rfl⟩

/-- If nothing arrives, `readPacket` reports what its only read reported, and the receiving
timer is not started again. -/
theorem readPacket_silent {timer : Timer} {rc : Int} {w w' : World σ H}
    (h : (readPacket P timer).run w = some (rc, w')) (hsilent : NothingArrives (since w w')) :
    rc ≤ 0 ∧ ∃ readbuf, w'.client = { w.client with readbuf } := by
  obtain ⟨rc', w₀, hbody, h⟩ := run_bind_eq_some.mp h
  obtain ⟨_, _, hlog, h⟩ := run_bind_eq_some.mp h
  cases hlog
  obtain ⟨rfl, rfl⟩ := run_pure_eq_some.mp h
  obtain ⟨left, w₁, hleft, hbody⟩ := run_bind_eq_some.mp hbody
  obtain ⟨got, w₂, hread, hbody⟩ := run_bind_eq_some.mp hbody
  obtain ⟨hsame, _, asked, hasked, _⟩ := Fetches.of_timerLeftMS hleft
  obtain ⟨r, hrc, hclient, htrace⟩ := readInto_trace hread
  have hheader : ∀ {w₃ : World σ H}, (∃ new, w₃.trace = w₂.trace ++ new) →
      .read ⟨1, r.rc, r.stored⟩ ∈ since w (w₃.log (.packet rc')) := by
    rintro w₃ ⟨new, hnew⟩
    have hall : (w₃.log (.packet rc')).trace =
        w.trace ++ (asked ++ [.read ⟨1, r.rc, r.stored⟩] ++ new ++ [.packet rc']) := by
      simp [World.log, hnew, htrace, hasked]
    rw [since_of_append hall]
    simp
  split at hbody
  · obtain ⟨rfl, rfl⟩ := run_pure_eq_some.mp hbody
    have hle : r.rc ≤ 0 :=
      of_decide_eq_true (hsilent _ (hheader ⟨[], (List.append_nil _).symm⟩))
    refine ⟨hrc ▸ hle, w.client.readbuf.store 0 r.stored, ?_⟩
    show w₂.client = _
    rw [hclient, hsame]
  · rename_i hone
    -- a byte was read, and stays in the trace
    have hgot : r.rc = 1 := hrc.trans (not_not.mp hone)
    obtain ⟨b, hb, _⟩ := r.exists_stored_eq hgot
    have hbuf : w₂.client.readbuf = w₁.client.readbuf.store 0 [b] := by rw [hclient, hb]
    have hle : r.rc ≤ 0 := of_decide_eq_true (hsilent _ (hheader (readRest_grows hbuf hbody)))
    omega

/-! ## One turn -/

/-- A ping that fits into the buffer is sent and noted, or the check fails. -/
theorem sendPing_noted {rc : Int} {w w' : World σ H} (hbuf : 2 ≤ toInt w.client.bufSize)
    (h : (sendPing P fuel).run w = some (rc, w')) :
    rc ≠ mqttSuccess ∨ w'.client.pingOutstanding = true := by
  rw [sendPing, run_bind_of_eq_some (run_timerCountdownMS 1000 w)] at h
  have hbytes : mqttSerializePingreq (toInt (w.ticked P).client.bufSize) =
      .ofBytes pingreqBytes := by
    rw [mqttSerializePingreq_eq]
    exact if_neg (Int.not_lt.mpr hbuf)
  rw [run_bind_of_eq_some (run_serialize _ hbytes), if_pos (by decide)] at h
  obtain ⟨rc', w₁, hsend, h⟩ := run_bind_eq_some.mp h
  split at h
  · cases h
    exact .inr rfl
  · rename_i hfail
    obtain ⟨rfl, rfl⟩ := run_pure_eq_some.mp h
    exact .inl hfail

/-- The timer has expired when the clock was read last. -/
def EndsLate (timer : Timer) (trace : List (Event H)) : Prop :=
  ∀ now, (readings trace).getLast? = some now → timer.isExpiredAt now = true

/-- A check that ends after the receiving timer has run out fails if a ping is outstanding,
and otherwise fails or leaves one outstanding. -/
theorem keepalive_late {kept : Int} {w w' : World σ H}
    (hinterval : w.client.keepAliveInterval ≠ 0) (hbuf : 2 ≤ toInt w.client.bufSize)
    (hlate : EndsLate w.client.lastReceived (since w w'))
    (h : (keepalive P fuel).run w = some (kept, w')) :
    kept ≠ mqttSuccess ∨
      w.client.pingOutstanding = false ∧ w'.client.pingOutstanding = true := by
  rw [keepalive, run_bind_of_eq_some (run_client w), if_neg hinterval] at h
  obtain ⟨due, w₁, hdue, h⟩ := run_bind_eq_some.mp h
  obtain ⟨hclient, asked, htrace, _, hasked⟩ := keepaliveDue_cases hdue
  cases due with
  | true =>
      rw [if_pos rfl] at h
      split at h
      · obtain ⟨rfl, rfl⟩ := run_pure_eq_some.mp h
        exact .inl (by decide)
      · rename_i hping
        rcases sendPing_noted (hclient ▸ hbuf) h with hfailed | hnoted
        · exact .inl hfailed
        · exact .inr ⟨Bool.eq_false_iff.mpr hping, hnoted⟩
  | false =>
      rw [if_neg (by decide)] at h
      obtain ⟨rfl, rfl⟩ := run_pure_eq_some.mp h
      -- the receiving timer was asked, and is said to be running
      rcases hasked with ⟨hdue, _⟩ | ⟨hrunning, hlast, _⟩
      · cases hdue
      · rw [← since_of_append htrace] at hlast
        rw [hlate _ hlast] at hrunning
        cases hrunning

/-- What is left alone by a turn in which nothing arrives. -/
structure SameDeadline (w w' : World σ H) : Prop where
  lastReceived : w'.client.lastReceived = w.client.lastReceived
  keepAliveInterval : w'.client.keepAliveInterval = w.client.keepAliveInterval
  bufSize : w'.client.bufSize = w.client.bufSize

theorem dropSession_sameDeadline (w : World σ H) :
    SameDeadline w (w.update MQTTClient.dropSession) := by
  unfold MQTTClient.dropSession MQTTClient.closeSession MQTTClient.cleanSession World.update
  dsimp only
  split
  · split
    · exact ⟨rfl, rfl, rfl⟩
    · exact ⟨rfl, rfl, rfl⟩
  · exact ⟨rfl, rfl, rfl⟩

theorem SameDeadline.trans {w w' w'' : World σ H} (h : SameDeadline w w')
    (h' : SameDeadline w' w'') : SameDeadline w w'' :=
  ⟨h'.lastReceived.trans h.lastReceived, h'.keepAliveInterval.trans h.keepAliveInterval,
    h'.bufSize.trans h.bufSize⟩

theorem readPacket_grows {timer : Timer} {rc : Int} {w w' : World σ H}
    (h : (readPacket P timer).run w = some (rc, w')) : ∃ new, w'.trace = w.trace ++ new := by
  obtain ⟨_, w₀, ⟨_, new, htrace, _⟩, rfl, _⟩ := readPacket_cases h
  exact ⟨new ++ [.packet rc], by simp [World.log, htrace]⟩

/-- Without a packet there is nothing to act on. -/
theorem dispatch_nonpos {packetType : Int} {timer : Timer} {jump : Jump} {w w' : World σ H}
    (hle : packetType ≤ 0) (h : (dispatch P fuel packetType timer).run w = some (jump, w')) :
    w' = w ∧ jump = if packetType = 0 then .next mqttSuccess else .exit packetType := by
  have hcode : MsgType.ofCode? packetType = none := by
    cases hcode : MsgType.ofCode? packetType with
    | none => rfl
    | some type =>
        have heq := MsgType.ofCode?_eq_some hcode
        have hpos : 0 < type.code := by cases type <;> decide
        omega
  unfold dispatch at h
  rw [hcode] at h
  dsimp only at h
  split at h
  · obtain ⟨rfl, rfl⟩ := run_pure_eq_some.mp h
    exact ⟨rfl, (if_pos ‹_›).symm⟩
  · obtain ⟨rfl, rfl⟩ := run_pure_eq_some.mp h
    exact ⟨rfl, (if_neg ‹_›).symm⟩

/-- A turn in which nothing arrives: it leaves the deadline alone; and if the deadline has
passed at its end, it closes the session, or leaves a ping outstanding where there was
none. -/
theorem CycleStep.silent {w w' : World σ H} {label : Timer × Int} (h : CycleStep P fuel w label w')
    (hsilent : NothingArrives (since w w')) :
    SameDeadline w w' ∧ (w.client.keepAliveInterval ≠ 0 → 2 ≤ toInt w.client.bufSize →
      EndsLate w.client.lastReceived (since w w') → w'.client.isconnected = false ∨
        w.client.pingOutstanding = false ∧ w'.client.pingOutstanding = true) := by
  obtain ⟨packetType, w₁, jump, w₂, rc', w₃, hread, hdispatch, hcheck, hfinish⟩ := cycle_parts h
  obtain ⟨new, htrace⟩ := readPacket_grows hread
  obtain ⟨_, more, htrace', _⟩ := (dispatch_spec hdispatch).1
  obtain ⟨⟨_, _, _, hclient⟩, rest, htrace'', _⟩ := (checkKeepalive_spec hcheck).1
  have htrace₄ : w'.trace = w₃.trace := by
    split at hfinish
    · rw [hfinish.2]
    · rw [hfinish.2]
      rfl
  have hsince : since w w' = new ++ (more ++ rest) :=
    since_of_append (by rw [htrace₄, htrace'', htrace', htrace]; simp)
  rw [hsince] at hsilent ⊢
  have hfirst : NothingArrives (since w w₁) := by
    rw [since_of_append htrace]
    exact hsilent.of_append.1
  obtain ⟨hle, readbuf, hread'⟩ := readPacket_silent hread hfirst
  obtain ⟨rfl, rfl⟩ := dispatch_nonpos hle hdispatch
  have hturn : SameDeadline w w₃ := by
    refine ⟨?_, ?_, ?_⟩
    all_goals rw [hclient, hread']
  constructor
  · split at hfinish
    · rw [hfinish.2]
      exact hturn
    · rw [hfinish.2]
      exact hturn.trans (dropSession_sameDeadline w₃)
  · intro hinterval hbuf hlate
    by_cases hrc : rc' = mqttSuccess
    · rw [if_pos hrc] at hfinish
      obtain ⟨_, rfl⟩ := hfinish
      by_cases hzero : packetType = 0
      · rw [if_pos hzero] at hcheck
        obtain ⟨kept, w₄, hkeep, hcheck⟩ := run_bind_eq_some.mp hcheck
        split at hcheck
        · obtain ⟨rfl, _⟩ := run_pure_eq_some.mp hcheck
          exact absurd hrc (by decide)
        · rename_i hkept
          obtain ⟨_, rfl⟩ := run_pure_eq_some.mp hcheck
          have hlate' : EndsLate w₂.client.lastReceived (since w₂ w₄) := by
            intro now hnow
            rw [since_of_append htrace''] at hnow
            rw [hread']
            exact hlate now (by simp [readings_append, hnow])
          have hcheck' := keepalive_late (by rwa [hread']) (by rwa [hread']) hlate' hkeep
          rw [hread'] at hcheck'
          exact .inr (hcheck'.resolve_left hkept)
      · rw [if_neg hzero] at hcheck
        obtain ⟨rfl, _⟩ := run_pure_eq_some.mp hcheck
        exact absurd hrc hzero
    · rw [if_neg hrc] at hfinish
      rw [hfinish.2]
      exact .inl w₃.client.dropSession_flags.2

/-! ## Runs -/

theorem CycleStep.idles {w w' : World σ H} {label : Timer × Int} (h : CycleStep P fuel w label w') :
    Idles w w' :=
  cycle_idles _ _ _ h

/-- The trace of a run is that of its two parts. -/
theorem since_run {w w₁ w' : World σ H} {before after : List (Turn σ H)}
    (hbefore : Run (CycleStep P fuel) w before w₁) (hafter : Run (CycleStep P fuel) w₁ after w') :
    since w w' = since w w₁ ++ since w₁ w' :=
  (hbefore.preorder Refreshes.refl Refreshes.trans CycleStep.refreshes).since_append
    (hafter.preorder Refreshes.refl Refreshes.trans CycleStep.refreshes)

theorem run_sameDeadline {w w' : World σ H} {run : List (Turn σ H)}
    (hrun : Run (CycleStep P fuel) w run w') (hsilent : NothingArrives (since w w')) :
    SameDeadline w w' := by
  induction hrun with
  | nil w => exact ⟨rfl, rfl, rfl⟩
  | cons first rest ih =>
      rw [since_run (.single first) rest] at hsilent
      exact (first.silent hsilent.of_append.1).1.trans (ih hsilent.of_append.2)

theorem run_isconnected {w w' : World σ H} {run : List (Turn σ H)}
    (hrun : Run (CycleStep P fuel) w run w') (hopen : w'.client.isconnected = true) :
    w.client.isconnected = true := by
  induction hrun with
  | nil w => exact hopen
  | cons first rest ih => exact first.idles.isconnected (ih hopen)

theorem ClockAdvances.right {a b : List Timeval} (h : ClockAdvances (a ++ b)) : ClockAdvances b :=
  ⟨fun t ht => h.normal t (List.mem_append_right a ht), (List.pairwise_append.mp h.sorted).2.1⟩

/-- If the clock has passed the deadline, it has passed it at the end. -/
theorem endsLate_of_mem {timer : Timer} {now : Timeval} {trace : List (Event H)}
    (hnormal : timer.endTime.IsNormal) (hclock : ClockAdvances (readings trace))
    (hnow : now ∈ readings trace) (hexpired : timer.isExpiredAt now = true) :
    EndsLate timer trace := by
  intro last hlast
  obtain ⟨earlier, heq⟩ := List.getLast?_eq_some_iff.mp hlast
  rw [heq] at hclock hnow
  rw [Timer.isExpiredAt_iff hnormal (hclock.normal now hnow)] at hexpired
  rw [Timer.isExpiredAt_iff hnormal (hclock.normal last (by simp))]
  rcases List.mem_append.mp hnow with hearlier | hsame
  · exact Int.le_trans hexpired (hclock.le hearlier (by simp))
  · rwa [List.mem_singleton.mp hsame] at hexpired

theorem EndsLate.right {timer : Timer} {a b : List (Event H)} (h : EndsLate timer (a ++ b)) :
    EndsLate timer b := by
  intro now hnow
  exact h now (by rw [readings_append, List.getLast?_append, hnow]; rfl)

/-- In every run of turns in which nothing arrives from the broker and which leaves the
session open, only the last turn has read the clock after the receiving timer had run out:
the turn in which it runs out pings, and the next one gives up.  There is a keep-alive
interval, a PINGREQ fits the buffer, and the clock does not go back. -/
theorem silentBroker_isNoticed (P : Platform σ) (fuel : Nat) {w w' : World σ H}
    {run : List (Turn σ H)} (hrun : Run (CycleStep P fuel) w run w')
    (hinterval : w.client.keepAliveInterval ≠ 0) (hbuf : 2 ≤ toInt w.client.bufSize)
    (hnormal : w.client.lastReceived.endTime.IsNormal)
    (hclock : ClockAdvances (readings (since w w'))) (hsilent : NothingArrives (since w w'))
    (hopen : w'.client.isconnected = true) :
    ∀ before turn after, run = before ++ turn :: after → after ≠ [] →
      ∀ now ∈ readings (since turn.source turn.target),
        w.client.lastReceived.isExpiredAt now = false := by
  rintro before turn after rfl hmore now hnow
  obtain ⟨hbefore, hturn, hafter⟩ := hrun.split
  by_contra hexpired
  rw [Bool.not_eq_false] at hexpired
  cases hafter with
  | nil => exact hmore rfl
  | @cons _ w₁ _ label rest hnext hrest =>
      rw [since_run hbefore (.cons hturn (.cons hnext hrest)),
        since_run (.single hturn) (.cons hnext hrest), since_run (.single hnext) hrest]
        at hclock hsilent
      obtain ⟨hquiet, hsilent⟩ := hsilent.of_append
      obtain ⟨hquiet', hsilent⟩ := hsilent.of_append
      have hsame := run_sameDeadline hbefore hquiet
      obtain ⟨hsame', hfirst⟩ := hturn.silent hquiet'
      obtain ⟨_, hsecond⟩ := hnext.silent hsilent.of_append.1
      have hsame' := hsame.trans hsame'
      -- both turns are late
      rw [readings_append, ← List.append_assoc, readings_append] at hclock
      have hlate := endsLate_of_mem hnormal hclock.right.left
        (by rw [readings_append]; exact List.mem_append_left _ hnow) hexpired
      have hclock' : ClockAdvances (readings (since turn.source turn.target)) := by
        have hboth := hclock.right.left
        rw [readings_append] at hboth
        exact hboth.left
      have hlate' := endsLate_of_mem hnormal hclock' hnow hexpired
      have hopen₁ := run_isconnected hrest hopen
      have hopen₀ := hnext.idles.isconnected hopen₁
      obtain ⟨_, hping⟩ := (hfirst (by rwa [hsame.keepAliveInterval]) (by rwa [hsame.bufSize])
        (by rwa [hsame.lastReceived])).resolve_left (by simp [hopen₀])
      obtain ⟨hnone, _⟩ := (hsecond (by rwa [hsame'.keepAliveInterval]) (by rwa [hsame'.bufSize])
        (by rw [hsame'.lastReceived]; exact hlate.right)).resolve_left (by simp [hopen₁])
      rw [hping] at hnone
      cases hnone

/-- Two turns of 40 seconds with an interval of a minute: the second one pings, and the
first has not seen the minute pass. -/
theorem silentBroker_isNoticed_ping :
    (silentTurn 40 (silentTurn 40 (silentWorld 0))).client.isconnected = true ∧
      (silentTurn 40 (silentTurn 40 (silentWorld 0))).client.pingOutstanding = true ∧
      ∀ now ∈ readings (since (silentWorld 0) (silentTurn 40 (silentWorld 0))),
        (silentWorld 0).client.lastReceived.isExpiredAt now = false := by
  have hrun : Run (CycleStep (silentPlatform 40) 3) (silentWorld 0)
      [⟨silentWorld 0, (second, 0), silentTurn 40 (silentWorld 0)⟩,
        ⟨silentTurn 40 (silentWorld 0), (second, 0), silentTurn 40 (silentTurn 40 (silentWorld 0))⟩]
      (silentTurn 40 (silentTurn 40 (silentWorld 0))) :=
    .cons (silentTurn_step (by decide)) (.single (silentTurn_step (by decide)))
  exact ⟨by decide, by decide, silentBroker_isNoticed _ 3 hrun (by decide) (by decide) (by decide)
    ⟨by decide, by decide⟩ (by decide) (by decide) [] _ [_] rfl (by simp)⟩

end MqttClient

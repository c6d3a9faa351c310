/-
# How long the broker has to answer a ping

`keepalive` is due when either timer has expired, and gives up if it is due while a
ping is outstanding.  A ping restarts the sending timer and leaves the receiving timer
as it is.  If it was the receiving timer that asked for the ping, the next turn finds
it expired still and gives up at once, although the source says of this branch that
there was no PINGRESP in the keepalive interval.  As long as an outstanding ping is
given up only when the sending timer has expired too, the broker has the full interval.
-/

import MqttClient.Client.Ping
import MqttClient.Client.Delivery

namespace MqttClient

open Semantics Program

variable {σ H : Type} {P : Platform σ} {fuel : Nat}

/-! ## The sending timer over a turn -/

/-- The trace grew from `w` to `w'`, and the sending timer is as it was or was started
at a clock reading in between. -/
structure Refreshes (w w' : World σ H) : Prop where
  interval : w'.client.keepAliveInterval = w.client.keepAliveInterval
  trace_eq : ∃ new, w'.trace = w.trace ++ new ∧
    (w'.client.lastSent = w.client.lastSent ∨
      ∃ now ∈ readings new, w'.client.lastSent = .countdownAt now w.client.keepAliveInterval)

namespace Refreshes

variable {w w' w'' : World σ H}

theorem trans (h : Refreshes w w') (h' : Refreshes w' w'') : Refreshes w w'' := by
  obtain ⟨hinterval, new, htrace, hsent⟩ := h
  obtain ⟨hinterval', new', htrace', hsent'⟩ := h'
  refine ⟨hinterval'.trans hinterval, new ++ new', by rw [htrace', htrace, List.append_assoc], ?_⟩
  rw [readings_append]
  rcases hsent' with hsent' | ⟨now, hnow, hsent'⟩
  · rw [hsent']
    exact hsent.imp_right fun ⟨now, hnow, hsent⟩ => ⟨now, List.mem_append_left _ hnow, hsent⟩
  · exact .inr ⟨now, List.mem_append_right _ hnow, by rw [hsent', hinterval]⟩

/-- The client's interval and sending timer are the same. -/
theorem of_same (hinterval : w'.client.keepAliveInterval = w.client.keepAliveInterval)
    (hsent : w'.client.lastSent = w.client.lastSent)
    (hgrew : ∃ new, w'.trace = w.trace ++ new) : Refreshes w w' := by
  obtain ⟨new, htrace⟩ := hgrew
  exact ⟨hinterval, new, htrace, .inl hsent⟩

/-- Only other fields of the client were assigned. -/
theorem of_update {f : MQTTClient H → MQTTClient H}
    (hinterval : (f w.client).keepAliveInterval = w.client.keepAliveInterval)
    (hsent : (f w.client).lastSent = w.client.lastSent) : Refreshes w (w.update f) :=
  of_same hinterval hsent ⟨[], (List.append_nil _).symm⟩

theorem refl (w : World σ H) : Refreshes w w := of_same rfl rfl ⟨[], (List.append_nil _).symm⟩

end Refreshes

theorem reactFrame_refreshes : ReactFrame P (Refreshes (σ := σ) (H := H)) where
  refl := .refl
  trans := .trans
  clock _ := .of_same rfl rfl ⟨_, rfl⟩
  timer _ _ := .of_same rfl rfl ⟨_, rfl⟩
  write _ := .of_same rfl rfl ⟨_, rfl⟩
  filled _ _ := .of_update rfl rfl
  sent w := ⟨rfl, [.clock (P.gettimeofday w.env).1], rfl,
    .inr ⟨_, List.mem_singleton.mpr rfl, rfl⟩⟩
  call _ _ _ := .of_same rfl rfl ⟨_, rfl⟩
  locals _ := .of_same rfl rfl ⟨[], (List.append_nil _).symm⟩

theorem readPacket_refreshes (timer : Timer) :
    Keeps Refreshes (readPacket P timer : Action σ H _) := by
  intro w rc w' h
  obtain ⟨_, w₀, ⟨⟨_, _, hclient⟩, new, htrace, _⟩, rfl, _⟩ := readPacket_cases h
  refine .of_same ?_ ?_ ⟨new ++ [.packet rc], ?_⟩
  · simp only [World.log, hclient]
  · simp only [World.log, hclient]
  · simp only [World.log, htrace, List.append_assoc]

theorem dispatch_refreshes (packetType : Int) (timer : Timer) :
    Keeps Refreshes (dispatch P fuel packetType timer : Action σ H _) :=
  reactFrame_refreshes.dispatch timer fun _ _ => .of_update rfl rfl

theorem keepalive_refreshes : Keeps Refreshes (keepalive P fuel : Action σ H _) :=
  reactFrame_refreshes.keepalive fun _ => .of_update rfl rfl

theorem dropSession_refreshes (w : World σ H) :
    Refreshes w (w.update MQTTClient.dropSession) := by
  obtain ⟨_, _, _, hdrop⟩ := w.client.dropSession_eq
  exact .of_update (by rw [hdrop]) (by rw [hdrop])

theorem cycle_refreshes (timer : Timer) :
    Keeps Refreshes (cycle P fuel timer : Action σ H _) := by
  intro w rc w' h
  obtain ⟨packetType, w₁, jump, w₂, rc', w₃, hread, hdispatch, hcheck, hfinish⟩ := cycle_parts h
  have hfirst := (readPacket_refreshes timer _ _ _ hread).trans
    (dispatch_refreshes packetType timer _ _ _ hdispatch)
  have hthird : Refreshes w w₃ := by
    refine hfirst.trans ?_
    cases jump with
    | exit rc =>
        obtain ⟨_, rfl⟩ := run_pure_eq_some.mp hcheck
        exact .refl w₂
    | next rc =>
        obtain ⟨kept, w₄, hkeep, hrest⟩ := run_bind_eq_some.mp hcheck
        refine (keepalive_refreshes _ _ _ hkeep).trans ?_
        split at hrest
        · obtain ⟨_, rfl⟩ := run_pure_eq_some.mp hrest
          exact .refl w₄
        · obtain ⟨_, rfl⟩ := run_pure_eq_some.mp hrest
          exact .refl w₄
  split at hfinish
  · exact hfinish.2 ▸ hthird
  · exact hfinish.2 ▸ hthird.trans (dropSession_refreshes w₃)

/-! ## Pings and what becomes of them -/

/-- A turn of the client, with the timer it was given and what it returned. -/
abbrev Turn (σ H : Type) : Type := Transition (World σ H) (Timer × Int)

/-- The turn sends a PINGREQ, and starts the sending timer at `t`. -/
def PingsAt (P : Platform σ) (fuel : Nat) (turn : Turn σ H) (t : Timeval) : Prop :=
  ∃ w w', checkWorld P fuel turn.label.1 turn.source = some w ∧ SendsPing P fuel w t w'

/-- The keepalive check of the turn reports at `t` that the ping was not answered. -/
def GivesUpAt (P : Platform σ) (fuel : Nat) (turn : Turn σ H) (t : Timeval) : Prop :=
  ∃ w w', checkWorld P fuel turn.label.1 turn.source = some w ∧
    w.client.pingOutstanding = true ∧ (keepalive P fuel).run w = some (failure, w') ∧
    (readings (since w w')).getLast? = some t

/-- No turn of the run gives up a ping before the interval has passed since it was
sent. -/
def GrantsInterval (P : Platform σ) (fuel interval : Nat) (run : List (Turn σ H)) : Prop :=
  ∀ before turn after, run = before ++ turn :: after → ∀ t', GivesUpAt P fuel turn t' →
    ∀ earlier ∈ before, ∀ t, PingsAt P fuel earlier t →
      t.micros + interval * 1000000 ≤ t'.micros

/-- Where a turn checks its keepalive with a ping outstanding, the receiving timer has
not expired unless the sending timer has. -/
def SendingTimerExpiresFirst (P : Platform σ) (fuel : Nat) (turn : Turn σ H) : Prop :=
  ∀ w, checkWorld P fuel turn.label.1 turn.source = some w → w.client.pingOutstanding = true →
    w.client.lastReceived.isExpiredAt (checkTimes P w.env).2 = true →
    w.client.lastSent.isExpiredAt (checkTimes P w.env).2 = true

/-- The readings of a clock that reports normal times and never goes back. -/
structure ClockAdvances (times : List Timeval) : Prop where
  normal : ∀ t ∈ times, t.IsNormal
  sorted : times.Pairwise (·.micros ≤ ·.micros)

/-! ## One turn -/

theorem CycleStep.refreshes {w w' : World σ H} {label : Timer × Int}
    (h : CycleStep P fuel w label w') : Refreshes w w' :=
  cycle_refreshes label.1 _ _ _ h

/-- Receiving a packet and acting on it adds no ping. -/
theorem pingOutstanding_of_dispatch {timer : Timer} {packetType : Int} {jump : Jump}
    {w w₁ w₂ : World σ H} (hread : (readPacket P timer).run w = some (packetType, w₁))
    (hdispatch : (dispatch P fuel packetType timer).run w₁ = some (jump, w₂))
    (h : w₂.client.pingOutstanding = true) : w.client.pingOutstanding = true := by
  rw [(dispatch_flags hdispatch).2] at h
  split at h
  · cases h
  · rw [← (readPacket_sameFlags hread).pingOutstanding, h]

/-- Up to the check the sending timer is only refreshed and no ping is added. -/
theorem checkWorld_cases {timer : Timer} {w w₂ : World σ H}
    (h : checkWorld P fuel timer w = some w₂) :
    Refreshes w w₂ ∧ (w₂.client.pingOutstanding = true → w.client.pingOutstanding = true) := by
  obtain ⟨⟨packetType, w₁⟩, hread, h⟩ := Option.bind_eq_some_iff.mp h
  obtain ⟨⟨jump, w₃⟩, hdispatch, h⟩ := Option.bind_eq_some_iff.mp h
  cases jump with
  | exit rc => cases h
  | next rc =>
      cases h
      exact ⟨(readPacket_refreshes timer _ _ _ hread).trans
        (dispatch_refreshes packetType timer _ _ _ hdispatch),
        pingOutstanding_of_dispatch hread hdispatch⟩

theorem pingOutstanding_of_dropSession {w : World σ H}
    (h : (w.update MQTTClient.dropSession).client.pingOutstanding = true) :
    w.client.pingOutstanding = true := by
  rw [World.update, w.client.dropSession_flags.1] at h
  split at h
  · cases h
  · exact h

/-- A turn as seen from its keepalive check: it makes none and adds no ping, or the
check is followed by nothing that adds a ping. -/
theorem CycleStep.check_cases {w w' : World σ H} {label : Timer × Int}
    (h : CycleStep P fuel w label w') :
    (w'.client.pingOutstanding = true → w.client.pingOutstanding = true) ∧
        checkWorld P fuel label.1 w = none ∨
      ∃ w₂ rc w₃, checkWorld P fuel label.1 w = some w₂ ∧
        (keepalive P fuel).run w₂ = some (rc, w₃) ∧ Refreshes w₃ w' ∧
        (w'.client.pingOutstanding = true → w₃.client.pingOutstanding = true) := by
  obtain ⟨packetType, w₁, w₂, w₃, jump, hread, hdispatch, hcheck, hend⟩ := cycle_check h
  have hlast : Refreshes w₃ w' ∧
      (w'.client.pingOutstanding = true → w₃.client.pingOutstanding = true) := by
    rcases hend with rfl | rfl
    · exact ⟨.refl w', id⟩
    · exact ⟨dropSession_refreshes w₃, pingOutstanding_of_dropSession⟩
  rcases hcheck with ⟨hnone, rfl⟩ | ⟨hsome, kept, hkeep⟩
  · exact .inl ⟨fun hset => pingOutstanding_of_dispatch hread hdispatch (hlast.2 hset), hnone⟩
  · exact .inr ⟨w₂, kept, w₃, hsome, hkeep, hlast⟩

/-! ## Pings along a run -/

namespace ClockAdvances

variable {a b : List Timeval}

theorem left (h : ClockAdvances (a ++ b)) : ClockAdvances a :=
  ⟨fun t ht => h.normal t (List.mem_append_left b ht), (List.pairwise_append.mp h.sorted).1⟩

theorem le (h : ClockAdvances (a ++ b)) {t t' : Timeval} (ht : t ∈ a) (ht' : t' ∈ b) :
    t.micros ≤ t'.micros :=
  (List.pairwise_append.mp h.sorted).2.2 t ht t' ht'

end ClockAdvances

theorem Refreshes.since_append {start w w' : World σ H} (h : Refreshes start w)
    (h' : Refreshes w w') : since start w' = since start w ++ since w w' := by
  obtain ⟨_, new, htrace, _⟩ := h
  obtain ⟨_, new', htrace', _⟩ := h'
  rw [since_of_append htrace, since_of_append htrace',
    since_of_append (htrace'.trans (by rw [htrace, List.append_assoc]))]

/-- The sending timer of `w` runs at least until the interval has passed since the
reading `t`, which was made between `start` and `w`. -/
structure Covers (start w : World σ H) (t : Timeval) : Prop where
  mem : t ∈ readings (since start w)
  normal : w.client.lastSent.endTime.IsNormal
  le : t.micros + start.client.keepAliveInterval * 1000000 ≤ w.client.lastSent.endTime.micros

/-- Refreshing the sending timer can only prolong it. -/
theorem Covers.refresh {start w w' : World σ H} {t : Timeval} (h : Covers start w t)
    (hstart : Refreshes start w) (h' : Refreshes w w')
    (hclock : ClockAdvances (readings (since start w'))) : Covers start w' t := by
  rw [hstart.since_append h', readings_append] at hclock
  have hmem : t ∈ readings (since start w') := by
    rw [hstart.since_append h', readings_append]
    exact List.mem_append_left _ h.mem
  obtain ⟨_, new, htrace, hsame | ⟨now, hnow, hsent⟩⟩ := h'
  · exact ⟨hmem, by rw [hsame]; exact h.normal, by rw [hsame]; exact h.le⟩
  · rw [since_of_append htrace] at hclock
    have hle := hclock.le h.mem hnow
    have hnormal := hclock.normal now (List.mem_append_right _ hnow)
    refine ⟨hmem, by rw [hsent]; exact Timer.isNormal_countdownAt hnormal _, ?_⟩
    rw [hsent, Timer.micros_countdownAt, hstart.interval]
    omega

/-- A ping covers itself. -/
theorem SendsPing.covers {start w w' : World σ H} {t : Timeval} (h : SendsPing P fuel w t w')
    (hstart : Refreshes start w) (hclock : ClockAdvances (readings (since start w'))) :
    Covers start w' t := by
  obtain ⟨_, hpinged⟩ := h.pinged
  have hmem : t ∈ readings (since start w') := by
    rw [hstart.since_append (keepalive_refreshes _ _ _ h.run_eq), readings_append]
    exact List.mem_append_right _ (List.mem_of_getLast? h.time)
  refine ⟨hmem, ?_, ?_⟩
  · rw [hpinged.lastSent]
    exact Timer.isNormal_countdownAt (hclock.normal t hmem) _
  · rw [hpinged.lastSent, Timer.micros_countdownAt, hstart.interval]

/-- What is known of the pings of a run in the state it has reached. -/
structure PingsCovered (P : Platform σ) (fuel : Nat) (start : World σ H)
    (run : List (Turn σ H)) (w : World σ H) : Prop where
  refreshes : Refreshes start w
  covers : ∀ turn ∈ run, ∀ t, PingsAt P fuel turn t → Covers start w t
  outstanding : w.client.pingOutstanding = true →
    start.client.pingOutstanding = true ∨ ∃ turn ∈ run, ∃ t, PingsAt P fuel turn t

/-- From the check on a turn only refreshes. -/
theorem CycleStep.refreshes_of_check {w w' w₂ w₃ : World σ H} {label : Timer × Int} {rc : Int}
    (hstep : CycleStep P fuel w label w') (hcheck : checkWorld P fuel label.1 w = some w₂)
    (hkeep : (keepalive P fuel).run w₂ = some (rc, w₃)) : Refreshes w₃ w' := by
  obtain ⟨_, hnone⟩ | ⟨w₂', rc', w₃', hcheck', hkeep', hafter, _⟩ := hstep.check_cases
  · rw [hcheck] at hnone
    cases hnone
  · obtain rfl := Option.some.inj (hcheck.symm.trans hcheck')
    obtain ⟨rfl, rfl⟩ := run_inj hkeep hkeep'
    exact hafter

/-- The clock of a longer run advanced in its first part. -/
theorem ClockAdvances.of_refreshes {start w w' : World σ H}
    (hclock : ClockAdvances (readings (since start w'))) (h : Refreshes start w)
    (h' : Refreshes w w') : ClockAdvances (readings (since start w)) := by
  rw [h.since_append h', readings_append] at hclock
  exact hclock.left

/-- A ping of the turn is covered at its end. -/
theorem CycleStep.covers {start : World σ H} {turn : Turn σ H} {t : Timeval}
    (hstep : CycleStep P fuel turn.source turn.label turn.target)
    (hstart : Refreshes start turn.source)
    (hclock : ClockAdvances (readings (since start turn.target)))
    (hping : PingsAt P fuel turn t) : Covers start turn.target t := by
  obtain ⟨w₂, w₃, hcheck, hsends⟩ := hping
  have hbefore := hstart.trans (checkWorld_cases hcheck).1
  have hbetween := hbefore.trans (keepalive_refreshes _ _ _ hsends.run_eq)
  have hafter := hstep.refreshes_of_check hcheck hsends.run_eq
  exact (hsends.covers hbefore (hclock.of_refreshes hbetween hafter)).refresh hbetween hafter hclock

/-- A turn that leaves a ping outstanding found it so or sent it. -/
theorem CycleStep.outstanding {turn : Turn σ H}
    (hstep : CycleStep P fuel turn.source turn.label turn.target)
    (h : turn.target.client.pingOutstanding = true) :
    turn.source.client.pingOutstanding = true ∨ ∃ t, PingsAt P fuel turn t := by
  obtain ⟨hold, _⟩ | ⟨w₂, rc, w₃, hcheck, hkeep, _, hlast⟩ := hstep.check_cases
  · exact .inl (hold h)
  · obtain ⟨rfl, _, t, hpinged⟩ | hnot := keepalive_cases hkeep
    · exact .inr ⟨t, w₂, w₃, hcheck, sendsPing_of_pinged hkeep hpinged⟩
    · have hset := hlast h
      rw [hnot.flags.pingOutstanding] at hset
      exact .inl ((checkWorld_cases hcheck).2 hset)

theorem PingsCovered.step {start : World σ H} {run : List (Turn σ H)} {turn : Turn σ H}
    (hclock : ClockAdvances (readings (since start turn.target)))
    (hstep : CycleStep P fuel turn.source turn.label turn.target)
    (h : PingsCovered P fuel start run turn.source) :
    PingsCovered P fuel start (run ++ [turn]) turn.target where
  refreshes := h.refreshes.trans hstep.refreshes
  covers := by
    intro turn' hturn t hping
    rcases List.mem_append.mp hturn with hold | hnew
    · exact (h.covers turn' hold t hping).refresh h.refreshes hstep.refreshes hclock
    · obtain rfl := List.mem_singleton.mp hnew
      exact hstep.covers h.refreshes hclock hping
  outstanding := by
    intro hset
    rcases hstep.outstanding hset with hbefore | ⟨t, hping⟩
    · refine (h.outstanding hbefore).imp_right ?_
      rintro ⟨turn', hturn, hping⟩
      exact ⟨turn', List.mem_append_left _ hturn, hping⟩
    · exact .inr ⟨turn, by simp, t, hping⟩

/-- Every ping of a run is covered at its end. -/
theorem pingsCovered_of_run {w w' : World σ H} {run : List (Turn σ H)}
    (hrun : Run (CycleStep P fuel) w run w')
    (hclock : ClockAdvances (readings (since w w'))) : PingsCovered P fuel w run w' := by
  refine hrun.history (PingsCovered P fuel w) ⟨.refl w, by simp, .inl⟩ ?_
  rintro before turn after rfl hstep hinv
  have hafter := hrun.split.2.2.preorder Refreshes.refl Refreshes.trans CycleStep.refreshes
  exact hinv.step (hclock.of_refreshes (hinv.refreshes.trans hstep.refreshes) hafter) hstep

/-! ## The interval -/

/-- A check that gives up finds one of the two timers expired at its last reading. -/
theorem expired_of_keepalive_failure {w w' : World σ H} {t : Timeval}
    (hping : w.client.pingOutstanding = true)
    (hrun : (keepalive P fuel).run w = some (failure, w'))
    (htime : (readings (since w w')).getLast? = some t) :
    (t = (checkTimes P w.env).1 ∧ w.client.lastSent.isExpiredAt t = true) ∨
      (t = (checkTimes P w.env).2 ∧ w.client.lastReceived.isExpiredAt t = true) := by
  rw [keepalive, run_bind_of_eq_some (run_client w)] at hrun
  split at hrun
  · cases hrun
  · obtain ⟨due, w₁, hdue, hrun⟩ := run_bind_eq_some.mp hrun
    obtain ⟨_, asked, htrace, _, hcases⟩ := keepaliveDue_cases hdue
    cases due with
    | false => cases hrun
    | true =>
        rw [if_pos rfl] at hrun
        cases hrun
        rw [since_of_append htrace] at htime
        rcases hcases with ⟨_, hlast, hexpired⟩ | ⟨hexpired, hlast, _⟩
        · rw [hlast] at htime
          cases htime
          exact .inl ⟨rfl, hexpired⟩
        · rw [hlast] at htime
          cases htime
          exact .inr ⟨rfl, hexpired.symm⟩

/-- A turn that gives up does so when the sending timer has expired, and so not
before any ping of the run has had its interval. -/
theorem GivesUpAt.le {start : World σ H} {before : List (Turn σ H)} {turn : Turn σ H}
    {t' : Timeval} (h : GivesUpAt P fuel turn t')
    (hstep : CycleStep P fuel turn.source turn.label turn.target)
    (hclock : ClockAdvances (readings (since start turn.target)))
    (hfirst : SendingTimerExpiresFirst P fuel turn)
    (hcovered : PingsCovered P fuel start before turn.source) :
    ∀ earlier ∈ before, ∀ t, PingsAt P fuel earlier t →
      t.micros + start.client.keepAliveInterval * 1000000 ≤ t'.micros := by
  intro earlier hearlier t hpings
  obtain ⟨w₂, w₃, hcheck, hping, hrun, htime⟩ := h
  have hto := (checkWorld_cases hcheck).1
  have hkeep := keepalive_refreshes _ _ _ hrun
  have hclock₃ := hclock.of_refreshes ((hcovered.refreshes.trans hto).trans hkeep)
    (hstep.refreshes_of_check hcheck hrun)
  have hclock₂ := hclock₃.of_refreshes (hcovered.refreshes.trans hto) hkeep
  have hcover := (hcovered.covers earlier hearlier t hpings).refresh hcovered.refreshes hto hclock₂
  have hnormal : t'.IsNormal := by
    apply hclock₃.normal
    rw [(hcovered.refreshes.trans hto).since_append hkeep, readings_append]
    exact List.mem_append_right _ (List.mem_of_getLast? htime)
  have hexpired : w₂.client.lastSent.isExpiredAt t' = true := by
    rcases expired_of_keepalive_failure hping hrun htime with ⟨_, hsent⟩ | ⟨rfl, hreceived⟩
    · exact hsent
    · exact hfirst w₂ hcheck hping hreceived
  exact hcover.le.trans ((Timer.isExpiredAt_iff hcover.normal hnormal).mp hexpired)

/-- Under a clock that never goes back, in every run of turns in which the sending
timer decides about outstanding pings, no ping is given up before the keepalive
interval has passed since it was sent; and what is given up is a ping of the run,
unless one was outstanding when it began. -/
theorem grantsInterval_of_sendingTimerExpiresFirst {w w' : World σ H} {run : List (Turn σ H)}
    (hrun : Run (CycleStep P fuel) w run w')
    (hclock : ClockAdvances (readings (since w w')))
    (hfirst : ∀ turn ∈ run, SendingTimerExpiresFirst P fuel turn) :
    GrantsInterval P fuel w.client.keepAliveInterval run ∧
      (w.client.pingOutstanding = false →
        ∀ before turn after, run = before ++ turn :: after → ∀ t', GivesUpAt P fuel turn t' →
          ∃ earlier ∈ before, ∃ t, PingsAt P fuel earlier t) := by
  have hcut : ∀ before turn after, run = before ++ turn :: after →
      CycleStep P fuel turn.source turn.label turn.target ∧
        ClockAdvances (readings (since w turn.target)) ∧
        PingsCovered P fuel w before turn.source := by
    rintro before turn after rfl
    obtain ⟨hbefore, hstep, hafter⟩ := hrun.split
    have hto := hbefore.preorder Refreshes.refl Refreshes.trans CycleStep.refreshes
    have hfrom := hafter.preorder Refreshes.refl Refreshes.trans CycleStep.refreshes
    have hclock' := hclock.of_refreshes (hto.trans hstep.refreshes) hfrom
    exact ⟨hstep, hclock', pingsCovered_of_run hbefore (hclock'.of_refreshes hto hstep.refreshes)⟩
  constructor
  · intro before turn after heq t' hgives
    obtain ⟨hstep, hclock', hcovered⟩ := hcut before turn after heq
    exact hgives.le hstep hclock' (hfirst turn (by simp [heq])) hcovered
  · intro hnone before turn after heq t' hgives
    obtain ⟨_, _, hcovered⟩ := hcut before turn after heq
    obtain ⟨w₂, _, hcheck, hping, _⟩ := hgives
    refine (hcovered.outstanding ((checkWorld_cases hcheck).2 hping)).resolve_left ?_
    rw [hnone]
    decide

/-! ## A broker that does not answer -/

/-- A connection on which nothing arrives: every read waits for some seconds and times
out.  Every write is accepted. -/
def silentPlatform (wait : Nat) : Platform Nat where
  gettimeofday s := (⟨s, 0⟩, s)
  mqttread s _ _ := some (⟨0, [], Nat.zero_le _, Int.le_refl _⟩, s + wait)
  mqttwrite s offered _ := some (offered.length, s)
  cycleLocals s := (⟨⟨0, 0, 0, 0, .initializer, .null, 0⟩, ⟨0, 0, 0⟩⟩, s)

/-- The client of the application, connected at time 0 with an interval of a minute. -/
def silentWorld (start : Nat) : World Nat Unit where
  client := { brokerClient with
    isconnected := true
    keepAliveInterval := 60
    lastSent := .countdownAt ⟨0, 0⟩ 60
    lastReceived := .countdownAt ⟨0, 0⟩ 60 }
  env := start
  trace := []

/-- The world after a turn. -/
def silentTurn (wait : Nat) (w : World Nat Unit) : World Nat Unit :=
  ((cycle (silentPlatform wait) 3 second).run w).elim w Prod.snd

/-- Two turns: the first sends a ping, the second gives it up. -/
def silentRun (wait start : Nat) : List (Turn Nat Unit) :=
  [⟨silentWorld start, (second, 0), silentTurn wait (silentWorld start)⟩,
    ⟨silentTurn wait (silentWorld start), (second, failure),
      silentTurn wait (silentTurn wait (silentWorld start))⟩]

theorem silentTurn_step {wait : Nat} {w : World Nat Unit} {rc : Int}
    (h : ((cycle (silentPlatform wait) 3 second).run w).map Prod.fst = some rc) :
    CycleStep (silentPlatform wait) 3 w (second, rc) (silentTurn wait w) := by
  obtain ⟨⟨_, w'⟩, hrun, rfl⟩ := Option.map_eq_some_iff.mp h
  show (cycle _ _ _).run w = some (_, silentTurn wait w)
  rw [silentTurn, hrun]
  rfl

/-- With turns of a minute the sending timer has expired when the ping is given up,
and it is given up a minute after it was sent. -/
theorem grantsInterval_silentRun :
    GivesUpAt (silentPlatform 60) 3 ⟨silentTurn 60 (silentWorld 1), (second, failure),
        silentTurn 60 (silentTurn 60 (silentWorld 1))⟩ ⟨121, 0⟩ ∧
      GrantsInterval (silentPlatform 60) 3 60 (silentRun 60 1) := by
  refine ⟨⟨_, _, rfl, by decide, rfl, by decide⟩, ?_⟩
  apply (grantsInterval_of_sendingTimerExpiresFirst (w := silentWorld 1)
    (.cons (silentTurn_step (by decide)) (.cons (silentTurn_step (by decide)) (.nil _)))
    ⟨by decide, by decide⟩ ?_).1
  intro turn hturn
  rcases List.mem_cons.mp hturn with rfl | hturn
  · rintro w hcheck hping
    cases hcheck
    exact absurd hping (by decide)
  · obtain rfl := List.mem_singleton.mp hturn
    rintro w hcheck _ _
    cases hcheck
    decide

/-- With turns of a second the ping is sent at 61, and given up at 62 because nothing
was received since the connection was made. -/
theorem not_grantsInterval_silentRun :
    Run (CycleStep (silentPlatform 1) 3) (silentWorld 60) (silentRun 1 60)
        (silentTurn 1 (silentTurn 1 (silentWorld 60))) ∧
      ClockAdvances (readings (since (silentWorld 60)
        (silentTurn 1 (silentTurn 1 (silentWorld 60))))) ∧
      ¬ GrantsInterval (silentPlatform 1) 3 60 (silentRun 1 60) := by
  refine ⟨.cons (silentTurn_step (by decide)) (.cons (silentTurn_step (by decide)) (.nil _)),
    ⟨by decide, by decide⟩, fun h => ?_⟩
  have hle := h [_] _ [] rfl ⟨62, 0⟩ ⟨_, _, rfl, by decide, rfl, by decide⟩ _
    (List.mem_singleton.mpr rfl) ⟨61, 0⟩ ⟨_, _, rfl, rfl, by decide, by decide⟩
  exact absurd hle (by decide)

end MqttClient

/-
# What `sendPacket` hands to the network

`sendPacket` calls `mqttwrite` until the whole packet is out.  After a call that took only
a part of it, the next one starts behind that part but is passed the whole `length` again.

Over `mqtt_network_write` this does not show.  That function has a loop of its own and
comes back with the whole packet written or with an error, so a send hands the packet to
the TLS connection whole, or a proper part of it and reports the failure.

Over a transport that may take a part, as the contract of `mqttwrite` allows, a send that
goes on after a part offers bytes behind the packet, and whatever they are they may go
out.  It is exactly this that goes wrong: a transport that never takes a part while the
timer leaves time to go on is offered the packet and nothing else.
-/

import MqttClient.Semantics.Transfer
import MqttClient.Client.Frame
import MqttClient.Platform.Network
import MqttClient.Tasks.MqttTask

namespace MqttClient

open Semantics Program

variable {σ H : Type}

/-! ## The loop of `sendPacket` as attempts -/

section Turns

variable (P : Platform σ) (buf : Memory) (length : Nat) (timer : Timer)

/-- The call of `mqttwrite` in a turn that starts from `s`: the timer has been asked before,
and the time left is computed from a second reading. -/
def offer (sent : Nat) (s : σ) : Option (Int × σ) :=
  let asked := (P.gettimeofday s).2
  P.mqttwrite (P.gettimeofday asked).2 (buf.load sent length)
    (timer.leftMSAt (P.gettimeofday asked).1)

/-- What the loop makes of the answer to an offer. -/
def answered (sent : Nat) : Option (Int × σ) → Turn σ Nat
  | none => .stuck length
  | some (rc, s') =>
      if rc < 0 then .refused length sent s' -- there was an error writing the data
      else .took length rc.toNat (sent + rc.toNat) s'

/-- One turn of the loop with `sent` bytes behind it. -/
def sendTurn (sent : Nat) (s : σ) : Turn σ Nat :=
  if sent < length then
    if timer.isExpiredAt (P.gettimeofday s).1 then .done sent (P.gettimeofday s).2
    else answered length sent (offer P buf length timer sent s)
  else .done sent s

/-- The attempts of `sendPacket` within `fuel` turns. -/
def sendAttempts (fuel : Nat) (s : σ) : List Attempt :=
  (transfer (sendTurn P buf length timer) fuel 0 s).1

end Turns

variable {P : Platform σ} {buf : Memory} {length : Nat} {timer : Timer}

theorem sendTurn_of_ge {sent : Nat} (h : length ≤ sent) (s : σ) :
    sendTurn P buf length timer sent s = .done sent s := by
  rw [sendTurn, if_neg (Nat.not_lt.mpr h)]

theorem sendTurn_of_expired {sent : Nat} (h : sent < length) {s : σ}
    (hexpired : timer.isExpiredAt (P.gettimeofday s).1 = true) :
    sendTurn P buf length timer sent s = .done sent (P.gettimeofday s).2 := by
  rw [sendTurn, if_pos h, if_pos hexpired]

/-- A turn with bytes to send and time to send them makes an attempt. -/
theorem sendTurn_of_running (buf : Memory) {sent : Nat} (h : sent < length) {s : σ}
    (hrunning : timer.isExpiredAt (P.gettimeofday s).1 = false) :
    sendTurn P buf length timer sent s =
      answered length sent (offer P buf length timer sent s) := by
  rw [sendTurn, if_pos h, hrunning, if_neg Bool.false_ne_true]

theorem answered_of_neg {sent : Nat} {rc : Int} (h : rc < 0) (s : σ) :
    answered length sent (some (rc, s)) = .refused length sent s :=
  if_pos h

theorem answered_of_nonneg {sent : Nat} {rc : Int} (h : 0 ≤ rc) (s : σ) :
    answered length sent (some (rc, s)) = .took length rc.toNat (sent + rc.toNat) s :=
  if_neg (Int.not_lt.mpr h)

/-- The five ways a turn can go. -/
theorem sendTurn_cases (P : Platform σ) (buf : Memory) (length : Nat) (timer : Timer) (sent : Nat)
    (s : σ) :
    (length ≤ sent ∧ sendTurn P buf length timer sent s = .done sent s) ∨
    (sent < length ∧ timer.isExpiredAt (P.gettimeofday s).1 = true ∧
      sendTurn P buf length timer sent s = .done sent (P.gettimeofday s).2) ∨
    (sent < length ∧ timer.isExpiredAt (P.gettimeofday s).1 = false ∧
      ((offer P buf length timer sent s = none ∧
          sendTurn P buf length timer sent s = .stuck length) ∨
        ∃ rc s', offer P buf length timer sent s = some (rc, s') ∧
          ((rc < 0 ∧ sendTurn P buf length timer sent s = .refused length sent s') ∨
            (0 ≤ rc ∧ sendTurn P buf length timer sent s =
              .took length rc.toNat (sent + rc.toNat) s')))) := by
  rcases Nat.lt_or_ge sent length with hlt | hge
  · cases hclock : timer.isExpiredAt (P.gettimeofday s).1 with
    | true => exact .inr (.inl ⟨hlt, rfl, sendTurn_of_expired hlt hclock⟩)
    | false =>
        rw [sendTurn_of_running buf hlt hclock]
        refine .inr (.inr ⟨hlt, rfl, ?_⟩)
        rcases offer P buf length timer sent s with _ | ⟨rc, s'⟩
        · exact .inl ⟨rfl, rfl⟩
        · refine .inr ⟨rc, s', rfl, ?_⟩
          rcases Int.lt_or_le rc 0 with hneg | hnonneg
          · exact .inl ⟨hneg, answered_of_neg hneg s'⟩
          · exact .inr ⟨hnonneg, answered_of_nonneg hnonneg s'⟩
  · exact .inl ⟨hge, sendTurn_of_ge hge s⟩

/-- With bytes to send and time to send them, a turn offers the whole length. -/
theorem sendTurn_offers (buf : Memory) {sent : Nat} (h : sent < length) {s : σ}
    (hrunning : timer.isExpiredAt (P.gettimeofday s).1 = false) :
    (sendTurn P buf length timer sent s).offers = some length := by
  obtain ⟨hge, _⟩ | ⟨_, hexpired, _⟩ | ⟨_, _, ⟨_, hturn⟩ | ⟨rc, s', _, ⟨_, hturn⟩ | ⟨_, hturn⟩⟩⟩ :=
    sendTurn_cases P buf length timer sent s
  · omega
  · rw [hrunning] at hexpired
    cases hexpired
  all_goals
    rw [hturn]
    rfl

/-- The loop counts what was taken. -/
theorem sendTurn_counts (sent : Nat) (s : σ) :
    (sendTurn P buf length timer sent s).Counts sent := by
  obtain ⟨_, hturn⟩ | ⟨_, _, hturn⟩ |
      ⟨_, _, ⟨_, hturn⟩ | ⟨rc, s', _, ⟨_, hturn⟩ | ⟨_, hturn⟩⟩⟩ :=
    sendTurn_cases P buf length timer sent s <;> rw [hturn]
  · rfl
  · rfl
  · trivial
  · rfl
  · rfl

/-- What was transmitted is one stretch from the start of the buffer. -/
theorem transferredIn_sendAttempts (fuel : Nat) (s : σ) :
    Attempt.transferredIn (sendAttempts P buf length timer fuel s) =
      List.range' 0 (Attempt.amount (sendAttempts P buf length timer fuel s)) :=
  (transfer_counts sendTurn_counts fuel).1.transferredIn_eq

/-- The network is asked after two readings of the clock. -/
theorem run_mqttwrite_offer (sent : Nat) (w : World σ H) :
    (mqttwrite P (((w.asked P timer).ticked P).client.buf.load sent length)
        (timer.leftMSAt (P.gettimeofday (w.asked P timer).env).1)).run
          ((w.asked P timer).ticked P) =
      (offer P w.client.buf length timer sent w.env).map fun r =>
        (r.1, { w with
          env := r.2
          trace := ((w.asked P timer).ticked P).trace ++
            [.write (w.client.buf.load sent length) r.1] }) :=
  rfl

/-- The loop ends with the same count, in the same state of the platform, as its turns, and
leaves the client alone. -/
theorem run_sendPacketLoop (fuel : Nat) :
    ∀ (sent : Nat) (w : World σ H),
      ((sendPacketLoop P length timer fuel sent).run w).map
          (fun r => (r.1, r.2.env, r.2.client)) =
        (transfer (sendTurn P w.client.buf length timer) fuel sent w.env).2.map
          (fun r => (r.1, r.2, w.client)) := by
  induction fuel with
  | zero => intro sent w; rfl
  | succ fuel ih =>
      intro sent w
      rw [sendPacketLoop]
      obtain ⟨hge, hturn⟩ | ⟨hlt, hclock, hturn⟩ | ⟨hlt, hclock, hanswer⟩ :=
        sendTurn_cases P w.client.buf length timer sent w.env
      · rw [if_neg (Nat.not_lt.mpr hge), transfer_of_done hturn]
        rfl
      · rw [if_pos hlt, run_bind_of_eq_some (run_timerIsExpired timer w), if_pos hclock,
          transfer_of_done hturn]
        rfl
      · rw [if_pos hlt, run_bind_of_eq_some (run_timerIsExpired timer w),
          if_neg (Bool.eq_false_iff.mp hclock), run_bind_of_eq_some (run_timerLeftMS timer _),
          run_bind_of_eq_some (run_client _), run_bind, run_mqttwrite_offer]
        obtain ⟨hoffer, hturn⟩ | ⟨rc, s', hoffer, ⟨hneg, hturn⟩ | ⟨hnonneg, hturn⟩⟩ := hanswer
        · rw [hoffer, transfer_of_stuck hturn]
          rfl
        · rw [hoffer, transfer_of_refused hturn, Option.map_some, Option.bind_some, if_pos hneg]
          rfl
        · rw [hoffer, transfer_of_took hturn, Option.map_some, Option.bind_some,
            if_neg (Int.not_lt.mpr hnonneg), ih]

/-- A returning loop is a returning sequence of turns, and the client is as it was. -/
theorem sendPacketLoop_cases {fuel sent : Nat} {w w' : World σ H}
    (h : (sendPacketLoop P length timer fuel 0).run w = some (sent, w')) :
    (transfer (sendTurn P w.client.buf length timer) fuel 0 w.env).2 = some (sent, w'.env) ∧
      w'.client = w.client := by
  have herased := (run_sendPacketLoop fuel 0 w).symm.trans (congrArg (Option.map _) h)
  obtain ⟨⟨sent', env⟩, houtcome, heq⟩ := Option.map_eq_some_iff.mp herased
  obtain ⟨rfl, rfl, hclient⟩ : sent' = sent ∧ env = w'.env ∧ w.client = w'.client := by
    simpa using heq
  exact ⟨houtcome, hclient.symm⟩

/-- A send succeeds if its loop ends with the whole length, and only then the sending timer
is restarted. -/
theorem sendPacket_cases {fuel : Nat} {rc : Int} {w w' : World σ H}
    (h : (sendPacket P fuel length timer).run w = some (rc, w')) :
    ∃ sent env,
      (transfer (sendTurn P w.client.buf length timer) fuel 0 w.env).2 = some (sent, env) ∧
      ((sent = length ∧ rc = mqttSuccess ∧ w'.env = (P.gettimeofday env).2) ∨
        (sent ≠ length ∧ rc = failure ∧ w'.env = env ∧ w'.client = w.client)) := by
  obtain ⟨sent, w₁, hloop, hrest⟩ := run_bind_eq_some.mp h
  obtain ⟨houtcome, hclient⟩ := sendPacketLoop_cases hloop
  refine ⟨sent, w₁.env, houtcome, ?_⟩
  by_cases hsent : sent = length
  · rw [if_pos hsent] at hrest
    cases hrest
    exact .inl ⟨hsent, rfl, rfl⟩
  · rw [if_neg hsent] at hrest
    obtain ⟨rfl, rfl⟩ := run_pure_eq_some.mp hrest
    exact .inr ⟨hsent, rfl, rfl, hclient⟩

/-! ## Over a TLS connection -/

/-- `outbound` is the stream of bytes the connection has accepted: `SSL_write` appends the
bytes it reports as written, and nothing else appends anything. -/
structure TlsHost.Appends {τ : Type} (host : TlsHost τ) (outbound : τ → List UInt8) : Prop where
  written : ∀ {s s' : τ} {offered : List UInt8} {count : Nat} {pos le},
    host.sslWrite s offered = (.written count pos le, s') →
      outbound s' = outbound s ++ offered.take count
  error : ∀ {s s' : τ} {offered : List UInt8} {err : SslError},
    host.sslWrite s offered = (.error err, s') → outbound s' = outbound s
  clock : ∀ s, outbound (host.gettimeofday s).2 = outbound s

namespace TlsHost.Appends

variable {τ : Type} {host : TlsHost τ} {outbound : τ → List UInt8}

/-- `mqtt_network_write` appends the whole buffer, or fails before its end. -/
theorem writeLoop_eq_some (h : host.Appends outbound) {fuel : Nat} {s s' : τ}
    {buffer : List UInt8} {rc : Int}
    (hrun : mqttNetworkWriteLoop host buffer fuel 0 s = some (rc, s')) :
    (rc = buffer.length ∧ outbound s' = outbound s ++ buffer) ∨
      (rc = -1 ∧ ∃ k < buffer.length, outbound s' = outbound s ++ buffer.take k) := by
  have hstart : outbound s = outbound s ++ buffer.take 0 := by rw [List.take_zero, List.append_nil]
  have hend := mqttNetworkWriteLoop_invariant
    (I := fun written s₁ => outbound s₁ = outbound s ++ buffer.take written)
    (fun hbefore hwrite => (h.error hwrite).trans hbefore)
    (fun hbefore hwrite => by
      rw [h.written hwrite, hbefore, List.append_assoc, ← List.take_add])
    (Nat.zero_le _) hstart hrun
  rwa [List.take_length] at hend

/-- The turns of a send over `mqtt_network_write`: one attempt settles it. -/
theorem sendTurns_eq_some (h : host.Appends outbound) {fuel fuel' sent : Nat}
    (hlength : 0 < length) {s s' : τ}
    (houtcome : (transfer (sendTurn (linuxPlatform host fuel') buf length timer) fuel 0 s).2 =
      some (sent, s')) :
    (sent = length ∧ outbound s' = outbound s ++ buf.load 0 length) ∨
      (sent = 0 ∧ ∃ k < length, outbound s' = outbound s ++ (buf.load 0 length).take k) := by
  -- before an attempt nothing is appended, and after one that is not refused everything is
  refine (transfer_invariant (I := fun sent s₁ => (sent = 0 ∧ outbound s₁ = outbound s) ∨
    (sent = length ∧ outbound s₁ = outbound s ++ buf.load 0 length)) (A := fun _ => True)
    (R := fun sent s₁ => (sent = length ∧ outbound s₁ = outbound s ++ buf.load 0 length) ∨
      (sent = 0 ∧ ∃ k < length, outbound s₁ = outbound s ++ (buf.load 0 length).take k))
    ?_ fuel (.inl ⟨rfl, rfl⟩)).2 sent s' houtcome
  rintro sent s₁ (⟨rfl, hsame⟩ | ⟨rfl, hwhole⟩)
  · obtain ⟨hge, _⟩ | ⟨_, _, hturn⟩ | ⟨_, _, ⟨_, hturn⟩ | ⟨rc, s₂, hoffer, hanswer⟩⟩ :=
      sendTurn_cases (linuxPlatform host fuel') buf length timer 0 s₁
    · omega
    · rw [hturn]
      refine .inr ⟨rfl, 0, hlength, ?_⟩
      rw [List.take_zero, List.append_nil]
      exact (h.clock s₁).trans hsame
    · rw [hturn]
      trivial
    · have hend := h.writeLoop_eq_some hoffer
      have hclocks : outbound ((linuxPlatform host fuel').gettimeofday
          ((linuxPlatform host fuel').gettimeofday s₁).2).2 = outbound s :=
        ((h.clock _).trans (h.clock s₁)).trans hsame
      rw [hclocks, Memory.load_length] at hend
      obtain ⟨hneg, hturn⟩ | ⟨hnonneg, hturn⟩ := hanswer
      · obtain ⟨hrc, _⟩ | ⟨_, hpart⟩ := hend
        · omega
        · rw [hturn]
          exact ⟨trivial, .inr ⟨rfl, hpart⟩⟩
      · obtain ⟨rfl, hwhole⟩ | ⟨hrc, _⟩ := hend
        · rw [hturn, Int.toNat_natCast, Nat.zero_add]
          exact ⟨trivial, .inr ⟨rfl, hwhole⟩⟩
        · omega
  · rw [sendTurn_of_ge (Nat.le_refl _)]
    exact .inl ⟨rfl, hwhole⟩

end TlsHost.Appends

/-- A send over the TLS connection succeeds only if it appended the packet to the stream,
whole and once.  Otherwise it fails, with a proper part of the packet appended and the
sending timer as it was. -/
theorem sendPacket_appends {τ : Type} {host : TlsHost τ} {outbound : τ → List UInt8}
    (h : host.Appends outbound) {fuel fuel' : Nat} (hlength : 0 < length) {w w' : World τ H}
    {rc : Int}
    (hrun : (sendPacket (linuxPlatform host fuel') fuel length timer).run w = some (rc, w')) :
    (rc = mqttSuccess ∧ outbound w'.env = outbound w.env ++ w.client.buf.load 0 length) ∨
      (rc = failure ∧
        (∃ k < length, outbound w'.env = outbound w.env ++ (w.client.buf.load 0 length).take k) ∧
        w'.client.lastSent = w.client.lastSent) := by
  obtain ⟨sent, env, houtcome, hend⟩ := sendPacket_cases hrun
  obtain ⟨hsent, hwhole⟩ | ⟨hsent, hpart⟩ := h.sendTurns_eq_some hlength houtcome
  · obtain ⟨_, hrc, henv⟩ | ⟨hne, _⟩ := hend
    · exact .inl ⟨hrc, by rw [henv]; exact (h.clock env).trans hwhole⟩
    · exact absurd hsent hne
  · obtain ⟨heq, _⟩ | ⟨_, hrc, henv, hclient⟩ := hend
    · omega
    · exact .inr ⟨hrc, henv ▸ hpart, congrArg _ hclient⟩

/-- `SSL_write` on a connection that accepts one byte at a time. -/
def drip (accepted : List UInt8) : (offered : List UInt8) → SslWrite offered.length × List UInt8
  | [] => (.error .other, accepted)
  | b :: rest => (.written 1 Nat.one_pos (Nat.succ_pos rest.length), accepted ++ [b])

/-- Such a connection, whose state is what it has accepted. -/
def drippingHost : TlsHost (List UInt8) where
  gettimeofday s := (⟨0, 0⟩, s)
  sslRead s _ := (.error .other, s)
  sslWrite := drip
  cycleLocals s := (⟨⟨0, 0, 0, 0, .initializer, .null, 0⟩, ⟨0, 0, 0⟩⟩, s)

theorem drippingHost_appends : drippingHost.Appends id where
  written {s s' offered count pos le} hwrite := by
    cases offered with
    | nil => cases hwrite
    | cons b rest =>
        cases hwrite
        rfl
  error {s s' offered err} hwrite := by
    cases offered with
    | nil =>
        cases hwrite
        rfl
    | cons b rest => cases hwrite
  clock _ := rfl

/-- The client with `bytes` in its send buffer, on a platform in state `env`. -/
def holding (bytes : List UInt8) (env : σ) : World σ Unit :=
  ⟨{ brokerClient with buf := fun i => bytes.getD i 0 }, env, []⟩

/-- A PINGREQ goes out one byte at a time. -/
theorem sendPacket_appends_pingreq :
    drippingHost.Appends id ∧ 0 < 2 ∧
      (sendPacket (linuxPlatform drippingHost 3) 2 2 (.countdownMSAt ⟨0, 0⟩ 1000)).Returns
        (holding [0xC0, 0] []) fun rc w' => rc = mqttSuccess ∧ w'.env = [0xC0, 0] := by
  obtain ⟨rc, w', hrun, rfl⟩ :
      (sendPacket (linuxPlatform drippingHost 3) 2 2 (.countdownMSAt ⟨0, 0⟩ 1000)).Returns
        (holding [0xC0, 0] []) fun rc _ => rc = mqttSuccess :=
    returns_of_map_eq (f := Prod.fst) (by decide)
  obtain ⟨_, hwhole⟩ | ⟨hrc, _⟩ := sendPacket_appends drippingHost_appends Nat.two_pos hrun
  · exact ⟨drippingHost_appends, Nat.two_pos, _, w', hrun, rfl, hwhole⟩
  · cases hrc

/-! ## Over any transport -/

/-- The contract of `mqttwrite`: it reports how many of the offered bytes, from the first
one on, it transmitted, or an error. -/
def CountsWrites (P : Platform σ) : Prop :=
  ∀ ⦃s s' : σ⦄ ⦃offered : List UInt8⦄ ⦃timeoutMs rc : Int⦄,
    P.mqttwrite s offered timeoutMs = some (rc, s') → rc ≤ offered.length

/-- A send offers the packet and nothing else, transmits no byte of it twice, and succeeds
exactly if all of it was transmitted. -/
structure SendsPacketOnce (P : Platform σ) (length : Nat) (timer : Timer) (w : World σ H) :
    Prop where
  within : ∀ fuel, ∀ attempt ∈ sendAttempts P w.client.buf length timer fuel w.env,
    ∀ i ∈ attempt.offered, i < length
  once : ∀ fuel,
    (Attempt.transferredIn (sendAttempts P w.client.buf length timer fuel w.env)).Nodup
  success_iff : ∀ {fuel : Nat} {rc : Int} {w' : World σ H},
    (sendPacket P fuel length timer).run w = some (rc, w') →
    (rc = mqttSuccess ↔ ∀ i < length,
      i ∈ Attempt.transferredIn (sendAttempts P w.client.buf length timer fuel w.env))

/-- Offered the packet, the transport takes a part of it and leaves the loop time to go on,
at once or after it took nothing some times. -/
inductive TakesPart (P : Platform σ) (buf : Memory) (length : Nat) (timer : Timer) : σ → Prop
  | now {s s' : σ} {rc : Int} (running : timer.isExpiredAt (P.gettimeofday s).1 = false)
      (taken : offer P buf length timer 0 s = some (rc, s')) (pos : 0 < rc) (lt : rc < length)
      (on : timer.isExpiredAt (P.gettimeofday s').1 = false) : TakesPart P buf length timer s
  | later {s s' : σ} (running : timer.isExpiredAt (P.gettimeofday s).1 = false)
      (taken : offer P buf length timer 0 s = some (0, s'))
      (rest : TakesPart P buf length timer s') : TakesPart P buf length timer s

theorem TakesPart.length_pos {s : σ} (h : TakesPart P buf length timer s) : 0 < length := by
  induction h with
  | now running taken pos lt on => omega
  | later running taken rest ih => exact ih

/-- A loop that goes on after a part offers bytes behind the packet. -/
theorem TakesPart.exists_outside {s : σ} (h : TakesPart P buf length timer s) :
    ∃ fuel, ∃ attempt ∈ sendAttempts P buf length timer fuel s,
      ∃ i ∈ attempt.offered, ¬ i < length := by
  have hlength := h.length_pos
  induction h with
  | @now s s' rc running taken pos lt on =>
      have hturn := sendTurn_of_running buf hlength running
      rw [taken, answered_of_nonneg (Int.le_of_lt pos)] at hturn
      obtain ⟨attempt, hmem, hstart, hsize⟩ :=
        exists_attempt_of_offers (sendTurn_offers buf (show 0 + rc.toNat < length by omega) on) 0
      refine ⟨2, attempt, ?_, Attempt.exists_offered_outside (by omega) (by omega)⟩
      rw [sendAttempts, transfer_of_took hturn]
      exact List.mem_cons_of_mem _ hmem
  | @later s s' running taken rest ih =>
      have hturn := sendTurn_of_running buf hlength running
      rw [taken, answered_of_nonneg (Int.le_refl 0)] at hturn
      obtain ⟨fuel, attempt, hmem, houtside⟩ := ih
      refine ⟨fuel + 1, attempt, ?_, houtside⟩
      rw [sendAttempts, transfer_of_took hturn]
      exact List.mem_cons_of_mem _ hmem

/-- While the transport takes no part and leaves time, every attempt offers the packet from
its start, and the loop does not count beyond the packet. -/
theorem sendTurns_of_not_takesPart (hcounts : CountsWrites P) {s : σ}
    (hnone : ¬ TakesPart P buf length timer s) (fuel : Nat) :
    (∀ attempt ∈ sendAttempts P buf length timer fuel s,
      attempt.start = 0 ∧ attempt.size = length) ∧
    ∀ sent s', (transfer (sendTurn P buf length timer) fuel 0 s).2 = some (sent, s') →
      sent ≤ length := by
  -- nothing was taken so far, or the whole packet, or there is no time to go on
  refine transfer_invariant (I := fun sent s₁ =>
    (sent = 0 ∧ ¬ TakesPart P buf length timer s₁) ∨ sent = length ∨
      (sent < length ∧ timer.isExpiredAt (P.gettimeofday s₁).1 = true))
    (R := fun sent _ => sent ≤ length) ?_ fuel (.inl ⟨rfl, hnone⟩)
  rintro sent s₁ (⟨rfl, hnone⟩ | rfl | ⟨hlt, hexpired⟩)
  · obtain ⟨_, hturn⟩ | ⟨_, _, hturn⟩ |
        ⟨_, hclock, ⟨_, hturn⟩ | ⟨rc, s₂, hoffer, ⟨_, hturn⟩ | ⟨hnonneg, hturn⟩⟩⟩ :=
      sendTurn_cases P buf length timer 0 s₁
    · rw [hturn]
      exact Nat.zero_le _
    · rw [hturn]
      exact Nat.zero_le _
    · rw [hturn]
      exact ⟨rfl, rfl⟩
    · rw [hturn]
      exact ⟨⟨rfl, rfl⟩, Nat.zero_le _⟩
    · have hle := hcounts hoffer
      rw [Memory.load_length] at hle
      rw [hturn]
      refine ⟨⟨rfl, rfl⟩, ?_⟩
      rcases Int.lt_trichotomy 0 rc with hpos | rfl | hneg
      · refine .inr ?_
        by_cases hwhole : rc = length
        · exact .inl (by omega)
        · refine .inr ⟨by omega, ?_⟩
          by_contra hrunning
          exact hnone (.now hclock hoffer hpos (by omega) (Bool.eq_false_iff.mpr hrunning))
      · exact .inl ⟨rfl, fun hpart => hnone (.later hclock hoffer hpart)⟩
      · omega
  · rw [sendTurn_of_ge (Nat.le_refl _)]
    exact Nat.le_refl _
  · rw [sendTurn_of_expired hlt hexpired]
    exact Nat.le_of_lt hlt

/-- Over a transport that keeps its contract a send is right exactly if the transport takes
no part of the packet while there is time to go on. -/
theorem sendsPacketOnce_iff (hcounts : CountsWrites P) (length : Nat) (timer : Timer)
    (w : World σ H) :
    SendsPacketOnce P length timer w ↔ ¬ TakesPart P w.client.buf length timer w.env := by
  constructor
  · intro honce hpart
    obtain ⟨fuel, attempt, hmem, i, hi, houtside⟩ := hpart.exists_outside
    exact houtside (honce.within fuel attempt hmem i hi)
  · intro hnone
    refine ⟨fun fuel attempt hmem i hi => ?_, fun fuel => ?_, fun {fuel rc w'} hrun => ?_⟩
    · obtain ⟨hstart, hsize⟩ := (sendTurns_of_not_takesPart hcounts hnone fuel).1 attempt hmem
      have hbounds := Attempt.mem_offered.mp hi
      omega
    · rw [transferredIn_sendAttempts]
      exact List.nodup_range'
    · obtain ⟨sent, env, houtcome, hend⟩ := sendPacket_cases hrun
      have hle := (sendTurns_of_not_takesPart hcounts hnone fuel).2 sent env houtcome
      have hsent : sent = Attempt.amount _ :=
        ((transfer_counts sendTurn_counts fuel).2 sent env houtcome).trans (Nat.zero_add _)
      have hall : (∀ i < length, i ∈ List.range' 0 sent) ↔ sent = length := by
        refine ⟨fun h => ?_, fun h i hi => List.mem_range'_1.mpr (by omega)⟩
        by_contra hne
        have hlast := List.mem_range'_1.mp (h sent (by omega))
        omega
      rw [transferredIn_sendAttempts, sendAttempts, ← hsent, hall]
      obtain ⟨heq, hrc, _⟩ | ⟨hne, hrc, _⟩ := hend
      · exact ⟨fun _ => heq, fun _ => hrc⟩
      · exact ⟨fun h => absurd (hrc.symm.trans h) (by decide), fun h => absurd h hne⟩

/-- A transport that takes at most `most` bytes of every offer. -/
def takingPlatform (most : Nat) : Platform Unit where
  gettimeofday s := (⟨0, 0⟩, s)
  mqttread _ _ _ := none
  mqttwrite s offered _ := some ((min most offered.length : Nat), s)
  cycleLocals s := (⟨⟨0, 0, 0, 0, .initializer, .null, 0⟩, ⟨0, 0, 0⟩⟩, s)

theorem takingPlatform_countsWrites (most : Nat) : CountsWrites (takingPlatform most) := by
  intro s s' offered timeoutMs rc hwrite
  obtain ⟨rfl, _⟩ := Prod.mk.inj (Option.some.inj hwrite)
  exact Int.ofNat_le.mpr (Nat.min_le_right most offered.length)

/-- The bytes of a PUBACK for identifier 7. -/
def pubackBytes : List UInt8 := [0x40, 2, 0, 7]

/-- A transport that takes a PUBACK in one piece. -/
theorem sendsPacketOnce_puback :
    CountsWrites (takingPlatform 4) ∧
      SendsPacketOnce (takingPlatform 4) 4 (.countdownMSAt ⟨0, 0⟩ 1000)
        (holding pubackBytes ()) := by
  have hcounts := takingPlatform_countsWrites 4
  refine ⟨hcounts, (sendsPacketOnce_iff hcounts 4 _ _).mpr ?_⟩
  rintro (⟨_, taken, _, lt, _⟩ | ⟨_, taken, _⟩)
  · obtain ⟨rfl, _⟩ := Prod.mk.inj (Option.some.inj taken)
    exact absurd lt (by decide)
  · have hfour := (Prod.mk.inj (Option.some.inj taken)).1
    exact absurd hfour (by decide)

/-- A transport that takes at most three bytes gets the PUBACK in two attempts.  The second
one offers three bytes that are not part of it, two of them go out, and the send reports a
failure although the packet was transmitted. -/
theorem sendPacket_overruns_three :
    CountsWrites (takingPlatform 3) ∧
      sendAttempts (takingPlatform 3) (holding pubackBytes ()).client.buf 4
        (.countdownMSAt ⟨0, 0⟩ 1000) 3 () = [⟨0, 4, 3⟩, ⟨3, 4, 3⟩] ∧
      ((sendPacket (takingPlatform 3) 3 4 (.countdownMSAt ⟨0, 0⟩ 1000)).run
        (holding pubackBytes ())).map Prod.fst = some failure ∧
      ¬ SendsPacketOnce (takingPlatform 3) 4 (.countdownMSAt ⟨0, 0⟩ 1000)
        (holding pubackBytes ()) := by
  refine ⟨takingPlatform_countsWrites 3, by decide, by decide, fun honce => ?_⟩
  have hinside := honce.within 3 ⟨3, 4, 3⟩ (by decide) 6 (by decide)
  omega

end MqttClient

/-
# The network half of `MQTTInterface.c`

`mqtt_network_read` and `mqtt_network_write` repeat `SSL_read` and `SSL_write`
until the requested bytes have gone through, whatever pieces they come in.  What
OpenSSL answers is left open by a `TlsHost`; both loops are cut off after `fuel`
calls, and then the function does not return.

Two descriptions of a platform as a byte stream follow.  `Streams` says that a
read that returns got the next bytes of the stream and all it asked for, and
`Supplies` that it does return while the stream has enough.  A TLS connection
that only ever asks for retries has the first, and the second as long as the
retries are finite.
-/

import MqttClient.Client.State

namespace MqttClient

open Semantics

/-! ## OpenSSL -/

/-- `SSL_get_error`, as far as the two loops look at it. -/
inductive SslError
  | wantRead
  | wantWrite
  | other
  deriving DecidableEq, Repr

/-- `err == SSL_ERROR_WANT_READ || err == SSL_ERROR_WANT_WRITE`. -/
def SslError.isRetry (err : SslError) : Bool := err = .wantRead || err = .wantWrite

/-- One call of `SSL_read` for `num` bytes. -/
inductive SslRead (num : Nat)
  | data (bytes : List UInt8) (pos : 0 < bytes.length) (le : bytes.length ≤ num)
  | error (err : SslError)

/-- One call of `SSL_write` with `num` bytes. -/
inductive SslWrite (num : Nat)
  | written (count : Nat) (pos : 0 < count) (le : count ≤ num)
  | error (err : SslError)

/-- What lies below `MQTTInterface.c`, over states `τ` of its own. -/
structure TlsHost (τ : Type) where
  gettimeofday : τ → Timeval × τ
  sslRead : τ → (num : Nat) → SslRead num × τ
  sslWrite : τ → (offered : List UInt8) → SslWrite offered.length × τ
  cycleLocals : τ → CycleLocals × τ

section Loops

variable {τ : Type} (host : TlsHost τ)

/-- The `while` loop of `mqtt_network_read`, with the bytes stored so far. -/
def mqttNetworkReadLoop (len : Nat) :
    (fuel : Nat) → (stored : List UInt8) → stored.length ≤ len → τ → Option (ReadResult len × τ)
  | 0, _, _, _ => none
  | fuel + 1, stored, hle, s =>
      if stored.length < len then
        match host.sslRead s (len - stored.length) with
        | (.error err, s') =>
            if err.isRetry then mqttNetworkReadLoop len fuel stored hle s'
            else some (⟨-1, stored, hle, by omega⟩, s') -- Indicates an error
        | (.data bytes _ hnum, s') =>
            mqttNetworkReadLoop len fuel (stored ++ bytes)
              (by rw [List.length_append]; omega) s'
      else some (⟨stored.length, stored, hle, Int.le_refl _⟩, s)

/-- `mqtt_network_read`; the timeout is not looked at. -/
def mqttNetworkRead (fuel : Nat) (s : τ) (len : Nat) (_timeoutMs : Int) :
    Option (ReadResult len × τ) :=
  mqttNetworkReadLoop host len fuel [] (Nat.zero_le len) s

/-- The `while` loop of `mqtt_network_write`, with the number of bytes written. -/
def mqttNetworkWriteLoop (buffer : List UInt8) :
    (fuel : Nat) → (totalWritten : Nat) → τ → Option (Int × τ)
  | 0, _, _ => none
  | fuel + 1, totalWritten, s =>
      if totalWritten < buffer.length then
        match host.sslWrite s (buffer.drop totalWritten) with
        | (.error err, s') =>
            if err.isRetry then mqttNetworkWriteLoop buffer fuel totalWritten s'
            else some (-1, s') -- Indicates an error
        | (.written count _ _, s') => mqttNetworkWriteLoop buffer fuel (totalWritten + count) s'
      else some (totalWritten, s)

/-- `mqtt_network_write`; the timeout is not looked at. -/
def mqttNetworkWrite (fuel : Nat) (s : τ) (buffer : List UInt8) (_timeoutMs : Int) :
    Option (Int × τ) :=
  mqttNetworkWriteLoop host buffer fuel 0 s

/-- The functions `mqtt_network_init` installs, on the given host. -/
def linuxPlatform (fuel : Nat) : Platform τ where
  gettimeofday := host.gettimeofday
  mqttread := mqttNetworkRead host fuel
  mqttwrite := mqttNetworkWrite host fuel
  cycleLocals := host.cycleLocals

/-- What every call of `SSL_write` preserves holds when the loop is left: with
everything written, or with an error before that. -/
theorem mqttNetworkWriteLoop_invariant {host : TlsHost τ} {buffer : List UInt8}
    {I : Nat → τ → Prop}
    (herror : ∀ {totalWritten s s' err}, I totalWritten s →
      host.sslWrite s (buffer.drop totalWritten) = (.error err, s') → I totalWritten s')
    (hwritten : ∀ {totalWritten s s' count pos le}, I totalWritten s →
      host.sslWrite s (buffer.drop totalWritten) = (.written count pos le, s') →
      I (totalWritten + count) s') :
    ∀ {fuel totalWritten : Nat} {s s' : τ} {rc : Int}, totalWritten ≤ buffer.length →
      I totalWritten s → mqttNetworkWriteLoop host buffer fuel totalWritten s = some (rc, s') →
      (rc = buffer.length ∧ I buffer.length s') ∨ (rc = -1 ∧ ∃ k < buffer.length, I k s') := by
  intro fuel
  induction fuel with
  | zero => intro totalWritten s s' rc _ _ hrun; cases hrun
  | succ fuel ih =>
      intro totalWritten s s' rc hle hI hrun
      unfold mqttNetworkWriteLoop at hrun
      split at hrun
      · rename_i hlt
        split at hrun
        · rename_i err s₁ hwrite
          split at hrun
          · exact ih hle (herror hI hwrite) hrun
          · cases hrun
            exact .inr ⟨rfl, totalWritten, hlt, herror hI hwrite⟩
        · rename_i count pos hcount s₁ hwrite
          rw [List.length_drop] at hcount
          exact ih (by omega) (hwritten hI hwrite) hrun
      · rename_i hge
        obtain rfl : totalWritten = buffer.length := by omega
        cases hrun
        exact .inl ⟨rfl, hI⟩

end Loops

/-! ## Platforms as byte streams -/

/-- A read that returns got all it asked for, from the front of the stream; no
other call touches the stream. -/
structure Streams {σ : Type} (P : Platform σ) (pending : σ → List UInt8) : Prop where
  read : ∀ {s s' : σ} {len : Nat} {timeoutMs : Int} {r : ReadResult len},
    P.mqttread s len timeoutMs = some (r, s') → r.rc = len ∧ pending s = r.stored ++ pending s'
  write : ∀ {s s' : σ} {offered : List UInt8} {timeoutMs rc : Int},
    P.mqttwrite s offered timeoutMs = some (rc, s') → pending s' = pending s
  clock : ∀ s, pending (P.gettimeofday s).2 = pending s
  locals : ∀ s, pending (P.cycleLocals s).2 = pending s

/-- In a good state a read of at most `limit` bytes returns when the stream has as
many; states stay good. -/
structure Supplies {σ : Type} (P : Platform σ) (pending : σ → List UInt8) (good : σ → Prop)
    (limit : Nat) : Prop where
  read : ∀ {s : σ} {len : Nat} (timeoutMs : Int), good s → len ≤ limit →
    len ≤ (pending s).length → ∃ r s', P.mqttread s len timeoutMs = some (r, s') ∧ good s'
  write : ∀ {s s' : σ} {offered : List UInt8} {timeoutMs rc : Int},
    good s → P.mqttwrite s offered timeoutMs = some (rc, s') → good s'
  clock : ∀ {s}, good s → good (P.gettimeofday s).2
  locals : ∀ {s}, good s → good (P.cycleLocals s).2

/-- The connection never fails for good: `SSL_read` returns the next bytes of
`inbound` in pieces of its choice, and `patience` bounds the retries it still asks
for while there is something to read. -/
structure TlsHost.Delivers {τ : Type} (host : TlsHost τ) (inbound : τ → List UInt8)
    (patience : τ → Nat) : Prop where
  data : ∀ {s s' : τ} {num : Nat} {bytes : List UInt8} {pos le},
    host.sslRead s num = (.data bytes pos le, s') →
      inbound s = bytes ++ inbound s' ∧ patience s' ≤ patience s
  retry : ∀ {s s' : τ} {num : Nat} {err : SslError}, 0 < num →
    host.sslRead s num = (.error err, s') →
      err.isRetry = true ∧ inbound s' = inbound s ∧ (inbound s ≠ [] → patience s' < patience s)
  write : ∀ s offered, inbound (host.sslWrite s offered).2 = inbound s ∧
    patience (host.sslWrite s offered).2 ≤ patience s
  clock : ∀ s, inbound (host.gettimeofday s).2 = inbound s ∧
    patience (host.gettimeofday s).2 ≤ patience s
  locals : ∀ s, inbound (host.cycleLocals s).2 = inbound s ∧
    patience (host.cycleLocals s).2 ≤ patience s

namespace TlsHost.Delivers

variable {τ : Type} {host : TlsHost τ} {inbound : τ → List UInt8} {patience : τ → Nat}

/-- The loop, when it returns, has stored what it was still missing. -/
theorem readLoop_eq_some (h : host.Delivers inbound patience) {len : Nat} :
    ∀ {fuel : Nat} {stored : List UInt8} {hle : stored.length ≤ len} {s s' : τ}
      {r : ReadResult len}, mqttNetworkReadLoop host len fuel stored hle s = some (r, s') →
      r.rc = len ∧ ∃ rest, r.stored = stored ++ rest ∧ inbound s = rest ++ inbound s' := by
  intro fuel
  induction fuel with
  | zero => intro stored hle s s' r hrun; cases hrun
  | succ fuel ih =>
      intro stored hle s s' r hrun
      unfold mqttNetworkReadLoop at hrun
      split at hrun
      · rename_i hlt
        split at hrun
        · rename_i err s₁ hread
          obtain ⟨hretry, hsame, _⟩ := h.retry (Nat.sub_pos_of_lt hlt) hread
          rw [if_pos hretry] at hrun
          obtain ⟨hrc, rest, hstored, hinbound⟩ := ih hrun
          exact ⟨hrc, rest, hstored, hsame ▸ hinbound⟩
        · rename_i bytes pos le s₁ hread
          obtain ⟨hsplit, _⟩ := h.data hread
          obtain ⟨hrc, rest, hstored, hinbound⟩ := ih hrun
          refine ⟨hrc, bytes ++ rest, by rw [hstored, List.append_assoc], ?_⟩
          rw [hsplit, hinbound, List.append_assoc]
      · cases hrun
        exact ⟨by simp only [Int.natCast_inj]; omega, [], by simp, by simp⟩

/-- With fuel for the retries and one call per missing byte, the loop returns. -/
theorem readLoop_isSome (h : host.Delivers inbound patience) {len : Nat} :
    ∀ (fuel : Nat) (stored : List UInt8) (hle : stored.length ≤ len) {s : τ},
      len - stored.length ≤ (inbound s).length → patience s + (len - stored.length) < fuel →
      ∃ r s', mqttNetworkReadLoop host len fuel stored hle s = some (r, s') ∧
        patience s' ≤ patience s := by
  intro fuel
  induction fuel with
  | zero => intro stored hle s _ hfuel; exact absurd hfuel (Nat.not_lt_zero _)
  | succ fuel ih =>
      intro stored hle s hlen hfuel
      unfold mqttNetworkReadLoop
      split
      · rename_i hlt
        split
        · rename_i err s₁ hread
          obtain ⟨hretry, hsame, hless⟩ := h.retry (Nat.sub_pos_of_lt hlt) hread
          have hdecr : patience s₁ < patience s := by
            apply hless
            rw [← List.length_pos_iff]
            omega
          obtain ⟨r, s', hrun, hle'⟩ := ih stored hle (by rw [hsame]; exact hlen)
            (Nat.lt_of_lt_of_le (Nat.add_lt_add_right hdecr _) (Nat.le_of_lt_succ hfuel))
          exact ⟨r, s', by rw [if_pos hretry, hrun], by omega⟩
        · rename_i bytes pos le s₁ hread
          obtain ⟨hsplit, hless⟩ := h.data hread
          have hcount : (inbound s).length = bytes.length + (inbound s₁).length := by
            rw [hsplit, List.length_append]
          have hsum : (stored ++ bytes).length = stored.length + bytes.length :=
            List.length_append
          obtain ⟨r, s', hrun, hle'⟩ := ih (stored ++ bytes) (by omega)
            (show _ ≤ (inbound s₁).length by omega) (by omega)
          exact ⟨r, s', hrun, by omega⟩
      · exact ⟨_, s, rfl, Nat.le_refl _⟩

theorem writeLoop_eq_some (h : host.Delivers inbound patience) {fuel : Nat}
    {buffer : List UInt8} {rc : Int} {s s' : τ}
    (hrun : mqttNetworkWriteLoop host buffer fuel 0 s = some (rc, s')) :
    inbound s' = inbound s ∧ patience s' ≤ patience s := by
  have hstep : ∀ {t s₁ s₂ outcome}, inbound s₁ = inbound s ∧ patience s₁ ≤ patience s →
      host.sslWrite s₁ (buffer.drop t) = (outcome, s₂) →
      inbound s₂ = inbound s ∧ patience s₂ ≤ patience s := by
    intro t s₁ s₂ outcome hbefore hwrite
    obtain ⟨hsame, hless⟩ := h.write s₁ (buffer.drop t)
    rw [hwrite] at hsame hless
    exact ⟨hsame.trans hbefore.1, hless.trans hbefore.2⟩
  obtain ⟨_, hkept⟩ | ⟨_, _, _, hkept⟩ :=
    mqttNetworkWriteLoop_invariant hstep hstep (Nat.zero_le _) ⟨rfl, Nat.le_refl _⟩ hrun
  · exact hkept
  · exact hkept

/-- Over such a connection the platform of `MQTTInterface.c` is a byte stream. -/
theorem streams (h : host.Delivers inbound patience) (fuel : Nat) :
    Streams (linuxPlatform host fuel) inbound where
  read hrun := by
    obtain ⟨hrc, rest, hstored, hinbound⟩ := h.readLoop_eq_some hrun
    exact ⟨hrc, by rw [hstored]; exact hinbound⟩
  write hrun := (h.writeLoop_eq_some hrun).1
  clock s := (h.clock s).1
  locals s := (h.locals s).1

/-- And it supplies reads up to `limit` as long as the fuel exceeds the retries
still to come by more than that. -/
theorem supplies (h : host.Delivers inbound patience) (fuel limit : Nat) :
    Supplies (linuxPlatform host fuel) inbound (fun s => patience s + limit < fuel) limit where
  read _ hgood hlimit hlen := by
    obtain ⟨r, s', hrun, hless⟩ := h.readLoop_isSome fuel [] (Nat.zero_le _)
      (by simpa using hlen) (by simp only [List.length_nil]; omega)
    exact ⟨r, s', hrun, by omega⟩
  write hgood hrun := by
    have hless := (h.writeLoop_eq_some hrun).2
    omega
  clock {s} hgood := by
    have hless := (h.clock s).2
    exact Nat.lt_of_le_of_lt (Nat.add_le_add_right hless limit) hgood
  locals {s} hgood := by
    have hless := (h.locals s).2
    exact Nat.lt_of_le_of_lt (Nat.add_le_add_right hless limit) hgood

end TlsHost.Delivers

/-! ## A connection that replays a recording -/

/-- What one call of `SSL_read` of a recording does. -/
inductive SslStep
  | upTo (most : Nat)
  | wantRead
  | wantWrite
  deriving DecidableEq, Repr

/-- The bytes still to come, and how the next calls of `SSL_read` hand them out.
After the recorded calls every call is served in full. -/
structure Recording where
  inbound : List UInt8
  schedule : List SslStep
  deriving DecidableEq, Repr

namespace Recording

/-- Serve at least one byte, and at most `most` and `num`, if there is one. -/
def serve (recording : Recording) (most num : Nat) : SslRead num × Recording :=
  let bytes := recording.inbound.take (min (max 1 most) num)
  let rest := recording.inbound.drop (min (max 1 most) num)
  if h : 0 < bytes.length then
    (.data bytes h (by simp only [bytes, List.length_take]; omega),
      { recording with inbound := rest })
  else (.error .wantRead, recording)

/-- `SSL_read` on the recording. -/
def sslRead (recording : Recording) (num : Nat) : SslRead num × Recording :=
  match recording.schedule with
  | [] => recording.serve num num
  | .upTo most :: schedule => { recording with schedule }.serve most num
  | .wantRead :: schedule => (.error .wantRead, { recording with schedule })
  | .wantWrite :: schedule => (.error .wantWrite, { recording with schedule })

/-- The recording as a host: the clock stands still, every write is accepted, and
locals are zero. -/
def host : TlsHost Recording where
  gettimeofday s := (⟨0, 0⟩, s)
  sslRead := sslRead
  sslWrite s offered :=
    (if h : 0 < offered.length then .written offered.length h (Nat.le_refl _)
      else .error .wantWrite, s)
  cycleLocals s := (⟨⟨0, 0, 0, 0, .initializer, .null, 0⟩, ⟨0, 0, 0⟩⟩, s)

theorem serve_spec {recording s' : Recording} {most num : Nat} {result : SslRead num}
    (hserve : recording.serve most num = (result, s')) :
    match result with
    | .data bytes _ _ =>
        recording.inbound = bytes ++ s'.inbound ∧ s'.schedule = recording.schedule
    | .error err => err = .wantRead ∧ s' = recording ∧ (recording.inbound = [] ∨ num = 0) := by
  unfold serve at hserve
  simp only at hserve
  split at hserve
  · cases hserve
    exact ⟨(List.take_append_drop _ _).symm, rfl⟩
  · rename_i hpos
    cases hserve
    refine ⟨rfl, rfl, ?_⟩
    rw [List.length_take] at hpos
    rcases Nat.eq_zero_or_pos recording.inbound.length with hzero | hsome
    · exact .inl (List.length_eq_zero_iff.mp hzero)
    · exact .inr (by omega)

/-- A recording delivers its bytes, after at most as many retries as it has steps. -/
theorem delivers : host.Delivers inbound (fun recording => recording.schedule.length) where
  data {s s' num bytes pos le} hread := by
    unfold host sslRead at hread
    simp only at hread
    split at hread
    · rename_i hschedule
      obtain ⟨hbytes, hsame⟩ := serve_spec hread
      exact ⟨hbytes, Nat.le_of_eq (congrArg _ hsame)⟩
    · rename_i most schedule hschedule
      obtain ⟨hbytes, hsame⟩ := serve_spec hread
      refine ⟨hbytes, ?_⟩
      rw [hsame, hschedule]
      exact Nat.le_succ _
    · cases hread
    · cases hread
  retry {s s' num err} hnum hread := by
    unfold host sslRead at hread
    simp only at hread
    split at hread
    · obtain ⟨rfl, rfl, hempty⟩ := serve_spec hread
      exact ⟨rfl, rfl, fun hne => (hempty.elim hne (by omega)).elim⟩
    · obtain ⟨rfl, rfl, hempty⟩ := serve_spec hread
      exact ⟨rfl, rfl, fun hne => (hempty.elim hne (by omega)).elim⟩
    · rename_i schedule hschedule
      cases hread
      refine ⟨rfl, rfl, fun _ => ?_⟩
      rw [hschedule]
      exact Nat.lt_succ_self _
    · rename_i schedule hschedule
      cases hread
      refine ⟨rfl, rfl, fun _ => ?_⟩
      rw [hschedule]
      exact Nat.lt_succ_self _
  write _ _ := ⟨rfl, Nat.le_refl _⟩
  clock _ := ⟨rfl, Nat.le_refl _⟩
  locals _ := ⟨rfl, Nat.le_refl _⟩

end Recording

end MqttClient

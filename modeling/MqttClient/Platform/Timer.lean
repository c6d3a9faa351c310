/-
# Timers: the timer half of `MQTTInterface.c`

`struct timeval`, the glibc macros `timeradd` and `timersub`, and the timer
functions as functions of the clock reading they take.  Seconds and microseconds
are unbounded integers here; only the result of `TimerLeftMS`, a `long` returned
as an `int`, is narrowed.

A timer is for one instant: it has expired from then on, and until then it knows how
much is left.  This is exact to the microsecond for clock readings that need not be
ordered, and it stays so in the 64 bits of the two fields as long as the clock is far
from their limits.
-/

import MqttClient.Semantics.Conversion

namespace MqttClient

open Semantics

/-- `struct timeval`. -/
structure Timeval where
  sec : Int
  usec : Int
  deriving DecidableEq, Repr

namespace Timeval

/-- `timeradd`. -/
def timeradd (a b : Timeval) : Timeval :=
  let sec := a.sec + b.sec
  let usec := a.usec + b.usec
  if 1000000 ≤ usec then ⟨sec + 1, usec - 1000000⟩ else ⟨sec, usec⟩

/-- `timersub`. -/
def timersub (a b : Timeval) : Timeval :=
  let sec := a.sec - b.sec
  let usec := a.usec - b.usec
  if usec < 0 then ⟨sec - 1, usec + 1000000⟩ else ⟨sec, usec⟩

/-- The time in microseconds. -/
def micros (t : Timeval) : Int := t.sec * 1000000 + t.usec

/-- The microseconds are less than a second, as `gettimeofday` reports them. -/
structure IsNormal (t : Timeval) : Prop where
  usec_nonneg : 0 ≤ t.usec
  usec_lt : t.usec < 1000000

instance (t : Timeval) : Decidable t.IsNormal :=
  decidable_of_iff (0 ≤ t.usec ∧ t.usec < 1000000)
    ⟨fun h => ⟨h.1, h.2⟩, fun h => ⟨h.usec_nonneg, h.usec_lt⟩⟩

end Timeval

/-- `Timer`. -/
structure Timer where
  endTime : Timeval
  deriving DecidableEq, Repr

namespace Timer

/-- `TimerInit`. -/
def init : Timer := ⟨⟨0, 0⟩⟩

/-- The test of `TimerIsExpired` at the clock reading `now`. -/
def isExpiredAt (timer : Timer) (now : Timeval) : Bool :=
  let res := timer.endTime.timersub now
  res.sec < 0 || (res.sec == 0 && res.usec ≤ 0)

/-- `TimerCountdownMS` at the clock reading `now`, for an `unsigned int` timeout. -/
def countdownMSAt (now : Timeval) (timeout : Nat) : Timer :=
  ⟨now.timeradd ⟨timeout / 1000, timeout % 1000 * 1000⟩⟩

/-- `TimerCountdown` at the clock reading `now`. -/
def countdownAt (now : Timeval) (timeout : Nat) : Timer := ⟨now.timeradd ⟨timeout, 0⟩⟩

/-- `TimerLeftMS` at the clock reading `now`. -/
def leftMSAt (timer : Timer) (now : Timeval) : Int :=
  let res := timer.endTime.timersub now
  if res.sec < 0 then 0 else toInt (res.sec * 1000 + res.usec.tdiv 1000)

end Timer

/-! ## Normal times -/

namespace Timeval

variable {a b : Timeval}

/-- A sum is carried at most once. -/
theorem timeradd_eq (a b : Timeval) :
    ∃ carry : Int, a.timeradd b =
        ⟨a.sec + b.sec + carry, a.usec + b.usec - carry * 1000000⟩ ∧
      (carry = 1 ∧ 1000000 ≤ a.usec + b.usec ∨ carry = 0 ∧ a.usec + b.usec < 1000000) := by
  unfold timeradd
  dsimp only
  split
  · rename_i hcarry
    exact ⟨1, by rw [Int.one_mul], .inl ⟨rfl, hcarry⟩⟩
  · rename_i hcarry
    exact ⟨0, by rw [Int.zero_mul, Int.add_zero, Int.sub_zero], .inr ⟨rfl, by omega⟩⟩

/-- A difference borrows at most once. -/
theorem timersub_eq (a b : Timeval) :
    ∃ borrow : Int, a.timersub b =
        ⟨a.sec - b.sec - borrow, a.usec - b.usec + borrow * 1000000⟩ ∧
      (borrow = 1 ∧ a.usec - b.usec < 0 ∨ borrow = 0 ∧ 0 ≤ a.usec - b.usec) := by
  unfold timersub
  dsimp only
  split
  · rename_i hborrow
    exact ⟨1, by rw [Int.one_mul], .inl ⟨rfl, hborrow⟩⟩
  · rename_i hborrow
    exact ⟨0, by rw [Int.zero_mul, Int.add_zero, Int.sub_zero], .inr ⟨rfl, by omega⟩⟩

theorem micros_timeradd (a b : Timeval) : (a.timeradd b).micros = a.micros + b.micros := by
  obtain ⟨carry, heq, _⟩ := timeradd_eq a b
  rw [heq]
  unfold micros
  dsimp only
  omega

theorem micros_timersub (a b : Timeval) : (a.timersub b).micros = a.micros - b.micros := by
  obtain ⟨borrow, heq, _⟩ := timersub_eq a b
  rw [heq]
  unfold micros
  dsimp only
  omega

/-- The carry leaves less than a second. -/
theorem IsNormal.timeradd (ha : a.IsNormal) (hb : b.IsNormal) : (a.timeradd b).IsNormal := by
  obtain ⟨hapos, halt⟩ := ha
  obtain ⟨hbpos, hblt⟩ := hb
  obtain ⟨carry, heq, hcarry⟩ := timeradd_eq a b
  rw [heq]
  constructor
  · dsimp only
    omega
  · dsimp only
    omega

/-- The borrow leaves no negative microseconds, so the sign of a difference is that of
its seconds. -/
theorem IsNormal.timersub (ha : a.IsNormal) (hb : b.IsNormal) : (a.timersub b).IsNormal := by
  obtain ⟨hapos, halt⟩ := ha
  obtain ⟨hbpos, hblt⟩ := hb
  obtain ⟨borrow, heq, hborrow⟩ := timersub_eq a b
  rw [heq]
  constructor
  · dsimp only
    omega
  · dsimp only
    omega

end Timeval

namespace Timer

/-- Between normal times the test is a comparison. -/
theorem isExpiredAt_iff {timer : Timer} {now : Timeval} (hend : timer.endTime.IsNormal)
    (hnow : now.IsNormal) :
    timer.isExpiredAt now = true ↔ timer.endTime.micros ≤ now.micros := by
  have hpos := (hend.timersub hnow).usec_nonneg
  have hlt := (hend.timersub hnow).usec_lt
  have hmicros := Timeval.micros_timersub timer.endTime now
  unfold isExpiredAt
  simp only [Bool.or_eq_true, Bool.and_eq_true, decide_eq_true_eq, beq_iff_eq]
  rw [Timeval.micros] at hmicros
  omega

/-- Between normal times what is left is the difference, rounded down to milliseconds,
if that is positive and an `int`. -/
theorem leftMSAt_eq {timer : Timer} {now : Timeval} (hend : timer.endTime.IsNormal)
    (hnow : now.IsNormal)
    (hfits : max 0 ((timer.endTime.micros - now.micros) / 1000) < 2 ^ 31) :
    timer.leftMSAt now = max 0 ((timer.endTime.micros - now.micros) / 1000) := by
  have hpos := (hend.timersub hnow).usec_nonneg
  have hlt := (hend.timersub hnow).usec_lt
  rw [← Timeval.micros_timersub, Timeval.micros] at hfits ⊢
  unfold leftMSAt
  dsimp only
  split
  · omega
  · rw [Int.tdiv_eq_ediv_of_nonneg hpos, toInt_of_mem (by omega) (by omega)]
    omega

theorem isNormal_milliseconds (timeout : Nat) :
    (⟨timeout / 1000, timeout % 1000 * 1000⟩ : Timeval).IsNormal := by
  constructor
  · dsimp only
    omega
  · dsimp only
    omega

theorem isNormal_seconds (timeout : Nat) : (⟨timeout, 0⟩ : Timeval).IsNormal := by
  constructor
  · exact Int.le_refl 0
  · exact (by decide : (0 : Int) < 1000000)

theorem micros_countdownAt (now : Timeval) (timeout : Nat) :
    (countdownAt now timeout).endTime.micros = now.micros + timeout * 1000000 := by
  rw [countdownAt, Timeval.micros_timeradd]
  unfold Timeval.micros
  dsimp only
  omega

theorem isNormal_countdownAt {now : Timeval} (h : now.IsNormal) (timeout : Nat) :
    (countdownAt now timeout).endTime.IsNormal :=
  h.timeradd (isNormal_seconds timeout)

end Timer

/-! ## In 64 bits -/

namespace Timeval

/-- `timeradd` with every result reduced to a `long`. -/
def timeraddLong (a b : Timeval) : Timeval :=
  let sec := toLong (a.sec + b.sec)
  let usec := toLong (a.usec + b.usec)
  if 1000000 ≤ usec then ⟨toLong (sec + 1), toLong (usec - 1000000)⟩ else ⟨sec, usec⟩

/-- `timersub` with every result reduced to a `long`. -/
def timersubLong (a b : Timeval) : Timeval :=
  let sec := toLong (a.sec - b.sec)
  let usec := toLong (a.usec - b.usec)
  if usec < 0 then ⟨toLong (sec - 1), toLong (usec + 1000000)⟩ else ⟨sec, usec⟩

variable {a b : Timeval}

theorem timeraddLong_eq (ha : a.IsNormal) (hb : b.IsNormal) (hlo : -2 ^ 63 ≤ a.sec + b.sec)
    (hhi : a.sec + b.sec + 1 < 2 ^ 63) : a.timeraddLong b = a.timeradd b := by
  have hapos := ha.usec_nonneg
  have halt := ha.usec_lt
  have hbpos := hb.usec_nonneg
  have hblt := hb.usec_lt
  unfold timeraddLong timeradd
  dsimp only
  rw [toLong_of_mem (i := a.sec + b.sec) (by omega) (by omega),
    toLong_of_mem (i := a.usec + b.usec) (by omega) (by omega)]
  split
  · rw [toLong_of_mem (by omega) (by omega), toLong_of_mem (by omega) (by omega)]
  · rfl

theorem timersubLong_eq (ha : a.IsNormal) (hb : b.IsNormal) (hlo : -2 ^ 63 < a.sec - b.sec)
    (hhi : a.sec - b.sec < 2 ^ 63) : a.timersubLong b = a.timersub b := by
  have hapos := ha.usec_nonneg
  have halt := ha.usec_lt
  have hbpos := hb.usec_nonneg
  have hblt := hb.usec_lt
  unfold timersubLong timersub
  dsimp only
  rw [toLong_of_mem (i := a.sec - b.sec) (by omega) (by omega),
    toLong_of_mem (i := a.usec - b.usec) (by omega) (by omega)]
  split
  · rw [toLong_of_mem (by omega) (by omega), toLong_of_mem (by omega) (by omega)]
  · rfl

/-- A normal time whose seconds are far from the limits of a `long`. -/
structure IsModerate (t : Timeval) : Prop extends t.IsNormal where
  lt_sec : -2 ^ 61 < t.sec
  sec_lt : t.sec < 2 ^ 61

end Timeval

namespace Timer

/-- `TimerCountdownMS` on `long`s. -/
def countdownMSLong (now : Timeval) (timeout : Nat) : Timer :=
  ⟨now.timeraddLong ⟨timeout / 1000, timeout % 1000 * 1000⟩⟩

/-- `TimerCountdown` on `long`s. -/
def countdownLong (now : Timeval) (timeout : Nat) : Timer := ⟨now.timeraddLong ⟨timeout, 0⟩⟩

/-- `TimerIsExpired` on `long`s. -/
def isExpiredLong (timer : Timer) (now : Timeval) : Bool :=
  let res := timer.endTime.timersubLong now
  res.sec < 0 || (res.sec == 0 && res.usec ≤ 0)

/-- `TimerLeftMS` on `long`s. -/
def leftMSLong (timer : Timer) (now : Timeval) : Int :=
  let res := timer.endTime.timersubLong now
  if res.sec < 0 then 0 else toInt (toLong (toLong (res.sec * 1000) + res.usec.tdiv 1000))

/-- What a timer that ends at `deadline`, in microseconds, answers to a query: exactly
whether the instant has come, and the milliseconds left, rounded down, if they are an
`int`.  The answers in 64 bits are the same. -/
structure RunsUntil (timer : Timer) (deadline : Int) : Prop where
  normal : timer.endTime.IsNormal
  isExpired_iff : ∀ now : Timeval, now.IsModerate →
    timer.isExpiredLong now = timer.isExpiredAt now ∧
      (timer.isExpiredAt now = true ↔ deadline ≤ now.micros)
  leftMS_eq : ∀ now : Timeval, now.IsModerate →
    max 0 ((deadline - now.micros) / 1000) < 2 ^ 31 →
      timer.leftMSLong now = timer.leftMSAt now ∧
        timer.leftMSAt now = max 0 ((deadline - now.micros) / 1000)

/-- Every timer with a normal end that is not too far away runs until its end. -/
theorem runsUntil_micros (timer : Timer) (hnormal : timer.endTime.IsNormal)
    (hlo : -2 ^ 61 < timer.endTime.sec) (hhi : timer.endTime.sec ≤ 2 ^ 61 + 2 ^ 32) :
    timer.RunsUntil timer.endTime.micros := by
  have hsub : ∀ now : Timeval, now.IsModerate →
      timer.endTime.timersubLong now = timer.endTime.timersub now := by
    intro now hnow
    have hnowlo := hnow.lt_sec
    have hnowhi := hnow.sec_lt
    exact Timeval.timersubLong_eq hnormal hnow.toIsNormal (by omega) (by omega)
  refine ⟨hnormal, fun now hnow => ⟨?_, isExpiredAt_iff hnormal hnow.toIsNormal⟩,
    fun now hnow hfits => ⟨?_, leftMSAt_eq hnormal hnow.toIsNormal hfits⟩⟩
  · rw [isExpiredLong, hsub now hnow]
    rfl
  · have hpos := (hnormal.timersub hnow.toIsNormal).usec_nonneg
    have hlt := (hnormal.timersub hnow.toIsNormal).usec_lt
    rw [← Timeval.micros_timersub, Timeval.micros] at hfits
    unfold leftMSLong leftMSAt
    dsimp only
    rw [hsub now hnow]
    split
    · rfl
    · rw [Int.tdiv_eq_ediv_of_nonneg hpos,
        toLong_of_mem (i := (timer.endTime.timersub now).sec * 1000) (by omega) (by omega),
        toLong_of_mem (by omega) (by omega)]

/-- The carry adds at most one second. -/
theorem sec_timeradd_mem (a b : Timeval) :
    a.sec + b.sec ≤ (a.timeradd b).sec ∧ (a.timeradd b).sec ≤ a.sec + b.sec + 1 := by
  obtain ⟨carry, heq, hcarry⟩ := Timeval.timeradd_eq a b
  rw [heq]
  dsimp only
  omega

/-- An interval added to a moderate time, on `long`s as without bounds. -/
theorem runsUntil_timeradd {start interval : Timeval} (hstart : start.IsModerate)
    (hinterval : interval.IsNormal) (hlo : 0 ≤ interval.sec) (hhi : interval.sec < 2 ^ 32) :
    start.timeraddLong interval = start.timeradd interval ∧
      (⟨start.timeradd interval⟩ : Timer).RunsUntil (start.micros + interval.micros) := by
  have hstartlo := hstart.lt_sec
  have hstarthi := hstart.sec_lt
  have hsec := sec_timeradd_mem start interval
  constructor
  · exact Timeval.timeraddLong_eq hstart.toIsNormal hinterval (by omega) (by omega)
  · rw [← Timeval.micros_timeradd]
    apply runsUntil_micros ⟨start.timeradd interval⟩
    · exact hstart.toIsNormal.timeradd hinterval
    · dsimp only
      omega
    · dsimp only
      omega

/-- Whichever of the two functions sets a timer, with any `unsigned int`, and whenever it
is queried, before the start or after it: it runs until the instant that is the timeout
after the start, and its end is a normal time.  No operation on `long`s overflows on the
way. -/
theorem countdown_runsUntil (start : Timeval) (timeout : Nat) (hstart : start.IsModerate)
    (htimeout : timeout < 2 ^ 32) :
    (countdownMSLong start timeout = countdownMSAt start timeout ∧
        (countdownMSAt start timeout).RunsUntil (start.micros + timeout * 1000)) ∧
      (countdownLong start timeout = countdownAt start timeout ∧
        (countdownAt start timeout).RunsUntil (start.micros + timeout * 1000000)) := by
  constructor
  · obtain ⟨hlong, hruns⟩ := runsUntil_timeradd hstart (isNormal_milliseconds timeout)
      (by dsimp only; omega) (by dsimp only; omega)
    refine ⟨congrArg Timer.mk hlong, ?_⟩
    have hmicros : (⟨timeout / 1000, timeout % 1000 * 1000⟩ : Timeval).micros =
        timeout * 1000 := by
      unfold Timeval.micros
      dsimp only
      omega
    rwa [hmicros] at hruns
  · obtain ⟨hlong, hruns⟩ := runsUntil_timeradd hstart (isNormal_seconds timeout)
      (by dsimp only; omega) (by dsimp only; omega)
    refine ⟨congrArg Timer.mk hlong, ?_⟩
    have hmicros : (⟨timeout, 0⟩ : Timeval).micros = timeout * 1000000 := by
      unfold Timeval.micros
      dsimp only
      omega
    rwa [hmicros] at hruns

/-- Two and a half seconds from 0.6 s on: at 3.1 s less a microsecond no whole
millisecond is left, and the timer has not expired. -/
theorem countdown_runsUntil_carry :
    (countdownMSAt ⟨0, 600000⟩ 2500).endTime = ⟨3, 100000⟩ ∧
      (countdownMSAt ⟨0, 600000⟩ 2500).isExpiredAt ⟨3, 99999⟩ = false ∧
      (countdownMSAt ⟨0, 600000⟩ 2500).leftMSAt ⟨3, 99999⟩ = 0 ∧
      (countdownMSAt ⟨0, 600000⟩ 2500).RunsUntil 3100000 :=
  ⟨by decide, by decide, by decide,
    (countdown_runsUntil ⟨0, 600000⟩ 2500 ⟨⟨by decide, by decide⟩, by decide, by decide⟩
      (by decide)).1.2⟩

end Timer

end MqttClient

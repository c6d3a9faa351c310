/-
# A mutex and its condition variable

For each of its threads a monitor knows whether it is inside, between taking the mutex
and giving it back, or in a wait: blocked until it is woken, and then woken until it has
the mutex again.  A thread comes inside only when nobody is, so two are never inside;
this is part of the structure.  A signal wakes one of the blocked threads, and is lost
if there is none.
-/

import Mathlib.Data.Fintype.Defs

namespace MqttClient.Semantics

/-- Where a thread stands. -/
inductive Standing
  | outside
  | inside
  /-- In a wait, for a signal. -/
  | blocked
  /-- In a wait, for the mutex. -/
  | woken
  deriving DecidableEq, Repr

/-- A mutex with a condition variable, for threads `T`. -/
structure Monitor (T : Type) where
  standing : T → Standing
  exclusive : ∀ {t t'}, standing t = .inside → standing t' = .inside → t = t'

namespace Monitor

variable {T : Type}

/-- All threads are outside. -/
def idle : Monitor T := ⟨fun _ => .outside, nofun⟩

/-- The mutex is free. -/
def IsFree (m : Monitor T) : Prop := ∀ t, m.standing t ≠ .inside

instance [Fintype T] (m : Monitor T) : Decidable m.IsFree :=
  inferInstanceAs (Decidable (∀ t, m.standing t ≠ .inside))

variable [DecidableEq T]

/-- Take the mutex, first or after a wait. -/
def enter (m : Monitor T) (t : T) (hfree : m.IsFree) : Monitor T where
  standing := Function.update m.standing t .inside
  exclusive := by
    -- whoever is inside now is `t`
    have honly : ∀ {t'}, Function.update m.standing t .inside t' = .inside → t' = t := by
      intro t' hinside
      by_contra hne
      rw [Function.update_of_ne hne] at hinside
      exact hfree t' hinside
    intro t₁ t₂ h₁ h₂
    exact (honly h₁).trans (honly h₂).symm

/-- Stand somewhere else than inside. -/
def stand (m : Monitor T) (t : T) (place : Standing) (hplace : place ≠ .inside) : Monitor T where
  standing := Function.update m.standing t place
  exclusive := by
    have hother : ∀ {t'}, Function.update m.standing t place t' = .inside →
        m.standing t' = .inside := by
      intro t' hinside
      by_cases ht : t' = t
      · subst ht
        rw [Function.update_self] at hinside
        exact absurd hinside hplace
      · rwa [Function.update_of_ne ht] at hinside
    intro t₁ t₂ h₁ h₂
    exact m.exclusive (hother h₁) (hother h₂)

/-- Give the mutex back. -/
abbrev unlock (m : Monitor T) (t : T) : Monitor T := m.stand t .outside nofun

/-- Give the mutex back and block. -/
abbrev wait (m : Monitor T) (t : T) : Monitor T := m.stand t .blocked nofun

/-- End the blocking of a thread. -/
abbrev wake (m : Monitor T) (t : T) : Monitor T := m.stand t .woken nofun

/-- The outcomes of a signal. -/
inductive Signals (m : Monitor T) : Monitor T → Prop
  | wakes (t : T) (hblocked : m.standing t = .blocked) : Signals m (m.wake t)
  | lost (hnone : ∀ t, m.standing t ≠ .blocked) : Signals m m

section Standings

variable (m : Monitor T) {t t' : T}

@[simp]
theorem standing_enter_self (hfree : m.IsFree) : (m.enter t hfree).standing t = .inside :=
  Function.update_self ..

@[simp]
theorem standing_enter_of_ne (hfree : m.IsFree) (hne : t' ≠ t) :
    (m.enter t hfree).standing t' = m.standing t' :=
  Function.update_of_ne hne ..

variable {place : Standing} (hplace : place ≠ .inside)

@[simp]
theorem standing_stand_self : (m.stand t place hplace).standing t = place :=
  Function.update_self ..

@[simp]
theorem standing_stand_of_ne (hne : t' ≠ t) :
    (m.stand t place hplace).standing t' = m.standing t' :=
  Function.update_of_ne hne ..

end Standings

namespace Signals

variable {m m' : Monitor T} {t : T}

/-- A signal does not touch a thread that is not blocked. -/
theorem standing_eq (h : m.Signals m') (ht : m.standing t ≠ .blocked) :
    m'.standing t = m.standing t := by
  cases h with
  | lost _ => rfl
  | wakes t' hblocked =>
      refine standing_stand_of_ne m _ ?_
      rintro rfl
      exact ht hblocked

/-- A signal wakes the only thread that is blocked. -/
theorem standing_eq_woken (h : m.Signals m') (ht : m.standing t = .blocked)
    (honly : ∀ t', m.standing t' = .blocked → t' = t) : m'.standing t = .woken := by
  cases h with
  | lost hnone => exact absurd ht (hnone t)
  | wakes t' hblocked =>
      cases honly t' hblocked
      exact standing_stand_self m _

end Signals

/-- Signalling is always possible. -/
theorem exists_signals (m : Monitor T) : ∃ m', m.Signals m' := by
  by_cases hblocked : ∃ t, m.standing t = .blocked
  · obtain ⟨t, ht⟩ := hblocked
    exact ⟨_, .wakes t ht⟩
  · exact ⟨m, .lost (not_exists.mp hblocked)⟩

omit [DecidableEq T] in
/-- Of two threads, one that is not inside finds the mutex free, or held by the other. -/
theorem isFree_or_inside (m : Monitor T) {t other : T} (honly : ∀ t', t' ≠ t → t' = other)
    (hnot : m.standing t ≠ .inside) : m.IsFree ∨ m.standing other = .inside := by
  by_cases hfree : m.IsFree
  · exact .inl hfree
  · obtain ⟨holder, hholder⟩ := not_forall.mp hfree
    have hinside : m.standing holder = .inside := not_not.mp hholder
    obtain rfl := honly holder (by rintro rfl; exact hnot hinside)
    exact .inr hinside

end Monitor

end MqttClient.Semantics

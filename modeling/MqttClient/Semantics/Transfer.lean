/-
# Handing a buffer over piece by piece

A loop around a function that may take only some of the bytes it is offered: `write`,
`send` and their kind.  One turn of such a loop ends it, or makes one attempt.  What
matters about an attempt is which positions of the buffer were offered and how many of
them were taken, from the first one on, and this is kept for runs that never end as well.

Attempts that each begin where the one before them stopped hand over one stretch of the
buffer, every position once and in order.
-/

import Mathlib.Data.List.Range

namespace MqttClient.Semantics

universe u v

/-- One call of the function that takes the bytes: `size` positions were offered from
`start` on, and the first `taken` of them were taken. -/
structure Attempt where
  start : Nat
  size : Nat
  taken : Nat
  deriving DecidableEq, Repr

namespace Attempt

/-- The positions offered. -/
def offered (attempt : Attempt) : List Nat := List.range' attempt.start attempt.size

/-- The positions taken. -/
def transferred (attempt : Attempt) : List Nat := List.range' attempt.start attempt.taken

theorem mem_offered {attempt : Attempt} {i : Nat} :
    i ∈ attempt.offered ↔ attempt.start ≤ i ∧ i < attempt.start + attempt.size :=
  List.mem_range'_1

/-- An offer that reaches past the end has its last position outside. -/
theorem exists_offered_outside {attempt : Attempt} {total : Nat} (hsize : 0 < attempt.size)
    (hend : total < attempt.start + attempt.size) : ∃ i ∈ attempt.offered, ¬ i < total :=
  ⟨attempt.start + attempt.size - 1, mem_offered.mpr (by omega), by omega⟩

/-- The positions taken in a run of attempts, in order. -/
def transferredIn (attempts : List Attempt) : List Nat := attempts.flatMap transferred

/-- The attempts that took something. -/
def successful (attempts : List Attempt) : List Attempt :=
  attempts.filter fun attempt => 0 < attempt.taken

/-- Each attempt begins where the one before it stopped. -/
def Consecutive : Nat → List Attempt → Prop
  | _, [] => True
  | start, attempt :: rest => attempt.start = start ∧ Consecutive (start + attempt.taken) rest

/-- The number of positions taken. -/
def amount : List Attempt → Nat
  | [] => 0
  | attempt :: rest => attempt.taken + amount rest

/-- Consecutive attempts hand over one stretch. -/
theorem Consecutive.transferredIn_eq {attempts : List Attempt} :
    ∀ {start : Nat}, Consecutive start attempts →
      transferredIn attempts = List.range' start (amount attempts) := by
  induction attempts with
  | nil => exact fun _ => rfl
  | cons attempt rest ih =>
      rintro start ⟨rfl, hrest⟩
      calc transferredIn (attempt :: rest)
          = attempt.transferred ++ transferredIn rest := List.flatMap_cons
        _ = List.range' attempt.start attempt.taken ++
              List.range' (attempt.start + attempt.taken) (amount rest) := by
            rw [ih hrest, transferred]
        _ = List.range' attempt.start (amount (attempt :: rest)) := by
            rw [amount, List.range'_append_1]

end Attempt

/-! ## The loop -/

/-- One turn of the loop, over states `σ` of what takes the bytes. -/
inductive Turn (σ : Type u) (β : Type v)
  /-- It ends the loop without an attempt. -/
  | done (result : β) (s : σ)
  /-- Its attempt does not come back. -/
  | stuck (size : Nat)
  /-- Its attempt takes nothing and ends the loop. -/
  | refused (size : Nat) (result : β) (s : σ)
  /-- Its attempt takes some bytes, and the loop goes on at `next`. -/
  | took (size taken next : Nat) (s : σ)

namespace Turn

variable {σ : Type u} {β : Type v}

/-- The size of what the turn offers, if it makes an attempt. -/
def offers : Turn σ β → Option Nat
  | done _ _ => none
  | stuck size => some size
  | refused size _ _ => some size
  | took size _ _ _ => some size

/-- The turn at position `start` makes an attempt that satisfies `A` if it makes one, ends
the loop in `R` if it ends it, and otherwise leaves it in `I`. -/
def Keeps (I : Nat → σ → Prop) (A : Attempt → Prop) (R : β → σ → Prop) (start : Nat) :
    Turn σ β → Prop
  | done result s => R result s
  | stuck size => A ⟨start, size, 0⟩
  | refused size result s => A ⟨start, size, 0⟩ ∧ R result s
  | took size taken next s => A ⟨start, size, taken⟩ ∧ I next s

/-- The turn at position `start` goes on behind what was taken, or ends the loop with its
position. -/
def Counts (start : Nat) : Turn σ Nat → Prop
  | done result _ => result = start
  | stuck _ => True
  | refused _ result _ => result = start
  | took _ taken next _ => next = start + taken

end Turn

/-- At most `fuel` turns from position `start` on: the attempts made, and the result if
the loop has ended. -/
def transfer {σ : Type u} {β : Type v} (turn : Nat → σ → Turn σ β) :
    (fuel start : Nat) → σ → List Attempt × Option (β × σ)
  | 0, _, _ => ([], none)
  | fuel + 1, start, s =>
      match turn start s with
      | .done result s' => ([], some (result, s'))
      | .stuck size => ([⟨start, size, 0⟩], none)
      | .refused size result s' => ([⟨start, size, 0⟩], some (result, s'))
      | .took size taken next s' =>
          (⟨start, size, taken⟩ :: (transfer turn fuel next s').1, (transfer turn fuel next s').2)

section Loop

variable {σ : Type u} {β : Type v} {turn : Nat → σ → Turn σ β} {start : Nat} {s s' : σ}
  {size taken next : Nat} {result : β}

theorem transfer_of_done (h : turn start s = .done result s') (fuel : Nat) :
    transfer turn (fuel + 1) start s = ([], some (result, s')) := by
  rw [transfer, h]

theorem transfer_of_stuck (h : turn start s = .stuck size) (fuel : Nat) :
    transfer turn (fuel + 1) start s = ([⟨start, size, 0⟩], none) := by
  rw [transfer, h]

theorem transfer_of_refused (h : turn start s = .refused size result s') (fuel : Nat) :
    transfer turn (fuel + 1) start s = ([⟨start, size, 0⟩], some (result, s')) := by
  rw [transfer, h]

theorem transfer_of_took (h : turn start s = .took size taken next s') (fuel : Nat) :
    transfer turn (fuel + 1) start s =
      (⟨start, size, taken⟩ :: (transfer turn fuel next s').1, (transfer turn fuel next s').2) := by
  rw [transfer, h]

/-- Whatever comes of it, an attempt is on record. -/
theorem exists_attempt_of_offers (h : (turn start s).offers = some size) (fuel : Nat) :
    ∃ attempt ∈ (transfer turn (fuel + 1) start s).1,
      attempt.start = start ∧ attempt.size = size := by
  cases hturn : turn start s with
  | done result s' =>
      rw [hturn] at h
      cases h
  | stuck size' =>
      rw [hturn] at h
      cases h
      exact ⟨_, by rw [transfer_of_stuck hturn]; exact List.mem_cons_self, rfl, rfl⟩
  | refused size' result s' =>
      rw [hturn] at h
      cases h
      exact ⟨_, by rw [transfer_of_refused hturn]; exact List.mem_cons_self, rfl, rfl⟩
  | took size' taken next s' =>
      rw [hturn] at h
      cases h
      exact ⟨_, by rw [transfer_of_took hturn]; exact List.mem_cons_self, rfl, rfl⟩

/-- What every turn keeps holds for the run. -/
theorem transfer_invariant {I : Nat → σ → Prop} {A : Attempt → Prop} {R : β → σ → Prop}
    (hturn : ∀ start s, I start s → (turn start s).Keeps I A R start) (fuel : Nat) :
    ∀ {start : Nat} {s : σ}, I start s →
      (∀ attempt ∈ (transfer turn fuel start s).1, A attempt) ∧
      ∀ result s', (transfer turn fuel start s).2 = some (result, s') → R result s' := by
  induction fuel with
  | zero =>
      intro start s _
      exact ⟨fun _ hmem => absurd hmem List.not_mem_nil, fun _ _ hrun => by cases hrun⟩
  | succ fuel ih =>
      intro start s hI
      have hkeeps := hturn start s hI
      cases hcase : turn start s with
      | done result s' =>
          rw [hcase] at hkeeps
          rw [transfer_of_done hcase]
          refine ⟨fun _ hmem => absurd hmem List.not_mem_nil, fun _ _ hrun => ?_⟩
          cases hrun
          exact hkeeps
      | stuck size =>
          rw [hcase] at hkeeps
          rw [transfer_of_stuck hcase]
          exact ⟨List.forall_mem_singleton.mpr hkeeps, fun _ _ hrun => by cases hrun⟩
      | refused size result s' =>
          rw [hcase] at hkeeps
          rw [transfer_of_refused hcase]
          refine ⟨List.forall_mem_singleton.mpr hkeeps.1, fun _ _ hrun => ?_⟩
          cases hrun
          exact hkeeps.2
      | took size taken next s' =>
          rw [hcase] at hkeeps
          obtain ⟨hrest, hresult⟩ := ih hkeeps.2
          rw [transfer_of_took hcase]
          exact ⟨List.forall_mem_cons.mpr ⟨hkeeps.1, hrest⟩, hresult⟩

/-- A loop that counts makes consecutive attempts, and ends with the number of positions
taken. -/
theorem transfer_counts {turn : Nat → σ → Turn σ Nat}
    (hturn : ∀ start s, (turn start s).Counts start) (fuel : Nat) :
    ∀ {start : Nat} {s : σ},
      Attempt.Consecutive start (transfer turn fuel start s).1 ∧
      ∀ result s', (transfer turn fuel start s).2 = some (result, s') →
        result = start + Attempt.amount (transfer turn fuel start s).1 := by
  induction fuel with
  | zero => exact fun {_ _} => ⟨trivial, fun _ _ hrun => by cases hrun⟩
  | succ fuel ih =>
      intro start s
      have hcounts := hturn start s
      cases hcase : turn start s with
      | done result s' =>
          rw [hcase] at hcounts
          rw [transfer_of_done hcase]
          refine ⟨trivial, fun _ _ hrun => ?_⟩
          cases hrun
          exact hcounts
      | stuck size =>
          rw [transfer_of_stuck hcase]
          exact ⟨⟨rfl, trivial⟩, fun _ _ hrun => by cases hrun⟩
      | refused size result s' =>
          rw [hcase] at hcounts
          rw [transfer_of_refused hcase]
          refine ⟨⟨rfl, trivial⟩, fun _ _ hrun => ?_⟩
          cases hrun
          exact hcounts
      | took size taken next s' =>
          rw [hcase] at hcounts
          obtain rfl : next = start + taken := hcounts
          obtain ⟨hrest, hresult⟩ := @ih (start + taken) s'
          rw [transfer_of_took hcase]
          refine ⟨⟨rfl, hrest⟩, fun result s'' hrun => ?_⟩
          rw [hresult result s'' hrun, Attempt.amount, Nat.add_assoc]

end Loop

end MqttClient.Semantics

/-
# Computations that examine a store

A parser that is handed a pointer and a size may look at any cell behind the pointer,
and its result does not tell at which cells it looked.  `Parse` is a computation
together with the keys it examines, in order; it may stop without a result.  Result
and keys cannot come apart: on a store that agrees on the examined keys the
computation takes the same course to the same result, and nothing can be built for
which that fails.

`Within` says that every examined key satisfies a predicate.  It is decided along the
computation, one examined key after the other.
-/

import Mathlib.Data.List.Basic

namespace MqttClient.Semantics

/-- A computation over stores `κ → ν` and the keys it examines. -/
structure Parse (κ ν α : Type) where
  result : (κ → ν) → Option α
  footprint : (κ → ν) → List κ
  /-- The result and the course depend on the examined keys only. -/
  depends : ∀ m m', (∀ i ∈ footprint m, m' i = m i) →
    result m' = result m ∧ footprint m' = footprint m

namespace Parse

variable {κ ν α β : Type}

theorem depends_const (r : Option α) (m m' : κ → ν) (_ : ∀ i ∈ ([] : List κ), m' i = m i) :
    r = r ∧ ([] : List κ) = [] :=
  ⟨rfl, rfl⟩

theorem depends_list (keys : List κ) (m m' : κ → ν) (h : ∀ i ∈ keys, m' i = m i) :
    some (keys.map m') = some (keys.map m) ∧ keys = keys :=
  ⟨congrArg some (List.map_congr_left h), rfl⟩

theorem depends_single (i : κ) (m m' : κ → ν) (h : ∀ j ∈ [i], m' j = m j) :
    some (m' i) = some (m i) ∧ [i] = [i] :=
  ⟨congrArg some (h i List.mem_cons_self), rfl⟩

theorem depends_sequence (x : Parse κ ν α) (f : α → Parse κ ν β) (m m' : κ → ν)
    (h : ∀ i ∈ x.footprint m ++ (x.result m).elim [] fun a => (f a).footprint m, m' i = m i) :
    (x.result m').bind (fun a => (f a).result m') = (x.result m).bind (fun a => (f a).result m) ∧
      (x.footprint m' ++ (x.result m').elim [] fun a => (f a).footprint m') =
        x.footprint m ++ (x.result m).elim [] fun a => (f a).footprint m := by
  obtain ⟨hresult, hprint⟩ := x.depends m m' fun i hi => h i (List.mem_append_left _ hi)
  rw [hresult, hprint]
  cases hx : x.result m with
  | none => exact ⟨rfl, rfl⟩
  | some a =>
      rw [hx] at h
      obtain ⟨hrest, hprint'⟩ := (f a).depends m m' fun i hi => h i (List.mem_append_right _ hi)
      exact ⟨hrest, congrArg (x.footprint m ++ ·) hprint'⟩

instance : Monad (Parse κ ν) where
  pure a := ⟨fun _ => some a, fun _ => [], depends_const (some a)⟩
  bind x f := ⟨fun m => (x.result m).bind fun a => (f a).result m,
    fun m => x.footprint m ++ (x.result m).elim [] fun a => (f a).footprint m,
    depends_sequence x f⟩

/-- Stop without a result. -/
def stop : Parse κ ν α := ⟨fun _ => none, fun _ => [], depends_const none⟩

/-- Examine one key. -/
def peek (i : κ) : Parse κ ν ν := ⟨fun m => some (m i), fun _ => [i], depends_single i⟩

/-- Examine several keys, one after the other. -/
def peekAll (keys : List κ) : Parse κ ν (List ν) :=
  ⟨fun m => some (keys.map m), fun _ => keys, depends_list keys⟩

variable (m : κ → ν)

@[simp]
theorem result_pure (a : α) : (pure a : Parse κ ν α).result m = some a := rfl

@[simp]
theorem result_peekAll (keys : List κ) : (peekAll keys).result m = some (keys.map m) := rfl

@[simp]
theorem result_bind (x : Parse κ ν α) (f : α → Parse κ ν β) :
    (x >>= f).result m = (x.result m).bind fun a => (f a).result m := rfl

@[simp]
theorem result_ite (c : Prop) [Decidable c] (x y : Parse κ ν α) :
    (if c then x else y).result m = if c then x.result m else y.result m :=
  apply_ite (fun z : Parse κ ν α => z.result m) c x y

/-- Every key examined on a store satisfies the predicate. -/
def Within (x : Parse κ ν α) (m : κ → ν) (P : κ → Prop) : Prop := ∀ i ∈ x.footprint m, P i

variable {m} {P : κ → Prop}

@[simp]
theorem within_pure (a : α) : (pure a : Parse κ ν α).Within m P :=
  fun _ hi => absurd hi List.not_mem_nil

@[simp]
theorem within_stop : (stop : Parse κ ν α).Within m P :=
  fun _ hi => absurd hi List.not_mem_nil

@[simp]
theorem within_peek {i : κ} : (peek i : Parse κ ν ν).Within m P ↔ P i :=
  List.forall_mem_singleton

@[simp]
theorem within_peekAll {keys : List κ} :
    (peekAll keys : Parse κ ν (List ν)).Within m P ↔ ∀ i ∈ keys, P i :=
  Iff.rfl

/-- A sequence stays within if its first part does, and the rest from the result of the
first part on. -/
theorem within_bind {x : Parse κ ν α} {f : α → Parse κ ν β} :
    (x >>= f).Within m P ↔
      x.Within m P ∧ ∀ a, x.result m = some a → (f a).Within m P := by
  have happend : (x >>= f).Within m P ↔ x.Within m P ∧
      ∀ i ∈ (x.result m).elim [] fun a => (f a).footprint m, P i := List.forall_mem_append
  rw [happend]
  cases hx : x.result m with
  | none => simp
  | some a => simp [Within]

theorem within_bind_of_some {x : Parse κ ν α} {f : α → Parse κ ν β} {a : α}
    (h : x.result m = some a) :
    (x >>= f).Within m P ↔ x.Within m P ∧ (f a).Within m P := by
  simp [within_bind, h]

end Parse

end MqttClient.Semantics

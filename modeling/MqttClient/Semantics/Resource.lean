/-
# Handles in variables

A program keeps handles in variables that outlive the handles: a release leaves the
variable as it is, and an assignment forgets what it held.  Handles are numbers, given
out in order, so that a new one is never equal to an old one.  Two things can go wrong,
and both are recorded: a variable is released that holds no live handle, and a variable
is assigned while its handle is live.

`Holds s held` says that nothing has gone wrong, that the variables in `held` own the
live handles, one each, and that the others hold nothing live.  Assigning a variable
that owns nothing adds it to `held`; releasing one that owns its handle, or holds none,
takes it out.
-/

import Mathlib.Data.Finset.Basic

namespace MqttClient.Semantics

/-- What can go wrong with the handle of a variable. -/
inductive Fault (K : Type)
  /-- The variable was released, and its handle was not live. -/
  | badRelease (k : K) (h : Nat)
  /-- The variable was assigned, and its handle was live. -/
  | lost (k : K) (h : Nat)
  deriving DecidableEq, Repr

/-- Variables `K`, the handles they hold, and the handles that are live. -/
structure Slots (K : Type) where
  slot : K → Option Nat
  next : Nat
  live : Finset Nat
  faults : List (Fault K)

namespace Slots

variable {K : Type}

/-- What goes wrong when the variable is assigned. -/
def faultsOfAssign (s : Slots K) (k : K) : List (Fault K) :=
  match s.slot k with
  | none => []
  | some h => if h ∈ s.live then [.lost k h] else []

section Assign

variable [DecidableEq K]

/-- Assign a new handle. -/
def assign (s : Slots K) (k : K) : Slots K where
  slot := Function.update s.slot k (some s.next)
  next := s.next + 1
  live := insert s.next s.live
  faults := s.faults ++ s.faultsOfAssign k

/-- Assign the null handle. -/
def clear (s : Slots K) (k : K) : Slots K :=
  { s with
    slot := Function.update s.slot k none
    faults := s.faults ++ s.faultsOfAssign k }

end Assign

/-- Release the handle of a variable.  Releasing the null handle does nothing. -/
def release (s : Slots K) (k : K) : Slots K :=
  match s.slot k with
  | none => s
  | some h =>
      if h ∈ s.live then { s with live := s.live.erase h }
      else { s with faults := s.faults ++ [.badRelease k h] }

/-- Nothing has gone wrong, and these variables own the live handles. -/
structure Holds (s : Slots K) (held : Finset K) : Prop where
  faults : s.faults = []
  live : ∀ h, h ∈ s.live ↔ ∃ k ∈ held, s.slot k = some h
  distinct : ∀ k ∈ held, ∀ k' ∈ held, ∀ h, s.slot k = some h → s.slot k' = some h → k = k'
  stale : ∀ k ∉ held, ∀ h, s.slot k = some h → h ∉ s.live
  fresh : ∀ k h, s.slot k = some h → h < s.next

namespace Holds

variable {s : Slots K} {held : Finset K} {k : K}

theorem faultsOfAssign_eq_nil (h : s.Holds held) (hk : k ∉ held) : s.faultsOfAssign k = [] := by
  unfold faultsOfAssign
  split
  · rfl
  · rename_i handle hslot
    rw [if_neg (h.stale k hk handle hslot)]

section Assign

variable [DecidableEq K]

/-- A variable that owns nothing is assigned a new handle or the null handle. -/
theorem of_update {s' : Slots K} {value : Option Nat} (h : s.Holds held) (hk : k ∉ held)
    (hslot : s'.slot = Function.update s.slot k value)
    (hfaults : s'.faults = s.faults ++ s.faultsOfAssign k)
    (hlive : ∀ handle, handle ∈ s'.live ↔ value = some handle ∨ handle ∈ s.live)
    (hnew : ∀ handle, value = some handle → s.next ≤ handle ∧ handle < s'.next)
    (hnext : s.next ≤ s'.next) : s'.Holds (insert k held) := by
  have hself : s'.slot k = value := by
    rw [hslot, Function.update_self]
  have hother : ∀ {k'}, k' ≠ k → s'.slot k' = s.slot k' := fun hne => by
    rw [hslot, Function.update_of_ne hne]
  have hne : ∀ {k'}, k' ∈ held → k' ≠ k := fun hmem heq => hk (heq ▸ hmem)
  -- the new handle is in no other variable
  have hunique : ∀ {k' handle}, k' ≠ k → s'.slot k' = some handle → value ≠ some handle := by
    intro k' handle hk' hslot' hvalue
    rw [hother hk'] at hslot'
    exact Nat.lt_irrefl _ ((h.fresh k' handle hslot').trans_le (hnew handle hvalue).1)
  constructor
  · rw [hfaults, h.faults, h.faultsOfAssign_eq_nil hk]
    rfl
  · intro handle
    rw [hlive, h.live]
    constructor
    · rintro (hvalue | ⟨k', hmem, hslot'⟩)
      · exact ⟨k, Finset.mem_insert_self k held, hself.trans hvalue⟩
      · exact ⟨k', Finset.mem_insert_of_mem hmem, (hother (hne hmem)).trans hslot'⟩
    · rintro ⟨k', hmem, hslot'⟩
      rcases Finset.mem_insert.mp hmem with rfl | hheld
      · exact .inl (hself.symm.trans hslot')
      · exact .inr ⟨k', hheld, (hother (hne hheld)).symm.trans hslot'⟩
  · intro k₁ hmem₁ k₂ hmem₂ handle hslot₁ hslot₂
    rcases Finset.mem_insert.mp hmem₁ with rfl | hheld₁
    · rcases Finset.mem_insert.mp hmem₂ with rfl | hheld₂
      · rfl
      · exact absurd (hself.symm.trans hslot₁) (hunique (hne hheld₂) hslot₂)
    · rcases Finset.mem_insert.mp hmem₂ with rfl | hheld₂
      · exact absurd (hself.symm.trans hslot₂) (hunique (hne hheld₁) hslot₁)
      · rw [hother (hne hheld₁)] at hslot₁
        rw [hother (hne hheld₂)] at hslot₂
        exact h.distinct k₁ hheld₁ k₂ hheld₂ handle hslot₁ hslot₂
  · intro k' hmem handle hslot' hmem'
    have hk' : k' ≠ k := fun heq => hmem (heq ▸ Finset.mem_insert_self k held)
    rcases (hlive handle).mp hmem' with hvalue | hold
    · exact hunique hk' hslot' hvalue
    · rw [hother hk'] at hslot'
      exact h.stale k' (fun hheld => hmem (Finset.mem_insert_of_mem hheld)) handle hslot' hold
  · intro k' handle hslot'
    by_cases hk' : k' = k
    · subst hk'
      exact (hnew handle (hself.symm.trans hslot')).2
    · rw [hother hk'] at hslot'
      exact (h.fresh k' handle hslot').trans_le hnext

theorem assign (h : s.Holds held) (hk : k ∉ held) : (s.assign k).Holds (insert k held) := by
  refine h.of_update hk rfl rfl (fun handle => ?_) (fun handle heq => ?_)
    (Nat.le_succ _)
  · rw [Option.some_inj, eq_comm]
    exact Finset.mem_insert
  · cases heq
    exact ⟨Nat.le_refl _, Nat.lt_succ_self _⟩

theorem clear (h : s.Holds held) (hk : k ∉ held) : (s.clear k).Holds (insert k held) := by
  refine h.of_update hk rfl rfl (fun handle => ?_) nofun (Nat.le_refl _)
  exact (or_iff_right nofun).symm

end Assign

/-- A release leaves the variables as they are. -/
theorem slot_release (s : Slots K) (k : K) : (s.release k).slot = s.slot := by
  unfold release
  split
  · rfl
  · split <;> rfl

theorem release [DecidableEq K] (h : s.Holds held) (hk : k ∈ held ∨ s.slot k = none) :
    (s.release k).Holds (held.erase k) := by
  unfold Slots.release
  split
  · rename_i hnone
    -- nothing is owned by a variable without a handle
    have hne : ∀ {k' handle}, s.slot k' = some handle → k' ≠ k := by
      rintro k' handle hslot rfl
      rw [hnone] at hslot
      cases hslot
    refine ⟨h.faults, fun handle => (h.live handle).trans ?_, ?_, ?_, h.fresh⟩
    · exact ⟨fun ⟨k', hmem, hslot⟩ => ⟨k', Finset.mem_erase.mpr ⟨hne hslot, hmem⟩, hslot⟩,
        fun ⟨k', hmem, hslot⟩ => ⟨k', Finset.mem_of_mem_erase hmem, hslot⟩⟩
    · exact fun k₁ hmem₁ k₂ hmem₂ =>
        h.distinct k₁ (Finset.mem_of_mem_erase hmem₁) k₂ (Finset.mem_of_mem_erase hmem₂)
    · exact fun k' hmem handle hslot =>
        h.stale k' (fun hheld => hmem (Finset.mem_erase.mpr ⟨hne hslot, hheld⟩)) handle hslot
  · rename_i handle hslot
    have hheld : k ∈ held := hk.resolve_right (by rw [hslot]; simp)
    rw [if_pos ((h.live handle).mpr ⟨k, hheld, hslot⟩)]
    refine ⟨h.faults, fun handle' => ?_, ?_, ?_, h.fresh⟩
    · show handle' ∈ s.live.erase handle ↔ _
      rw [Finset.mem_erase, h.live]
      constructor
      · rintro ⟨hne, k', hmem, hslot'⟩
        refine ⟨k', Finset.mem_erase.mpr ⟨?_, hmem⟩, hslot'⟩
        rintro rfl
        exact hne (Option.some.inj (hslot'.symm.trans hslot))
      · rintro ⟨k', hmem, hslot'⟩
        obtain ⟨hk', hmem⟩ := Finset.mem_erase.mp hmem
        refine ⟨?_, k', hmem, hslot'⟩
        rintro rfl
        exact hk' (h.distinct k' hmem k hheld handle' hslot' hslot)
    · exact fun k₁ hmem₁ k₂ hmem₂ =>
        h.distinct k₁ (Finset.mem_of_mem_erase hmem₁) k₂ (Finset.mem_of_mem_erase hmem₂)
    · intro k' hmem handle' hslot' hlive
      obtain ⟨hne, hlive⟩ := Finset.mem_erase.mp hlive
      by_cases hk' : k' = k
      · subst hk'
        exact hne (Option.some.inj (hslot'.symm.trans hslot))
      · exact h.stale k' (fun hheld' => hmem (Finset.mem_erase.mpr ⟨hk', hheld'⟩)) handle' hslot'
          hlive

/-- Releasing several variables one after the other. -/
theorem foldl_release [DecidableEq K] : ∀ {ks : List K} {s : Slots K} {held : Finset K},
    s.Holds held → ks.Nodup → (∀ k ∈ ks, k ∈ held ∨ s.slot k = none) →
      (ks.foldl Slots.release s).Holds (held \ ks.toFinset)
  | [], s, held, h, _, _ => by simpa using h
  | k :: ks, s, held, h, hnodup, hks => by
      obtain ⟨hnot, hnodup⟩ := List.nodup_cons.mp hnodup
      have hfirst := h.release (hks k List.mem_cons_self)
      have hrest := foldl_release hfirst hnodup fun k' hmem => by
        rw [slot_release]
        refine (hks k' (List.mem_cons_of_mem k hmem)).imp_left fun hheld => ?_
        exact Finset.mem_erase.mpr ⟨fun heq => hnot (heq ▸ hmem), hheld⟩
      rwa [List.toFinset_cons, Finset.sdiff_insert, ← Finset.erase_sdiff_comm]

end Holds

end Slots

end MqttClient.Semantics

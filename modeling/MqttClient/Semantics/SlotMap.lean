/-
# A table of slots as a finite map

A table with a fixed number of slots, each of them free or holding a key with its
value, represents a finite map as long as no key stands in two slots.  Overwriting the
slot of a key, filling a free slot with a new key and clearing a slot are then the
operations of the map, and the map has as many keys as there are occupied slots.
-/

import Mathlib.Data.Finmap
import Mathlib.Data.Fintype.Card

namespace MqttClient.Semantics

variable {ι κ ν : Type} [DecidableEq ι] [DecidableEq κ]

/-- No key stands in two slots, and the map holds what stands in the slots. -/
structure Represents (slots : ι → Option (κ × ν)) (map : Finmap fun _ : κ => ν) : Prop where
  distinct : ∀ {i j : ι} {k : κ} {v v' : ν}, slots i = some (k, v) → slots j = some (k, v') → i = j
  lookup_iff : ∀ (k : κ) (v : ν), map.lookup k = some v ↔ ∃ i, slots i = some (k, v)

namespace Represents

variable {slots : ι → Option (κ × ν)} {map : Finmap fun _ : κ => ν}

omit [DecidableEq ι] in
/-- A table without entries is the empty map. -/
theorem empty (h : ∀ i, slots i = none) : Represents slots ∅ where
  distinct := fun {i} _ _ _ _ hi _ => by
    rw [h i] at hi
    cases hi
  lookup_iff := fun k v => by
    constructor
    · intro hlookup
      rw [Finmap.lookup_empty] at hlookup
      cases hlookup
    · rintro ⟨i, hi⟩
      rw [h i] at hi
      cases hi

omit [DecidableEq ι] in
theorem mem_iff (h : Represents slots map) (k : κ) : k ∈ map ↔ ∃ i v, slots i = some (k, v) := by
  rw [Finmap.mem_iff]
  constructor
  · rintro ⟨v, hlookup⟩
    obtain ⟨i, hi⟩ := (h.lookup_iff k v).mp hlookup
    exact ⟨i, v, hi⟩
  · rintro ⟨i, v, hi⟩
    exact ⟨v, (h.lookup_iff k v).mpr ⟨i, hi⟩⟩

/-- Clearing the slot of a key removes the key. -/
theorem erase (h : Represents slots map) {i : ι} {k : κ} {v : ν} (hi : slots i = some (k, v)) :
    Represents (Function.update slots i none) (map.erase k) := by
  have hslot : ∀ {j : ι} {entry : κ × ν},
      Function.update slots i none j = some entry → j ≠ i ∧ slots j = some entry := by
    intro j entry hj
    by_cases hji : j = i
    · rw [hji, Function.update_self] at hj
      cases hj
    · rw [Function.update_of_ne hji] at hj
      exact ⟨hji, hj⟩
  refine ⟨fun hj hj' => h.distinct (hslot hj).2 (hslot hj').2, fun k' v' => ?_⟩
  by_cases hkey : k' = k
  · rw [hkey, Finmap.lookup_erase]
    refine iff_of_false (fun hnone => by cases hnone) ?_
    rintro ⟨j, hj⟩
    obtain ⟨hne, hj⟩ := hslot hj
    exact hne (h.distinct hj hi)
  · rw [Finmap.lookup_erase_ne hkey, h.lookup_iff]
    constructor
    · rintro ⟨j, hj⟩
      have hne : j ≠ i := by
        rintro rfl
        rw [hi] at hj
        cases hj
        exact hkey rfl
      exact ⟨j, by rwa [Function.update_of_ne hne]⟩
    · rintro ⟨j, hj⟩
      exact ⟨j, (hslot hj).2⟩

/-- Writing a key into a slot inserts it, if the key stands nowhere else and the slot held
no other key. -/
theorem insert (h : Represents slots map) {i : ι} {k : κ} (v : ν)
    (honly : ∀ {j : ι} {w : ν}, slots j = some (k, w) → j = i)
    (hfree : ∀ {k' : κ} {w : ν}, slots i = some (k', w) → k' = k) :
    Represents (Function.update slots i (some (k, v))) (map.insert k v) := by
  have hslot : ∀ {j : ι} {k' : κ} {v' : ν},
      Function.update slots i (some (k, v)) j = some (k', v') →
        j = i ∧ k' = k ∧ v' = v ∨ j ≠ i ∧ slots j = some (k', v') := by
    intro j k' v' hj
    by_cases hji : j = i
    · rw [hji, Function.update_self] at hj
      cases hj
      exact .inl ⟨hji, rfl, rfl⟩
    · rw [Function.update_of_ne hji] at hj
      exact .inr ⟨hji, hj⟩
  constructor
  · intro j j' k' w w' hj hj'
    obtain ⟨hat, hkey, _⟩ | ⟨hne, hold⟩ := hslot hj
    · obtain ⟨hat', _, _⟩ | ⟨hne', hold'⟩ := hslot hj'
      · exact hat.trans hat'.symm
      · exact absurd (honly (hkey ▸ hold')) hne'
    · obtain ⟨_, hkey, _⟩ | ⟨_, hold'⟩ := hslot hj'
      · exact absurd (honly (hkey ▸ hold)) hne
      · exact h.distinct hold hold'
  · intro k' w
    by_cases hkey : k' = k
    · rw [hkey, Finmap.lookup_insert]
      constructor
      · intro hv
        cases hv
        exact ⟨i, Function.update_self i _ slots⟩
      · rintro ⟨j, hj⟩
        obtain ⟨_, _, rfl⟩ | ⟨hne, hj⟩ := hslot hj
        · rfl
        · exact absurd (honly hj) hne
    · rw [Finmap.lookup_insert_of_ne map hkey, h.lookup_iff]
      constructor
      · rintro ⟨j, hj⟩
        have hne : j ≠ i := by
          rintro rfl
          exact hkey (hfree hj)
        exact ⟨j, by rwa [Function.update_of_ne hne]⟩
      · rintro ⟨j, hj⟩
        obtain ⟨_, rfl, _⟩ | ⟨_, hj⟩ := hslot hj
        · exact absurd rfl hkey
        · exact ⟨j, hj⟩

variable [Fintype ι]

omit [DecidableEq ι] in
/-- One key for every occupied slot. -/
theorem card_keys (h : Represents slots map) :
    map.keys.card = (Finset.univ.filter fun i => (slots i).isSome).card := by
  have himage : (Finset.univ.filter fun i => (slots i).isSome).image
      (fun i => (slots i).map Prod.fst) = map.keys.image some := by
    ext key
    simp only [Finset.mem_image, Finset.mem_filter, Finset.mem_univ, true_and, Finmap.mem_keys,
      h.mem_iff]
    constructor
    · rintro ⟨i, hi, rfl⟩
      obtain ⟨⟨k, v⟩, hslot⟩ := Option.isSome_iff_exists.mp hi
      exact ⟨k, ⟨i, v, hslot⟩, by rw [hslot]; rfl⟩
    · rintro ⟨k, ⟨i, v, hslot⟩, rfl⟩
      exact ⟨i, by rw [hslot]; rfl, by rw [hslot]; rfl⟩
  rw [← Finset.card_image_of_injective _ (Option.some_injective κ), ← himage]
  refine Finset.card_image_of_injOn fun i hi j hj heq => ?_
  obtain ⟨⟨k, v⟩, hslot⟩ := Option.isSome_iff_exists.mp (Finset.mem_filter.mp hi).2
  obtain ⟨⟨k', v'⟩, hslot'⟩ := Option.isSome_iff_exists.mp (Finset.mem_filter.mp hj).2
  have hkey : some k = some k' := by
    simp only [hslot, hslot'] at heq
    exact heq
  cases hkey
  exact h.distinct hslot hslot'

omit [DecidableEq ι] in
/-- The map has at most one key per slot. -/
theorem card_keys_le (h : Represents slots map) : map.keys.card ≤ Fintype.card ι := by
  rw [h.card_keys]
  exact Finset.card_filter_le _ _

omit [DecidableEq ι] in
/-- There is a free slot exactly if the map has fewer keys than there are slots. -/
theorem exists_free_iff (h : Represents slots map) :
    (∃ i, slots i = none) ↔ map.keys.card < Fintype.card ι := by
  rw [h.card_keys]
  constructor
  · rintro ⟨i, hi⟩
    refine Finset.card_lt_univ_of_notMem (x := i) fun hmem => ?_
    rw [Finset.mem_filter, hi] at hmem
    exact Bool.false_ne_true hmem.2
  · intro hlt
    by_contra hfull
    have hall : (Finset.univ.filter fun i => (slots i).isSome) = Finset.univ := by
      refine Finset.filter_true_of_mem fun i _ => ?_
      exact Option.isSome_iff_ne_none.mpr fun hi => hfull ⟨i, hi⟩
    rw [hall, Finset.card_univ] at hlt
    exact Nat.lt_irrefl _ hlt

end Represents

end MqttClient.Semantics

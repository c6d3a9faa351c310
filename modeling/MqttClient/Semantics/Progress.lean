/-
# Programs that come back

A loop that its environment can prolong is modelled with fuel, and a run that uses up
its fuel does not return.  To show that it does return one needs a quantity that every
iteration lowers, and fuel above it.

`Advances` is the total reading of a relation between the state before and the state
after, for states that are ready.  Readiness is whatever the loops inside need to be
sure of their fuel.  As long as the relation keeps it, `Advances` is closed under
sequencing, and a function that is composed of advancing parts needs no induction of
its own.
-/

import MqttClient.Semantics.Program

namespace MqttClient.Semantics.Program

universe u v

variable {W α β : Type u} {ι : Type v}

/-- From every ready state the program returns, in a state that the relation allows. -/
def Advances (ready : W → Prop) (R : W → W → Prop) (x : Program W α) : Prop :=
  ∀ w, ready w → x.Returns w fun _ w' => R w w'

/-- A preorder that keeps readiness. -/
structure Course (ready : W → Prop) (R : W → W → Prop) : Prop where
  refl : ∀ w, R w w
  trans : ∀ {a b c}, R a b → R b c → R a c
  keep : ∀ {w w'}, R w w' → ready w → ready w'

namespace Course

variable {ready : W → Prop} {R : W → W → Prop} (hR : Course ready R)

include hR

theorem pure (a : α) : Advances ready R (Pure.pure a : Program W α) :=
  fun w _ => returns_pure (hR.refl w)

theorem gets (f : W → α) : Advances ready R (Program.gets f) :=
  fun w _ => ⟨f w, w, rfl, hR.refl w⟩

theorem bind {x : Program W α} {f : α → Program W β} (hx : Advances ready R x)
    (hf : ∀ a, Advances ready R (f a)) : Advances ready R (x >>= f) := by
  intro w hw
  apply (hx w hw).bind
  intro a w' hmid
  exact (hf a w' (hR.keep hmid hw)).mono fun _ _ hend => hR.trans hmid hend

/-- A loop returns if its fuel exceeds a quantity that goes down with every iteration
that does not return. -/
theorem loop {loop : Nat → ι → Program W α} {measure : W → Nat}
    (hstep : ∀ n i w, ready w →
      (∀ i' w', R w w' → measure w' < measure w → (loop n i').Returns w' fun _ w'' => R w' w'') →
      (loop (n + 1) i).Returns w fun _ w' => R w w') :
    ∀ n i w, ready w → measure w < n → (loop n i).Returns w fun _ w' => R w w' := by
  intro n
  induction n with
  | zero => exact fun i w _ hlt => absurd hlt (Nat.not_lt_zero _)
  | succ n ih =>
      intro i w hw hlt
      apply hstep n i w hw
      intro i' w' hmid hless
      exact ih i' w' (hR.keep hmid hw) (by omega)

end Course

theorem Advances.ite {ready : W → Prop} {R : W → W → Prop} {c : Prop} [Decidable c]
    {x y : Program W α} (hx : Advances ready R x) (hy : Advances ready R y) :
    Advances ready R (if c then x else y) := by
  split
  · exact hx
  · exact hy

end MqttClient.Semantics.Program

/-
# Programs over a state that may fail to return

A C function that loops until its environment lets it go is neither a total
function nor a relation chosen freely: it is a function whose run may never
end.  `Program W α` is that notion and nothing more.  A program maps the state
before the call to the result and the state after it, and `none` says that the
call has not come back.

Two readings of a postcondition are kept apart.  `Ensures` is partial: it
speaks about every run that does return.  `Returns` is total: the run ends, and
it ends well.  `Keeps` is the partial reading of a relation between the state
before and the state after, closed under sequencing as soon as the relation is
a preorder.
-/

import Mathlib.Init

namespace MqttClient.Semantics

universe u v

/-- A program over states `W`: its result and final state, or `none` when it
does not return. -/
structure Program (W : Type u) (α : Type u) where
  /-- One call from the given state. -/
  run : W → Option (α × W)

namespace Program

variable {W α β : Type u}

/-- Programs with the same runs are the same. -/
@[ext]
theorem ext {x y : Program W α} (h : ∀ w, x.run w = y.run w) : x = y :=
  congrArg mk (funext h)

instance : Monad (Program W) where
  pure a := ⟨fun w => some (a, w)⟩
  bind x f := ⟨fun w => (x.run w).bind fun r => (f r.1).run r.2⟩

/-- The call that never comes back. -/
def diverge : Program W α := ⟨fun _ => none⟩

/-- Read a component of the state. -/
def gets (f : W → α) : Program W α := ⟨fun w => some (f w, w)⟩

/-- Change the state. -/
def modify (f : W → W) : Program W PUnit := ⟨fun w => some (⟨⟩, f w)⟩

@[simp]
theorem run_pure (a : α) (w : W) : (pure a : Program W α).run w = some (a, w) := rfl

@[simp]
theorem run_diverge (w : W) : (diverge : Program W α).run w = none := rfl

@[simp]
theorem run_gets (f : W → α) (w : W) : (gets f).run w = some (f w, w) := rfl

@[simp]
theorem run_modify (f : W → W) (w : W) : (modify f).run w = some (⟨⟩, f w) := rfl

theorem run_bind (x : Program W α) (f : α → Program W β) (w : W) :
    (x >>= f).run w = (x.run w).bind fun r => (f r.1).run r.2 := rfl

/-- A sequence whose first part is known to return continues from there. -/
theorem run_bind_of_eq_some {x : Program W α} {f : α → Program W β} {w w' : W} {a : α}
    (h : x.run w = some (a, w')) : (x >>= f).run w = (f a).run w' := by
  rw [run_bind, h, Option.bind_some]

/-- A returning sequence is a returning first part and a returning rest. -/
theorem run_bind_eq_some {x : Program W α} {f : α → Program W β} {w : W} {r : β × W} :
    (x >>= f).run w = some r ↔ ∃ a w', x.run w = some (a, w') ∧ (f a).run w' = some r := by
  rw [run_bind, Option.bind_eq_some_iff]
  exact ⟨fun ⟨⟨a, w'⟩, hx, hf⟩ => ⟨a, w', hx, hf⟩, fun ⟨a, w', hx, hf⟩ => ⟨⟨a, w'⟩, hx, hf⟩⟩

/-- Sequencing is associative. -/
theorem bind_bind {γ : Type u} (x : Program W α) (f : α → Program W β) (g : β → Program W γ) :
    x >>= f >>= g = x >>= fun a => f a >>= g := by
  apply ext
  intro w
  simp only [run_bind, Option.bind_assoc]

theorem run_pure_eq_some {a b : α} {w w' : W} :
    (pure a : Program W α).run w = some (b, w') ↔ a = b ∧ w = w' := by
  rw [run_pure, Option.some.injEq, Prod.mk.injEq]

/-- A program is a function: a run has one outcome. -/
theorem run_inj {x : Program W α} {w w₁ w₂ : W} {a b : α} (h : x.run w = some (a, w₁))
    (h' : x.run w = some (b, w₂)) : a = b ∧ w₁ = w₂ := by
  rw [h] at h'
  cases h'
  exact ⟨rfl, rfl⟩

/-! ## Postconditions -/

/-- Every returning run of `x` from `w` ends in `post`. -/
def Ensures (x : Program W α) (w : W) (post : α → W → Prop) : Prop :=
  ∀ a w', x.run w = some (a, w') → post a w'

/-- The run of `x` from `w` returns, and ends in `post`. -/
def Returns (x : Program W α) (w : W) (post : α → W → Prop) : Prop :=
  ∃ a w', x.run w = some (a, w') ∧ post a w'

/-- A run known to return well has no other outcome. -/
theorem Returns.ensures {x : Program W α} {w : W} {post : α → W → Prop}
    (h : x.Returns w post) : x.Ensures w post := by
  obtain ⟨a, w', hrun, hpost⟩ := h
  intro b w'' hother
  obtain ⟨rfl, rfl⟩ := run_inj hrun hother
  exact hpost

theorem Returns.mono {x : Program W α} {w : W} {post weaker : α → W → Prop}
    (h : x.Returns w post) (hmono : ∀ a w', post a w' → weaker a w') :
    x.Returns w weaker := by
  obtain ⟨a, w', hrun, hpost⟩ := h
  exact ⟨a, w', hrun, hmono a w' hpost⟩

theorem returns_pure {a : α} {w : W} {post : α → W → Prop} (h : post a w) :
    (pure a : Program W α).Returns w post :=
  ⟨a, w, rfl, h⟩

/-- Sequencing total specifications: the rest must return well from every state
the first part can hand over. -/
theorem Returns.bind {x : Program W α} {f : α → Program W β} {w : W}
    {mid : α → W → Prop} {post : β → W → Prop} (hx : x.Returns w mid)
    (hf : ∀ a w', mid a w' → (f a).Returns w' post) : (x >>= f).Returns w post := by
  obtain ⟨a, w', hrun, hmid⟩ := hx
  obtain ⟨b, w'', hrest, hpost⟩ := hf a w' hmid
  exact ⟨b, w'', (run_bind_of_eq_some hrun).trans hrest, hpost⟩

/-- A first part whose run is known is skipped. -/
theorem returns_bind_of_eq_some {x : Program W α} {f : α → Program W β} {w w' : W} {a : α}
    {post : β → W → Prop} (hx : x.run w = some (a, w')) (hf : (f a).Returns w' post) :
    (x >>= f).Returns w post := by
  obtain ⟨b, w'', hrest, hpost⟩ := hf
  exact ⟨b, w'', (run_bind_of_eq_some hx).trans hrest, hpost⟩

/-- A run that was evaluated, as far as an observation of its result shows. -/
theorem returns_of_map_eq {x : Program W α} {w : W} {f : α × W → β} {b : β}
    (h : (x.run w).map f = some b) : x.Returns w fun a w' => f (a, w') = b := by
  obtain ⟨⟨a, w'⟩, hrun, hobs⟩ := Option.map_eq_some_iff.mp h
  exact ⟨a, w', hrun, hobs⟩

/-! ## Relations between the state before and the state after -/

/-- Every returning run of `x` relates the state before it to the state after. -/
def Keeps (R : W → W → Prop) (x : Program W α) : Prop :=
  ∀ w a w', x.run w = some (a, w') → R w w'

theorem Keeps.mono {R S : W → W → Prop} {x : Program W α} (h : Keeps R x)
    (hmono : ∀ w w', R w w' → S w w') : Keeps S x :=
  fun w a w' hrun => hmono w w' (h w a w' hrun)

/-- What a returning run keeps can be added to its postcondition. -/
theorem Returns.and_keeps {R : W → W → Prop} {x : Program W α} {w : W} {post : α → W → Prop}
    (h : x.Returns w post) (hkeeps : Keeps R x) : x.Returns w fun a w' => post a w' ∧ R w w' := by
  obtain ⟨a, w', hrun, hpost⟩ := h
  exact ⟨a, w', hrun, hpost, hkeeps w a w' hrun⟩

section Preorder

variable {R : W → W → Prop}

theorem keeps_diverge : Keeps R (diverge : Program W α) := by
  intro w a w' hrun
  cases hrun

theorem keeps_pure (hrefl : ∀ w, R w w) (a : α) : Keeps R (pure a : Program W α) := by
  intro w b w' hrun
  obtain ⟨_, rfl⟩ := run_pure_eq_some.mp hrun
  exact hrefl w

theorem keeps_gets (hrefl : ∀ w, R w w) (f : W → α) : Keeps R (gets f) := by
  intro w b w' hrun
  cases hrun
  exact hrefl w

theorem keeps_modify {f : W → W} (h : ∀ w, R w (f w)) : Keeps R (modify f) := by
  intro w b w' hrun
  cases hrun
  exact h w

/-- A transitive relation kept by both parts is kept by the sequence. -/
theorem Keeps.bind (htrans : ∀ {a b c}, R a b → R b c → R a c)
    {x : Program W α} {f : α → Program W β}
    (hx : Keeps R x) (hf : ∀ a, Keeps R (f a)) : Keeps R (x >>= f) := by
  intro w b w'' hrun
  obtain ⟨a, w', hfirst, hrest⟩ := run_bind_eq_some.mp hrun
  exact htrans (hx w a w' hfirst) (hf a w' b w'' hrest)

theorem Keeps.ite {c : Prop} [Decidable c] {x y : Program W α}
    (hx : Keeps R x) (hy : Keeps R y) : Keeps R (if c then x else y) := by
  split
  · exact hx
  · exact hy

end Preorder

end Program

end MqttClient.Semantics

/-
# Programs that call back

A library that is given functions to call decides from their answers what to ask next
and what to return.  `Interaction Q A α` is such a library call without its caller: it
ends, or it asks a question of `Q` and goes on with any answer to it.  Run under a
handler it is a program over the handler's states.

An interaction `Reports` bad answers if, once it was given one, it can only end in
results of a given kind.  `run_reports` turns that into a rule: a handler that touches
the state only when it gives a bad answer is not noticed in any other result.
-/

import MqttClient.Semantics.Program

namespace MqttClient.Semantics

open Program

variable {Q W α : Type} {A : Q → Type}

/-- A call that asks questions and goes on with their answers. -/
inductive Interaction (Q : Type) (A : Q → Type) (α : Type)
  | done (result : α)
  | ask (q : Q) (k : A q → Interaction Q A α)

namespace Interaction

/-- Answer the questions by programs. -/
def run (answer : (q : Q) → Program W (A q)) : Interaction Q A α → Program W α
  | done result => pure result
  | ask q k => answer q >>= fun a => (k a).run answer

/-- Whatever it is answered, it ends in `post`. -/
def Always (post : α → Prop) : Interaction Q A α → Prop
  | done result => post result
  | ask _ k => ∀ a, (k a).Always post

/-- After a bad answer it always ends in `post`. -/
def Reports (bad : (q : Q) → A q → Prop) (post : α → Prop) : Interaction Q A α → Prop
  | done _ => True
  | ask q k => ∀ a, (bad q a → (k a).Always post) ∧ (k a).Reports bad post

variable {answer : (q : Q) → Program W (A q)} {R : W → W → Prop}

theorem keeps_run (hrefl : ∀ w, R w w) (htrans : ∀ {a b c}, R a b → R b c → R a c)
    (hanswer : ∀ q, Keeps R (answer q)) : ∀ i : Interaction Q A α, Keeps R (i.run answer) := by
  intro i
  induction i with
  | done result => exact keeps_pure hrefl result
  | ask q k ih => exact Keeps.bind (R := R) htrans (hanswer q) ih

theorem run_always {post : α → Prop} {i : Interaction Q A α} (h : i.Always post) {w w' : W}
    {result : α} (hrun : (i.run answer).run w = some (result, w')) : post result := by
  induction i generalizing w with
  | done result' =>
      obtain ⟨rfl, _⟩ := run_pure_eq_some.mp hrun
      exact h
  | ask q k ih =>
      obtain ⟨a, w₁, _, hrest⟩ := run_bind_eq_some.mp hrun
      exact ih a (h a) hrest

/-- If every answer that is not bad keeps `R`, then so does the whole call, unless it
reports. -/
theorem run_reports {bad : (q : Q) → A q → Prop} {post : α → Prop} {i : Interaction Q A α}
    (h : i.Reports bad post) (hrefl : ∀ w, R w w) (htrans : ∀ {a b c}, R a b → R b c → R a c)
    (hanswer : ∀ q w a w', (answer q).run w = some (a, w') → bad q a ∨ R w w') {w w' : W}
    {result : α} (hrun : (i.run answer).run w = some (result, w')) : post result ∨ R w w' := by
  induction i generalizing w with
  | done result' =>
      obtain ⟨_, rfl⟩ := run_pure_eq_some.mp hrun
      exact .inr (hrefl w)
  | ask q k ih =>
      obtain ⟨a, w₁, hfirst, hrest⟩ := run_bind_eq_some.mp hrun
      rcases hanswer q w a w₁ hfirst with hbad | hkept
      · exact .inl (run_always ((h a).1 hbad) hrest)
      · exact (ih a (h a).2 hrest).imp_right (htrans hkept)

end Interaction

end MqttClient.Semantics

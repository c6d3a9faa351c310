/-
# Runs of a step relation

A system is a relation between a state, a label and the next state.  A run keeps
its transitions, so a property of single transitions can be asked of all of them,
and so can the side condition under which an invariant is kept.
-/

import Mathlib.Init

namespace MqttClient.Semantics

universe u v

/-- One step that was taken. -/
structure Transition (S : Type u) (L : Type v) where
  source : S
  label : L
  target : S

variable {S : Type u} {L : Type v}

/-- The steps of a run from one state to another, in order. -/
inductive Run (step : S → L → S → Prop) : S → List (Transition S L) → S → Prop
  | nil (s : S) : Run step s [] s
  | cons {s t u : S} {l : L} {run : List (Transition S L)} (first : step s l t)
      (rest : Run step t run u) : Run step s (⟨s, l, t⟩ :: run) u

namespace Run

variable {step : S → L → S → Prop} {s t : S} {run : List (Transition S L)}

/-- An invariant that every step meeting its condition keeps holds before and after
every step of a run whose steps all meet it, and at its end. -/
theorem invariant (h : Run step s run t) (inv : S → Prop) {good : Transition S L → Prop}
    (hinit : inv s) (hgood : ∀ tr ∈ run, good tr)
    (hkeep : ∀ tr, step tr.source tr.label tr.target → good tr → inv tr.source →
      inv tr.target) :
    inv t ∧ ∀ tr ∈ run, step tr.source tr.label tr.target ∧ inv tr.source ∧ inv tr.target := by
  induction h with
  | nil s => exact ⟨hinit, fun tr htr => absurd htr (by simp)⟩
  | @cons s t u l run first rest ih =>
      have hhead := hkeep ⟨s, l, t⟩ first (hgood _ (by simp)) hinit
      obtain ⟨hlast, hall⟩ := ih hhead fun tr htr => hgood tr (by simp [htr])
      refine ⟨hlast, fun tr htr => ?_⟩
      rcases List.mem_cons.mp htr with rfl | htail
      · exact ⟨first, hinit, hhead⟩
      · exact hall tr htail

/-- A preorder that every step respects relates the ends of every run. -/
theorem preorder (h : Run step s run t) {R : S → S → Prop} (hrefl : ∀ s, R s s)
    (htrans : ∀ {a b c}, R a b → R b c → R a c)
    (hstep : ∀ {a l b}, step a l b → R a b) : R s t := by
  induction h with
  | nil s => exact hrefl s
  | cons first _ ih => exact htrans (hstep first) ih

theorem single {l : L} (h : step s l t) : Run step s [⟨s, l, t⟩] t := .cons h (.nil t)

theorem append (h : Run step s run t) {run' : List (Transition S L)} {u : S}
    (h' : Run step t run' u) : Run step s (run ++ run') u := by
  induction h with
  | nil s => exact h'
  | cons first _ ih => exact .cons first (ih h')

/-- A run, cut in two. -/
theorem of_append {run' : List (Transition S L)} {u : S} :
    ∀ {s : S}, Run step s (run ++ run') u → ∃ t, Run step s run t ∧ Run step t run' u := by
  induction run with
  | nil => exact fun h => ⟨_, .nil _, h⟩
  | cons head run ih =>
      rintro s (_ | ⟨first, rest⟩)
      obtain ⟨t, hrun, hrun'⟩ := ih rest
      exact ⟨t, .cons first hrun, hrun'⟩

/-- A run, cut at one of its steps. -/
theorem split {before after : List (Transition S L)} {tr : Transition S L}
    (h : Run step s (before ++ tr :: after) t) :
    Run step s before tr.source ∧ step tr.source tr.label tr.target ∧
      Run step tr.target after t := by
  obtain ⟨_, hbefore, hrest⟩ := h.of_append
  cases hrest with
  | cons first rest => exact ⟨hbefore, first, rest⟩

/-- An invariant that may speak of the steps taken so far. -/
theorem history (h : Run step s run t) (inv : List (Transition S L) → S → Prop)
    (hinit : inv [] s)
    (hkeep : ∀ before tr after, run = before ++ tr :: after →
      step tr.source tr.label tr.target → inv before tr.source → inv (before ++ [tr]) tr.target) :
    inv run t := by
  induction h generalizing inv with
  | nil s => exact hinit
  | @cons s t u l run first rest ih =>
      apply ih fun before => inv (⟨s, l, t⟩ :: before)
      · exact hkeep [] ⟨s, l, t⟩ run rfl first hinit
      · rintro before tr after rfl hstep hinv
        exact hkeep (⟨s, l, t⟩ :: before) tr after rfl hstep hinv

/-- The steps that a component takes in a run of the system it is part of.  `state` is its
state, and `label` says which step of it, if any, a step of the system is. -/
def project {S' : Type u} {L' : Type v} (state : S → S') (label : Transition S L → Option L')
    (run : List (Transition S L)) : List (Transition S' L') :=
  run.filterMap fun tr => (label tr).map fun l => ⟨state tr.source, l, state tr.target⟩

/-- A component of a system runs by itself, if every step of the system leaves it alone or
is one of its steps. -/
theorem of_project {S' : Type u} {L' : Type v} {step' : S' → L' → S' → Prop} {state : S → S'}
    {label : Transition S L → Option L'} (h : Run step s run t)
    (hstep : ∀ tr, step tr.source tr.label tr.target →
      label tr = none ∧ state tr.target = state tr.source ∨
        ∃ l, label tr = some l ∧ step' (state tr.source) l (state tr.target)) :
    Run step' (state s) (project state label run) (state t) := by
  induction h with
  | nil s => exact .nil _
  | @cons s t u l run first rest ih =>
      unfold project
      rcases hstep ⟨s, l, t⟩ first with ⟨hnone, hstay⟩ | ⟨l', hsome, hown⟩
      · rw [List.filterMap_cons_none (by rw [hnone]; rfl), ← hstay]
        exact ih
      · rw [List.filterMap_cons_some (by rw [hsome]; rfl)]
        exact .cons hown ih

end Run

/-- Follow a list of labels through a system whose steps are a function of state and
label; `none` when a step is not possible. -/
def replay (step : S → L → Option S) : S → List L → Option (List (Transition S L) × S)
  | s, [] => some ([], s)
  | s, l :: ls =>
      (step s l).bind fun t => (replay step t ls).map fun (run, u) => (⟨s, l, t⟩ :: run, u)

/-- What is replayed is a run. -/
theorem run_of_replay {step : S → L → Option S} :
    ∀ {ls : List L} {s t : S} {run : List (Transition S L)},
      replay step s ls = some (run, t) → Run (fun s l t => step s l = some t) s run t := by
  intro ls
  induction ls with
  | nil =>
      intro s t run h
      cases h
      exact .nil s
  | cons l ls ih =>
      intro s t run h
      obtain ⟨u, hstep, h⟩ := Option.bind_eq_some_iff.mp h
      obtain ⟨⟨rest, t'⟩, hrest, heq⟩ := Option.map_eq_some_iff.mp h
      cases heq
      exact .cons hstep (ih hrest)

end MqttClient.Semantics

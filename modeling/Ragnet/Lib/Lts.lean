import Mathlib.Logic.Relation

/-!
# Labelled transition systems

A system is a set of initial states and a labelled step relation.  Safety statements come in two
shapes: a predicate that holds in every reachable state, and a predicate that holds in every
state of every run all of whose steps meet a condition.  The second is the first for the system
`T.restrict ok`, so one induction principle serves both.
-/

universe u v

/-- A labelled transition system over states `σ` and labels `α`. -/
structure Lts (σ : Type u) (α : Type v) where
  /-- The states a run may start in. -/
  init : σ → Prop
  /-- `step s a s'`: from `s`, the step `a` may lead to `s'`. -/
  step : σ → α → σ → Prop

namespace Lts

variable {σ : Type u} {α : Type v}

/-- The states some run of the system visits. -/
inductive Reachable (T : Lts σ α) : σ → Prop
  /-- Initial states are reachable. -/
  | init {s : σ} : T.init s → Reachable T s
  /-- A step out of a reachable state reaches its target. -/
  | step {s s' : σ} {a : α} : Reachable T s → T.step s a s' → Reachable T s'

/-- Finite runs between two states, with their labels in order. -/
inductive Run (T : Lts σ α) : σ → List α → σ → Prop
  /-- The empty run. -/
  | nil (s : σ) : Run T s [] s
  /-- One more step at the end. -/
  | snoc {s s' s'' : σ} {as : List α} {a : α} :
      Run T s as s' → T.step s' a s'' → Run T s (as ++ [a]) s''

/-- The runs of `T` all of whose steps meet the condition `ok`. -/
def restrict (T : Lts σ α) (ok : σ → α → Prop) : Lts σ α where
  init := T.init
  step s a s' := ok s a ∧ T.step s a s'

variable {T : Lts σ α}

/-- The induction rule for invariants: true at the start, kept by every step out of a reachable
state. -/
theorem Reachable.invariant {I : σ → Prop} (h₀ : ∀ s, T.init s → I s)
    (hstep : ∀ s a s', T.Reachable s → I s → T.step s a s' → I s') {s : σ}
    (h : T.Reachable s) : I s := by
  induction h with
  | init hi => exact h₀ _ hi
  | step hr hs ih => exact hstep _ _ _ hr ih hs

/-- A restricted run is a run. -/
theorem Reachable.of_restrict {ok : σ → α → Prop} {s : σ} (h : (T.restrict ok).Reachable s) :
    T.Reachable s := by
  induction h with
  | init hi => exact .init hi
  | step _ hs ih => exact .step ih hs.2

/-- Reachability carries over along a run. -/
theorem Run.reachable {s s' : σ} {as : List α} (h : T.Run s as s') (hs : T.Reachable s) :
    T.Reachable s' := by
  induction h with
  | nil => exact hs
  | snoc _ hstep ih => exact .step ih hstep

/-- Runs compose. -/
theorem Run.append {s s' s'' : σ} {as bs : List α} (h : T.Run s as s') (h' : T.Run s' bs s'') :
    T.Run s (as ++ bs) s'' := by
  induction h' with
  | nil => simpa using h
  | snoc _ hstep ih =>
      rw [← List.append_assoc]
      exact .snoc ih hstep

/-- A single step as a run. -/
theorem Run.single {s s' : σ} {a : α} (h : T.step s a s') : T.Run s [a] s' :=
  .snoc (.nil s) h

end Lts

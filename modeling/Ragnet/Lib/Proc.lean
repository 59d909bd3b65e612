import Mathlib.Logic.Basic

/-!
# Stateful computations that can fail

`Proc ε σ α` is a computation over a state `σ` that ends with a value or with a fault in `ε`
and leaves a state behind *in either case*: what was written before a failure stays written.
This is the reading of a method that mutates its receiver and returns a `Result`, and it is why
`StateT σ (Except ε)`, which drops the state of a failed run, is not used.

A run is taken apart with `bind_eq_ok` and `bind_fails_iff`.  `Proc.Keeps view x` is the frame
condition that the part `view` of the state is the same afterwards on every path, the failing ones
included; `Proc.Preserves I x` says that the predicate `I` still holds.  `Proc.Avoids e x` excludes
a fault.  `Proc.Commutes f x` says that a change `f` of the state passes through the computation
unseen.  All of them compose without any knowledge of the values in between.
-/

/-- A computation over the state `σ` that ends with a value or a fault, and with a state. -/
def Proc (ε σ α : Type) : Type := σ → σ × Except ε α

namespace Proc

variable {ε σ τ α β : Type}

instance instMonad : Monad (Proc ε σ) where
  pure a := fun s => (s, .ok a)
  bind x f := fun s =>
    match x s with
    | (s', .ok a) => f a s'
    | (s', .error e) => (s', .error e)

def get : Proc ε σ σ := fun s => (s, .ok s)

def modify (f : σ → σ) : Proc ε σ Unit := fun s => (f s, .ok ())

/-- End with a fault, keeping the state. -/
def fail (e : ε) : Proc ε σ α := fun s => (s, .error e)

/-- A computation that does not touch the state. -/
def ofExcept (r : Except ε α) : Proc ε σ α := fun s => (s, r)

/-- A state change that returns a value. -/
def update (f : σ → σ × α) : Proc ε σ α := fun s => ((f s).1, .ok (f s).2)

/-- Run a computation on a component of the state. -/
def zoom (view : σ → τ) (put : σ → τ → σ) (x : Proc ε τ α) : Proc ε σ α :=
  fun s => (put s (x (view s)).1, (x (view s)).2)

/-! ## Running the primitives -/

@[simp] theorem pure_apply (a : α) (s : σ) : (pure a : Proc ε σ α) s = (s, .ok a) := rfl

@[simp] theorem get_apply (s : σ) : (get : Proc ε σ σ) s = (s, .ok s) := rfl

@[simp] theorem modify_apply (f : σ → σ) (s : σ) :
    (modify f : Proc ε σ Unit) s = (f s, .ok ()) := rfl

@[simp] theorem fail_apply (e : ε) (s : σ) : (fail e : Proc ε σ α) s = (s, .error e) := rfl

@[simp] theorem ofExcept_apply (r : Except ε α) (s : σ) :
    (ofExcept r : Proc ε σ α) s = (s, r) := rfl

@[simp] theorem update_apply (f : σ → σ × α) (s : σ) :
    (update f : Proc ε σ α) s = ((f s).1, .ok (f s).2) := rfl

@[simp] theorem zoom_apply (view : σ → τ) (put : σ → τ → σ) (x : Proc ε τ α) (s : σ) :
    zoom view put x s = (put s (x (view s)).1, (x (view s)).2) := rfl

theorem bind_apply (x : Proc ε σ α) (f : α → Proc ε σ β) (s : σ) :
    (x >>= f) s = match x s with
      | (s', .ok a) => f a s'
      | (s', .error e) => (s', .error e) := rfl

/-- A first stage that returns hands its value and its state on. -/
theorem bind_ok {x : Proc ε σ α} {f : α → Proc ε σ β} {s s' : σ} {a : α}
    (h : x s = (s', .ok a)) : (x >>= f) s = f a s' := by
  rw [bind_apply, h]

/-- A first stage that fails ends the whole computation. -/
theorem bind_error {x : Proc ε σ α} {f : α → Proc ε σ β} {s s' : σ} {e : ε}
    (h : x s = (s', .error e)) : (x >>= f) s = (s', .error e) := by
  rw [bind_apply, h]

/-- A computation that returns has returned from both of its stages. -/
theorem bind_eq_ok {x : Proc ε σ α} {f : α → Proc ε σ β} {s s' : σ} {b : β} :
    (x >>= f) s = (s', .ok b) ↔ ∃ s₁ a, x s = (s₁, .ok a) ∧ f a s₁ = (s', .ok b) := by
  constructor
  · intro h
    rcases hx : x s with ⟨s₁, e | a⟩
    · rw [bind_error hx] at h
      cases h
    · rw [bind_ok hx] at h
      exact ⟨s₁, a, rfl, h⟩
  · rintro ⟨s₁, a, hx, hf⟩
    rw [bind_ok hx, hf]

/-- A computation fails with one of the given faults when its first stage does, or when it hands on
to a second stage that does. -/
theorem bind_fails_iff {ι : Type} {fault : ι → ε} {x : Proc ε σ α} {f : α → Proc ε σ β} {s : σ} :
    (∃ i, ((x >>= f) s).2 = .error (fault i)) ↔
      (∃ i, (x s).2 = .error (fault i)) ∨
        ∃ s' a, x s = (s', .ok a) ∧ ∃ i, (f a s').2 = .error (fault i) := by
  rcases hx : x s with ⟨s', e | a⟩
  · rw [bind_error hx]
    constructor
    · rintro ⟨i, h⟩
      exact Or.inl ⟨i, congrArg Except.error (Except.error.inj h)⟩
    · rintro (⟨i, h⟩ | ⟨s₁, a, h, -⟩)
      · exact ⟨i, congrArg Except.error (Except.error.inj h)⟩
      · cases (Prod.mk.inj h).2
  · rw [bind_ok hx]
    constructor
    · exact fun h ↦ Or.inr ⟨s', a, rfl, h⟩
    · rintro (⟨i, h⟩ | ⟨s₁, a₁, h, hf⟩)
      · cases h
      · obtain ⟨rfl, ha⟩ := Prod.mk.inj h
        cases ha
        exact hf

/-- Second stages that agree on what the first stage returns are interchangeable. -/
theorem bind_congr {x : Proc ε σ α} {f g : α → Proc ε σ β} {s : σ}
    (h : ∀ s' a, x s = (s', .ok a) → f a s' = g a s') : (x >>= f) s = (x >>= g) s := by
  rcases hx : x s with ⟨s', e | a⟩
  · rw [bind_error hx, bind_error hx]
  · rw [bind_ok hx, bind_ok hx, h s' a hx]

/-- First stages that run to the same end are interchangeable. -/
theorem bind_eq_bind {x y : Proc ε σ α} {s t : σ} (h : x s = y t) (f : α → Proc ε σ β) :
    (x >>= f) s = (y >>= f) t := by
  rw [bind_apply, bind_apply, h]

/-- A second stage that only returns what it is given changes nothing. -/
theorem bind_pure (x : Proc ε σ α) : x >>= pure = x := by
  funext s
  rcases hx : x s with ⟨s', e | a⟩
  · exact bind_error hx
  · exact bind_ok hx

@[simp] theorem get_bind (f : σ → Proc ε σ β) (s : σ) : (get >>= f) s = f s s := rfl

@[simp] theorem modify_bind (g : σ → σ) (f : Unit → Proc ε σ β) (s : σ) :
    (modify g >>= f) s = f () (g s) := rfl

@[simp] theorem update_bind (g : σ → σ × α) (f : α → Proc ε σ β) (s : σ) :
    (update g >>= f) s = f (g s).2 (g s).1 := rfl

@[simp] theorem fail_bind (e : ε) (f : α → Proc ε σ β) (s : σ) :
    (fail e >>= f) s = (s, .error e) := rfl

@[simp] theorem ofExcept_ok_bind (a : α) (f : α → Proc ε σ β) (s : σ) :
    (ofExcept (.ok a) >>= f) s = f a s := rfl

@[simp] theorem ofExcept_error_bind (e : ε) (f : α → Proc ε σ β) (s : σ) :
    (ofExcept (.error e) >>= f) s = (s, .error e) := rfl

/-! ## What a computation leaves alone -/

/-- The part `view` of the state is the same afterwards, whatever the outcome. -/
def Keeps (view : σ → τ) (x : Proc ε σ α) : Prop := ∀ s, view (x s).1 = view s

section Keeps

variable {view : σ → τ}

theorem Keeps.bind {x : Proc ε σ α} {f : α → Proc ε σ β} (hx : Keeps view x)
    (hf : ∀ a, Keeps view (f a)) : Keeps view (x >>= f) := by
  intro s
  have h := hx s
  rcases hxs : x s with ⟨s', e | a⟩
  · rw [hxs] at h
    rw [bind_error hxs]
    exact h
  · rw [hxs] at h
    rw [bind_ok hxs]
    exact (hf a s').trans h

theorem Keeps.pure (a : α) : Keeps view (pure a : Proc ε σ α) := fun _ ↦ rfl

theorem Keeps.fail (e : ε) : Keeps view (fail e : Proc ε σ α) := fun _ ↦ rfl

theorem Keeps.get : Keeps view (get : Proc ε σ σ) := fun _ ↦ rfl

theorem Keeps.ofExcept (r : Except ε α) : Keeps view (ofExcept r : Proc ε σ α) := fun _ ↦ rfl

theorem Keeps.modify {g : σ → σ} (hg : ∀ s, view (g s) = view s) :
    Keeps view (modify g : Proc ε σ Unit) := hg

theorem Keeps.update {g : σ → σ × α} (hg : ∀ s, view (g s).1 = view s) :
    Keeps view (update g : Proc ε σ α) := hg

theorem Keeps.zoom {υ : Type} {part : σ → υ} {put : σ → υ → σ} {x : Proc ε υ α}
    (hput : ∀ s t, view (put s t) = view s) : Keeps view (zoom part put x) := fun _ ↦ hput _ _

theorem Keeps.ite {p : Prop} [Decidable p] {x y : Proc ε σ α} (hx : Keeps view x)
    (hy : Keeps view y) : Keeps view (if p then x else y) := by
  split
  · exact hx
  · exact hy

/-- What can be seen of a part that is left alone. -/
theorem Keeps.comp {υ : Type} {x : Proc ε σ α} (hx : Keeps view x) (g : τ → υ) :
    Keeps (fun s ↦ g (view s)) x := fun s ↦ congrArg g (hx s)

end Keeps

/-! ## Predicates that are kept -/

/-- The predicate `I` holds afterwards if it held before, whatever the outcome. -/
def Preserves (I : σ → Prop) (x : Proc ε σ α) : Prop := ∀ s, I s → I (x s).1

section Preserves

variable {I : σ → Prop}

theorem Preserves.bind {x : Proc ε σ α} {f : α → Proc ε σ β} (hx : Preserves I x)
    (hf : ∀ a, Preserves I (f a)) : Preserves I (x >>= f) := by
  intro s hs
  have h := hx s hs
  rcases hxs : x s with ⟨s', e | a⟩
  · rw [hxs] at h
    rw [bind_error hxs]
    exact h
  · rw [hxs] at h
    rw [bind_ok hxs]
    exact hf a s' h

theorem Preserves.pure (a : α) : Preserves I (pure a : Proc ε σ α) := fun _ h ↦ h

theorem Preserves.fail (e : ε) : Preserves I (fail e : Proc ε σ α) := fun _ h ↦ h

theorem Preserves.get : Preserves I (get : Proc ε σ σ) := fun _ h ↦ h

theorem Preserves.ofExcept (r : Except ε α) : Preserves I (ofExcept r : Proc ε σ α) := fun _ h ↦ h

theorem Preserves.modify {g : σ → σ} (hg : ∀ s, I s → I (g s)) :
    Preserves I (modify g : Proc ε σ Unit) := hg

theorem Preserves.update {g : σ → σ × α} (hg : ∀ s, I s → I (g s).1) :
    Preserves I (update g : Proc ε σ α) := hg

theorem Preserves.ite {p : Prop} [Decidable p] {x y : Proc ε σ α} (hx : Preserves I x)
    (hy : Preserves I y) : Preserves I (if p then x else y) := by
  split
  · exact hx
  · exact hy

/-- A predicate about a part of the state that is left alone. -/
theorem Keeps.preserves {view : σ → τ} {x : Proc ε σ α} (hx : Keeps view x)
    (hI : ∀ s s', view s' = view s → I s → I s') : Preserves I x :=
  fun s hs ↦ hI s _ (hx s) hs

end Preserves

/-! ## Faults that do not occur -/

/-- The computation never ends with the fault `e`. -/
def Avoids (e : ε) (x : Proc ε σ α) : Prop := ∀ s, (x s).2 ≠ .error e

section Avoids

variable {e : ε}

/-- The second stage runs on what the first one has returned, in the state it has left. -/
theorem Avoids.bind_of_ok {x : Proc ε σ α} {f : α → Proc ε σ β} (hx : Avoids e x)
    (hf : ∀ s s' a, x s = (s', .ok a) → (f a s').2 ≠ .error e) : Avoids e (x >>= f) := by
  intro s
  rcases hxs : x s with ⟨s', e' | a⟩
  · rw [bind_error hxs]
    have h := hx s
    rw [hxs] at h
    intro he
    exact h (congrArg Except.error (Except.error.inj he))
  · rw [bind_ok hxs]
    exact hf s s' a hxs

theorem Avoids.bind {x : Proc ε σ α} {f : α → Proc ε σ β} (hx : Avoids e x)
    (hf : ∀ a, Avoids e (f a)) : Avoids e (x >>= f) :=
  hx.bind_of_ok fun _ s' a _ ↦ hf a s'

theorem Avoids.pure (a : α) : Avoids e (pure a : Proc ε σ α) := fun _ h ↦ by cases h

theorem Avoids.get : Avoids e (get : Proc ε σ σ) := fun _ h ↦ by cases h

theorem Avoids.modify (f : σ → σ) : Avoids e (modify f : Proc ε σ Unit) := fun _ h ↦ by cases h

theorem Avoids.update (f : σ → σ × α) : Avoids e (update f : Proc ε σ α) := fun _ h ↦ by cases h

theorem Avoids.fail {e' : ε} (h : e' ≠ e) : Avoids e (fail e' : Proc ε σ α) :=
  fun _ he ↦ h (Except.error.inj he)

theorem Avoids.ofExcept {r : Except ε α} (h : r ≠ .error e) :
    Avoids e (ofExcept r : Proc ε σ α) := fun _ ↦ h

theorem Avoids.zoom {τ : Type} {part : σ → τ} {put : σ → τ → σ} {x : Proc ε τ α}
    (h : Avoids e x) : Avoids e (zoom part put x) := fun s ↦ h (part s)

theorem Avoids.ite {p : Prop} [Decidable p] {x y : Proc ε σ α} (hx : Avoids e x)
    (hy : Avoids e y) : Avoids e (if p then x else y) := by
  split
  · exact hx
  · exact hy

end Avoids

/-! ## What a computation does not look at -/

/-- A change `f` of the state passes through: the computation neither sees it nor undoes it. -/
def Commutes (f : σ → σ) (x : Proc ε σ α) : Prop := ∀ s, x (f s) = (f (x s).1, (x s).2)

section Commutes

variable {f : σ → σ}

theorem Commutes.bind {x : Proc ε σ α} {g : α → Proc ε σ β} (hx : Commutes f x)
    (hg : ∀ a, Commutes f (g a)) : Commutes f (x >>= g) := by
  intro s
  have h := hx s
  rcases hxs : x s with ⟨s', e | a⟩
  · rw [hxs] at h
    rw [bind_error h, bind_error hxs]
  · rw [hxs] at h
    rw [bind_ok h, bind_ok hxs]
    exact hg a s'

theorem Commutes.get_bind {g : σ → Proc ε σ β} (hg : ∀ s, g (f s) = g s)
    (h : ∀ s, Commutes f (g s)) : Commutes f (get >>= g) := by
  intro s
  rw [Proc.get_bind, Proc.get_bind, hg]
  exact h s s

theorem Commutes.pure (a : α) : Commutes f (pure a : Proc ε σ α) := fun _ ↦ rfl

theorem Commutes.fail (e : ε) : Commutes f (fail e : Proc ε σ α) := fun _ ↦ rfl

theorem Commutes.ofExcept (r : Except ε α) : Commutes f (ofExcept r : Proc ε σ α) := fun _ ↦ rfl

theorem Commutes.modify {g : σ → σ} (hg : ∀ s, g (f s) = f (g s)) :
    Commutes f (modify g : Proc ε σ Unit) := by
  intro s
  rw [modify_apply, modify_apply, hg]

theorem Commutes.update {g : σ → σ × α} (hg : ∀ s, g (f s) = (f (g s).1, (g s).2)) :
    Commutes f (update g : Proc ε σ α) := by
  intro s
  rw [update_apply, update_apply, hg]

theorem Commutes.zoom {υ : Type} {part : σ → υ} {put : σ → υ → σ} {x : Proc ε υ α}
    (hpart : ∀ s, part (f s) = part s) (hput : ∀ s t, put (f s) t = f (put s t)) :
    Commutes f (zoom part put x) := by
  intro s
  rw [zoom_apply, zoom_apply, hpart, hput]

theorem Commutes.ite {p : Prop} [Decidable p] {x y : Proc ε σ α} (hx : Commutes f x)
    (hy : Commutes f y) : Commutes f (if p then x else y) := by
  split
  · exact hx
  · exact hy

end Commutes

end Proc

import Ragnet.Lib.Proc

/-!
# Two runs side by side

`Proc.Coupled P E Q x y` relates the runs of two computations from states related by `P`: both
return, with values and states related by `Q`, or both fail with the same fault, in states related
by `E`.  Couplings compose along `bind`.  A computation that is coupled with itself under a relation
`R`, and returns the same on both sides, does not tell states that `R` relates apart; this is
`Proc.Blind R x`.
-/

namespace Proc

variable {ε σ τ α β γ δ : Type}

/-- Two runs have ended alike. -/
inductive EndAlike (E : σ → τ → Prop) (Q : α → β → σ → τ → Prop) :
    σ × Except ε α → τ × Except ε β → Prop
  /-- Both have returned. -/
  | ok {a : α} {b : β} {s : σ} {t : τ} : Q a b s t → EndAlike E Q (s, .ok a) (t, .ok b)
  /-- Both have failed with the same fault. -/
  | error {e : ε} {s : σ} {t : τ} : E s t → EndAlike E Q (s, .error e) (t, .error e)

/-- The runs from related states end alike. -/
def Coupled (P E : σ → τ → Prop) (Q : α → β → σ → τ → Prop) (x : Proc ε σ α) (y : Proc ε τ β) :
    Prop := ∀ s t, P s t → EndAlike E Q (x s) (y t)

variable {P R E : σ → τ → Prop} {Q : α → β → σ → τ → Prop} {Q' : γ → δ → σ → τ → Prop}

theorem EndAlike.mono {Q₁ : α → β → σ → τ → Prop} {u : σ × Except ε α} {v : τ × Except ε β}
    (h : EndAlike E Q u v) (hQ : ∀ a b s t, Q a b s t → Q₁ a b s t) : EndAlike E Q₁ u v := by
  cases h with
  | ok h => exact .ok (hQ _ _ _ _ h)
  | error h => exact .error h

/-- Runs whose first stages end alike, and whose second stages do from there. -/
theorem EndAlike.bind {x : Proc ε σ α} {y : Proc ε τ β} {f : α → Proc ε σ γ}
    {g : β → Proc ε τ δ} {s : σ} {t : τ} (hx : EndAlike E Q (x s) (y t))
    (hf : ∀ a b, Coupled (Q a b) E Q' (f a) (g b)) :
    EndAlike E Q' ((x >>= f) s) ((y >>= g) t) := by
  rw [bind_apply, bind_apply]
  generalize x s = u at hx ⊢
  generalize y t = v at hx ⊢
  cases hx with
  | ok h => exact hf _ _ _ _ h
  | error h => exact .error h

/-- A first stage that is the same on both sides and does not touch the states. -/
theorem EndAlike.ofExcept_bind {r : Except ε α} {f : α → Proc ε σ γ} {g : α → Proc ε τ δ} {s : σ}
    {t : τ} (hE : E s t) (hf : ∀ a, EndAlike E Q' (f a s) (g a t)) :
    EndAlike E Q' ((ofExcept r >>= f) s) ((ofExcept r >>= g) t) := by
  cases r with
  | error e => exact .error hE
  | ok a => exact hf a

theorem Coupled.bind {x : Proc ε σ α} {y : Proc ε τ β} {f : α → Proc ε σ γ} {g : β → Proc ε τ δ}
    (hx : Coupled P E Q x y) (hf : ∀ a b, Coupled (Q a b) E Q' (f a) (g b)) :
    Coupled P E Q' (x >>= f) (y >>= g) :=
  fun s t h ↦ (hx s t h).bind hf

/-- First stages whose values are related whatever the states are. -/
theorem Coupled.after {S : α → β → Prop} {x : Proc ε σ α} {y : Proc ε τ β} {f : α → Proc ε σ γ}
    {g : β → Proc ε τ δ} (hx : Coupled P E (fun a b s t ↦ S a b ∧ R s t) x y)
    (hf : ∀ a b, S a b → Coupled R E Q' (f a) (g b)) : Coupled P E Q' (x >>= f) (y >>= g) :=
  hx.bind fun a b s t h ↦ hf a b h.1 s t h.2

theorem Coupled.bind_eq {x : Proc ε σ α} {y : Proc ε τ α} {f : α → Proc ε σ γ}
    {g : α → Proc ε τ δ} (hx : Coupled P E (fun a b s t ↦ a = b ∧ R s t) x y)
    (hf : ∀ a, Coupled R E Q' (f a) (g a)) : Coupled P E Q' (x >>= f) (y >>= g) := by
  refine hx.after ?_
  rintro a _ rfl
  exact hf a

theorem Coupled.ite {p : Prop} [Decidable p] {x x' : Proc ε σ α} {y y' : Proc ε τ β}
    (hx : Coupled P E Q x y) (hx' : Coupled P E Q x' y') :
    Coupled P E Q (if p then x else x') (if p then y else y') := by
  split
  · exact hx
  · exact hx'

/-- Runs on parts of the states. -/
theorem Coupled.zoom {σ' τ' : Type} {view : σ → σ'} {put : σ → σ' → σ} {view' : τ → τ'}
    {put' : τ → τ' → τ} {P' E' : σ' → τ' → Prop} {Q₁ : α → β → σ' → τ' → Prop}
    {x : Proc ε σ' α} {y : Proc ε τ' β} (hx : Coupled P' E' Q₁ x y)
    (hP : ∀ s t, P s t → P' (view s) (view' t))
    (hE : ∀ s t u v, P s t → E' u v → E (put s u) (put' t v))
    (hQ : ∀ a b s t u v, P s t → Q₁ a b u v → Q a b (put s u) (put' t v)) :
    Coupled P E Q (zoom view put x) (zoom view' put' y) := by
  intro s t h
  have hend := hx _ _ (hP s t h)
  rw [zoom_apply, zoom_apply]
  generalize x (view s) = u at hend ⊢
  generalize y (view' t) = v at hend ⊢
  cases hend with
  | ok hr => exact .ok (hQ _ _ _ _ _ _ h hr)
  | error he => exact .error (hE _ _ _ _ h he)

/-! ## Computations that do not tell related states apart -/

/-- From related states the computation returns the same and ends in related states, or it fails
with the same fault in related states. -/
def Blind (R : σ → σ → Prop) (x : Proc ε σ α) : Prop :=
  Coupled R R (fun a b s t ↦ a = b ∧ R s t) x x

section Blind

variable {R : σ → σ → Prop}

theorem Blind.result {x : Proc ε σ α} (hx : Blind R x) {s t : σ} (h : R s t) :
    (x s).2 = (x t).2 ∧ R (x s).1 (x t).1 := by
  have hend := hx s t h
  generalize x s = u at hend ⊢
  generalize x t = v at hend ⊢
  cases hend with
  | ok hr => exact ⟨congrArg Except.ok hr.1, hr.2⟩
  | error he => exact ⟨rfl, he⟩

theorem Blind.bind {x : Proc ε σ β} {f : β → Proc ε σ α} (hx : Blind R x)
    (hf : ∀ a, Blind R (f a)) : Blind R (x >>= f) := Coupled.bind_eq hx hf

theorem Blind.pure (a : α) : Blind R (pure a : Proc ε σ α) := fun _ _ h ↦ .ok ⟨rfl, h⟩

theorem Blind.fail (e : ε) : Blind R (fail e : Proc ε σ α) := fun _ _ h ↦ .error h

theorem Blind.ofExcept (r : Except ε α) : Blind R (ofExcept r : Proc ε σ α) := by
  intro s t h
  cases r with
  | error e => exact .error h
  | ok a => exact .ok ⟨rfl, h⟩

theorem Blind.modify {g : σ → σ} (hg : ∀ s t, R s t → R (g s) (g t)) :
    Blind R (modify g : Proc ε σ Unit) := fun _ _ h ↦ .ok ⟨rfl, hg _ _ h⟩

theorem Blind.ite {p : Prop} [Decidable p] {x y : Proc ε σ α} (hx : Blind R x) (hy : Blind R y) :
    Blind R (if p then x else y) := Coupled.ite hx hy

/-- States that a view does not tell apart are not told apart by a computation that the view passes
through. -/
theorem Commutes.blind {view : σ → σ} {x : Proc ε σ α} (hx : Commutes view x) :
    Blind (fun s t ↦ view s = view t) x := by
  intro s t h
  have hs : (view (x s).1, (x s).2) = (view (x t).1, (x t).2) := by rw [← hx s, ← hx t, h]
  obtain ⟨hview, hresult⟩ := Prod.mk.inj hs
  generalize x s = u at hview hresult ⊢
  generalize x t = v at hview hresult ⊢
  obtain ⟨u, e | a⟩ := u
  · obtain ⟨v, e' | b⟩ := v
    · obtain rfl := Except.error.inj hresult
      exact .error hview
    · cases hresult
  · obtain ⟨v, e' | b⟩ := v
    · cases hresult
    · exact .ok ⟨Except.ok.inj hresult, hview⟩

end Blind

end Proc

import Mathlib.Data.Nat.Bitwise

/-!
# Fixed-width arithmetic and indexing that can panic

An operation on machine integers or slices either returns or panics, and a method that returns a
`Result` can also end with an error value.  `Fault ε` tells the two apart.  Unsigned subtraction
depends on how the program is built: a debug build panics on underflow, a release build wraps.
-/

universe u

/-- The way a call can fail to return a value: an error value of the program, or a panic. -/
inductive Fault (ε : Type u) where
  | error (e : ε)
  | panic
deriving DecidableEq, Repr

/-- Whether arithmetic overflow is checked. -/
inductive Build where
  /-- Overflow panics. -/
  | debug
  /-- Overflow wraps around. -/
  | release
deriving DecidableEq, Repr

namespace Checked

variable {ε α β : Type}

/-- A first stage that returns hands its value on. -/
@[simp] theorem ok_bind (a : α) (f : α → Except ε β) : (Except.ok a >>= f) = f a := rfl

/-- A first stage that fails ends the whole computation. -/
@[simp] theorem error_bind (e : ε) (f : α → Except ε β) :
    (Except.error e >>= f) = Except.error e := rfl

/-- Whether two failed calls fail alike does not depend on what they would return. -/
theorem error_eq_iff {e e' : ε} :
    (.error e : Except ε α) = .error e' ↔ (.error e : Except ε β) = .error e' := by
  rw [Except.error.injEq, Except.error.injEq]

/-- `a - b` on `w`-bit unsigned integers. -/
def sub (build : Build) (w a b : Nat) : Except (Fault ε) Nat :=
  if b ≤ a then .ok (a - b)
  else match build with
    | .debug => .error .panic
    | .release => .ok (2 ^ w + a - b)

/-- `a + b` on `w`-bit unsigned integers. -/
def add (build : Build) (w a b : Nat) : Except (Fault ε) Nat :=
  if a + b < 2 ^ w then .ok (a + b)
  else match build with
    | .debug => .error .panic
    | .release => .ok ((a + b) % 2 ^ w)

/-- `xs[i]`, which panics out of range. -/
def index (xs : List α) (i : Nat) : Except (Fault ε) α :=
  match xs[i]? with
  | some x => .ok x
  | none => .error .panic

/-- `&xs[i..]`, which panics when `i` is past the end. -/
def sliceFrom (xs : List α) (i : Nat) : Except (Fault ε) (List α) :=
  if i ≤ xs.length then .ok (xs.drop i) else .error .panic

/-- `&xs[..i]`, which panics when `i` is past the end. -/
def sliceTo (xs : List α) (i : Nat) : Except (Fault ε) (List α) :=
  if i ≤ xs.length then .ok (xs.take i) else .error .panic

@[simp] theorem sub_of_le (build : Build) (w : Nat) {a b : Nat} (h : b ≤ a) :
    (sub build w a b : Except (Fault ε) Nat) = .ok (a - b) := if_pos h

/-- Subtraction never ends with an error value. -/
theorem sub_ne_error (build : Build) (w a b : Nat) (e : ε) :
    (sub build w a b : Except (Fault ε) Nat) ≠ .error (.error e) := by
  unfold sub
  split
  · simp
  · cases build <;> simp

/-- A debug build panics exactly on underflow. -/
theorem sub_panics_iff {w a b : Nat} :
    (sub .debug w a b : Except (Fault ε) Nat) = .error .panic ↔ a < b := by
  unfold sub
  split
  · next h => exact iff_of_false (fun he ↦ by cases he) (Nat.not_lt_of_le h)
  · next h => exact iff_of_true rfl (Nat.lt_of_not_le h)

@[simp] theorem add_of_lt (build : Build) (w : Nat) {a b : Nat} (h : a + b < 2 ^ w) :
    (add build w a b : Except (Fault ε) Nat) = .ok (a + b) := if_pos h

theorem index_of_getElem? {xs : List α} {i : Nat} {x : α} (h : xs[i]? = some x) :
    (index xs i : Except (Fault ε) α) = .ok x := by
  rw [index, h]

@[simp] theorem index_of_lt {xs : List α} {i : Nat} (h : i < xs.length) :
    (index xs i : Except (Fault ε) α) = .ok xs[i] := by
  simp [index, List.getElem?_eq_getElem h]

@[simp] theorem sliceFrom_of_le {xs : List α} {i : Nat} (h : i ≤ xs.length) :
    (sliceFrom xs i : Except (Fault ε) (List α)) = .ok (xs.drop i) := if_pos h

@[simp] theorem sliceTo_of_le {xs : List α} {i : Nat} (h : i ≤ xs.length) :
    (sliceTo xs i : Except (Fault ε) (List α)) = .ok (xs.take i) := if_pos h

/-! ## Calls that do not panic -/

/-- The call ends with a value or with an error value. -/
def NoPanic (r : Except (Fault ε) α) : Prop := r ≠ .error .panic

namespace NoPanic

theorem ok (a : α) : NoPanic (.ok a : Except (Fault ε) α) := fun h ↦ by cases h

theorem error (e : ε) : NoPanic (.error (.error e) : Except (Fault ε) α) := fun h ↦ by cases h

/-- A second stage only runs on what the first one returns. -/
theorem bind {x : Except (Fault ε) α} {f : α → Except (Fault ε) β} (hx : NoPanic x)
    (hf : ∀ a, x = .ok a → NoPanic (f a)) : NoPanic (x >>= f) := by
  cases x with
  | error e =>
      exact fun h ↦ hx (error_eq_iff.mp h)
  | ok a => exact hf a rfl

theorem map {x : Except (Fault ε) α} (f : α → β) (hx : NoPanic x) : NoPanic (f <$> x) := by
  cases x with
  | error e =>
      exact fun h ↦ hx (error_eq_iff.mp h)
  | ok a => exact ok (f a)

/-- The check in front of a call. -/
theorem ite {p : Prop} [Decidable p] {x y : Except (Fault ε) α} (hx : p → NoPanic x)
    (hy : ¬ p → NoPanic y) : NoPanic (if p then x else y) := by
  split
  · next h => exact hx h
  · next h => exact hy h

theorem index {xs : List α} {i : Nat} (h : i < xs.length) :
    NoPanic (Checked.index xs i : Except (Fault ε) α) := by
  rw [index_of_lt h]
  exact ok _

theorem sliceFrom {xs : List α} {i : Nat} (h : i ≤ xs.length) :
    NoPanic (Checked.sliceFrom xs i : Except (Fault ε) (List α)) := by
  rw [sliceFrom_of_le h]
  exact ok _

theorem sub (build : Build) (w : Nat) {a b : Nat} (h : b ≤ a) :
    NoPanic (Checked.sub build w a b : Except (Fault ε) Nat) := by
  rw [sub_of_le build w h]
  exact ok _

/-- A release build wraps around. -/
theorem sub_release (w a b : Nat) :
    NoPanic (Checked.sub .release w a b : Except (Fault ε) Nat) := by
  unfold Checked.sub
  split <;> exact ok _

end NoPanic

/-! ## Calls that do not end with an error value -/

/-- The call does not end with this error value. -/
def Avoids (e : ε) (r : Except (Fault ε) α) : Prop := r ≠ .error (.error e)

namespace Avoids

variable {e : ε}

theorem ok (a : α) : Avoids e (.ok a) := fun h ↦ by cases h

theorem error {e' : ε} (h : e' ≠ e) : Avoids e (.error (.error e') : Except (Fault ε) α) :=
  fun he ↦ h (Fault.error.inj (Except.error.inj he))

theorem bind {x : Except (Fault ε) α} {f : α → Except (Fault ε) β} (hx : Avoids e x)
    (hf : ∀ a, Avoids e (f a)) : Avoids e (x >>= f) := by
  cases x with
  | error e' =>
      exact fun h ↦ hx (error_eq_iff.mp h)
  | ok a => exact hf a

theorem ite {p : Prop} [Decidable p] {x y : Except (Fault ε) α} (hx : Avoids e x)
    (hy : Avoids e y) : Avoids e (if p then x else y) := by
  split
  · exact hx
  · exact hy

theorem index (xs : List α) (i : Nat) : Avoids e (Checked.index xs i) := by
  intro h
  rw [Checked.index] at h
  split at h
  · cases h
  · cases h

end Avoids

end Checked

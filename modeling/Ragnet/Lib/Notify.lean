import Mathlib.Order.Basic

/-!
# Notifications without a permit

A `Notify` that is used through `notify_waiters` alone: a call wakes the futures that exist at that
time, and nothing is stored for those that are made later.  So it is enough to count the calls, and
for a future to remember the count at which it was made.
-/

/-- How often `notify_waiters` has been called. -/
structure Notify where
  calls : Nat
deriving DecidableEq

/-- A future that waits for a notification: the count at which it was made. -/
structure Notified where
  since : Nat
deriving DecidableEq

namespace Notify

/-- Nobody has been notified. -/
def new : Notify := ⟨0⟩

/-- Make a future. -/
def notified (self : Notify) : Notified := ⟨self.calls⟩

/-- Wake the futures that exist. -/
def notifyWaiters (self : Notify) : Notify := ⟨self.calls + 1⟩

end Notify

namespace Notified

variable {future : Notified} {n : Notify}

/-- The future has been made. -/
def Exists (self : Notified) (n : Notify) : Prop := self.since ≤ n.calls

/-- The future has been woken. -/
def Ready (self : Notified) (n : Notify) : Prop := self.since < n.calls

instance (self : Notified) (n : Notify) : Decidable (self.Ready n) :=
  inferInstanceAs (Decidable (_ < _))

theorem exists_notified (n : Notify) : n.notified.Exists n := Nat.le_refl n.calls

theorem Exists.notifyWaiters (h : future.Exists n) : future.Exists n.notifyWaiters :=
  Nat.le_succ_of_le h

/-- A call wakes every future that exists. -/
theorem Exists.ready (h : future.Exists n) : future.Ready n.notifyWaiters := Nat.lt_succ_of_le h

/-- A future that is made after the last call waits for the next one. -/
theorem not_ready_notified (n : Notify) : ¬ n.notified.Ready n := Nat.lt_irrefl n.calls

end Notified

import Ragnet.Lib.Ledger

/-!
# Receipts

The other end of a ledger.  A receiver takes in items and gives receipts for their numbers, and the
sender acknowledges a number when it gets a receipt for it.  A receipt is *good* when the number has
been used and everything that went out under it has been taken in.  It stays good as long as numbers
are not used twice and the receiver keeps what it has.

If all acknowledgements rest on good receipts, an item leaves the table of the sender only after the
receiver has taken it in.
-/

universe u v w

namespace Ledger

variable {ι : Type u} {π : Type v} {κ : Type w} {id : π → κ} {t t' : List (Event ι π)}
  {received received' : π → Prop} {s : ι} {x : π}

/-- The number has been used, and everything that went out under it has been received. -/
def Good (t : List (Event ι π)) (received : π → Prop) (s : ι) : Prop :=
  s ∈ numbers t ∧ ∀ x, .emit s x ∈ t → received x

/-- Every number acknowledged has a good receipt. -/
def Honest (t : List (Event ι π)) (received : π → Prop) : Prop :=
  ∀ s, .acked s ∈ t → Good t received s

theorem Good.mono (h : Good t received s) (hr : ∀ x, received x → received' x) :
    Good t received' s :=
  ⟨h.1, fun x hx ↦ hr x (h.2 x hx)⟩

/-- Before and after a number there is no second use of it. -/
theorem emit_mem_extend (hp : t <+: t') (hn : (numbers t').Nodup) (hs : s ∈ numbers t)
    (hx : .emit s x ∈ t') : .emit s x ∈ t := by
  obtain ⟨after, rfl⟩ := hp
  rw [numbers_append] at hn
  refine (List.mem_append.mp hx).resolve_right fun hafter ↦ ?_
  exact List.disjoint_of_nodup_append hn hs (mem_numbers.mpr ⟨x, hafter⟩)

/-- Under one number goes one item. -/
theorem emit_unique {y : π} (hn : (numbers t).Nodup) (hx : .emit s x ∈ t) (hy : .emit s y ∈ t) :
    x = y := by
  obtain ⟨before, after, rfl⟩ := List.append_of_mem hx
  have hsplit : before ++ .emit s x :: after = (before ++ [.emit s x]) ++ after := by simp
  rw [hsplit] at hn hy
  have hused : s ∈ numbers (before ++ [.emit s x]) := mem_numbers.mpr ⟨x, by simp⟩
  -- the other emission is not behind this one, nor before it
  have hy' := emit_mem_extend (List.prefix_append _ after) hn hused hy
  rw [numbers_append] at hn
  have hbefore := (List.nodup_append.mp hn).1
  rcases List.mem_append.mp hy' with hy' | hy'
  · rw [numbers_append] at hbefore
    refine absurd (mem_numbers.mpr ⟨x, List.mem_singleton.mpr rfl⟩)
      (List.disjoint_of_nodup_append hbefore (mem_numbers.mpr ⟨y, hy'⟩))
  · exact (Event.emit.inj (List.mem_singleton.mp hy')).2.symm

/-- A receipt for one item that has arrived is good. -/
theorem Good.of_emit (hn : (numbers t).Nodup) (hx : .emit s x ∈ t) (hr : received x) :
    Good t received s :=
  ⟨mem_numbers.mpr ⟨x, hx⟩, fun _ hy ↦ emit_unique hn hx hy ▸ hr⟩

/-- What happens later does not spoil a receipt, while no number is used twice. -/
theorem Good.extend (h : Good t received s) (hp : t <+: t') (hn : (numbers t').Nodup) :
    Good t' received s := by
  refine ⟨?_, fun x hx ↦ h.2 x (emit_mem_extend hp hn h.1 hx)⟩
  obtain ⟨after, rfl⟩ := hp
  rw [numbers_append]
  exact List.mem_append_left _ h.1

/-- It is enough that new acknowledgements have good receipts. -/
theorem Honest.extend (h : Honest t received) (hp : t <+: t') (hn : (numbers t').Nodup)
    (hr : ∀ x, received x → received' x)
    (hnew : ∀ s, .acked s ∈ t' → .acked s ∈ t ∨ Good t received' s) : Honest t' received' := by
  intro s hs
  rcases hnew s hs with hold | hgood
  · exact ((h s hold).mono hr).extend hp hn
  · exact hgood.extend hp hn

/-- **What is not tracked has been received.**  An item that has been emitted and that the table
does not hold has arrived. -/
theorem Tracks.arrived {T : ι → Option π} (h : Tracks id T t) (hh : Honest t received)
    (hx : .emit s x ∈ t) (hnone : ∀ r, T r ≠ some x) : received x := by
  obtain ⟨latest, after, hlast, hiff⟩ := h.latest hx
  have hacked : .acked latest ∈ after := by
    by_contra hack
    exact hnone latest ((hiff latest x rfl).mpr ⟨rfl, rfl, hack⟩)
  obtain ⟨⟨before, rfl⟩, -⟩ := hlast
  have hmem : .acked latest ∈ before ++ .emit latest x :: after :=
    List.mem_append_right _ (List.mem_cons_of_mem _ hacked)
  exact (hh latest hmem).2 x (List.mem_append_right _ List.mem_cons_self)

end Ledger

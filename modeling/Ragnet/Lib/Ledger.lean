import Mathlib.Data.List.Induction
import Mathlib.Data.List.Nodup

/-!
# Reissuing items under fresh numbers

A sender that retransmits gives an item a new number each time it sends it, and keeps a table from
the number to the item until the number is acknowledged.  The history of such a sender is a list of
events: an item is emitted under a number, or a number is acknowledged.

An item is *outstanding* under a number when its most recent emission carries this number and the
number has not been acknowledged since.  This reads off the history alone, and `Tracks` says that
the table holds exactly what is outstanding.  Three operations keep it: a new item under a fresh
number, a tracked item under a fresh number, and the removal of a number.

Items are told apart by a key, `id : π → κ`.
-/

universe u v w

namespace Ledger

/-- What happens to the numbers of a sender. -/
inductive Event (ι : Type u) (π : Type v) where
  /-- The item is sent under the number. -/
  | emit (seq : ι) (item : π)
  /-- The number is acknowledged. -/
  | acked (seq : ι)
deriving DecidableEq

variable {ι : Type u} {π : Type v} {κ : Type w} {id : π → κ} {t : List (Event ι π)}
  {s r : ι} {x y : π}

def numbers : List (Event ι π) → List ι
  | [] => []
  | .emit seq _ :: t => seq :: numbers t
  | .acked _ :: t => numbers t

@[simp] theorem numbers_append (t t' : List (Event ι π)) :
    numbers (t ++ t') = numbers t ++ numbers t' := by
  induction t with
  | nil => rfl
  | cons e t ih =>
      cases e with
      | emit seq item => rw [List.cons_append, numbers, numbers, ih, List.cons_append]
      | acked seq => rw [List.cons_append, numbers, numbers, ih]

theorem mem_numbers : s ∈ numbers t ↔ ∃ x, Event.emit s x ∈ t := by
  induction t with
  | nil => simp [numbers]
  | cons e t ih =>
      cases e with
      | emit seq item =>
          simp only [numbers, List.mem_cons, ih, Event.emit.injEq]
          constructor
          · rintro (rfl | ⟨x, hx⟩)
            · exact ⟨item, Or.inl ⟨rfl, rfl⟩⟩
            · exact ⟨x, Or.inr hx⟩
          · rintro ⟨x, ⟨rfl, -⟩ | hx⟩
            · exact Or.inl rfl
            · exact Or.inr ⟨x, hx⟩
      | acked seq => simp [numbers, ih]

/-- The history `t` splits at the most recent emission of the item: it carries the number, and
`after` is what has happened since. -/
def LastEmission (id : π → κ) (t : List (Event ι π)) (s : ι) (x : π) (after : List (Event ι π)) :
    Prop :=
  (∃ before, t = before ++ .emit s x :: after) ∧ ∀ r y, .emit r y ∈ after → id y ≠ id x

/-- The item's most recent emission carries the number, which has not been acknowledged since. -/
def Outstanding (id : π → κ) (t : List (Event ι π)) (s : ι) (x : π) : Prop :=
  ∃ after, LastEmission id t s x after ∧ .acked s ∉ after

/-! ## The most recent emission -/

theorem LastEmission.mem {after : List (Event ι π)} (h : LastEmission id t s x after) :
    .emit s x ∈ t := by
  obtain ⟨⟨before, rfl⟩, -⟩ := h
  simp

/-- An emission that is not before another one of its item is this one. -/
private theorem eq_of_append_eq {mid after after' : List (Event ι π)}
    (heq : .emit s x :: after = mid ++ .emit r y :: after') (hid : id x = id y)
    (hlast : ∀ r y, .emit r y ∈ after → id y ≠ id x) : s = r ∧ x = y ∧ after = after' := by
  cases mid with
  | nil =>
      obtain ⟨he, rfl⟩ := List.cons.inj heq
      obtain ⟨rfl, rfl⟩ := Event.emit.inj he
      exact ⟨rfl, rfl, rfl⟩
  | cons e mid =>
      obtain ⟨-, rfl⟩ := List.cons.inj heq
      exact absurd hid.symm (hlast r y (by simp))

/-- There is only one most recent emission of an item. -/
theorem LastEmission.unique {after after' : List (Event ι π)} (h : LastEmission id t s x after)
    (h' : LastEmission id t r y after') (hid : id x = id y) :
    s = r ∧ x = y ∧ after = after' := by
  obtain ⟨⟨before, rfl⟩, hlast⟩ := h
  obtain ⟨⟨before', heq⟩, hlast'⟩ := h'
  -- neither emission lies behind the other
  rcases List.append_eq_append_iff.mp heq with ⟨mid, -, hm⟩ | ⟨mid, -, hm⟩
  · exact eq_of_append_eq hm hid hlast
  · obtain ⟨rfl, rfl, rfl⟩ := eq_of_append_eq hm hid.symm hlast'
    exact ⟨rfl, rfl, rfl⟩

/-- An item that was emitted has a most recent emission. -/
theorem exists_lastEmission (h : .emit s x ∈ t) :
    ∃ r y after, LastEmission id t r y after ∧ id y = id x := by
  induction t using List.reverseRecOn with
  | nil => exact absurd h List.not_mem_nil
  | append_singleton t e ih =>
      rcases List.mem_append.mp h with h | h
      · obtain ⟨r, y, after, ⟨⟨before, rfl⟩, hlast⟩, hid⟩ := ih h
        by_cases he : ∃ r' y', e = .emit r' y' ∧ id y' = id x
        · obtain ⟨r', y', rfl, hid'⟩ := he
          exact ⟨r', y', [], ⟨⟨_, rfl⟩, by simp⟩, hid'⟩
        · refine ⟨r, y, after ++ [e], ⟨⟨before, by simp⟩, fun r' y' hm ↦ ?_⟩, hid⟩
          rcases List.mem_append.mp hm with hm | hm
          · exact hlast r' y' hm
          · intro hid'
            exact he ⟨r', y', (List.mem_singleton.mp hm).symm, hid'.trans hid⟩
      · rw [← List.mem_singleton.mp h]
        exact ⟨s, x, [], ⟨⟨t, rfl⟩, by simp⟩, rfl⟩

/-! ## What is outstanding after one more event -/

theorem Outstanding.mem (h : Outstanding id t s x) : .emit s x ∈ t := by
  obtain ⟨after, hl, -⟩ := h
  exact hl.mem

/-- An item is outstanding under one number. -/
theorem Outstanding.unique (h : Outstanding id t s x) (h' : Outstanding id t r y)
    (hid : id x = id y) : s = r ∧ x = y := by
  obtain ⟨after, hl, -⟩ := h
  obtain ⟨after', hl', -⟩ := h'
  obtain ⟨hs, hx, -⟩ := hl.unique hl' hid
  exact ⟨hs, hx⟩

theorem lastEmission_append_singleton {e : Event ι π} {after : List (Event ι π)} :
    LastEmission id (t ++ [e]) s x after ↔
      (e = .emit s x ∧ after = []) ∨
        ∃ after', after = after' ++ [e] ∧ LastEmission id t s x after' ∧
          ∀ r y, e = .emit r y → id y ≠ id x := by
  constructor
  · rintro ⟨⟨before, heq⟩, hlast⟩
    rcases List.eq_nil_or_concat after with rfl | ⟨after', e', rfl⟩
    · obtain ⟨-, he⟩ := List.append_inj' heq rfl
      exact Or.inl ⟨(List.cons.inj he).1, rfl⟩
    · rw [List.concat_eq_append, ← List.cons_append, ← List.append_assoc] at heq
      obtain ⟨ht, he⟩ := List.append_inj' heq rfl
      obtain ⟨rfl, -⟩ := List.cons.inj he
      refine Or.inr ⟨after', List.concat_eq_append, ⟨⟨before, ht⟩, fun r y hm ↦ ?_⟩, ?_⟩
      · exact hlast r y (by rw [List.concat_eq_append]; exact List.mem_append_left _ hm)
      · rintro r y rfl
        exact hlast r y (by simp)
  · rintro (⟨rfl, rfl⟩ | ⟨after', rfl, ⟨⟨before, rfl⟩, hlast⟩, he⟩)
    · exact ⟨⟨t, rfl⟩, by simp⟩
    · refine ⟨⟨before, by simp⟩, fun r y hm ↦ ?_⟩
      rcases List.mem_append.mp hm with hm | hm
      · exact hlast r y hm
      · exact he r y (List.mem_singleton.mp hm).symm

theorem outstanding_emit :
    Outstanding id (t ++ [.emit s x]) r y ↔
      (r = s ∧ y = x) ∨ (id x ≠ id y ∧ Outstanding id t r y) := by
  constructor
  · rintro ⟨after, hl, hack⟩
    rcases lastEmission_append_singleton.mp hl with ⟨he, -⟩ | ⟨after', rfl, hl', hne⟩
    · obtain ⟨rfl, rfl⟩ := Event.emit.inj he
      exact Or.inl ⟨rfl, rfl⟩
    · exact Or.inr ⟨hne s x rfl, after', hl', fun hm ↦ hack (List.mem_append_left _ hm)⟩
  · rintro (⟨rfl, rfl⟩ | ⟨hne, after', hl', hack⟩)
    · exact ⟨[], lastEmission_append_singleton.mpr (Or.inl ⟨rfl, rfl⟩), List.not_mem_nil⟩
    · refine ⟨after' ++ [.emit s x], lastEmission_append_singleton.mpr
        (Or.inr ⟨after', rfl, hl', ?_⟩), ?_⟩
      · rintro r' y' he
        obtain ⟨-, rfl⟩ := Event.emit.inj he
        exact hne
      · simpa using hack

theorem outstanding_acked :
    Outstanding id (t ++ [.acked s]) r y ↔ r ≠ s ∧ Outstanding id t r y := by
  constructor
  · rintro ⟨after, hl, hack⟩
    rcases lastEmission_append_singleton.mp hl with ⟨he, -⟩ | ⟨after', rfl, hl', -⟩
    · cases he
    · refine ⟨?_, after', hl', fun hm ↦ hack (List.mem_append_left _ hm)⟩
      rintro rfl
      exact hack (by simp)
  · rintro ⟨hne, after', hl', hack⟩
    refine ⟨after' ++ [.acked s],
      lastEmission_append_singleton.mpr (Or.inr ⟨after', rfl, hl', fun r' y' he ↦ ?_⟩), ?_⟩
    · cases he
    · simpa [hack] using hne

/-! ## Tables that track the history -/

/-- The table `T` holds what is outstanding after the history `t`; no number is used twice, and all
emissions with one key are emissions of one item. -/
structure Tracks (id : π → κ) (T : ι → Option π) (t : List (Event ι π)) : Prop where
  /-- The table holds exactly what is outstanding. -/
  tracked_iff : ∀ s x, T s = some x ↔ Outstanding id t s x
  /-- No two emissions share a number. -/
  nodup : (numbers t).Nodup
  /-- The key determines the item. -/
  coherent : ∀ s r x y, .emit s x ∈ t → .emit r y ∈ t → id x = id y → x = y

/-- Before the first event the table is empty. -/
theorem Tracks.nil : Tracks id (fun _ ↦ none : ι → Option π) [] where
  tracked_iff := by
    intro s x
    constructor
    · intro h
      cases h
    · intro h
      exact absurd h.mem List.not_mem_nil
  nodup := List.nodup_nil
  coherent := fun s r x y h ↦ absurd h List.not_mem_nil

section Operations

variable {T T' : ι → Option π} (h : Tracks id T t)

include h

/-- Numbers stay distinct when a fresh one is used. -/
theorem Tracks.nodup_emit (hs : s ∉ numbers t) : (numbers (t ++ [.emit s x])).Nodup := by
  rw [numbers_append]
  exact h.nodup.append (List.nodup_singleton s) (by simpa [numbers] using hs)

/-- The key still determines the item when one goes out whose key only itself has. -/
theorem Tracks.coherent_emit (hx : ∀ r y, .emit r y ∈ t → id y = id x → y = x) (a b : ι)
    (y z : π) (hy' : .emit a y ∈ t ++ [.emit s x]) (hz' : .emit b z ∈ t ++ [.emit s x])
    (hid : id y = id z) : y = z := by
  rcases List.mem_append.mp hy' with hy | hy <;> rcases List.mem_append.mp hz' with hz | hz
  · exact h.coherent a b y z hy hz hid
  · obtain ⟨-, rfl⟩ := Event.emit.inj (List.mem_singleton.mp hz)
    exact hx a y hy hid
  · obtain ⟨-, rfl⟩ := Event.emit.inj (List.mem_singleton.mp hy)
    exact (hx b z hz hid.symm).symm
  · obtain ⟨-, rfl⟩ := Event.emit.inj (List.mem_singleton.mp hy)
    obtain ⟨-, rfl⟩ := Event.emit.inj (List.mem_singleton.mp hz)
    rfl

/-- A new item goes out under a fresh number. -/
theorem Tracks.issue [DecidableEq ι] (hs : s ∉ numbers t) (hx : ∀ r y, .emit r y ∈ t → id y ≠ id x)
    (hT : ∀ r, T' r = if r = s then some x else T r) : Tracks id T' (t ++ [.emit s x]) where
  tracked_iff := by
    intro r y
    rw [outstanding_emit, hT]
    constructor
    · intro hr
      split at hr
      · next hrs => exact Or.inl ⟨hrs, (Option.some.inj hr).symm⟩
      · have ho := (h.tracked_iff r y).mp hr
        exact Or.inr ⟨(hx r y ho.mem).symm, ho⟩
    · rintro (⟨rfl, rfl⟩ | ⟨-, ho⟩)
      · exact if_pos rfl
      · have hrs : r ≠ s := by
          rintro rfl
          exact hs (mem_numbers.mpr ⟨y, ho.mem⟩)
        rw [if_neg hrs]
        exact (h.tracked_iff r y).mpr ho
  nodup := h.nodup_emit hs
  coherent := h.coherent_emit fun r y hy hid ↦ absurd hid (hx r y hy)

/-- A tracked item goes out again under a fresh number, and its old number is forgotten. -/
theorem Tracks.reissue [DecidableEq ι] (ho : T r = some x) (hs : s ∉ numbers t)
    (hT : ∀ a, T' a = if a = s then some x else if a = r then none else T a) :
    Tracks id T' (t ++ [.emit s x]) where
  tracked_iff := by
    intro a y
    have hx := (h.tracked_iff r x).mp ho
    rw [outstanding_emit, hT]
    constructor
    · intro ha
      split at ha
      · next has => exact Or.inl ⟨has, (Option.some.inj ha).symm⟩
      · split at ha
        · cases ha
        · next har =>
          have hy := (h.tracked_iff a y).mp ha
          exact Or.inr ⟨fun hid ↦ har (hx.unique hy hid).1.symm, hy⟩
    · rintro (⟨rfl, rfl⟩ | ⟨hid, hy⟩)
      · exact if_pos rfl
      · have has : a ≠ s := by
          rintro rfl
          exact hs (mem_numbers.mpr ⟨y, hy.mem⟩)
        have hTa := (h.tracked_iff a y).mpr hy
        have har : a ≠ r := by
          rintro rfl
          rw [ho] at hTa
          exact hid (congrArg id (Option.some.inj hTa))
        rw [if_neg has, if_neg har]
        exact hTa
  nodup := h.nodup_emit hs
  coherent := h.coherent_emit fun a y hy hid ↦
    h.coherent a r y x hy ((h.tracked_iff r x).mp ho).mem hid

/-- An acknowledged number is forgotten. -/
theorem Tracks.acknowledge [DecidableEq ι] (hT : ∀ r, T' r = if r = s then none else T r) :
    Tracks id T' (t ++ [.acked s]) where
  tracked_iff := by
    intro r y
    rw [outstanding_acked, hT]
    split
    · next hrs => simp [hrs]
    · next hrs => simp [hrs, h.tracked_iff]
  nodup := by
    rw [numbers_append, numbers, numbers, List.append_nil]
    exact h.nodup
  coherent := by
    intro a b y z hy hz hid
    refine h.coherent a b y z ?_ ?_ hid
    · simpa using hy
    · simpa using hz

/-- Everything ever emitted is tracked under the number of its most recent emission and under no
other, unless this number has been acknowledged since; then it is not tracked at all. -/
theorem Tracks.latest (hx : .emit s x ∈ t) :
    ∃ latest after, LastEmission id t latest x after ∧
      ∀ r y, id y = id x → (T r = some y ↔ r = latest ∧ y = x ∧ .acked latest ∉ after) := by
  obtain ⟨latest, y, after, hl, hid⟩ := @exists_lastEmission _ _ _ id _ _ _ hx
  obtain rfl : y = x := h.coherent latest s y x hl.mem hx hid
  refine ⟨latest, after, hl, fun r z hz ↦ ?_⟩
  rw [h.tracked_iff]
  constructor
  · rintro ⟨after', hl', hack⟩
    obtain ⟨rfl, rfl, rfl⟩ := hl'.unique hl hz
    exact ⟨rfl, rfl, hack⟩
  · rintro ⟨rfl, rfl, hack⟩
    exact ⟨after, hl, hack⟩

end Operations

end Ledger

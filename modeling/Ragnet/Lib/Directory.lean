import Ragnet.Lib.Finmap

/-!
# Directories of owners

Owners come one after the other, each with a key, and a table maps a key to the owner that was
last entered under it.  An owner is closed first, and the entry of its key is removed later, whoever
owns it by then; and an owner that *expires* is closed and has the entry of its key removed once
more.  To *retire* an owner is to close it and to remove the entry at once.

A directory is sound when every open owner is the entry of its key, and whoever is about to remove
an entry is closed and finds its own one, or none.  Closing, retiring and removing keep it sound.  A
key may have a new owner exactly when nobody is about to remove its entry, and an owner may expire
exactly when it is open or the entry of its key is its own or gone.

Without new owners, entries only go and owners only close, so whoever goes through a list of all
entries and closes them leaves none open.
-/

universe u

structure Owner (κ : Type u) where
  key : κ
  isOpen : Bool
  /-- How many removals of the entry of its key are still to come. -/
  removals : Nat

/-- A directory: its owners in the order in which they came, and the table. -/
structure Directory (κ : Type u) where
  owners : List (Owner κ)
  table : HashMap κ Nat

namespace Owner

variable {κ : Type u} (owner : Owner κ)

def close : Owner κ :=
  if owner.isOpen then { owner with isOpen := false, removals := owner.removals + 1 } else owner

/-- Close it, and remove the entry of its key once more. -/
def expire : Owner κ := { owner.close with removals := owner.close.removals + 1 }

@[simp] theorem key_close : owner.close.key = owner.key := by
  rw [close]
  split
  · rfl
  · rfl

@[simp] theorem isOpen_close : owner.close.isOpen = false := by
  rw [close]
  split
  · rfl
  · next hclosed => exact Bool.eq_false_iff.mpr hclosed

@[simp] theorem key_expire : owner.expire.key = owner.key := owner.key_close

@[simp] theorem isOpen_expire : owner.expire.isOpen = false := owner.isOpen_close

theorem removals_expire_pos : 0 < owner.expire.removals := Nat.succ_pos _

end Owner

namespace Directory

variable {κ : Type u} {d d' : Directory κ} {key : κ} {i j : Nat} {owner : Owner κ}
  {f : Owner κ → Owner κ}

def empty : Directory κ := ⟨[], ∅⟩

def change (i : Nat) (f : Owner κ → Owner κ) (d : Directory κ) : Directory κ :=
  { d with owners := d.owners.modify i f }

/-- The owners after a change of one of them. -/
theorem getElem?_change (hi : d.owners[i]? = some owner) (f : Owner κ → Owner κ) (j : Nat) :
    (d.change i f).owners[j]? = if j = i then some (f owner) else d.owners[j]? := by
  rw [change, List.getElem?_modify]
  by_cases hj : j = i
  · subst hj
    rw [hi, if_pos rfl]
    change some (if j = j then f owner else owner) = _
    rw [if_pos rfl]
  · rw [if_neg hj]
    cases d.owners[j]? with
    | none => rfl
    | some other =>
        change some (if i = j then f other else other) = _
        rw [if_neg (Ne.symm hj)]

theorem change_of_none (hi : d.owners[i]? = none) : d.change i f = d := by
  rw [change, List.modify_eq_self (List.getElem?_eq_none_iff.mp hi)]

/-- The owners keep their keys. -/
theorem change_lasting (hf : ∀ owner, (f owner).key = owner.key)
    (hj : d.owners[j]? = some owner) :
    ∃ owner', (d.change i f).owners[j]? = some owner' ∧ owner'.key = owner.key := by
  cases hi : d.owners[i]? with
  | none => exact ⟨owner, by rwa [change_of_none hi], rfl⟩
  | some other =>
      rw [getElem?_change hi]
      split
      · next hji =>
        rw [hji, hi] at hj
        obtain rfl := Option.some.inj hj
        exact ⟨_, rfl, hf _⟩
      · exact ⟨owner, hj, rfl⟩

/-- There is no open owner at this place. -/
def ClosedAt (d : Directory κ) (i : Nat) : Prop :=
  ∀ owner, d.owners[i]? = some owner → owner.isOpen = false

theorem closedAt_close (d : Directory κ) (i : Nat) : (d.change i Owner.close).ClosedAt i := by
  intro owner ho
  cases hi : d.owners[i]? with
  | none =>
      rw [change_of_none hi, hi] at ho
      cases ho
  | some old =>
      rw [getElem?_change hi, if_pos rfl] at ho
      rw [← Option.some.inj ho]
      exact old.isOpen_close

variable [DecidableEq κ]

def enroll (key : κ) (d : Directory κ) : Directory κ :=
  ⟨d.owners ++ [⟨key, true, 0⟩], d.table.insert key d.owners.length⟩

/-- Remove the entry of an owner's key, if that is still to come. -/
def remove (i : Nat) (d : Directory κ) : Directory κ :=
  match d.owners[i]? with
  | none => d
  | some owner =>
      if owner.removals = 0 then d
      else
        { d.change i fun owner ↦ { owner with removals := owner.removals - 1 } with
          table := d.table.erase owner.key }

/-- Close an owner and remove the entry of its key, unless it is closed. -/
def retire (i : Nat) (d : Directory κ) : Directory κ :=
  match d.owners[i]? with
  | none => d
  | some owner =>
      if owner.isOpen then
        { d.change i fun owner ↦ { owner with isOpen := false } with
          table := d.table.erase owner.key }
      else d

/-- Every open owner is the entry of its key. -/
def Entered (d : Directory κ) : Prop :=
  ∀ i owner, d.owners[i]? = some owner → owner.isOpen = true → d.table.lookup owner.key = some i

/-- Whoever is about to remove an entry finds no other one than its own. -/
def RemovesOwn (d : Directory κ) : Prop :=
  ∀ i owner j, d.owners[i]? = some owner → 0 < owner.removals →
    d.table.lookup owner.key = some j → j = i

/-- Nobody is about to remove the entry of a key. -/
def Unclaimed (key : κ) (d : Directory κ) : Prop :=
  ∀ (i : Nat) owner, d.owners[i]? = some owner → owner.key = key → owner.removals = 0

/-- An owner is open, or there is no other entry than its own under its key. -/
def MayExpire (i : Nat) (d : Directory κ) : Prop :=
  ∀ owner j, d.owners[i]? = some owner → owner.isOpen = false →
    d.table.lookup owner.key = some j → j = i

/-- The open owners are entered, every entry has an owner, and what is about to be removed is the
entry of a closed owner. -/
structure Sound (d : Directory κ) : Prop where
  entered : d.Entered
  owned : ∀ key i, d.table.lookup key = some i → ∃ owner, d.owners[i]? = some owner ∧
    owner.key = key
  closed : ∀ (i : Nat) owner, d.owners[i]? = some owner → 0 < owner.removals →
    owner.isOpen = false
  removesOwn : d.RemovesOwn

theorem sound_empty : (empty : Directory κ).Sound where
  entered i owner h := by
    rw [empty] at h
    cases h
  owned key i h := by
    rw [empty, Finmap.lookup_empty] at h
    cases h
  closed i owner h := by
    rw [empty] at h
    cases h
  removesOwn i owner j h := by
    rw [empty] at h
    cases h

/-! ## What keeps a directory sound -/

/-- An owner is an old one or the new one. -/
theorem getElem?_enroll (hi : (d.enroll key).owners[i]? = some owner) :
    d.owners[i]? = some owner ∨ i = d.owners.length ∧ owner = ⟨key, true, 0⟩ := by
  rw [enroll] at hi
  dsimp only at hi
  rcases Nat.lt_or_ge i d.owners.length with hlt | hge
  · rw [List.getElem?_append_left hlt] at hi
    exact Or.inl hi
  · have hb := (List.getElem?_eq_some_iff.mp hi).1
    rw [List.length_append, List.length_singleton] at hb
    have hlast : i = d.owners.length := by omega
    rw [hlast, List.getElem?_concat_length] at hi
    exact Or.inr ⟨hlast, (Option.some.inj hi).symm⟩

theorem lookup_enroll (key key' : κ) (d : Directory κ) :
    (d.enroll key).table.lookup key' =
      if key' = key then some d.owners.length else d.table.lookup key' :=
  HashMap.lookup_insert_eq ..

theorem getElem?_enroll_of_some (hi : d.owners[i]? = some owner) :
    (d.enroll key).owners[i]? = some owner := by
  rw [enroll]
  dsimp only
  rw [List.getElem?_append_left (List.getElem?_eq_some_iff.mp hi).1, hi]

/-- A key that has no entry may have a new owner if nobody is about to remove it. -/
theorem Sound.enroll (h : d.Sound) (hkey : d.table.lookup key = none)
    (hdone : d.Unclaimed key) : (d.enroll key).Sound where
  entered i owner hi ho := by
    rw [lookup_enroll]
    rcases getElem?_enroll hi with hi | ⟨rfl, rfl⟩
    · have hentry := h.entered i owner hi ho
      rw [if_neg (fun hk ↦ ?_), hentry]
      rw [hk, hkey] at hentry
      cases hentry
    · rw [if_pos rfl]
  owned k i hi := by
    rw [lookup_enroll] at hi
    split at hi
    · next hk =>
      obtain rfl := Option.some.inj hi
      exact ⟨⟨key, true, 0⟩, List.getElem?_concat_length, hk.symm⟩
    · obtain ⟨owner, howner, hrest⟩ := h.owned k i hi
      exact ⟨owner, getElem?_enroll_of_some howner, hrest⟩
  closed i owner hi hpos := by
    rcases getElem?_enroll hi with hi | ⟨rfl, rfl⟩
    · exact h.closed i owner hi hpos
    · exact absurd hpos (Nat.lt_irrefl 0)
  removesOwn i owner j hi hpos hj := by
    rcases getElem?_enroll hi with hi | ⟨rfl, rfl⟩
    · rw [lookup_enroll] at hj
      split at hj
      · next hk => exact absurd (hdone i owner hi hk) hpos.ne'
      · exact h.removesOwn i owner j hi hpos hj
    · exact absurd hpos (Nat.lt_irrefl 0)

/-- Only then. -/
theorem Sound.enroll_iff (h : d.Sound) (hkey : d.table.lookup key = none) :
    (d.enroll key).RemovesOwn ↔ d.Unclaimed key := by
  refine ⟨fun hown i owner hi hk ↦ ?_, fun hdone ↦ (h.enroll hkey hdone).removesOwn⟩
  by_contra hne
  have hentry : (d.enroll key).table.lookup owner.key = some d.owners.length := by
    rw [lookup_enroll, if_pos hk]
  have hlast := hown i owner _ (getElem?_enroll_of_some hi) (Nat.pos_of_ne_zero hne) hentry
  have hlt := (List.getElem?_eq_some_iff.mp hi).1
  omega

/-- A change of an owner that does not open it and after which it is about to remove its own entry,
if any. -/
theorem Sound.change (h : d.Sound) (hi : d.owners[i]? = some owner)
    (hkey : (f owner).key = owner.key) (hclosed : (f owner).isOpen = false)
    (hown : ∀ j, 0 < (f owner).removals → d.table.lookup owner.key = some j → j = i) :
    (d.change i f).Sound where
  entered j other hj hopen := by
    rw [getElem?_change hi] at hj
    split at hj
    · obtain rfl := Option.some.inj hj
      rw [hclosed] at hopen
      cases hopen
    · exact h.entered j other hj hopen
  owned key j hj := by
    obtain ⟨other, hother, hk⟩ := h.owned key j hj
    rw [getElem?_change hi]
    split
    · next hji =>
      rw [hji, hi] at hother
      obtain rfl := Option.some.inj hother
      exact ⟨_, rfl, hkey.trans hk⟩
    · exact ⟨other, hother, hk⟩
  closed j other hj hpos := by
    rw [getElem?_change hi] at hj
    split at hj
    · obtain rfl := Option.some.inj hj
      exact hclosed
    · exact h.closed j other hj hpos
  removesOwn j other k hj hpos hk := by
    rw [getElem?_change hi] at hj
    split at hj
    · next hji =>
      obtain rfl := Option.some.inj hj
      rw [hkey] at hk
      rw [hji]
      exact hown k hpos hk
    · exact h.removesOwn j other k hj hpos hk

/-- An owner that is closed is about to remove its own entry. -/
theorem Sound.close (h : d.Sound) (i : Nat) : (d.change i Owner.close).Sound := by
  cases hi : d.owners[i]? with
  | none => rwa [change_of_none hi]
  | some owner =>
      refine h.change hi owner.key_close owner.isOpen_close fun j hpos hj ↦ ?_
      cases hopen : owner.isOpen with
      | true =>
          rw [h.entered i owner hi hopen] at hj
          exact (Option.some.inj hj).symm
      | false =>
          rw [Owner.close, if_neg (by rw [hopen]; exact Bool.false_ne_true)] at hpos
          exact h.removesOwn i owner j hi hpos hj

/-- So is one that expires, if it is open or finds no other entry. -/
theorem Sound.expire (h : d.Sound) (hown : d.MayExpire i) : (d.change i Owner.expire).Sound := by
  cases hi : d.owners[i]? with
  | none => rwa [change_of_none hi]
  | some owner =>
      refine h.change hi owner.key_expire owner.isOpen_expire fun j _ hj ↦ ?_
      cases hopen : owner.isOpen with
      | true =>
          rw [h.entered i owner hi hopen] at hj
          exact (Option.some.inj hj).symm
      | false => exact hown owner j hi hopen hj

/-- Only then. -/
theorem Sound.expire_iff (h : d.Sound) :
    (d.change i Owner.expire).RemovesOwn ↔ d.MayExpire i := by
  refine ⟨fun hown owner j hi _ hj ↦ ?_, fun hown ↦ (h.expire hown).removesOwn⟩
  have howner : (d.change i Owner.expire).owners[i]? = some owner.expire := by
    rw [getElem?_change hi, if_pos rfl]
  refine hown i _ j howner owner.removals_expire_pos ?_
  rwa [owner.key_expire]

/-- The entries that are left by a removal. -/
theorem lookup_of_erase {table : HashMap κ Nat} {key' : κ}
    (h : (table.erase key').lookup key = some i) : table.lookup key = some i := by
  rw [HashMap.lookup_erase_eq] at h
  split at h
  · cases h
  · exact h

/-- An owner after a removal. -/
theorem getElem?_remove (i : Nat) (hj : (d.remove i).owners[j]? = some owner) :
    ∃ old, d.owners[j]? = some old ∧ owner.key = old.key ∧ owner.isOpen = old.isOpen ∧
      owner.removals ≤ old.removals := by
  rw [remove] at hj
  split at hj
  · exact ⟨owner, hj, rfl, rfl, le_rfl⟩
  next other hi =>
  split at hj
  · exact ⟨owner, hj, rfl, rfl, le_rfl⟩
  · dsimp only at hj
    rw [getElem?_change hi] at hj
    split at hj
    · next hji =>
      obtain rfl := Option.some.inj hj
      exact ⟨other, hji ▸ hi, rfl, rfl, Nat.sub_le ..⟩
    · exact ⟨owner, hj, rfl, rfl, le_rfl⟩

theorem lookup_of_remove (h : (d.remove i).table.lookup key = some j) :
    d.table.lookup key = some j := by
  rw [remove] at h
  split at h
  · exact h
  split at h
  · exact h
  · exact lookup_of_erase h

/-- Nobody removes another entry than its own exactly when the next removal does not. -/
theorem removesOwn_iff : d.RemovesOwn ↔ ∀ i key j, j ≠ i → d.table.lookup key = some j →
    (d.remove i).table.lookup key = some j := by
  constructor
  · intro h i key j hne hj
    rw [remove]
    split
    · exact hj
    next owner hi =>
    split
    · exact hj
    · next hpos =>
      dsimp only
      rw [HashMap.lookup_erase_eq, if_neg fun hk ↦ ?_, hj]
      exact hne (h i owner j hi (Nat.pos_of_ne_zero hpos) (hk ▸ hj))
  · intro h i owner j hi hpos hj
    by_contra hne
    have hkept := h i owner.key j hne hj
    rw [remove, hi] at hkept
    dsimp only at hkept
    rw [if_neg hpos.ne', Finmap.lookup_erase] at hkept
    cases hkept

/-- An owner of a directory is there after a removal too, and so is its key. -/
theorem remove_lasting (i : Nat) (hj : d.owners[j]? = some owner) :
    ∃ owner', (d.remove i).owners[j]? = some owner' ∧ owner'.key = owner.key := by
  rw [remove]
  split
  · exact ⟨owner, hj, rfl⟩
  next other hi =>
  split
  · exact ⟨owner, hj, rfl⟩
  · dsimp only
    rw [getElem?_change hi]
    split
    · next hji =>
      rw [hji, hi] at hj
      obtain rfl := Option.some.inj hj
      exact ⟨_, rfl, rfl⟩
    · exact ⟨owner, hj, rfl⟩

/-- The removal of an entry that is one's own, or of none. -/
theorem Sound.remove (h : d.Sound) (i : Nat) : (d.remove i).Sound where
  entered j owner hj hopen := by
    obtain ⟨old, hold, hkey, hisOpen, -⟩ := getElem?_remove i hj
    rw [hkey]
    have hentry := h.entered j old hold (hisOpen ▸ hopen)
    by_cases hji : j = i
    · rw [Directory.remove]
      split
      · exact hentry
      next other hi =>
      rw [hji, hi] at hold
      obtain rfl := Option.some.inj hold
      split
      · exact hentry
      · next hpos =>
        have hclosed := h.closed i other hi (Nat.pos_of_ne_zero hpos)
        rw [← hisOpen, hopen] at hclosed
        cases hclosed
    · exact removesOwn_iff.mp h.removesOwn i old.key j hji hentry
  owned key j hj := by
    obtain ⟨owner, howner, hkey⟩ := h.owned key j (lookup_of_remove hj)
    obtain ⟨owner', howner', hkey'⟩ := remove_lasting i howner
    exact ⟨owner', howner', hkey'.trans hkey⟩
  closed j owner hj hpos := by
    obtain ⟨old, hold, -, hisOpen, hle⟩ := getElem?_remove i hj
    rw [hisOpen]
    exact h.closed j old hold (hpos.trans_le hle)
  removesOwn j owner k hj hpos hk := by
    obtain ⟨old, hold, hkey, -, hle⟩ := getElem?_remove i hj
    rw [hkey] at hk
    exact h.removesOwn j old k hold (hpos.trans_le hle) (lookup_of_remove hk)

/-- An open owner is retired as it is closed and removes its entry. -/
theorem retire_eq (hi : d.owners[i]? = some owner) (hopen : owner.isOpen = true) :
    d.retire i = (d.change i Owner.close).remove i := by
  have hclosed : (d.change i Owner.close).owners[i]? =
      some { owner with isOpen := false, removals := owner.removals + 1 } := by
    rw [getElem?_change hi, if_pos rfl, Owner.close, if_pos hopen]
  rw [retire, hi, remove, hclosed]
  dsimp only
  rw [if_pos hopen, if_neg (Nat.succ_ne_zero _)]
  refine congrArg₂ Directory.mk (List.ext_getElem? fun j ↦ ?_) rfl
  rw [getElem?_change hi, getElem?_change hclosed, getElem?_change hi]
  split
  · rfl
  · rfl

theorem retire_of_closed (h : ∀ owner, d.owners[i]? = some owner → owner.isOpen = false) :
    d.retire i = d := by
  rw [retire]
  split
  · rfl
  · next owner hi => exact if_neg (by rw [h owner hi]; exact Bool.false_ne_true)

theorem Sound.retire (h : d.Sound) (i : Nat) : (d.retire i).Sound := by
  by_cases hopen : ∃ owner, d.owners[i]? = some owner ∧ owner.isOpen = true
  · obtain ⟨owner, hi, hopen⟩ := hopen
    rw [retire_eq hi hopen]
    exact (h.close i).remove i
  · rwa [retire_of_closed fun owner hi ↦ Bool.eq_false_iff.mpr fun ho ↦ hopen ⟨owner, hi, ho⟩]

/-! ## What is done to one owner -/

inductive Change (i : Nat) : Directory κ → Directory κ → Prop
  | none {d : Directory κ} : Change i d d
  | retire {d : Directory κ} : Change i d (d.retire i)
  | close {d : Directory κ} : Change i d (d.change i Owner.close)
  | expire {d : Directory κ} : d.MayExpire i → Change i d (d.change i Owner.expire)
  | remove {d : Directory κ} : Change i d (d.remove i)

theorem Sound.changed (h : d.Sound) (hc : Change i d d') : d'.Sound := by
  cases hc with
  | none => exact h
  | retire => exact h.retire i
  | close => exact h.close i
  | expire hown => exact h.expire hown
  | remove => exact h.remove i

/-- It leaves the entries of the others alone. -/
theorem Sound.others_kept (h : d.Sound) (hc : Change i d d') (hne : j ≠ i)
    (hj : d.table.lookup key = some j) : d'.table.lookup key = some j := by
  cases hc with
  | none | close | expire _ => exact hj
  | retire =>
      by_cases hopen : ∃ owner, d.owners[i]? = some owner ∧ owner.isOpen = true
      · obtain ⟨owner, hi, hopen⟩ := hopen
        rw [retire_eq hi hopen]
        exact removesOwn_iff.mp (h.close i).removesOwn i key j hne hj
      · rwa [retire_of_closed fun owner hi ↦
          Bool.eq_false_iff.mpr fun ho ↦ hopen ⟨owner, hi, ho⟩]
  | remove => exact removesOwn_iff.mp h.removesOwn i key j hne hj

/-- Owners keep their keys. -/
theorem Change.lasting (hc : Change i d d') (hj : d.owners[j]? = some owner) :
    ∃ owner', d'.owners[j]? = some owner' ∧ owner'.key = owner.key := by
  cases hc with
  | none => exact ⟨owner, hj, rfl⟩
  | retire =>
      by_cases hopen : ∃ other, d.owners[i]? = some other ∧ other.isOpen = true
      · obtain ⟨other, hi, hopen⟩ := hopen
        rw [retire_eq hi hopen]
        obtain ⟨closed, hclosed, hkey⟩ := change_lasting Owner.key_close hj
        obtain ⟨removed, hremoved, hkey'⟩ := remove_lasting i hclosed
        exact ⟨removed, hremoved, hkey'.trans hkey⟩
      · rw [retire_of_closed fun other hi ↦
          Bool.eq_false_iff.mpr fun ho ↦ hopen ⟨other, hi, ho⟩]
        exact ⟨owner, hj, rfl⟩
  | close => exact change_lasting Owner.key_close hj
  | expire _ => exact change_lasting Owner.key_expire hj
  | remove => exact remove_lasting i hj

/-- An entry that goes is that of the owner to whom it was done, who is closed by then. -/
theorem Sound.entry_lasts (h : d.Sound) (hc : Change i d d') (hl : d.table.lookup key = some j) :
    d'.table.lookup key = some j ∨
      j = i ∧ ∃ owner, d'.owners[j]? = some owner ∧ owner.isOpen = false := by
  by_cases hji : j = i
  · obtain ⟨owner, hj, hkey⟩ := h.owned key j hl
    obtain ⟨owner', hj', hkey'⟩ := hc.lasting hj
    cases ho : owner'.isOpen with
    | false => exact Or.inr ⟨hji, owner', hj', ho⟩
    | true =>
        have hentry := (h.changed hc).entered j owner' hj' ho
        rw [hkey', hkey] at hentry
        exact Or.inl hentry
  · exact Or.inl (h.others_kept hc hji hl)

/-! ## Changes without a new owner -/

/-- Entries only go and owners only close. -/
structure Shrinks (d d' : Directory κ) : Prop where
  length : d'.owners.length = d.owners.length
  entries : ∀ key i, d'.table.lookup key = some i → d.table.lookup key = some i
  closed : ∀ i, d.ClosedAt i → d'.ClosedAt i

theorem Shrinks.refl (d : Directory κ) : d.Shrinks d := ⟨rfl, fun _ _ ↦ id, fun _ ↦ id⟩

theorem Shrinks.trans {d'' : Directory κ} (h : d.Shrinks d') (h' : d'.Shrinks d'') :
    d.Shrinks d'' where
  length := h'.length.trans h.length
  entries key i hi := h.entries key i (h'.entries key i hi)
  closed i hi := h'.closed i (h.closed i hi)

theorem shrinks_change (hf : ∀ owner, owner.isOpen = false → (f owner).isOpen = false)
    (d : Directory κ) (i : Nat) : d.Shrinks (d.change i f) := by
  refine ⟨List.length_modify .., fun _ _ ↦ id, fun j hj ↦ ?_⟩
  cases hi : d.owners[i]? with
  | none => rwa [change_of_none hi]
  | some owner =>
      intro other hother
      rw [getElem?_change hi] at hother
      split at hother
      · next hji =>
        obtain rfl := Option.some.inj hother
        exact hf owner (hj owner (hji ▸ hi))
      · exact hj other hother

theorem shrinks_erase (d : Directory κ) (key : κ) :
    d.Shrinks { d with table := d.table.erase key } :=
  ⟨rfl, fun _ _ ↦ lookup_of_erase, fun _ ↦ id⟩

theorem shrinks_remove (d : Directory κ) (i : Nat) : d.Shrinks (d.remove i) := by
  rw [remove]
  split
  · exact .refl d
  split
  · exact .refl d
  · have h := shrinks_change (f := fun owner ↦ { owner with removals := owner.removals - 1 })
      (fun _ ho ↦ ho) d i
    exact h.trans (shrinks_erase _ _)

theorem shrinks_retire (d : Directory κ) (i : Nat) : d.Shrinks (d.retire i) := by
  rw [retire]
  split
  · exact .refl d
  split
  · exact (shrinks_change (fun _ _ ↦ rfl) d i).trans (shrinks_erase _ _)
  · exact .refl d

/-- The owner that is retired is closed. -/
theorem closedAt_retire (d : Directory κ) (i : Nat) : (d.retire i).ClosedAt i := by
  rw [retire]
  split
  · next hnone =>
    intro owner hi
    rw [hnone] at hi
    cases hi
  next owner hi =>
  split
  · intro other hother
    dsimp only at hother
    rw [getElem?_change hi, if_pos rfl] at hother
    rw [← Option.some.inj hother]
  · next hclosed =>
    intro other hother
    rw [← Option.some.inj (hi.symm.trans hother)]
    exact Bool.eq_false_iff.mpr hclosed

/-- Every entry is closed, apart from those in a list. -/
def ClosedBut (d : Directory κ) (rest : List Nat) : Prop :=
  ∀ key i, d.table.lookup key = some i → i ∈ rest ∨ d.ClosedAt i

theorem Shrinks.closedBut {rest : List Nat} (h : d.Shrinks d') (hd : d.ClosedBut rest) :
    d'.ClosedBut rest := fun key i hi ↦
  (hd key i (h.entries key i hi)).imp_right (h.closed i)

/-- Closing the first of the list. -/
theorem ClosedBut.close {rest : List Nat} (h : d.ClosedBut (i :: rest)) :
    (d.change i Owner.close).ClosedBut rest := by
  intro key j hj
  have hshrinks := shrinks_change (fun owner _ ↦ Owner.isOpen_close owner) d i
  rcases hshrinks.closedBut h key j hj with hmem | hclosed
  · rcases List.mem_cons.mp hmem with rfl | hmem
    · exact Or.inr (closedAt_close d j)
    · exact Or.inl hmem
  · exact Or.inr hclosed

end Directory

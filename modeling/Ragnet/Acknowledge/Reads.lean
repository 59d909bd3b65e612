import Ragnet.Acknowledge

/-!
# Reading acknowledgements from any bytes

The bytes of an acknowledgement, whatever they are, fall into records, and reading them is a fold
over these records.  The reader differs from its description in two ways.  It counts a range for
one less than it holds, so a range may take the numbers one above the cap.  And it subtracts the
start of a range from an unsigned sum, which a range that runs backwards makes negative.
-/

namespace Ragnet.Acknowledgement

open Wire

/-! ## The records of some bytes -/

/-- A record as it stands in the bytes. -/
inductive Item where
  | range (first last : Uint24)
  | single (packet : Uint24)
  | unknown
deriving DecidableEq

/-- The numbers that a record stands for. -/
def Item.expand : Item → List Uint24
  | range first last => rangeInclusive first last
  | single packet => [packet]
  | unknown => []

/-- The numbers that some records stand for. -/
def expansion (items : List Item) : List Uint24 := items.flatMap Item.expand

def uint24 (b0 b1 b2 : UInt8) : Uint24 := Uint24.new (ofLeBytes [b0, b1, b2])

/-- The first record of the bytes, and the bytes behind it. -/
def nextItem : Bytes → Option (Item × Bytes)
  | kind :: x0 :: x1 :: x2 :: rest =>
      if kind = packetRange then
        match rest with
        | y0 :: y1 :: y2 :: rest => some (.range (uint24 x0 x1 x2) (uint24 y0 y1 y2), rest)
        | _ => none
      else if kind = packetSingle then some (.single (uint24 x0 x1 x2), rest)
      else some (.unknown, rest)
  | _ => none

/-- The first `k` records of the bytes, and whether the bytes end before the last of them does. -/
def parse : Nat → Bytes → List Item × Bool
  | 0, _ => ([], false)
  | k + 1, b =>
      match nextItem b with
      | none => ([], true)
      | some (item, rest) => (item :: (parse k rest).1, (parse k rest).2)

theorem parse_of_none {k : Nat} {b : Bytes} (h : nextItem b = none) :
    parse (k + 1) b = ([], true) := by
  rw [parse, h]

theorem parse_of_some {k : Nat} {b rest : Bytes} {item : Item}
    (h : nextItem b = some (item, rest)) :
    parse (k + 1) b = (item :: (parse k rest).1, (parse k rest).2) := by
  rw [parse, h]

theorem nextItem_cons (kind x0 x1 x2 : UInt8) (rest : Bytes) :
    nextItem (kind :: x0 :: x1 :: x2 :: rest) =
      if kind = packetRange then
        match rest with
        | y0 :: y1 :: y2 :: rest => some (.range (uint24 x0 x1 x2) (uint24 y0 y1 y2), rest)
        | _ => none
      else if kind = packetSingle then some (.single (uint24 x0 x1 x2), rest)
      else some (.unknown, rest) := rfl

theorem loadUint24_cons (b0 b1 b2 : UInt8) (rest : Bytes) :
    loadUint24 (b0 :: b1 :: b2 :: rest) = .ok (uint24 b0 b1 b2) := by
  obtain ⟨v, hv⟩ := loadUint24_isOk.mpr (show 3 ≤ (b0 :: b1 :: b2 :: rest).length by simp)
  rw [hv, uint24, ← loadUint24_value hv, Uint24.new_value]

@[simp] theorem length_rangeInclusive (first last : Uint24) :
    (rangeInclusive first last).length = last.value + 1 - first.value := by
  rw [rangeInclusive, List.length_map, List.length_range']

/-! ## Reading is a fold -/

section Reader

variable (build : Build)

/-- What the reader does with a record. -/
def Item.push (packets : List Uint24) : Item → Result (List Uint24)
  | range first last => do
      let total ← Checked.sub build 32 (packets.length + last.value) first.value
      if total > maxAcknowledgementPackets then err .maxAcknowledgement
      else .ok (packets ++ rangeInclusive first last)
  | single packet =>
      if packets.length + 1 > maxAcknowledgementPackets then err .maxAcknowledgement
      else .ok (packets ++ [packet])
  | unknown => .ok packets

/-- A range that makes the unsigned sum negative ends the reading. -/
theorem Item.push_backwards {packets : List Uint24} {first last : Uint24}
    (h : ¬ first.value ≤ packets.length + last.value) :
    (range first last).push build packets =
      match build with
      | .debug => panicked
      | .release => err .maxAcknowledgement := by
  have hmax : maxAcknowledgementPackets = 8192 := rfl
  have hfirst := first.lt
  rw [push]
  unfold Checked.sub
  rw [if_neg h]
  cases build with
  | debug => rfl
  | release => exact if_pos (by omega)

/-- The reader never holds more than one number above the cap. -/
theorem Item.length_push {packets packets' : List Uint24} {item : Item}
    (h : item.push build packets = .ok packets')
    (hlen : packets.length ≤ maxAcknowledgementPackets + 1) :
    packets'.length ≤ maxAcknowledgementPackets + 1 := by
  have hmax : maxAcknowledgementPackets = 8192 := rfl
  cases item with
  | range first last =>
      have hfirst := first.lt
      by_cases hle : first.value ≤ packets.length + last.value
      · rw [push, Checked.sub_of_le _ _ hle, Checked.ok_bind] at h
        split at h
        · cases h
        · next htotal =>
          rw [← Except.ok.inj h, List.length_append, length_rangeInclusive]
          omega
      · rw [push_backwards build hle] at h
        cases build with
        | debug => cases h
        | release => cases h
  | single packet =>
      rw [push] at h
      split at h
      · cases h
      · rw [← Except.ok.inj h, List.length_append, List.length_singleton]
        omega
  | unknown => exact Except.ok.inj h ▸ hlen

section Step

variable {b rest : Bytes} {k offset : Nat} {packets : List Uint24} {kind x0 x1 x2 : UInt8}

/-- The bytes behind a record. -/
theorem drop_add (pre : Bytes) {i : Nat} (h : b.drop offset = pre ++ rest) (hi : pre.length = i) :
    b.drop (offset + i) = rest := by
  rw [← List.drop_drop, h, ← hi, List.drop_left]

/-- The reader fails where fewer than four bytes are left. -/
theorem readLoop_short (hoffset : offset ≤ b.length) (h : b.length < offset + 4) :
    readLoop build b (k + 1) offset packets = err .unexpectedEof := by
  rw [readLoop, Checked.sub_of_le _ _ hoffset, Checked.ok_bind, if_pos (by omega)]

/-- The reader at four bytes or more. -/
theorem readLoop_cons (hlen : packets.length ≤ maxAcknowledgementPackets + 1) :
    b.drop offset = kind :: x0 :: x1 :: x2 :: rest →
    readLoop build b (k + 1) offset packets =
      if kind = packetRange then
        match rest with
        | y0 :: y1 :: y2 :: _ =>
            (Item.range (uint24 x0 x1 x2) (uint24 y0 y1 y2)).push build packets >>=
              readLoop build b k (offset + 7)
        | _ => err .unexpectedEof
      else if kind = packetSingle then
        (Item.single (uint24 x0 x1 x2)).push build packets >>= readLoop build b k (offset + 4)
      else readLoop build b k (offset + 4) packets := by
  intro h
  have hmax : maxAcknowledgementPackets = 8192 := rfl
  have hlength : b.length - offset = rest.length + 4 := by
    rw [← List.length_drop, h]
    rfl
  have hkind : b[offset]? = some kind := by
    rw [← Nat.add_zero offset, ← List.getElem?_drop, h]
    rfl
  have hfields : b.drop (offset + 1) = x0 :: x1 :: x2 :: rest := drop_add [kind] h rfl
  have hrest : b.drop (offset + 4) = rest := drop_add [kind, x0, x1, x2] h rfl
  have hfirst : (Checked.sliceFrom b (offset + 1) >>= loadUint24 : Result Uint24) =
      .ok (uint24 x0 x1 x2) := by
    rw [Checked.sliceFrom_of_le (by omega), Checked.ok_bind, hfields, loadUint24_cons]
  have hlast : (Checked.sliceFrom b (offset + 4) : Result Bytes) = .ok rest := by
    rw [Checked.sliceFrom_of_le (by omega), hrest]
  rw [readLoop, Checked.sub_of_le _ _ (by omega), Checked.index_of_getElem? hkind, hfirst, hlast]
  simp only [Checked.ok_bind, hlength]
  rw [if_neg (by omega)]
  split
  · rcases rest with _ | ⟨y0, _ | ⟨y1, _ | ⟨y2, rest⟩⟩⟩
    · rfl
    · rfl
    · rfl
    · have hlt := (uint24 y0 y1 y2).lt
      rw [if_neg (by simp), loadUint24_cons, Checked.ok_bind]
      dsimp only
      rw [Item.push, Nat.mod_eq_of_lt (by omega), Checked.add_of_lt _ _ (by omega), Checked.ok_bind]
      cases (Checked.sub build 32 (packets.length + (uint24 y0 y1 y2).value)
        (uint24 x0 x1 x2).value : Result Nat) with
      | error e => rfl
      | ok total =>
          simp only [Checked.ok_bind]
          split
          · rfl
          · rfl
  · split
    · rw [Item.push]
      split
      · rfl
      · rfl
    · rfl

end Step

/-- Reading some records, and then the end of the bytes. -/
def readItems (records : List Item × Bool) (packets : List Uint24) : Result (List Uint24) := do
  let packets ← records.1.foldlM (fun packets item ↦ item.push build packets) packets
  if records.2 then err .unexpectedEof else .ok packets

theorem readItems_cons (item : Item) (records : List Item × Bool) (packets : List Uint24) :
    readItems build (item :: records.1, records.2) packets =
      item.push build packets >>= readItems build records := by
  rw [readItems, List.foldlM_cons, bind_assoc]
  rfl

/-- The loop of the reader folds over the records of the bytes. -/
theorem readLoop_eq (b : Bytes) (k offset : Nat) (packets : List Uint24)
    (hoffset : offset ≤ b.length) (hlen : packets.length ≤ maxAcknowledgementPackets + 1) :
    readLoop build b k offset packets = readItems build (parse k (b.drop offset)) packets := by
  induction k generalizing offset packets with
  | zero => rfl
  | succ k ih =>
      have hlength : (b.drop offset).length = b.length - offset := List.length_drop
      have hshort (h : (b.drop offset).length < 4) (hnext : nextItem (b.drop offset) = none) :
          readLoop build b (k + 1) offset packets =
            readItems build (parse (k + 1) (b.drop offset)) packets := by
        rw [readLoop_short build hoffset (by omega), parse, hnext]
        rfl
      have hgo (item : Item) (offset' : Nat) (hoffset' : offset' ≤ b.length) :
          item.push build packets >>= readLoop build b k offset' =
            readItems build (item :: (parse k (b.drop offset')).1, (parse k (b.drop offset')).2)
              packets := by
        rw [readItems_cons]
        cases hpush : item.push build packets with
        | error e => rfl
        | ok packets' => exact ih offset' packets' hoffset' (item.length_push build hpush hlen)
      rcases hdrop : b.drop offset with _ | ⟨kind, _ | ⟨x0, _ | ⟨x1, _ | ⟨x2, rest⟩⟩⟩⟩
      · exact hdrop ▸ hshort (by rw [hdrop]; decide) (by rw [hdrop]; rfl)
      · exact hdrop ▸ hshort (by rw [hdrop]; simp) (by rw [hdrop]; rfl)
      · exact hdrop ▸ hshort (by rw [hdrop]; simp) (by rw [hdrop]; rfl)
      · exact hdrop ▸ hshort (by rw [hdrop]; simp) (by rw [hdrop]; rfl)
      · rw [hdrop, List.length_cons, List.length_cons, List.length_cons, List.length_cons]
          at hlength
        rw [readLoop_cons build hlen hdrop, parse, nextItem_cons]
        by_cases hrange : kind = packetRange
        · rw [if_pos hrange, if_pos hrange]
          rcases rest with _ | ⟨y0, _ | ⟨y1, _ | ⟨y2, rest⟩⟩⟩
          · rfl
          · rfl
          · rfl
          · have hrest : b.drop (offset + 7) = rest :=
              drop_add [kind, x0, x1, x2, y0, y1, y2] hdrop rfl
            rw [List.length_cons, List.length_cons, List.length_cons] at hlength
            exact hrest ▸ hgo _ (offset + 7) (by omega)
        · have hrest : b.drop (offset + 4) = rest := drop_add [kind, x0, x1, x2] hdrop rfl
          rw [if_neg hrange, if_neg hrange]
          by_cases hsingle : kind = packetSingle
          · rw [if_pos hsingle, if_pos hsingle]
            exact hrest ▸ hgo _ (offset + 4) (by omega)
          · rw [if_neg hsingle, if_neg hsingle]
            exact hrest ▸ hgo .unknown (offset + 4) (by omega)

end Reader

/-! ## The records of an acknowledgement -/

/-- The records of an acknowledgement, and whether it ends before the last of them does. -/
def records : Bytes → List Item × Bool
  | b0 :: b1 :: body => parse (u16FromBeBytes b0 b1).toNat body
  | _ => ([], true)

/-- Reading is reading the records. -/
theorem read_eq (build : Build) (b : Bytes) :
    read build new b = (readItems build (records b) []).map mk := by
  rcases b with _ | ⟨b0, _ | ⟨b1, body⟩⟩
  · rfl
  · rfl
  · have hloop : readLoop build (b0 :: b1 :: body) (u16FromBeBytes b0 b1).toNat 2 [] =
        readItems build (records (b0 :: b1 :: body)) [] :=
      readLoop_eq build _ _ 2 [] (Nat.le_add_left 2 body.length) (Nat.zero_le _)
    rw [read, new, hloop]
    cases readItems build (records (b0 :: b1 :: body)) [] with
    | error e => rfl
    | ok packets => rfl

/-- Stopping earlier finds the first records. -/
theorem parse_take {k j : Nat} {b : Bytes} (h : j ≤ (parse k b).1.length) :
    parse j b = ((parse k b).1.take j, false) := by
  induction k generalizing j b with
  | zero =>
      obtain rfl : j = 0 := Nat.le_zero.mp h
      rfl
  | succ k ih =>
      cases j with
      | zero => rfl
      | succ j =>
          cases hnext : nextItem b with
          | none =>
              rw [parse_of_none hnext] at h
              exact absurd h (Nat.not_succ_le_zero j)
          | some next =>
              rw [parse_of_some hnext] at h ⊢
              rw [parse_of_some hnext, ih (Nat.le_of_succ_le_succ h), List.take_succ_cons]

/-- The record behind the last one found is the one that the bytes are too short for. -/
theorem parse_truncated {k : Nat} {b : Bytes} (h : (parse k b).2 = true) :
    parse ((parse k b).1.length + 1) b = parse k b := by
  induction k generalizing b with
  | zero => cases h
  | succ k ih =>
      cases hnext : nextItem b with
      | none => rw [parse_of_none hnext, parse_of_none hnext]
      | some next =>
          rw [parse_of_some hnext] at h ⊢
          rw [parse_of_some hnext, List.length_cons, ih h]

@[simp] theorem expansion_nil : expansion [] = [] := rfl

theorem expansion_append (items items' : List Item) :
    expansion (items ++ items') = expansion items ++ expansion items' := List.flatMap_append

theorem expansion_cons (item : Item) (items : List Item) :
    expansion (item :: items) = item.expand ++ expansion items := List.flatMap_cons

/-- There is room for a record behind `n` numbers, as the reader counts it. -/
def Item.Fits (n : Nat) : Item → Prop
  | range first last => n + last.value ≤ maxAcknowledgementPackets + first.value
  | single _ => n + 1 ≤ maxAcknowledgementPackets
  | unknown => True

/-- The unsigned sum of a record behind `n` numbers does not become negative. -/
def Item.InBounds (n : Nat) : Item → Prop
  | range first last => first.value ≤ n + last.value
  | single _ => True
  | unknown => True

section Push

variable {packets : List Uint24} {item : Item}

theorem Item.push_of_fits (build : Build) (hbounds : item.InBounds packets.length)
    (h : item.Fits packets.length) : item.push build packets = .ok (packets ++ item.expand) := by
  cases item with
  | range first last =>
      rw [Fits] at h
      rw [push, Checked.sub_of_le _ _ hbounds, Checked.ok_bind, if_neg (by omega)]
      rfl
  | single packet => exact if_neg (Nat.not_lt_of_le h)
  | unknown => exact congrArg Except.ok (List.append_nil packets).symm

theorem Item.push_of_not_fits (build : Build) (hbounds : item.InBounds packets.length)
    (h : ¬ item.Fits packets.length) : item.push build packets = err .maxAcknowledgement := by
  cases item with
  | range first last =>
      rw [Fits] at h
      rw [push, Checked.sub_of_le _ _ hbounds, Checked.ok_bind, if_pos (by omega)]
  | single packet => exact if_pos (Nat.lt_of_not_le h)
  | unknown => exact absurd trivial h

end Push

/-! ## The reader as it is described -/

/-- No range runs backwards. -/
def InOrder (items : List Item) : Prop :=
  ∀ first last, Item.range first last ∈ items → first.value ≤ last.value

/-- The first record that is refused, and why: it takes the numbers above the cap, or the bytes end
before it does. -/
inductive Refused (records : List Item × Bool) : Nat → Error → Prop
  | full {j : Nat} : j < records.1.length →
      (expansion (records.1.take j)).length ≤ maxAcknowledgementPackets →
      maxAcknowledgementPackets < (expansion (records.1.take (j + 1))).length →
        Refused records j .maxAcknowledgement
  | short : records.2 = true → (expansion records.1).length ≤ maxAcknowledgementPackets →
      Refused records records.1.length .unexpectedEof

/-- Reading fails at the record `j`: the records in front of it are read, and it is not. -/
structure FailsAt (build : Build) (b : Bytes) (j : Nat) (e : Error) : Prop where
  read_eq : read build new b = err e
  before : readLoop build b j 2 [] = .ok (expansion ((records b).1.take j))
  behind : 2 ≤ b.length → readLoop build b (j + 1) 2 [] = err e

/-- The bytes are read as described: with all numbers when there are enough bytes and not too many
numbers, and up to the first record that is refused otherwise. -/
structure ReadAsDescribed (build : Build) (b : Bytes) : Prop where
  ok_iff : ∀ ack, read build new b = .ok ack ↔
    ((records b).2 = false ∧ (expansion (records b).1).length ≤ maxAcknowledgementPackets) ∧
      ack = ⟨expansion (records b).1⟩
  fails : ∀ j e, Refused (records b) j e → FailsAt build b j e
  within : ∀ ack, read build new b = .ok ack → ack.packets.length ≤ maxAcknowledgementPackets

/-- No range takes the numbers exactly one above the cap. -/
def NoneOneAbove (items : List Item) : Prop :=
  ∀ pre first last post, items = pre ++ .range first last :: post →
    (expansion (pre ++ [.range first last])).length ≠ maxAcknowledgementPackets + 1

theorem exists_refused {records : List Item × Bool}
    (h : ¬ (records.2 = false ∧ (expansion records.1).length ≤ maxAcknowledgementPackets)) :
    ∃ j e, Refused records j e := by
  by_cases hfull : ∃ j, maxAcknowledgementPackets < (expansion (records.1.take j)).length
  · -- the first stretch that is above the cap
    have hfirst := Nat.find_spec hfull
    have hleast : ∀ i < Nat.find hfull, ¬ _ < _ := fun i ↦ Nat.find_min hfull
    generalize Nat.find hfull = j at hfirst hleast
    cases j with
    | zero => exact absurd hfirst (Nat.not_lt_zero _)
    | succ j =>
        have hbefore := Nat.le_of_not_lt (hleast j (Nat.lt_succ_self j))
        refine ⟨j, _, .full ?_ hbefore hfirst⟩
        by_contra hlen
        rw [List.take_of_length_le (by omega)] at hfirst hbefore
        omega
  · have hwithin : (expansion records.1).length ≤ maxAcknowledgementPackets := by
      refine Nat.le_of_not_lt fun hlt ↦ hfull ⟨records.1.length, ?_⟩
      rwa [List.take_length]
    refine ⟨_, _, .short ?_ hwithin⟩
    by_contra hlong
    exact h ⟨Bool.eq_false_iff.mpr hlong, hwithin⟩

section InOrder

variable {build : Build} {items : List Item} (horder : InOrder items)

include horder

theorem InOrder.inBounds {item : Item} (hitem : item ∈ items) (n : Nat) : item.InBounds n := by
  cases item with
  | range first last => exact (horder first last hitem).trans (Nat.le_add_left _ n)
  | single packet => trivial
  | unknown => trivial

/-- A record fits when its numbers do. -/
theorem InOrder.fits {item : Item} (hitem : item ∈ items) {n : Nat}
    (h : n + item.expand.length ≤ maxAcknowledgementPackets) : item.Fits n := by
  cases item with
  | range first last =>
      have hle := horder first last hitem
      rw [Item.expand, length_rangeInclusive] at h
      rw [Item.Fits]
      omega
  | single packet => exact h
  | unknown => trivial

/-- Records within the cap are read. -/
theorem InOrder.foldlM_push (packets : List Uint24)
    (h : packets.length + (expansion items).length ≤ maxAcknowledgementPackets) :
    items.foldlM (fun packets item ↦ item.push build packets) packets =
      .ok (packets ++ expansion items) := by
  induction items generalizing packets with
  | nil => exact congrArg Except.ok (List.append_nil packets).symm
  | cons item items ih =>
      rw [expansion_cons, List.length_append, ← Nat.add_assoc] at h
      have hfits := horder.fits List.mem_cons_self ((Nat.le_add_right _ _).trans h)
      have hpush :=
        Item.push_of_fits build (horder.inBounds List.mem_cons_self packets.length) hfits
      rw [List.foldlM_cons, hpush, Checked.ok_bind,
        ih (fun first last hm ↦ horder first last (List.mem_cons_of_mem _ hm)) _
          (by rwa [List.length_append]), expansion_cons, List.append_assoc]

/-- A record that is above the cap ends the reading, unless it is a range and one above. -/
theorem InOrder.foldlM_push_full (hnone : NoneOneAbove items) {pre post : List Item} {item : Item}
    (hsplit : items = pre ++ item :: post)
    (hpre : (expansion pre).length ≤ maxAcknowledgementPackets)
    (hfull : maxAcknowledgementPackets < (expansion (pre ++ [item])).length) :
    (pre ++ [item]).foldlM (fun packets item ↦ item.push build packets) [] =
      err .maxAcknowledgement := by
  have hitem : item ∈ items := hsplit ▸ List.mem_append_right pre List.mem_cons_self
  have hmem : ∀ i ∈ pre, i ∈ items := fun i hi ↦ hsplit ▸ List.mem_append_left _ hi
  have hread := @InOrder.foldlM_push build pre (fun first last h ↦ horder first last (hmem _ h)) []
    (by rwa [List.length_nil, Nat.zero_add])
  have hnot : ¬ item.Fits (expansion pre).length := by
    cases item with
    | range first last =>
        have hle := horder first last hitem
        have hne := hnone pre first last post hsplit
        rw [expansion_append, expansion_cons, expansion_nil, List.append_nil, List.length_append,
          Item.expand, length_rangeInclusive] at hfull hne
        rw [Item.Fits]
        omega
    | single packet =>
        rw [expansion_append, List.length_append] at hfull
        exact Nat.not_le_of_lt hfull
    | unknown =>
        rw [expansion_append, List.length_append] at hfull
        exact absurd hpre (Nat.not_le_of_lt hfull)
  rw [List.foldlM_append, hread, Checked.ok_bind, List.foldlM_cons, List.nil_append,
    Item.push_of_not_fits build (horder.inBounds hitem _) hnot, Checked.error_bind]

end InOrder

/-- The records behind the record count, and the loop over them. -/
theorem exists_parse {b : Bytes} (hb : 2 ≤ b.length) :
    ∃ k body, records b = parse k body ∧
      ∀ build j, readLoop build b j 2 [] = readItems build (parse j body) [] := by
  rcases b with _ | ⟨b0, _ | ⟨b1, body⟩⟩
  · exact absurd hb (by decide)
  · exact absurd hb (by simp)
  · exact ⟨_, body, rfl, fun build j ↦ readLoop_eq build _ j 2 [] hb (Nat.zero_le _)⟩

/-- Bytes with a record have a record count. -/
theorem two_le_length {b : Bytes} {j : Nat} (h : j < (records b).1.length) : 2 ≤ b.length := by
  rcases b with _ | ⟨b0, _ | ⟨b1, body⟩⟩
  · exact absurd h (Nat.not_lt_zero j)
  · exact absurd h (Nat.not_lt_zero j)
  · exact Nat.le_add_left 2 body.length

section Described

variable {build : Build} {b : Bytes} {j : Nat}

/-- The loop over the first records. -/
theorem readLoop_records (hb : 2 ≤ b.length) (hj : j ≤ (records b).1.length) :
    readLoop build b j 2 [] =
      ((records b).1.take j).foldlM (fun packets item ↦ item.push build packets) [] := by
  obtain ⟨k, body, hrecords, hloop⟩ := exists_parse hb
  rw [hrecords] at hj ⊢
  rw [hloop, parse_take hj, readItems]
  exact bind_pure _

variable (horder : InOrder (records b).1)

include horder

/-- The records in front of the first one above the cap are read. -/
theorem InOrder.foldlM_take
    (h : (expansion ((records b).1.take j)).length ≤ maxAcknowledgementPackets) :
    ((records b).1.take j).foldlM (fun packets item ↦ item.push build packets) [] =
      .ok (expansion ((records b).1.take j)) := by
  have hread := @InOrder.foldlM_push build ((records b).1.take j)
    (fun first last hm ↦ horder first last (List.mem_of_mem_take hm)) []
    (by rwa [List.length_nil, Nat.zero_add])
  rwa [List.nil_append] at hread

/-- Reading fails at the first record that is refused. -/
theorem InOrder.failsAt (hnone : NoneOneAbove (records b).1) {e : Error}
    (h : Refused (records b) j e) : FailsAt build b j e := by
  cases h with
  | full hj hpre hfull =>
      have hb := two_le_length hj
      have htake := List.take_succ_eq_append_getElem hj
      have hsplit : (records b).1 =
          (records b).1.take j ++ (records b).1[j] :: (records b).1.drop (j + 1) := by
        rw [← List.drop_eq_getElem_cons hj, List.take_append_drop]
      rw [htake] at hfull
      have hfail := @foldlM_push_full build _ horder hnone _ _ _ hsplit hpre hfull
      rw [← htake] at hfail
      refine ⟨?_, ?_, fun _ ↦ ?_⟩
      · rw [read_eq, readItems, ← List.take_append_drop (j + 1) (records b).1, List.foldlM_append,
          hfail]
        rfl
      · rw [readLoop_records hb hj.le, horder.foldlM_take hpre]
      · rw [readLoop_records hb hj, hfail]
  | short hshort hwithin =>
      have hread := @foldlM_push build _ horder [] (by rwa [List.length_nil, Nat.zero_add])
      have hend : readItems build (records b) [] = err .unexpectedEof := by
        rw [readItems, hread, hshort]
        rfl
      refine ⟨?_, ?_, fun hb ↦ ?_⟩
      · rw [read_eq, hend]
        rfl
      · by_cases hb : 2 ≤ b.length
        · rw [readLoop_records hb le_rfl, List.take_length, hread]
          rfl
        · have hnil : (records b).1 = [] := by
            rw [← List.length_eq_zero_iff]
            exact Nat.eq_zero_of_not_pos fun hpos ↦ hb (two_le_length hpos)
          rw [hnil]
          rfl
      · obtain ⟨k, body, hrecords, hloop⟩ := exists_parse hb
        rw [hrecords] at hshort hend ⊢
        rw [hloop, parse_truncated hshort, hend]

/-- A reader that is as described meets no range that takes the numbers one above the cap: the range
would have to be refused, and is read. -/
theorem InOrder.noneOneAbove (h : ReadAsDescribed build b) : NoneOneAbove (records b).1 := by
  intro pre first last post hsplit htotal
  have hlen : (expansion pre).length + (last.value + 1 - first.value) =
      maxAcknowledgementPackets + 1 := by
    rwa [expansion_append, expansion_cons, expansion_nil, List.append_nil, List.length_append,
      Item.expand, length_rangeInclusive] at htotal
  have hpre : (expansion pre).length ≤ maxAcknowledgementPackets := by
    have hle := horder first last (hsplit ▸ List.mem_append_right pre List.mem_cons_self)
    omega
  have hj : pre.length < (records b).1.length := by
    rw [hsplit, List.length_append, List.length_cons]
    omega
  have htake : (records b).1.take pre.length = pre := by rw [hsplit, List.take_left]
  have htake' : (records b).1.take (pre.length + 1) = pre ++ [.range first last] := by
    rw [hsplit, List.take_append, List.take_of_length_le (Nat.le_succ _), Nat.add_sub_cancel_left]
    rfl
  have hrefused : Refused (records b) pre.length .maxAcknowledgement :=
    .full hj (by rwa [htake]) (by rw [htake', htotal]; exact Nat.lt_succ_self _)
  have hb := two_le_length hj
  have hbehind := (h.fails _ _ hrefused).behind hb
  -- but the reader counts the range for one less
  have hpush : (Item.range first last).push build (expansion pre) =
      .ok (expansion pre ++ (Item.range first last).expand) := by
    refine Item.push_of_fits build (horder.inBounds (hsplit ▸ by simp) _) ?_
    rw [Item.Fits]
    omega
  have hread := @InOrder.foldlM_take build b pre.length horder (by rwa [htake])
  rw [htake] at hread
  rw [readLoop_records hb hj, htake', List.foldlM_append, hread, Checked.ok_bind,
    List.foldlM_cons, hpush] at hbehind
  cases hbehind

/-- Without such a range the reader is as described. -/
theorem InOrder.readAsDescribed (hnone : NoneOneAbove (records b).1) :
    ReadAsDescribed build b := by
  have hok : (records b).2 = false ∧
      (expansion (records b).1).length ≤ maxAcknowledgementPackets →
        read build new b = .ok ⟨expansion (records b).1⟩ := by
    rintro ⟨hlong, hwithin⟩
    have hread := @InOrder.foldlM_push build _ horder [] (by rwa [List.length_nil, Nat.zero_add])
    rw [read_eq, readItems, hread, hlong]
    rfl
  have hiff (ack : Acknowledgement) : read build new b = .ok ack ↔
      ((records b).2 = false ∧ (expansion (records b).1).length ≤ maxAcknowledgementPackets) ∧
        ack = ⟨expansion (records b).1⟩ := by
    refine ⟨fun hack ↦ ?_, fun ⟨hall, hack⟩ ↦ hack ▸ hok hall⟩
    by_cases hall : (records b).2 = false ∧
        (expansion (records b).1).length ≤ maxAcknowledgementPackets
    · exact ⟨hall, Except.ok.inj (hack.symm.trans (hok hall))⟩
    · obtain ⟨j, e, hrefused⟩ := exists_refused hall
      have hfail := (@InOrder.failsAt build b j horder hnone e hrefused).read_eq
      rw [hack] at hfail
      cases hfail
  refine ⟨hiff, fun j e h ↦ horder.failsAt hnone h, fun ack hack ↦ ?_⟩
  obtain ⟨⟨-, hwithin⟩, rfl⟩ := (hiff ack).mp hack
  exact hwithin

end Described

/-- **The reader is as described iff no range takes it one above the cap.**  For any bytes whose
ranges do not run backwards, `Acknowledgement::read` gives all numbers of the records when the bytes
hold them and they are within the cap, and fails at the first record that is not there or takes the
numbers above it; all this exactly when no range takes the numbers exactly one above the cap. -/
theorem read_described_iff (build : Build) (b : Bytes) (horder : InOrder (records b).1) :
    ReadAsDescribed build b ↔ NoneOneAbove (records b).1 :=
  ⟨horder.noneOneAbove, horder.readAsDescribed⟩

/-- A range, a record of an unknown type and a single number. -/
theorem read_described_three :
    InOrder (records [0, 3, 0, 7, 0, 0, 9, 0, 0, 5, 1, 2, 3, 1, 20, 0, 0]).1 ∧
      (ReadAsDescribed .debug [0, 3, 0, 7, 0, 0, 9, 0, 0, 5, 1, 2, 3, 1, 20, 0, 0] ↔
        NoneOneAbove (records [0, 3, 0, 7, 0, 0, 9, 0, 0, 5, 1, 2, 3, 1, 20, 0, 0]).1) := by
  have hrecords : (records [0, 3, 0, 7, 0, 0, 9, 0, 0, 5, 1, 2, 3, 1, 20, 0, 0]).1 =
      [.range (.new 7) (.new 9), .unknown, .single (.new 20)] := by decide
  have horder : InOrder (records [0, 3, 0, 7, 0, 0, 9, 0, 0, 5, 1, 2, 3, 1, 20, 0, 0]).1 := by
    intro first last h
    rw [hrecords] at h
    obtain ⟨rfl, rfl⟩ : first = .new 7 ∧ last = .new 9 := by simpa using h
    decide
  exact ⟨horder, read_described_iff _ _ horder⟩

/-- The range from 0 to 8192 is read, and holds one number more than the cap. -/
theorem read_above_cap :
    InOrder (records [0, 1, 0, 0, 0, 0, 0, 32, 0]).1 ∧
      ¬ ReadAsDescribed .debug [0, 1, 0, 0, 0, 0, 0, 32, 0] := by
  have hrecords : records [0, 1, 0, 0, 0, 0, 0, 32, 0] =
      ([.range (.new 0) (.new 8192)], false) := by decide
  have hread : read .debug new [0, 1, 0, 0, 0, 0, 0, 32, 0] =
      .ok ⟨rangeInclusive (.new 0) (.new 8192)⟩ := by
    rw [read_eq, hrecords]
    rfl
  rw [hrecords]
  refine ⟨fun first last h ↦ ?_, fun h ↦ ?_⟩
  · obtain ⟨rfl, rfl⟩ : first = .new 0 ∧ last = .new 8192 := by simpa using h
    decide
  · have hwithin := h.within _ hread
    rw [length_rangeInclusive] at hwithin
    exact absurd hwithin (by decide)

end Ragnet.Acknowledgement

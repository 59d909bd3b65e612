import Ragnet.Conn.Invariants
import Ragnet.Conn.Stream
import Ragnet.Lib.Slots

/-!
# Completing an open reassembly

Which open entries can still be completed.  The limit on the number of entries is tested before the
entry of a fragment is looked up, so beyond it no fragment is taken any more, whatever entry it
belongs to.
-/

namespace Ragnet.Conn

open Proc Wire

/-! ## The open entries -/

/-- An open entry is not larger than the limit, and it is waiting for a fragment unless it has no
slots at all. -/
structure Waiting (slots : List Bytes) : Prop where
  length_le : slots.length ≤ 512
  nil_mem : slots = [] ∨ [] ∈ slots

/-- The open entries of a receiver that has limits. -/
def EntriesWait (c : Conn) : Prop :=
  ∀ id slots, c.state.splits.lookup id = some slots → Waiting slots

section Entries

variable {build : Build} {handler : ConnectionHandler} {c : Conn} {pk : Packet}

theorem EntriesWait.insert (h : EntriesWait c) {id : UInt16} {slots : List Bytes}
    (hslots : Waiting slots) :
    EntriesWait { c with state.splits := c.state.splits.insert id slots } := by
  intro id' slots' hl
  rw [HashMap.lookup_insert_eq] at hl
  split at hl
  · obtain rfl := Option.some.inj hl
    exact hslots
  · exact h id' slots' hl

/-- The entry that a fragment opens or finds. -/
theorem EntriesWait.fragmentsOf (h : EntriesWait c) (hlimits : handler.limitsEnabled = true)
    (hlim : ¬ SplitLimited handler c.state.splits pk) :
    Waiting (fragmentsOf c.state.splits pk) := by
  rw [Conn.fragmentsOf]
  cases hl : c.state.splits.lookup pk.splitId with
  | some slots => exact h _ slots hl
  | none =>
      have hcount : pk.splitCount ≤ maxSplitCount :=
        UInt32.not_lt.mp fun hgt ↦ hlim ⟨Or.inl hgt, hlimits⟩
      refine ⟨?_, ?_⟩
      · rw [List.length_replicate]
        exact UInt32.le_iff_toNat_le.mp hcount
      · rcases Nat.eq_zero_or_pos pk.splitCount.toNat with hzero | hpos
        · rw [hzero]
          exact Or.inl rfl
        · exact Or.inr (List.mem_replicate.mpr ⟨hpos.ne', rfl⟩)

theorem EntriesWait.reassemble (h : EntriesWait c) (hlimits : handler.limitsEnabled = true) :
    EntriesWait (reassemble build handler pk c).1 := by
  by_cases hlim : SplitLimited handler c.state.splits pk
  · obtain ⟨text, hr⟩ := reassemble_limited build hlim
    rw [hr]
    exact h
  have hwait := h.fragmentsOf hlimits hlim
  rw [reassemble_open build hlim]
  split
  · exact h.insert hwait
  split
  · next hempty =>
    refine h.insert ⟨?_, Or.inr (any_isEmpty_iff.mp hempty)⟩
    rw [filled, List.length_set]
    exact hwait.length_le
  · intro id slots hl
    rw [HashMap.lookup_erase_eq] at hl
    split at hl
    · cases hl
    · exact h id slots hl

/-- A predicate about the open entries alone is kept when putting a fragment into its entry keeps
it. -/
theorem kept_splits {P : HashMap UInt16 (List Bytes) → Prop}
    (h : ∀ pk c, P c.state.splits → P (Conn.reassemble build handler pk c).1.state.splits) :
    Kept build handler fun c ↦ P c.state.splits where
  congr c c' hc _ hi := by
    have hsame : c'.state.splits = c.state.splits := congrArg Delivery.splits hc
    rwa [hsame]
  readPacket data := ((readPacket_frame build data).comp fun c ↦ c.state.splits).preserves
    fun _ _ hc hi ↦ by rwa [hc]
  orderPacket pk := ((orderPacket_frame build handler pk).comp fun c ↦ c.state.splits).preserves
    fun _ _ hc hi ↦ by rwa [hc]
  reassemble pk := h pk
  handlePacket content := ((handlePacket_frame handler content).comp
    fun c ↦ c.state.splits).preserves fun _ _ hc hi ↦ by rwa [hc]

theorem splits_congr {P : HashMap UInt16 (List Bytes) → Prop} {c c' : Conn}
    (hc : c'.delivery = c.delivery) (h : P c.state.splits) : P c'.state.splits := by
  have hsame : c'.state.splits = c.state.splits := congrArg Delivery.splits hc
  rwa [hsame]

theorem entriesWait_of_reachable (hlimits : handler.limitsEnabled = true)
    (hc : (calls build handler).Reachable c) : EntriesWait c := by
  let P (splits : HashMap UInt16 (List Bytes)) : Prop :=
    ∀ id slots, splits.lookup id = some slots → Waiting slots
  have hkept : Kept build handler fun c ↦ P c.state.splits :=
    kept_splits fun pk c hi ↦ EntriesWait.reassemble hi hlimits
  refine hkept.reachable (fun c c' ↦ splits_congr) (fun mtu id slots hl ↦ ?_) hc
  rw [new, newState, Finmap.lookup_empty] at hl
  cases hl

/-- Beyond the limit no call changes the open entries. -/
theorem splits_of_call (hlimits : handler.limitsEnabled = true)
    {splits : HashMap UInt16 (List Bytes)} (hlen : splits.len > maxConcurrentSplits) (call : Call)
    (hc : c.state.splits = splits) : (call.run build handler c).state.splits = splits := by
  let P (splits' : HashMap UInt16 (List Bytes)) : Prop := splits' = splits
  have hkept : Kept build handler fun d ↦ P d.state.splits := by
    refine @kept_splits build handler P fun pk d hd ↦ ?_
    have hfull : SplitLimited handler d.state.splits pk := by
      refine ⟨Or.inr ?_, hlimits⟩
      rw [show d.state.splits = splits from hd]
      exact hlen
    obtain ⟨text, hr⟩ := reassemble_limited build hfull
    rw [hr]
    exact hd
  exact hkept.call (fun d d' ↦ splits_congr (P := P)) call hc

/-- So they stay as they are in every later state. -/
theorem splits_of_run {c' : Conn} (hlimits : handler.limitsEnabled = true)
    (hlen : c.state.splits.len > maxConcurrentSplits) {as : List Call}
    (h : (calls build handler).Run c as c') : c'.state.splits = c.state.splits := by
  induction h with
  | nil => rfl
  | snoc _ hs ih =>
      rw [hs]
      exact splits_of_call hlimits hlen _ ih

end Entries

/-! ## The missing fragments -/

/-- Fragments for the empty slots of an entry, one for each, in any order. -/
structure Missing (id : UInt16) (slots : List Bytes) (pks : List Packet) : Prop where
  splitId : ∀ pk ∈ pks, pk.splitId = id
  splitCount : ∀ pk ∈ pks, pk.splitCount.toNat = slots.length
  content : ∀ pk ∈ pks, pk.content ≠ []
  indices : (pks.map fun pk ↦ pk.splitIndex.toNat).Perm (Slots.missing [] slots)

/-- The slots with the fragments in them. -/
def filledAll (slots : List Bytes) (pks : List Packet) : List Bytes :=
  pks.foldl (fun slots pk ↦ slots.set pk.splitIndex.toNat pk.content) slots

/-- The connection that has received the fragments one after the other. -/
def deliver (build : Build) (handler : ConnectionHandler) (pks : List Packet) (self : Conn) :
    Conn :=
  pks.foldl (fun c pk ↦ (receiveSplitPacket build handler pk c).1) self

/-- From `c` to `c'`, the reassembly under a split id is completed. -/
structure Completed (c c' : Conn) (id : UInt16) (fragments : List Bytes) : Prop where
  splits : c'.state.splits = c.state.splits.erase id
  reassembled : ∃ pk, c'.reassembled = c.reassembled ++ [pk] ∧ pk.content = fragments.flatten

/-- Whatever the order in which the missing fragments of an entry arrive, they complete it. -/
def Drains (build : Build) (handler : ConnectionHandler) (c : Conn) (id : UInt16)
    (slots : List Bytes) : Prop :=
  ∀ pks, Missing id slots pks → Completed c (deliver build handler pks c) id (filledAll slots pks)

section Drains

variable {build : Build} {handler : ConnectionHandler} {c : Conn} {id : UInt16}
  {slots : List Bytes} {pk : Packet} {pks : List Packet}

/-- There are fragments as long as a slot is empty. -/
theorem Missing.nil_mem_iff (h : Missing id slots pks) : [] ∈ slots ↔ pks ≠ [] := by
  rw [← not_iff_not, ← Slots.missing_eq_nil_iff, not_not]
  have hperm := h.indices
  constructor
  · intro hm
    rw [hm] at hperm
    exact List.map_eq_nil_iff.mp hperm.eq_nil
  · rintro rfl
    exact hperm.nil_eq.symm

/-- What is left when the first of the missing fragments is in its slot. -/
theorem Missing.tail (h : Missing id slots (pk :: pks)) :
    Missing id (slots.set pk.splitIndex.toNat pk.content) pks := by
  have hmem : pk.splitIndex.toNat ∈ Slots.missing [] slots :=
    h.indices.mem_iff.mp (List.mem_map.mpr ⟨pk, List.mem_cons_self .., rfl⟩)
  refine ⟨fun pk' hpk' ↦ h.splitId pk' (List.mem_cons_of_mem _ hpk'), fun pk' hpk' ↦ ?_,
    fun pk' hpk' ↦ h.content pk' (List.mem_cons_of_mem _ hpk'), ?_⟩
  · rw [List.length_set]
    exact h.splitCount pk' (List.mem_cons_of_mem _ hpk')
  · refine List.Perm.trans ?_ (Slots.missing_set hmem (h.content pk (List.mem_cons_self ..))).symm
    have herase := h.indices.erase pk.splitIndex.toNat
    rwa [List.map_cons, List.erase_cons_head] at herase

/-- One fragment of an open entry that the limit does not refuse. -/
theorem reassemble_missing (hopen : c.state.splits.lookup id = some slots)
    (hlen : c.state.splits.len ≤ maxConcurrentSplits) (hslots : slots.length ≤ 512)
    (h : Missing id slots (pk :: pks)) :
    reassemble build handler pk c =
      if pks = [] then
        ({ c with
            state.splits := c.state.splits.erase id
            reassembled := c.reassembled ++
              [combinedPacket pk (slots.set pk.splitIndex.toNat pk.content)] },
          .ok (some (combinedPacket pk (slots.set pk.splitIndex.toNat pk.content))))
      else
        ({ c with state.splits :=
            c.state.splits.insert id (slots.set pk.splitIndex.toNat pk.content) },
          .ok none) := by
  have hid : pk.splitId = id := h.splitId pk (List.mem_cons_self ..)
  have hcount := h.splitCount pk (List.mem_cons_self ..)
  have hmem : pk.splitIndex.toNat ∈ Slots.missing [] slots :=
    h.indices.mem_iff.mp (List.mem_map.mpr ⟨pk, List.mem_cons_self .., rfl⟩)
  have hlt : pk.splitIndex.toNat < slots.length :=
    (List.getElem?_eq_some_iff.mp (Slots.mem_missing.mp hmem)).1
  have hlim : ¬ SplitLimited handler c.state.splits pk :=
    not_splitLimited_of_le (hcount.trans_le hslots) hlen
  have hfragments : fragmentsOf c.state.splits pk = slots := by
    rw [fragmentsOf, hid, hopen]
  rw [reassemble_slots build hlim hfragments (hslots.trans_lt (by decide)) hlt, hid]
  by_cases hpks : pks = []
  · rw [if_neg (fun he ↦ h.tail.nil_mem_iff.mp he hpks), if_pos hpks]
  · rw [if_pos (h.tail.nil_mem_iff.mpr hpks), if_neg hpks]

theorem deliver_cons (pks : List Packet) :
    deliver build handler (pk :: pks) c =
      deliver build handler pks (receiveSplitPacket build handler pk c).1 := rfl

/-- Below the limit the missing fragments complete their entry. -/
theorem drains_of_le (hopen : c.state.splits.lookup id = some slots)
    (hlen : c.state.splits.len ≤ maxConcurrentSplits) (hslots : slots.length ≤ 512)
    (hnil : [] ∈ slots) : Drains build handler c id slots := by
  intro pks hpks
  -- the induction is on the fragments that are still to come
  induction pks generalizing c slots with
  | nil => exact absurd rfl (hpks.nil_mem_iff.mp hnil)
  | cons pk pks ih =>
      have hr := @reassemble_missing build handler c id slots pk pks hopen hlen hslots hpks
      obtain ⟨hsplits, hreassembled⟩ := receiveSplitPacket_fst build handler pk c
      rw [deliver_cons, filledAll, List.foldl_cons, ← filledAll]
      generalize hc₁ : (receiveSplitPacket build handler pk c).1 = c₁
      by_cases hlast : pks = []
      · rw [if_pos hlast] at hr
        rw [hc₁, hr] at hsplits hreassembled
        subst hlast
        exact ⟨hsplits, _, hreassembled, rfl⟩
      · rw [if_neg hlast] at hr
        rw [hc₁, hr] at hsplits hreassembled
        dsimp only at hsplits hreassembled
        have hrest := @ih c₁ (slots.set pk.splitIndex.toNat pk.content)
          (by rw [hsplits, Finmap.lookup_insert])
          (by rwa [hsplits, HashMap.len_insert_of_mem (Finmap.mem_of_lookup_eq_some hopen)])
          (by rw [List.length_set]; exact hslots)
          (hpks.tail.nil_mem_iff.mpr hlast) hpks.tail
        obtain ⟨hfinal, pk', hcombined, hcontent⟩ := hrest
        refine ⟨?_, pk', ?_, hcontent⟩
        · rw [hfinal, hsplits, HashMap.erase_insert]
        · rw [hcombined, hreassembled]

/-- There are fragments for the missing slots. -/
theorem exists_missing (id : UInt16) (hslots : slots.length ≤ 512) :
    ∃ pks, Missing id slots pks := by
  let fragment (i : Nat) : Packet :=
    { Packet.new with
      content := [0]
      split := true
      splitCount := UInt32.ofNat slots.length
      splitIndex := UInt32.ofNat i
      splitId := id }
  refine ⟨(Slots.missing [] slots).map fragment, ?_, ?_, ?_, ?_⟩
  · intro pk hpk
    obtain ⟨i, -, rfl⟩ := List.mem_map.mp hpk
    rfl
  · intro pk hpk
    obtain ⟨i, -, rfl⟩ := List.mem_map.mp hpk
    exact UInt32.toNat_ofNat_of_lt' (hslots.trans_lt (by decide))
  · intro pk hpk
    obtain ⟨i, -, rfl⟩ := List.mem_map.mp hpk
    exact List.cons_ne_nil _ _
  · rw [List.map_map]
    refine List.Perm.of_eq ((List.map_congr_left fun i hi ↦ ?_).trans (List.map_id _))
    have hlt := (List.getElem?_eq_some_iff.mp (Slots.mem_missing.mp hi)).1
    exact UInt32.toNat_ofNat_of_lt' ((hlt.trans_le hslots).trans (by decide))

/-- Beyond the limit all fragments are refused. -/
theorem deliver_limited (hlimits : handler.limitsEnabled = true)
    (hlen : c.state.splits.len > maxConcurrentSplits) (pks : List Packet) :
    deliver build handler pks c = c := by
  induction pks with
  | nil => rfl
  | cons pk pks ih =>
      obtain ⟨text, hr⟩ := @reassemble_limited build handler c pk ⟨Or.inr hlen, hlimits⟩
      have hrefused : receiveSplitPacket build handler pk c =
          (c, .error (.error (.splitPacket text))) := by
        rw [receiveSplitPacket, bind_error hr]
      rw [deliver_cons, hrefused]
      exact ih

/-- **When an open reassembly can be completed.**  In every reachable state, the missing fragments
of an open entry complete it, in whatever order they arrive, exactly when no more than 16 entries
are open and the entry has any slots. -/
theorem drains_iff (hc : (calls build handler).Reachable c)
    (hlimits : handler.limitsEnabled = true) (hopen : c.state.splits.lookup id = some slots) :
    Drains build handler c id slots ↔
      c.state.splits.len ≤ maxConcurrentSplits ∧ slots ≠ [] := by
  have hwait := entriesWait_of_reachable hlimits hc id slots hopen
  constructor
  · intro hdrains
    obtain ⟨pks, hpks⟩ := exists_missing id hwait.length_le
    have hdone := (hdrains pks hpks).splits
    -- the entry is not there any more once it is completed
    have hclosed (h : deliver build handler pks c = c) : False := by
      rw [h] at hdone
      rw [hdone, Finmap.lookup_erase] at hopen
      cases hopen
    refine ⟨Nat.le_of_not_lt fun hlen ↦ hclosed (deliver_limited hlimits hlen pks), ?_⟩
    rintro rfl
    have hnone := hpks.indices.eq_nil
    rw [List.map_eq_nil_iff.mp hnone] at hclosed
    exact hclosed rfl
  · rintro ⟨hlen, hne⟩
    exact drains_of_le hopen hlen hwait.length_le (hwait.nil_mem.resolve_left hne)

end Drains

/-! ## Seventeen open entries -/

/-- The first of two fragments of a message. -/
def opening (id : UInt16) : Packet :=
  { Packet.new with content := [7], split := true, splitCount := 2, splitId := id }

/-- The first fragments of `n` messages have arrived. -/
structure Opened (n : Nat) (c : Conn) : Prop where
  pk : c.state.pk = Packet.new
  win : c.state.win = .expecting n
  len : c.state.splits.len = n
  lookup : ∀ id, c.state.splits.lookup id = if id.toNat < n then some [[7], []] else none

section Opened

variable {build : Build} {handler : ConnectionHandler} {n : Nat} {c : Conn}

theorem reassemble_opening {id : UInt16} (hnone : c.state.splits.lookup id = none)
    (hlen : c.state.splits.len ≤ maxConcurrentSplits) :
    reassemble build handler (opening id) c =
      ({ c with state.splits := c.state.splits.insert id [[7], []] }, .ok none) := by
  have hlim : ¬ SplitLimited handler c.state.splits (opening id) :=
    not_splitLimited_of_le (by decide : 2 ≤ 512) hlen
  have hfragments : fragmentsOf c.state.splits (opening id) = [[], []] := by
    rw [fragmentsOf, show (opening id).splitId = id from rfl, hnone]
    rfl
  exact reassemble_slots build hlim hfragments (by decide : 2 < 2 ^ 32) (by decide : 0 < 2)

theorem Opened.next (h : Opened n c) (hn : n ≤ maxConcurrentSplits) (env : Env) :
    Opened (n + 1)
      (Conn.receive build handler env (datagram (number n) (opening (UInt16.ofNat n))) c).1 := by
  have hlt : n < 2 ^ 16 := hn.trans_lt (by decide)
  have hnone : c.state.splits.lookup (UInt16.ofNat n) = none := by
    rw [h.lookup, UInt16.toNat_ofNat_of_lt' hlt, if_neg (Nat.lt_irrefl n)]
  obtain ⟨nacks, hwin, hrecv⟩ := @receive_next build handler env n c (opening (UInt16.ofNat n))
    h.pk h.win (by omega) ⟨(by decide : reliabilityReliableOrdered.toNat < 8),
      List.cons_ne_nil _ _, (by decide : [(7 : UInt8)].length < 2 ^ 13)⟩ rfl
  have htake : takePacket build handler (opening (UInt16.ofNat n))
      (c.awaiting env.clock (number n) nacks) =
        ({ c.awaiting env.clock (number n) nacks with
          state.splits := c.state.splits.insert (UInt16.ofNat n) [[7], []] }, .ok ()) := by
    have hr := @reassemble_opening build handler (c.awaiting env.clock (number n) nacks)
      (UInt16.ofNat n) hnone (h.len.trans_le hn)
    have hsplit : takePacket build handler (opening (UInt16.ofNat n)) =
        receiveSplitPacket build handler (opening (UInt16.ofNat n)) := if_pos rfl
    rw [hsplit, receiveSplitPacket, bind_ok hr]
    rfl
  rw [hrecv, htake]
  refine ⟨rfl, hwin, ?_, fun id ↦ ?_⟩
  · change HashMap.len (c.state.splits.insert (UInt16.ofNat n) [[7], []]) = n + 1
    rw [HashMap.len_insert_of_notMem (Finmap.lookup_eq_none.mp hnone), h.len]
  · change (c.state.splits.insert (UInt16.ofNat n) [[7], []]).lookup id = _
    rw [HashMap.lookup_insert_eq, h.lookup]
    have hid : id = UInt16.ofNat n ↔ id.toNat = n := by
      rw [← UInt16.toNat_inj, UInt16.toNat_ofNat_of_lt' hlt]
    by_cases he : id = UInt16.ofNat n
    · rw [if_pos he, if_pos (Nat.lt_succ_of_le (hid.mp he).le)]
    · rw [if_neg he]
      have hne : id.toNat ≠ n := fun h ↦ he (hid.mpr h)
      exact if_congr (by omega) rfl rfl

theorem exists_opened (build : Build) (handler : ConnectionHandler) {n : Nat}
    (hn : n ≤ maxConcurrentSplits + 1) :
    ∃ c, (calls build handler).Reachable c ∧ Opened n c := by
  induction n with
  | zero =>
      refine ⟨new 1492, .init ⟨1492, rfl⟩, rfl, rfl, rfl, fun id ↦ ?_⟩
      rw [if_neg (Nat.not_lt_zero _)]
      rfl
  | succ n ih =>
      obtain ⟨c, hc, hopened⟩ := ih (Nat.le_of_succ_le hn)
      have hnext := @Opened.next build handler n c hopened (Nat.le_of_succ_le_succ hn)
        .calm
      exact ⟨_, .step (a := .receive _ _) hc rfl, hnext⟩

end Opened

/-- One entry is open, and it can be completed. -/
theorem drains_iff_one : ∃ c,
    (calls .debug .forwarding).Reachable c ∧
      Drains .debug .forwarding c 0 [[7], []] := by
  obtain ⟨c, hc, hopened⟩ := exists_opened .debug .forwarding
    (show 1 ≤ maxConcurrentSplits + 1 by decide)
  have hlookup : c.state.splits.lookup 0 = some [[7], []] :=
    (hopened.lookup 0).trans (if_pos (by decide))
  refine ⟨c, hc, (drains_iff hc rfl hlookup).mpr ⟨?_, List.cons_ne_nil _ _⟩⟩
  rw [hopened.len]
  decide

/-- With seventeen entries open, none of them can be completed, then or later. -/
theorem drains_never : ∃ c,
    (calls .debug .forwarding).Reachable c ∧
      c.state.splits.lookup 0 = some [[7], []] ∧
      ∀ as c', (calls .debug .forwarding).Run c as c' →
        c'.state.splits.lookup 0 = some [[7], []] ∧
          ¬ Drains .debug .forwarding c' 0 [[7], []] := by
  obtain ⟨c, hc, hopened⟩ := exists_opened .debug .forwarding
    (show 17 ≤ maxConcurrentSplits + 1 by decide)
  have hlookup : c.state.splits.lookup 0 = some [[7], []] :=
    (hopened.lookup 0).trans (if_pos (by decide))
  have hlen : c.state.splits.len > maxConcurrentSplits := by
    rw [hopened.len]
    decide
  refine ⟨c, hc, hlookup, fun as c' hrun ↦ ?_⟩
  have hsame := splits_of_run rfl hlen hrun
  have hlookup' : c'.state.splits.lookup 0 = some [[7], []] := by rw [hsame, hlookup]
  refine ⟨hlookup', fun hdrains ↦ ?_⟩
  obtain ⟨pks, hpks⟩ :=
    exists_missing (0 : UInt16) (show [[(7 : UInt8)], []].length ≤ 512 by decide)
  have hdone := (hdrains pks hpks).splits
  rw [deliver_limited rfl (hsame ▸ hlen)] at hdone
  rw [hdone, Finmap.lookup_erase] at hlookup'
  cases hlookup'

end Ragnet.Conn

import Ragnet.Conn.Completion

/-!
# How much a peer can make a receiver keep

`receive_split_packet` limits the number of fragments of a packet and the number of open entries.
It tests the number of entries with `>` before it opens one more, and it opens an entry for a packet
that announces no fragments at all, so both bounds can be missed by one.
-/

namespace Ragnet.Conn

open Proc Wire

/-! ## Runs of fragments -/

/-- All sequences of fragments on a new connection, with any calls in between that leave the entries
alone. -/
def splitting (build : Build) (handler : ConnectionHandler) : Lts Conn (Option Packet) where
  init c := ∃ mtu, c = new mtu
  step c label c' := match label with
    | none => c'.state.splits = c.state.splits
    | some pk => c'.state.splits = (receiveSplitPacket build handler pk c).1.state.splits

section Splitting

variable {build : Build} {handler : ConnectionHandler} {c : Conn}

/-- Whatever is called on a connection, its entries change by fragments. -/
theorem splitting_of_reachable (hc : (calls build handler).Reachable c) :
    (splitting build handler).Reachable c := by
  let I (c : Conn) : Prop := (splitting build handler).Reachable c
  have hquiet {c c' : Conn} (hs : c'.state.splits = c.state.splits) (hi : I c) : I c' :=
    .step (a := none) hi hs
  have hkept : Kept build handler I :=
    { congr := fun c c' hc _ ↦ hquiet (congrArg Delivery.splits hc)
      readPacket := fun data ↦ ((readPacket_frame build data).comp
        fun c ↦ c.state.splits).preserves fun _ _ hc ↦ hquiet hc
      orderPacket := fun pk ↦ ((orderPacket_frame build handler pk).comp
        fun c ↦ c.state.splits).preserves fun _ _ hc ↦ hquiet hc
      reassemble := fun pk c hi ↦
        .step (a := some pk) hi (receiveSplitPacket_fst build handler pk c).1.symm
      handlePacket := fun content ↦ ((handlePacket_frame handler content).comp
        fun c ↦ c.state.splits).preserves fun _ _ hc ↦ hquiet hc }
  exact hkept.reachable (fun c c' hc ↦ hquiet (congrArg Delivery.splits hc))
    (fun mtu ↦ .init ⟨mtu, rfl⟩) hc

end Splitting

/-! ## The limits -/

/-- An entry that is kept within the limits: it has between 1 and `MAX_SPLIT_COUNT` slots, and one
of them is empty. -/
structure Pending (slots : List Bytes) : Prop where
  length_pos : 1 ≤ slots.length
  length_le : slots.length ≤ maxSplitCount.toNat
  nil_mem : [] ∈ slots

/-- What a receiver keeps is within the limits. -/
structure LimitsHold (c : Conn) : Prop where
  len_le : c.state.splits.len ≤ maxConcurrentSplits
  pending : ∀ id slots, c.state.splits.lookup id = some slots → Pending slots

/-- A fragment that is a message of its own, so that its entry is completed at once. -/
def Alone (pk : Packet) : Prop := pk.splitCount = 1 ∧ pk.splitIndex = 0 ∧ pk.content ≠ []

/-- There is room for the entry of a fragment: it announces a fragment, and fewer than
`MAX_CONCURRENT_SPLITS` entries are open. -/
def HasRoom (c : Conn) (pk : Packet) : Prop :=
  0 < pk.splitCount.toNat ∧ c.state.splits.len < maxConcurrentSplits

/-- A fragment that opens an entry has room for it or is alone. -/
def KeepsLimits (c : Conn) (pk : Packet) : Prop :=
  pk.splitId ∉ c.state.splits → pk.splitCount ≤ maxSplitCount → HasRoom c pk ∨ Alone pk

variable {build : Build} {handler : ConnectionHandler} {c : Conn} {pk : Packet}

theorem limitsHold_new (mtu : Nat) : LimitsHold (new mtu) := by
  refine ⟨Nat.zero_le _, fun id slots hl ↦ ?_⟩
  rw [new, newState, Finmap.lookup_empty] at hl
  cases hl

/-- The limits are about the entries alone. -/
theorem LimitsHold.congr (h : LimitsHold c) {c' : Conn}
    (hc : c'.state.splits = c.state.splits) : LimitsHold c' := by
  refine ⟨?_, ?_⟩
  · rw [hc]
    exact h.len_le
  · rw [hc]
    exact h.pending

/-- The limit on their number refuses no fragment while the limits hold. -/
theorem LimitsHold.splitLimited_iff (h : LimitsHold c) (hlimits : handler.limitsEnabled = true) :
    SplitLimited handler c.state.splits pk ↔ ¬ pk.splitCount ≤ maxSplitCount := by
  rw [UInt32.not_le]
  constructor
  · rintro ⟨hcount | hlen, -⟩
    · exact hcount
    · exact absurd hlen (Nat.not_lt_of_le h.len_le)
  · exact fun hcount ↦ ⟨Or.inl hcount, hlimits⟩

/-- An entry that is kept within the limits may be replaced. -/
theorem LimitsHold.replace (h : LimitsHold c) {slots slots' : List Bytes} {id : UInt16}
    (hopen : c.state.splits.lookup id = some slots) (hslots : Pending slots') {c' : Conn}
    (hc : c'.state.splits = c.state.splits.insert id slots') : LimitsHold c' := by
  refine ⟨?_, fun id' slots'' hl ↦ ?_⟩
  · rw [hc, HashMap.len_insert_of_mem (Finmap.mem_of_lookup_eq_some hopen)]
    exact h.len_le
  · rw [hc, HashMap.lookup_insert_eq] at hl
    split at hl
    · rw [← Option.some.inj hl]
      exact hslots
    · exact h.pending id' slots'' hl

/-- Opening an entry keeps the limits exactly when it is within them and fewer than
`MAX_CONCURRENT_SPLITS` are open. -/
theorem LimitsHold.open_iff (h : LimitsHold c) {slots : List Bytes} {id : UInt16}
    (hnone : id ∉ c.state.splits) {c' : Conn}
    (hc : c'.state.splits = c.state.splits.insert id slots) :
    LimitsHold c' ↔ Pending slots ∧ c.state.splits.len < maxConcurrentSplits := by
  have hlen : c'.state.splits.len = c.state.splits.len + 1 := by
    rw [hc, HashMap.len_insert_of_notMem hnone]
  constructor
  · intro h'
    have hle := h'.len_le
    rw [hlen] at hle
    refine ⟨h'.pending id slots ?_, hle⟩
    rw [hc, Finmap.lookup_insert]
  · rintro ⟨hslots, hroom⟩
    refine ⟨hlen.trans_le hroom, fun id' slots' hl ↦ ?_⟩
    rw [hc, HashMap.lookup_insert_eq] at hl
    split at hl
    · rw [← Option.some.inj hl]
      exact hslots
    · exact h.pending id' slots' hl

/-- Removing an entry keeps the limits. -/
theorem LimitsHold.erase (h : LimitsHold c) {id : UInt16} {c' : Conn}
    (hc : c'.state.splits = c.state.splits.erase id) : LimitsHold c' := by
  refine ⟨?_, fun id' slots' hl ↦ ?_⟩
  · rw [hc]
    exact (HashMap.len_erase_le _ _).trans h.len_le
  · rw [hc, HashMap.lookup_erase_eq] at hl
    split at hl
    · cases hl
    · exact h.pending id' slots' hl

/-- The entry of a fragment that finds none. -/
theorem fragmentsOf_of_notMem (h : pk.splitId ∉ c.state.splits) :
    fragmentsOf c.state.splits pk = List.replicate pk.splitCount.toNat [] := by
  rw [fragmentsOf, Finmap.lookup_eq_none.mpr h]

/-- The index of a fragment that opens an entry is below the number of fragments. -/
theorem indexOutOfRange_iff (h : pk.splitId ∉ c.state.splits) :
    IndexOutOfRange c.state.splits pk ↔ pk.splitCount ≤ pk.splitIndex := by
  rw [IndexOutOfRange, fragmentsOf_of_notMem h, List.length_replicate, UInt32.ofNat_toNat]

/-- A fragment that opens an entry fills it exactly when it is alone. -/
theorem nil_notMem_filled_iff (h : pk.splitId ∉ c.state.splits)
    (hlt : pk.splitIndex < pk.splitCount) : [] ∉ filled c.state.splits pk ↔ Alone pk := by
  have hnat := UInt32.lt_iff_toNat_lt.mp hlt
  rw [filled, fragmentsOf_of_notMem h]
  constructor
  · intro hfull
    have hne : pk.content ≠ [] := by
      intro he
      refine hfull (List.mem_iff_getElem?.mpr ⟨pk.splitIndex.toNat, ?_⟩)
      rw [List.getElem?_set_self (by rwa [List.length_replicate]), he]
    -- any other slot would still be empty
    have honly (j : Nat) (hj : j < pk.splitCount.toNat) : j = pk.splitIndex.toNat := by
      by_contra hne
      refine hfull (List.mem_iff_getElem?.mpr ⟨j, ?_⟩)
      rw [List.getElem?_set_ne (Ne.symm hne), List.getElem?_replicate_of_lt hj]
    have hzero := honly 0 (Nat.zero_lt_of_lt hnat)
    have hlast := honly (pk.splitCount.toNat - 1) (by omega)
    refine ⟨UInt32.toNat_inj.mp ?_, UInt32.toNat_inj.mp hzero.symm, hne⟩
    rw [UInt32.toNat_one]
    omega
  · rintro ⟨hcount, hindex, hne⟩ hmem
    rw [hcount, hindex] at hmem
    exact hne (List.mem_singleton.mp hmem).symm

/-- A fragment of an open entry keeps the limits: the entry has as many slots as before. -/
theorem LimitsHold.split_of_mem (h : LimitsHold c) (hopen : pk.splitId ∈ c.state.splits)
    (hlim : ¬ SplitLimited handler c.state.splits pk) :
    LimitsHold (receiveSplitPacket build handler pk c).1 := by
  have hsame := (receiveSplitPacket_fst build handler pk c).1
  obtain ⟨slots, hslots⟩ := HashMap.mem_iff_lookup.mp hopen
  have hpending := h.pending _ _ hslots
  have hfragments : fragmentsOf c.state.splits pk = slots := by rw [fragmentsOf, hslots]
  rw [reassemble_open build hlim] at hsame
  split at hsame
  · exact h.replace hslots (hfragments ▸ hpending) hsame
  split at hsame
  · next hempty =>
    refine h.replace hslots ⟨?_, ?_, any_isEmpty_iff.mp hempty⟩ hsame
    · rw [filled, hfragments, List.length_set]
      exact hpending.length_pos
    · rw [filled, hfragments, List.length_set]
      exact hpending.length_le
  · exact h.erase hsame

/-- A fragment that opens an entry keeps the limits when it has room for the entry or is alone. -/
theorem LimitsHold.split_of_notMem_iff (h : LimitsHold c) (hopen : pk.splitId ∉ c.state.splits)
    (hcount : pk.splitCount ≤ maxSplitCount) (hlim : ¬ SplitLimited handler c.state.splits pk) :
    LimitsHold (receiveSplitPacket build handler pk c).1 ↔ HasRoom c pk ∨ Alone pk := by
  have hsame := (receiveSplitPacket_fst build handler pk c).1
  have hlength : (fragmentsOf c.state.splits pk).length = pk.splitCount.toNat := by
    rw [fragmentsOf_of_notMem hopen, List.length_replicate]
  have hle : pk.splitCount.toNat ≤ maxSplitCount.toNat := UInt32.le_iff_toNat_le.mp hcount
  rw [reassemble_open build hlim] at hsame
  by_cases hindex : IndexOutOfRange c.state.splits pk
  · -- an entry without a fragment in it
    rw [if_pos hindex] at hsame
    have hrange := (indexOutOfRange_iff hopen).mp hindex
    rw [h.open_iff hopen hsame, or_iff_left, HasRoom]
    · refine and_congr_left fun _ ↦ ⟨fun hp ↦ hlength ▸ hp.length_pos, fun hpos ↦ ?_⟩
      refine ⟨hlength ▸ hpos, hlength ▸ hle, ?_⟩
      rw [fragmentsOf_of_notMem hopen]
      exact List.mem_replicate.mpr ⟨hpos.ne', rfl⟩
    · rintro ⟨hone, hzero, -⟩
      rw [hone, hzero] at hrange
      exact absurd hrange (by decide)
  have hrange : pk.splitIndex < pk.splitCount :=
    UInt32.not_le.mp fun hn ↦ hindex ((indexOutOfRange_iff hopen).mpr hn)
  have hpos := Nat.zero_lt_of_lt (UInt32.lt_iff_toNat_lt.mp hrange)
  have hfull := nil_notMem_filled_iff hopen hrange
  rw [if_neg hindex] at hsame
  by_cases hempty : [] ∈ filled c.state.splits pk
  · rw [if_pos (any_isEmpty_iff.mpr hempty)] at hsame
    have hlength' : (filled c.state.splits pk).length = pk.splitCount.toNat := by
      rw [filled, List.length_set, hlength]
    rw [h.open_iff hopen hsame, or_iff_left (fun ha ↦ hfull.mpr ha hempty), HasRoom]
    exact and_congr_left fun _ ↦
      iff_of_true ⟨hlength' ▸ hpos, hlength' ▸ hle, hempty⟩ hpos
  · rw [if_neg (fun he ↦ hempty (any_isEmpty_iff.mp he))] at hsame
    exact iff_of_true (h.erase hsame) (Or.inr (hfull.mp hempty))

/-- A fragment keeps the limits exactly when it opens no entry, has room for the one it opens, or is
alone. -/
theorem LimitsHold.split_iff (h : LimitsHold c) (hlimits : handler.limitsEnabled = true) :
    LimitsHold (receiveSplitPacket build handler pk c).1 ↔ KeepsLimits c pk := by
  have hcount := @LimitsHold.splitLimited_iff handler c pk h hlimits
  by_cases hlim : SplitLimited handler c.state.splits pk
  · obtain ⟨text, hr⟩ := reassemble_limited build hlim
    have hsame := (receiveSplitPacket_fst build handler pk c).1
    rw [hr] at hsame
    exact iff_of_true (h.congr hsame) fun _ hle ↦ absurd hle (hcount.mp hlim)
  have hle := not_not.mp (hcount.not.mp hlim)
  by_cases hopen : pk.splitId ∈ c.state.splits
  · exact iff_of_true (h.split_of_mem hopen hlim) fun hnot ↦ absurd hopen hnot
  · rw [KeepsLimits, imp_iff_right hopen, imp_iff_right hle]
    exact h.split_of_notMem_iff hopen hle hlim

variable (build) in
/-- **How much a receiver keeps.**  Within the limits, a fragment keeps them exactly when it opens
no entry, has room for the one it opens, or is alone.  In a run whose fragments all do, the limits
hold in every state. -/
theorem limitsHold_while_kept (hlimits : handler.limitsEnabled = true) :
    (∀ c pk, LimitsHold c →
      (LimitsHold (receiveSplitPacket build handler pk c).1 ↔ KeepsLimits c pk)) ∧
      ∀ c, ((splitting build handler).restrict fun c label ↦
        ∀ pk ∈ label, KeepsLimits c pk).Reachable c → LimitsHold c := by
  refine ⟨fun c pk h ↦ h.split_iff hlimits, fun c hc ↦ ?_⟩
  refine hc.invariant ?_ fun c label c' _ h hs ↦ ?_
  · rintro _ ⟨mtu, rfl⟩
    exact limitsHold_new mtu
  · obtain ⟨hkeeps, hs⟩ := hs
    cases label with
    | none => exact h.congr hs
    | some pk => exact ((h.split_iff hlimits).mpr (hkeeps pk rfl)).congr hs

/-- Two entries have been opened, and a third one may be. -/
theorem limitsHold_while_kept_opening :
    ∃ c, c.state.splits.len = 2 ∧ LimitsHold c ∧
      LimitsHold (receiveSplitPacket .debug .forwarding (opening 2) c).1 := by
  let c₁ := (receiveSplitPacket .debug .forwarding (opening 0) (new 1492)).1
  let c₂ := (receiveSplitPacket .debug .forwarding (opening 1) c₁).1
  obtain ⟨hiff, hrun⟩ := @limitsHold_while_kept .debug .forwarding rfl
  have hkeep₁ : ∀ pk ∈ some (opening 0), KeepsLimits (new 1492) pk := by
    rintro pk ⟨⟩ - -
    exact Or.inl ⟨by decide, by decide⟩
  have hkeep₂ : ∀ pk ∈ some (opening 1), KeepsLimits c₁ pk := by
    rintro pk ⟨⟩ - -
    exact Or.inl ⟨by decide, by decide⟩
  have hr : ((splitting .debug .forwarding).restrict fun c label ↦
      ∀ pk ∈ label, KeepsLimits c pk).Reachable c₂ :=
    .step (a := some (opening 1)) (.step (a := some (opening 0)) (.init ⟨1492, rfl⟩) ⟨hkeep₁, rfl⟩)
      ⟨hkeep₂, rfl⟩
  refine ⟨c₂, by decide, hrun c₂ hr, (hiff c₂ (opening 2) (hrun c₂ hr)).mpr fun _ _ ↦ ?_⟩
  exact Or.inl ⟨by decide, by decide⟩

/-- Seventeen entries can be open. -/
theorem limits_exceeded : ∃ c,
    (calls .debug .forwarding).Reachable c ∧ ¬ LimitsHold c := by
  obtain ⟨c, hc, hopened⟩ := exists_opened .debug .forwarding
    (show 17 ≤ maxConcurrentSplits + 1 by decide)
  refine ⟨c, hc, fun h ↦ absurd h.len_le ?_⟩
  rw [hopened.len]
  decide

end Ragnet.Conn

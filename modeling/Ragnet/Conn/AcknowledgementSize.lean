import Ragnet.Conn.AcknowledgementRounds
import Ragnet.Lib.Splits

/-!
# How long an acknowledgement datagram is

`write_to_buf` looks at the length written so far before it takes a number, and always writes one
more record behind the last number.  When the last number starts a new range, the range before it
is written as well, and the seven bytes kept free do not hold both records and the flag byte.
-/

namespace Ragnet.Acknowledgement

open Wire

/-! ## The bytes of the records -/

/-- The bytes of the records of the numbers, the last one included. -/
def recordsSize (taken : List Uint24) : Nat :=
  ((taken.splitBy consecutive).map recordSize).sum

/-- The number starts a new range behind `taken`. -/
def StartsRange (taken : List Uint24) (pk : Uint24) : Prop :=
  ∀ u ∈ taken.getLast?, consecutive u pk = false

instance (taken : List Uint24) (pk : Uint24) : Decidable (StartsRange taken pk) :=
  inferInstanceAs (Decidable (∀ u ∈ taken.getLast?, consecutive u pk = false))

theorem recordSize_le (run : List Uint24) : recordSize run ≤ 7 := by
  rw [recordSize]
  split <;> omega

section Runs

variable {taken : List Uint24} {pk : Uint24}

/-- The runs of some numbers, the last one apart. -/
theorem exists_splitBy_eq_concat (hne : taken ≠ []) :
    ∃ runs run, taken.splitBy consecutive = runs ++ [run] ∧ run.getLast? = taken.getLast? := by
  have hsplit : taken.splitBy consecutive ≠ [] := fun h ↦ hne (List.splitBy_eq_nil.mp h)
  obtain ⟨runs, run, hruns⟩ : ∃ runs run, taken.splitBy consecutive = runs ++ [run] :=
    ⟨_, _, (List.dropLast_append_getLast hsplit).symm⟩
  obtain ⟨hflat, hnil, -, -⟩ := List.splitBy_eq_iff.mp hruns
  have hrun : run ≠ [] := fun he ↦ hnil (by simp [he])
  refine ⟨runs, run, hruns, ?_⟩
  rw [hflat, List.flatten_append, List.flatten_singleton, List.getLast?_append_of_ne_nil _ hrun]

/-- The last record comes on top of the complete ones. -/
theorem recordsSize_bounds (taken : List Uint24) :
    complete taken ≤ recordsSize taken ∧ recordsSize taken ≤ complete taken + 7 := by
  by_cases hne : taken = []
  · rw [hne]
    exact ⟨Nat.le_refl 0, Nat.zero_le 7⟩
  · obtain ⟨runs, run, hruns, -⟩ := exists_splitBy_eq_concat hne
    rw [recordsSize, complete, hruns, List.dropLast_concat, List.map_append, List.sum_append,
      List.map_singleton, List.sum_singleton]
    exact ⟨Nat.le_add_right _ _, Nat.add_le_add_left (recordSize_le run) _⟩

/-- A number that starts a range completes the range before it, and is a record of its own. -/
theorem StartsRange.sizes (h : StartsRange taken pk) (hne : taken ≠ []) :
    complete (taken ++ [pk]) = recordsSize taken ∧
      recordsSize (taken ++ [pk]) = recordsSize taken + 4 := by
  obtain ⟨runs, run, hruns, hlast⟩ := exists_splitBy_eq_concat hne
  have hsplit := Runs.splitBy_concat_of_not_rel hruns (x := pk) fun y hy ↦ h y (hlast ▸ hy)
  rw [complete, recordsSize, recordsSize, hsplit, hruns, List.dropLast_concat]
  refine ⟨rfl, ?_⟩
  rw [List.map_append, List.sum_append, List.map_singleton, List.sum_singleton]
  rfl

/-- A number that extends the last range leaves the complete records as they are. -/
theorem complete_of_not_startsRange (h : ¬ StartsRange taken pk) :
    complete (taken ++ [pk]) = complete taken := by
  have hne : taken ≠ [] := by
    rintro rfl
    exact h fun u hu ↦ by cases hu
  obtain ⟨runs, run, hruns, hlast⟩ := exists_splitBy_eq_concat hne
  have hrel : ∀ y ∈ run.getLast?, consecutive y pk = true := by
    intro y hy
    by_contra hfalse
    refine h fun u hu ↦ ?_
    obtain rfl : y = u := Option.some.inj ((hlast ▸ hy).symm.trans hu)
    exact Bool.eq_false_iff.mpr hfalse
  rw [complete, complete, Runs.splitBy_concat_of_rel hruns hrel, hruns, List.dropLast_concat,
    List.dropLast_concat]

/-- More numbers complete more records. -/
theorem complete_le_append (taken rest : List Uint24) :
    complete taken ≤ complete (taken ++ rest) := by
  induction rest generalizing taken with
  | nil => rw [List.append_nil]
  | cons pk rest ih =>
      have hstep : complete taken ≤ complete (taken ++ [pk]) := by
        by_cases hne : taken = []
        · rw [hne]
          exact Nat.zero_le _
        · by_cases hpk : StartsRange taken pk
          · rw [(hpk.sizes hne).1]
            exact (recordsSize_bounds taken).1
          · rw [complete_of_not_startsRange hpk]
      have h := ih (taken ++ [pk])
      rw [List.append_assoc, List.singleton_append] at h
      exact hstep.trans h

end Runs

/-! ## When the records of a round fit -/

/-- The datagram of the numbers: the flag byte, the record count and the records. -/
def datagramSize (taken : List Uint24) : Nat := 3 + recordsSize taken

/-- Wherever one of the numbers `rest` behind `taken` starts a new range and the complete records
in front of it leave room for one more number, all records in front of it leave room for a
single. -/
def LeavesRoom (mtu : Nat) (taken rest : List Uint24) : Prop :=
  Splits.Everywhere (fun pre pk ↦ StartsRange (taken ++ pre) pk →
    2 + complete (taken ++ pre) < mtu - 7 → datagramSize (taken ++ pre) + 4 ≤ mtu) rest

/-- The places behind `taken` leave room when the next one does and those behind it do. -/
theorem leavesRoom_cons {mtu : Nat} {taken rest : List Uint24} {pk : Uint24} :
    LeavesRoom mtu taken (pk :: rest) ↔
      (StartsRange taken pk → 2 + complete taken < mtu - 7 → datagramSize taken + 4 ≤ mtu) ∧
        LeavesRoom mtu (taken ++ [pk]) rest := by
  rw [LeavesRoom, Splits.everywhere_cons, LeavesRoom]
  simp only [List.append_nil, List.append_assoc, List.singleton_append]

/-- What the writer takes behind `taken` fits exactly when the places behind `taken` leave room. -/
theorem datagramSize_capacityFrom_le_iff {mtu : Nat} (rest taken : List Uint24) (hne : taken ≠ []) :
    datagramSize ((taken ++ rest).take (capacityFrom mtu taken rest)) ≤ mtu ↔
      datagramSize taken ≤ mtu ∧ LeavesRoom mtu taken rest := by
  induction rest generalizing taken with
  | nil =>
      rw [List.append_nil, capacityFrom, List.take_length]
      exact (and_iff_left Splits.everywhere_nil).symm
  | cons pk rest ih =>
      rw [capacityFrom]
      by_cases hroom : 2 + complete taken < mtu - 7
      · have happ : taken ++ pk :: rest = (taken ++ [pk]) ++ rest := by simp
        have hsize := (recordsSize_bounds taken).2
        rw [if_pos hroom, happ, ih _ (List.concat_ne_nil _ _), leavesRoom_cons, ← and_assoc]
        refine and_congr_left fun _ ↦ ?_
        rw [datagramSize, datagramSize]
        by_cases hpk : StartsRange taken pk
        · rw [(hpk.sizes hne).2, forall_prop_of_true hpk, forall_prop_of_true hroom]
          omega
        · have hnext := (recordsSize_bounds (taken ++ [pk])).2
          rw [complete_of_not_startsRange hpk] at hnext
          rw [forall_prop_of_false hpk]
          simp only [and_true]
          omega
      · rw [if_neg hroom, List.take_left]
        refine (and_iff_left fun pre pk' post _ _ h ↦ ?_).symm
        exact absurd (h.trans_le' (Nat.add_le_add_left (complete_le_append taken pre) 2)) hroom

/-- One datagram fits exactly when its list leaves room. -/
theorem datagramSize_capacity_le_iff {mtu : Nat} (hmtu : 7 ≤ mtu) (xs : List Uint24) :
    datagramSize (xs.take (capacity mtu xs)) ≤ mtu ↔ LeavesRoom mtu [] xs := by
  cases xs with
  | nil =>
      exact ⟨fun _ ↦ Splits.everywhere_nil, fun _ ↦ (show 3 ≤ 7 by decide).trans hmtu⟩
  | cons first rest =>
      have h := @datagramSize_capacityFrom_le_iff mtu rest [first] (List.cons_ne_nil _ _)
      rw [List.singleton_append] at h
      rw [capacity, h, leavesRoom_cons, List.nil_append]
      exact and_congr_left fun _ ↦ ⟨fun _ _ _ ↦ hmtu, fun _ ↦ hmtu⟩

/-- The encoding of the numbers has the size of the record count and the records. -/
theorem Encodes.length_eq {body : Bytes} {taken : List Uint24} (h : Encodes body taken) :
    body.length = 2 + recordsSize taken := by
  obtain ⟨p, written, hp, -, rfl⟩ := h
  have hrecord : (writeRecord p.firstPacketInRange p.lastPacketInRange).length =
      recordSize (rangeInclusive p.firstPacketInRange p.lastPacketInRange) :=
    hp.record.length_encode
  have hbody : p.body.length = ((written.map Record.expand).map recordSize).sum := by
    rw [hp.length_body, complete, hp.runs_eq, List.dropLast_concat]
  rw [List.length_append, Pending.flush, List.length_append, hrecord, hbody, recordsSize,
    hp.runs_eq, List.map_append, List.sum_append, List.map_singleton, List.sum_singleton]
  rfl

end Ragnet.Acknowledgement

namespace Ragnet.Conn

open Acknowledgement Blocks Wire

/-- Every round of the loop leaves room for the records it writes at its end. -/
def RoundsLeaveRoom (mtu : Nat) (packets : List Uint24) : Prop :=
  ∀ k, LeavesRoom mtu [] (sort (left (capacity mtu) k packets))

theorem IsDatagram.length_eq {bitflag : UInt8} {datagram : Bytes} {taken : List Uint24}
    (h : IsDatagram bitflag datagram taken) : datagram.length = datagramSize taken := by
  obtain ⟨body, rfl, hbody⟩ := h
  rw [List.length_append, hbody.length_eq, datagramSize, ← Nat.add_assoc]
  rfl

/-- **Acknowledgement datagrams fit the MTU iff every round leaves room.**  For any list,
`send_acknowledgement` builds the same datagrams whatever the channel takes of them, and none of
them is longer than the effective MTU exactly when, in every round, the complete records leave room
for two more records wherever they leave room for a number that starts a new range. -/
theorem sendAcknowledgement_fits_iff (build : Build) (packets : List Uint24) (bitflag : UInt8)
    (c : Conn) :
    ∃ datagrams, (∀ env, sendAcknowledgement build env packets bitflag c =
        ({ c with sendTx := c.sendTx ++ takenFrom env 0 datagrams }, .ok ())) ∧
      ((∀ d ∈ datagrams, d.length ≤ c.mtu.effective) ↔
        RoundsLeaveRoom c.mtu.effective packets) := by
  have hmtu := c.mtu.effective_bounds
  obtain ⟨datagrams, out, hloop, hemits, hdatagrams⟩ :=
    @acknowledgementLoop_builds build c.mtu.effective bitflag (by omega) (by omega) packets
  refine ⟨datagrams, fun env ↦ hloop env 0 c, ?_⟩
  have hlengths : (∀ d ∈ datagrams, d.length ≤ c.mtu.effective) ↔
      ∀ taken ∈ out, datagramSize taken ≤ c.mtu.effective := by
    clear hloop hemits
    induction hdatagrams with
    | nil => exact ⟨fun _ _ h ↦ absurd h List.not_mem_nil, fun _ _ h ↦ absurd h List.not_mem_nil⟩
    | cons hd _ ih => rw [List.forall_mem_cons, List.forall_mem_cons, ih, hd.length_eq]
  rw [hlengths, hemits.forall_iff]
  refine forall_congr' fun k ↦ ?_
  rw [datagramSize_capacity_le_iff (by omega)]
  refine ⟨fun h ↦ ?_, fun h _ ↦ h⟩
  by_cases hne : left (capacity c.mtu.effective) k packets = []
  · rw [hne]
    exact Splits.everywhere_nil
  · exact h hne

/-- Ninety single numbers, a range of two and one more number. -/
def crowded : List Uint24 :=
  (List.range 90).map (fun i ↦ Uint24.new (2 * i)) ++ [.new 180, .new 181, .new 183]

/-- At the smallest MTU the records of the first ninety numbers leave room for another number, and
the datagram ends up two bytes too long. -/
theorem sendAcknowledgement_overlong :
    ∃ datagram,
      sendAcknowledgement .release .calm crowded bitFlagAck (new 400) =
        ({ new 400 with sendTx := [datagram] }, .ok ()) ∧
      (new 400).mtu.effective = 372 ∧ ¬ datagram.length ≤ 372 := by
  obtain ⟨datagrams, out, hloop, hemits, hdatagrams⟩ :=
    @acknowledgementLoop_builds .release 372 bitFlagAck (by decide) (by decide) crowded
  have hcap : capacity 372 (sort crowded) = 93 := by decide +kernel
  have hround : Emits (capacity 372) crowded [(sort crowded).take 93] := by
    rw [← hcap]
    refine .round (List.append_ne_nil_of_right_ne_nil _ (List.cons_ne_nil _ _)) ?_
    rw [hcap]
    exact .nil
  obtain rfl := hemits.unique hround
  obtain ⟨datagram, datagrams, hd, hrest, rfl⟩ := List.forall₂_cons_right_iff.mp hdatagrams
  obtain rfl := List.forall₂_nil_right_iff.mp hrest
  have hsize : datagramSize ((sort crowded).take 93) = 374 := by decide +kernel
  refine ⟨datagram, hloop _ 0 (new 400), rfl, ?_⟩
  rw [hd.length_eq, hsize]
  decide

end Ragnet.Conn

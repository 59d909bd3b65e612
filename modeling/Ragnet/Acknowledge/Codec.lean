import Ragnet.Acknowledge
import Ragnet.Lib.Runs

/-!
# Reading back an acknowledgement

The writer takes a first stretch of the sorted numbers, and reading its output gives exactly this
stretch.  The loop invariant is that the records written are the complete runs of the numbers taken
and the pending range is the last run; that the numbers are sorted plays no part in it.
-/

namespace Ragnet.Acknowledgement

open Wire

/-- A record: a first and a last number. -/
structure Record where
  first : Uint24
  last : Uint24
  le : first.value ≤ last.value

namespace Record

def encode (r : Record) : Bytes := writeRecord r.first r.last

/-- The numbers a record stands for. -/
def expand (r : Record) : List Uint24 := rangeInclusive r.first r.last

def single (u : Uint24) : Record := ⟨u, u, le_rfl⟩

@[simp] theorem expand_single (u : Uint24) : (single u).expand = [u] := by
  rw [expand, single, rangeInclusive, Nat.add_sub_cancel_left]
  simp

/-- A range that grows by its successor. -/
theorem rangeInclusive_succ {first last next : Uint24} (h : first.value ≤ last.value)
    (hn : next.value = last.value + 1) :
    rangeInclusive first next = rangeInclusive first last ++ [next] := by
  have hlen : next.value + 1 - first.value = (last.value + 1 - first.value) + 1 := by omega
  have hend : first.value + (last.value + 1 - first.value) = next.value := by omega
  rw [rangeInclusive, hlen, List.range'_concat, List.map_append, List.map_singleton, Nat.one_mul,
    hend, Uint24.new_value]
  rfl

theorem length_expand (r : Record) : r.expand.length = r.last.value + 1 - r.first.value := by
  rw [expand, rangeInclusive, List.length_map, List.length_range']

/-- A range ends with its last number. -/
theorem getLast?_rangeInclusive {first last : Uint24} (h : first.value ≤ last.value) :
    (rangeInclusive first last).getLast? = some last := by
  have hlen : last.value + 1 - first.value = (last.value - first.value) + 1 := by omega
  have hend : first.value + (last.value - first.value) = last.value := by omega
  rw [rangeInclusive, hlen, List.range'_concat, List.map_append, List.map_singleton, Nat.one_mul,
    hend, Uint24.new_value, List.getLast?_concat]

end Record

/-! ## How many numbers fit

The writer looks at the room left before it takes a number, and counts only the records that are
complete by then.  Said without the writer: `xs` is taken number by number, as long as the complete
runs among the numbers taken leave room.
-/

/-- Neighbours that one range covers. -/
def consecutive (a b : Uint24) : Bool := b.value == a.value + 1

def recordSize (run : List Uint24) : Nat := if run.length = 1 then 4 else 7

/-- The bytes of the complete records: all runs but the last, which may still grow. -/
def complete (taken : List Uint24) : Nat :=
  ((taken.splitBy consecutive).dropLast.map recordSize).sum

/-- What the reader adds to its numbers for a record before it holds the sum against the cap: one
less than it then appends, for a range. -/
def Record.charge (r : Record) : Nat :=
  if r.first = r.last then 1 else r.last.value - r.first.value

theorem Record.charge_le (r : Record) : r.charge ≤ r.expand.length := by
  have hle := r.le
  rw [charge, r.length_expand]
  split <;> omega

theorem Record.length_expand_le (r : Record) : r.expand.length ≤ r.charge + 1 := by
  have hle := r.le
  rw [charge, r.length_expand]
  split
  · next h =>
    rw [h]
    omega
  · omega

/-- A record has the size of its run. -/
theorem Record.length_encode (r : Record) : r.encode.length = recordSize r.expand := by
  have hle := r.le
  rw [recordSize, r.length_expand, encode, writeRecord]
  by_cases h : r.first = r.last
  · rw [if_pos h, if_pos (by rw [h]; omega)]
    rfl
  · have hne : r.first.value ≠ r.last.value := fun he ↦ h (Uint24.ext he)
    rw [if_neg h, if_neg (by omega)]
    rfl

/-- How many numbers are taken, when `taken` have been and `rest` are left. -/
def capacityFrom (mtu : Nat) (taken : List Uint24) : List Uint24 → Nat
  | [] => taken.length
  | pk :: rest =>
      if 2 + complete taken < mtu - 7 then capacityFrom mtu (taken ++ [pk]) rest
      else taken.length

/-- How many of the ascending numbers `xs` go into one datagram. -/
def capacity (mtu : Nat) : List Uint24 → Nat
  | [] => 0
  | first :: rest => capacityFrom mtu [first] rest

/-- Nothing is complete in a single run. -/
theorem complete_of_isChain {taken : List Uint24} (hne : taken ≠ [])
    (h : taken.IsChain fun a b ↦ consecutive a b) : complete taken = 0 := by
  rw [complete, List.splitBy_of_isChain hne h]
  rfl

theorem capacityFrom_of_isChain {mtu : Nat} (hmtu : 9 < mtu) {taken : List Uint24}
    (rest : List Uint24) (hne : taken ≠ [])
    (h : (taken ++ rest).IsChain fun a b ↦ consecutive a b) :
    capacityFrom mtu taken rest = taken.length + rest.length := by
  induction rest generalizing taken with
  | nil => rfl
  | cons pk rest ih =>
      rw [capacityFrom, complete_of_isChain hne (List.isChain_append.mp h).1, if_pos (by omega),
        ih (List.concat_ne_nil _ _) (by rwa [List.append_assoc, List.singleton_append]),
        List.length_append, List.length_singleton, List.length_cons]
      omega

/-- A single run fits one datagram, however long it is. -/
theorem capacity_of_isChain {mtu : Nat} (hmtu : 9 < mtu) {xs : List Uint24}
    (h : xs.IsChain fun a b ↦ consecutive a b) : capacity mtu xs = xs.length := by
  cases xs with
  | nil => rfl
  | cons first rest =>
      have hall := @capacityFrom_of_isChain mtu hmtu [first] rest (List.cons_ne_nil _ _) h
      exact hall.trans (Nat.add_comm _ _)

/-- No more numbers are taken than there are. -/
theorem capacityFrom_le (mtu : Nat) (taken rest : List Uint24) :
    capacityFrom mtu taken rest ≤ taken.length + rest.length := by
  induction rest generalizing taken with
  | nil => exact le_rfl
  | cons pk rest ih =>
      rw [capacityFrom]
      split
      · have h := ih (taken ++ [pk])
        rw [List.length_append, List.length_singleton] at h
        rw [List.length_cons]
        omega
      · exact Nat.le_add_right _ _

/-- At least what has been taken already is taken. -/
theorem le_capacityFrom (mtu : Nat) (taken rest : List Uint24) :
    taken.length ≤ capacityFrom mtu taken rest := by
  induction rest generalizing taken with
  | nil => exact le_rfl
  | cons pk rest ih =>
      rw [capacityFrom]
      split
      · have h := ih (taken ++ [pk])
        rw [List.length_append] at h
        omega
      · exact le_rfl

theorem capacity_le (mtu : Nat) (xs : List Uint24) : capacity mtu xs ≤ xs.length := by
  cases xs with
  | nil => exact le_rfl
  | cons first rest => exact (capacityFrom_le mtu [first] rest).trans_eq (Nat.add_comm _ _)

/-- One datagram takes at least one number. -/
theorem capacity_pos (mtu : Nat) {xs : List Uint24} (h : xs ≠ []) : 0 < capacity mtu xs := by
  cases xs with
  | nil => exact absurd rfl h
  | cons first rest => exact le_capacityFrom mtu [first] rest

/-! ## The writer -/

/-- The pending state of a writer that has taken the numbers `taken`: its records are the complete
runs, and the pending range is the last run. -/
structure Pending.Holds (p : Pending) (taken : List Uint24) (written : List Record) : Prop where
  le : p.firstPacketInRange.value ≤ p.lastPacketInRange.value
  body_eq : p.body = written.flatMap Record.encode
  records_eq : p.records = written.length
  n_eq : p.n = taken.length
  runs_eq : taken.splitBy consecutive =
    written.map Record.expand ++ [rangeInclusive p.firstPacketInRange p.lastPacketInRange]

namespace Pending.Holds

variable {p : Pending} {taken : List Uint24} {written : List Record}

/-- A writer that has taken one number. -/
theorem init (u : Uint24) : (⟨[], 0, 1, u, u⟩ : Pending).Holds [u] [] where
  le := le_rfl
  body_eq := rfl
  records_eq := rfl
  n_eq := rfl
  runs_eq := congrArg (fun run ↦ [run]) (Record.expand_single u).symm

/-- The pending range as a record. -/
def record (h : p.Holds taken written) : Record :=
  ⟨p.firstPacketInRange, p.lastPacketInRange, h.le⟩

theorem flush_eq (h : p.Holds taken written) :
    p.flush = (written ++ [h.record]).flatMap Record.encode := by
  rw [List.flatMap_append, ← h.body_eq, List.flatMap_singleton]
  rfl

/-- The records, with the pending one, expand to the numbers taken. -/
theorem taken_eq (h : p.Holds taken written) :
    (written ++ [h.record]).flatMap Record.expand = taken := by
  conv_rhs => rw [← List.flatten_splitBy consecutive taken, h.runs_eq]
  rw [List.flatMap_def, List.map_append]
  rfl

/-- The body has the size of the complete records. -/
theorem length_body (h : p.Holds taken written) : p.body.length = complete taken := by
  rw [h.body_eq, complete, h.runs_eq, List.dropLast_concat, List.map_map, List.length_flatMap]
  exact congrArg (fun f ↦ (written.map f).sum) (funext fun r ↦ r.length_encode)

/-- A record takes up at least four bytes. -/
theorem records_le (h : p.Holds taken written) : 4 * p.records ≤ p.body.length := by
  have hlen : ∀ rs : List Record, 4 * rs.length ≤ (rs.flatMap Record.encode).length := by
    intro rs
    induction rs with
    | nil => exact le_rfl
    | cons r rs ih =>
        have hr : 4 ≤ r.encode.length := by
          rw [r.length_encode, recordSize]
          split <;> omega
        rw [List.flatMap_cons, List.length_append, List.length_cons]
        omega
  rw [h.body_eq, h.records_eq]
  exact hlen written

/-- The pending range grows. -/
theorem extend (h : p.Holds taken written) {pk : Uint24}
    (hpk : pk.value = p.lastPacketInRange.value + 1) :
    ({ p with n := p.n + 1, lastPacketInRange := pk } : Pending).Holds (taken ++ [pk])
      written where
  le := hpk ▸ Nat.le_succ_of_le h.le
  body_eq := h.body_eq
  records_eq := h.records_eq
  n_eq := by rw [h.n_eq, List.length_append, List.length_singleton]
  runs_eq := by
    dsimp only
    rw [Record.rangeInclusive_succ h.le hpk]
    refine Runs.splitBy_concat_of_rel h.runs_eq fun y hy ↦ ?_
    obtain rfl : p.lastPacketInRange = y :=
      Option.some.inj ((Record.getLast?_rangeInclusive h.le).symm.trans hy)
    exact beq_iff_eq.mpr hpk

/-- The pending range is written and a new one starts. -/
theorem restart (h : p.Holds taken written) {pk : Uint24}
    (hpk : pk.value ≠ p.lastPacketInRange.value + 1) :
    (⟨p.flush, p.records + 1, p.n + 1, pk, pk⟩ : Pending).Holds (taken ++ [pk])
      (written ++ [h.record]) where
  le := le_rfl
  body_eq := h.flush_eq
  records_eq := by rw [h.records_eq, List.length_append, List.length_singleton]
  n_eq := by rw [h.n_eq, List.length_append, List.length_singleton]
  runs_eq := by
    have hsingle : rangeInclusive pk pk = [pk] := Record.expand_single pk
    dsimp only
    rw [hsingle, List.map_append]
    refine Runs.splitBy_concat_of_not_rel h.runs_eq fun y hy ↦ ?_
    obtain rfl : p.lastPacketInRange = y :=
      Option.some.inj ((Record.getLast?_rangeInclusive h.le).symm.trans hy)
    exact beq_eq_false_iff_ne.mpr hpk

end Pending.Holds

/-- The loop takes as many numbers as there is room for. -/
theorem writeLoop_spec {build : Build} {mtu : Nat} (hmtu : 7 ≤ mtu) (iter : List Uint24)
    {p : Pending} {taken : List Uint24} {written : List Record} (h : p.Holds taken written) :
    ∃ p' written', writeLoop build mtu iter p = .ok p' ∧
      p'.Holds ((taken ++ iter).take (capacityFrom mtu taken iter)) written' := by
  induction iter generalizing p taken written with
  | nil =>
      refine ⟨p, written, rfl, ?_⟩
      rw [List.append_nil, capacityFrom, List.take_length]
      exact h
  | cons pk iter ih =>
      have happ : taken ++ pk :: iter = (taken ++ [pk]) ++ iter := by simp
      rw [writeLoop, Checked.sub_of_le _ _ hmtu, Checked.ok_bind, capacityFrom, h.length_body]
      by_cases hroom : 2 + complete taken < mtu - 7
      · rw [if_neg (Nat.not_le_of_lt hroom), if_pos hroom, happ]
        by_cases hnext : pk.value = p.lastPacketInRange.value + 1
        · rw [if_pos hnext]
          exact ih (h.extend hnext)
        · rw [if_neg hnext]
          exact ih (h.restart hnext)
      · rw [if_pos (Nat.le_of_not_lt hroom), if_neg hroom, List.take_left]
        exact ⟨p, written, rfl, h⟩

/-- The records stay within the datagram. -/
theorem writeLoop_length_body {build : Build} {mtu : Nat} (hmtu : 7 ≤ mtu) (iter : List Uint24)
    {p p' : Pending} (h : writeLoop build mtu iter p = .ok p') (hle : p.body.length ≤ mtu) :
    p'.body.length ≤ mtu := by
  induction iter generalizing p with
  | nil => exact Except.ok.inj h ▸ hle
  | cons pk iter ih =>
      rw [writeLoop, Checked.sub_of_le _ _ hmtu, Checked.ok_bind] at h
      split at h
      · exact Except.ok.inj h ▸ hle
      · next hroom =>
        split at h
        · exact ih h hle
        · refine ih h ?_
          have hrecord : (writeRecord p.firstPacketInRange p.lastPacketInRange).length ≤ 7 := by
            rw [writeRecord]
            split
            · exact Nat.le_of_ble_eq_true rfl
            · exact Nat.le_refl 7
          rw [Pending.flush, List.length_append]
          omega

/-! ## The reader -/

section Reader

variable (build : Build) {b : Bytes} {k offset : Nat} {packets : List Uint24}

/-- One step of the reader at a record of one number. -/
theorem readLoop_single {packet : Uint24} (hleft : offset + 4 ≤ b.length)
    (hkind : b[offset]? = some packetSingle)
    (hload : loadUint24 (b.drop (offset + 1)) = .ok packet) :
    readLoop build b (k + 1) offset packets =
      if packets.length + 1 > maxAcknowledgementPackets then err .maxAcknowledgement
      else readLoop build b k (offset + 4) (packets ++ [packet]) := by
  have hbind : (Checked.sliceFrom b (offset + 1) >>= loadUint24 : Result Uint24) = .ok packet := by
    rw [Checked.sliceFrom_of_le (by omega)]
    exact hload
  rw [readLoop, Checked.sub_of_le _ _ (by omega), Checked.index_of_getElem? hkind, hbind]
  simp only [Checked.ok_bind]
  rw [if_neg (by omega), if_neg (by decide), if_pos trivial]

/-- One step of the reader at a range. -/
theorem readLoop_range {first last : Uint24} (hleft : offset + 7 ≤ b.length)
    (hkind : b[offset]? = some packetRange)
    (hfirst : loadUint24 (b.drop (offset + 1)) = .ok first)
    (hlast : loadUint24 (b.drop (offset + 4)) = .ok last) (hle : first.value ≤ last.value)
    (hlen : packets.length < 2 ^ 31) :
    readLoop build b (k + 1) offset packets =
      if packets.length + (last.value - first.value) > maxAcknowledgementPackets then
        err .maxAcknowledgement
      else readLoop build b k (offset + 7) (packets ++ rangeInclusive first last) := by
  have hfirst' : (Checked.sliceFrom b (offset + 1) >>= loadUint24 : Result Uint24) =
      .ok first := by
    rw [Checked.sliceFrom_of_le (by omega)]
    exact hfirst
  have hlast' : (Checked.sliceFrom b (offset + 4) >>= loadUint24 : Result Uint24) = .ok last := by
    rw [Checked.sliceFrom_of_le (by omega)]
    exact hlast
  have hlt := last.lt
  have hsum : (Checked.add build 32 (packets.length % 2 ^ 32) last.value : Result Nat) =
      .ok (packets.length + last.value) := by
    rw [Nat.mod_eq_of_lt (by omega), Checked.add_of_lt _ _ (by omega)]
  have htotal : (Checked.sub build 32 (packets.length + last.value) first.value : Result Nat) =
      .ok (packets.length + (last.value - first.value)) := by
    rw [Checked.sub_of_le _ _ (by omega), Nat.add_sub_assoc hle]
  rw [readLoop, Checked.sub_of_le _ _ (by omega), Checked.index_of_getElem? hkind, hfirst',
    hlast']
  simp only [Checked.ok_bind, hsum, htotal]
  rw [if_neg (by omega), if_pos trivial, if_neg (by omega)]

/-- One step of the reader at the encoding of a record. -/
theorem readLoop_record (r : Record) (pre tail : Bytes) (hlen : packets.length < 2 ^ 31) :
    readLoop build (pre ++ (r.encode ++ tail)) (k + 1) pre.length packets =
      if packets.length + r.charge > maxAcknowledgementPackets then err .maxAcknowledgement
      else readLoop build (pre ++ (r.encode ++ tail)) k (pre.length + r.encode.length)
        (packets ++ r.expand) := by
  have hle := r.le
  have hat (x : UInt8) (rest : Bytes) : (pre ++ (x :: rest))[pre.length]? = some x := by
    rw [List.getElem?_append_right le_rfl, Nat.sub_self]
    rfl
  have hdrop (i : Nat) (xs ys : Bytes) (hi : xs.length = i) :
      (pre ++ (xs ++ ys)).drop (pre.length + i) = ys := by
    rw [← List.append_assoc, ← hi, ← List.length_append, List.drop_left]
  by_cases hs : r.first = r.last
  · have henc : r.encode = [packetSingle] ++ writeUint24 r.first := if_pos hs
    have hexp : r.expand = [r.first] := by
      rw [Record.expand, ← hs]
      exact Record.expand_single r.first
    have hcharge : r.charge = 1 := if_pos hs
    rw [henc, hexp, hcharge, List.append_assoc]
    refine readLoop_single build ?_ (hat _ _) ?_
    · simp only [List.length_append, List.length_singleton, length_writeUint24]
      omega
    · rw [hdrop 1 [packetSingle] _ rfl]
      exact loadUint24_writeUint24 _ _
  · have henc : r.encode = [packetRange] ++ writeUint24 r.first ++ writeUint24 r.last := if_neg hs
    have hcharge : r.charge = r.last.value - r.first.value := if_neg hs
    rw [henc, hcharge, List.append_assoc, List.append_assoc, List.append_assoc]
    refine readLoop_range build ?_ (hat _ _) ?_ ?_ hle hlen
    · simp only [List.length_append, List.length_singleton, length_writeUint24]
      omega
    · rw [hdrop 1 [packetRange] _ rfl]
      exact loadUint24_writeUint24 _ _
    · rw [← List.append_assoc [packetRange], hdrop 4 ([packetRange] ++ writeUint24 r.first) _ rfl]
      exact loadUint24_writeUint24 _ _

/-- The reader takes the records, when it holds `n` numbers already. -/
def Acceptable : Nat → List Record → Prop
  | _, [] => True
  | n, r :: rs => n + r.charge ≤ maxAcknowledgementPackets ∧ Acceptable (n + r.expand.length) rs

/-- Only the last record counts for less than it holds. -/
theorem acceptable_concat (rs : List Record) (r : Record) (n : Nat) :
    Acceptable n (rs ++ [r]) ↔
      n + (rs.flatMap Record.expand).length + r.charge ≤ maxAcknowledgementPackets := by
  induction rs generalizing n with
  | nil => exact ⟨And.left, fun h ↦ ⟨h, trivial⟩⟩
  | cons r' rs ih =>
      have hcharge := r'.charge_le
      rw [List.cons_append, Acceptable, ih, List.flatMap_cons, List.length_append]
      omega

/-- Reading records gives their expansion when they are acceptable, and fails otherwise. -/
theorem readLoop_encode (rs : List Record) (pre tail : Bytes) (packets : List Uint24)
    (hlen : packets.length ≤ maxAcknowledgementPackets + 1) :
    readLoop build (pre ++ (rs.flatMap Record.encode ++ tail)) rs.length pre.length packets =
        .ok (packets ++ rs.flatMap Record.expand) ∧ Acceptable packets.length rs ∨
      readLoop build (pre ++ (rs.flatMap Record.encode ++ tail)) rs.length pre.length packets =
        err .maxAcknowledgement ∧ ¬ Acceptable packets.length rs := by
  have hmax : maxAcknowledgementPackets = 8192 := rfl
  induction rs generalizing pre packets with
  | nil => exact Or.inl ⟨by simp [readLoop], trivial⟩
  | cons r rs ih =>
      have hexpand := r.length_expand_le
      rw [List.flatMap_cons, List.append_assoc, List.length_cons,
        readLoop_record build r pre _ (by omega), Acceptable]
      by_cases hcap : packets.length + r.charge > maxAcknowledgementPackets
      · rw [if_pos hcap]
        exact Or.inr ⟨rfl, fun h ↦ absurd h.1 (Nat.not_le_of_lt hcap)⟩
      · have h := ih (pre ++ r.encode) (packets ++ r.expand) (by
          rw [List.length_append]
          omega)
        rw [List.append_assoc, List.length_append, List.length_append, List.append_assoc] at h
        rw [if_neg hcap, List.flatMap_cons, and_iff_right (Nat.le_of_not_lt hcap)]
        exact h

end Reader

/-! ## The round trip -/

theorem sorted_perm (packets : List Uint24) : (sorted packets).Perm packets :=
  List.perm_insertionSort _ _

/-- What the writer holds when it has read the sorted numbers to the end of the datagram. -/
theorem writeToBuf_pending {build : Build} {mtu : Nat} {packets : List Uint24} (buf : Bytes)
    (hmtu : 7 ≤ mtu) (hne : packets ≠ []) :
    ∃ (p : Pending) (written : List Record), writeToBuf build ⟨packets⟩ buf mtu = .ok (buf ++
        ([UInt8.ofNat ((p.records + 1) >>> 8), UInt8.ofNat (p.records + 1)] ++ p.flush), p.n) ∧
      p.n = capacity mtu (sorted packets) ∧
      p.Holds ((sorted packets).take (capacity mtu (sorted packets))) written ∧
      p.body.length ≤ mtu := by
  have hslen := (sorted_perm packets).length_eq
  rw [writeToBuf]
  cases hs : sorted packets with
  | nil =>
      rw [hs] at hslen
      exact absurd (List.length_eq_zero_iff.mp hslen.symm) hne
  | cons first iter =>
      obtain ⟨p, written, hw, hp⟩ := writeLoop_spec hmtu iter (Pending.Holds.init first)
      refine ⟨p, written, ?_, ?_, hp, writeLoop_length_body hmtu iter hw (Nat.zero_le _)⟩
      · dsimp only
        rw [hw, Checked.ok_bind]
      · exact hp.n_eq.trans ((List.length_take).trans
          (Nat.min_eq_left (capacity_le mtu (first :: iter))))

/-- The numbers end in a range: the last of their runs has more than one. -/
def EndsInRange (taken : List Uint24) : Prop :=
  ∃ run, (taken.splitBy consecutive).getLast? = some run ∧ 1 < run.length

/-- The reader takes the records of the numbers: they are within its cap, or one above it when a
range comes last. -/
def Readable (taken : List Uint24) : Prop :=
  taken.length ≤ maxAcknowledgementPackets ∨
    taken.length = maxAcknowledgementPackets + 1 ∧ EndsInRange taken

/-- The records of the numbers taken are acceptable when the numbers are readable. -/
theorem Pending.Holds.acceptable_iff {p : Pending} {taken : List Uint24} {written : List Record}
    (h : p.Holds taken written) : Acceptable 0 (written ++ [h.record]) ↔ Readable taken := by
  have hlen : taken.length =
      (written.flatMap Record.expand).length + h.record.expand.length := by
    have htaken := congrArg List.length h.taken_eq
    rw [List.flatMap_append, List.flatMap_singleton, List.length_append] at htaken
    exact htaken.symm
  have hlast : (taken.splitBy consecutive).getLast? = some h.record.expand := by
    rw [h.runs_eq, List.getLast?_concat]
    rfl
  have hends : EndsInRange taken ↔ 1 < h.record.expand.length := by
    rw [EndsInRange, hlast]
    exact ⟨fun ⟨_, hrun, hlt⟩ ↦ Option.some.inj hrun ▸ hlt, fun hlt ↦ ⟨_, rfl, hlt⟩⟩
  have hcharge : h.record.charge =
      if 1 < h.record.expand.length then h.record.expand.length - 1 else 1 := by
    have hle := h.record.le
    rw [Record.charge, h.record.length_expand]
    by_cases he : h.record.first = h.record.last
    · rw [if_pos he, if_neg (by rw [he]; omega)]
    · have hne : h.record.first.value ≠ h.record.last.value := fun hv ↦ he (Uint24.ext hv)
      rw [if_neg he, if_pos (by omega)]
      omega
  have hpos : 1 ≤ h.record.expand.length := by
    have hle := h.record.le
    rw [h.record.length_expand]
    omega
  rw [acceptable_concat, Readable, hends, hcharge, Nat.zero_add]
  split <;> omega

/-- The bytes that the writer makes of the numbers `taken`: the record count and the records. -/
def Encodes (body : Bytes) (taken : List Uint24) : Prop :=
  ∃ (p : Pending) (written : List Record), p.Holds taken written ∧ p.records + 1 < 2 ^ 16 ∧
    body = [UInt8.ofNat ((p.records + 1) >>> 8), UInt8.ofNat (p.records + 1)] ++ p.flush

/-- Writing to `buf` appends an encoding of as many of the sorted numbers as there is room for. -/
theorem writeToBuf_encodes {build : Build} {mtu : Nat} {packets : List Uint24} (buf : Bytes)
    (hmtu : 7 ≤ mtu) (hmtu' : mtu < 2 ^ 16) (hne : packets ≠ []) :
    ∃ body, writeToBuf build ⟨packets⟩ buf mtu =
        .ok (buf ++ body, capacity mtu (sorted packets)) ∧
      Encodes body ((sorted packets).take (capacity mtu (sorted packets))) := by
  obtain ⟨p, written, hw, hn, hp, hbody⟩ := @writeToBuf_pending build mtu packets buf hmtu hne
  have hrecords := hp.records_le
  rw [hn] at hw
  exact ⟨_, hw, p, written, hp, by omega, rfl⟩

/-- Reading an encoding gives the numbers when they are readable, and fails otherwise. -/
theorem Encodes.reads {body : Bytes} {taken : List Uint24} (h : Encodes body taken)
    (build : Build) :
    read build new body = .ok ⟨taken⟩ ∧ Readable taken ∨
      read build new body = err .maxAcknowledgement ∧ ¬ Readable taken := by
  obtain ⟨p, written, hp, hrecords, rfl⟩ := h
  -- the count in front is the number of records
  have hcount : (u16FromBeBytes (UInt8.ofNat ((p.records + 1) >>> 8))
      (UInt8.ofNat (p.records + 1))).toNat = (written ++ [hp.record]).length := by
    rw [u16FromBeBytes_ofNat hrecords, List.length_append, ← hp.records_eq]
    rfl
  have hread := readLoop_encode build (written ++ [hp.record])
    [UInt8.ofNat ((p.records + 1) >>> 8), UInt8.ofNat (p.records + 1)] [] [] (Nat.zero_le _)
  rw [List.append_nil, ← hp.flush_eq, hp.taken_eq, List.nil_append] at hread
  rw [List.cons_append, List.cons_append, List.nil_append, read]
  change (((readLoop build _ (u16FromBeBytes _ _).toNat 2 [] >>= _) = _) ∧ _) ∨
    ((readLoop build _ (u16FromBeBytes _ _).toNat 2 [] >>= _) = _) ∧ _
  rw [hcount, ← hp.acceptable_iff]
  refine hread.imp (And.imp_left fun h ↦ ?_) (And.imp_left fun h ↦ ?_)
  · exact congrArg (fun r : Result (List Uint24) ↦ r >>= fun l ↦ .ok (mk l)) h
  · exact congrArg (fun r : Result (List Uint24) ↦ r >>= fun l ↦ .ok (mk l)) h

/-- A list that the reader can hold is read. -/
theorem writeToBuf_read {build build' : Build} {mtu : Nat} {packets : List Uint24} (buf : Bytes)
    (hmtu : 7 ≤ mtu) (hmtu' : mtu < 2 ^ 16) (hne : packets ≠ [])
    (hlen : packets.length ≤ maxAcknowledgementPackets) :
    ∃ body, writeToBuf build ⟨packets⟩ buf mtu =
        .ok (buf ++ body, capacity mtu (sorted packets)) ∧
      read build' new body =
        .ok ⟨(sorted packets).take (capacity mtu (sorted packets))⟩ := by
  obtain ⟨body, hw, hr⟩ := @writeToBuf_encodes build mtu packets buf hmtu hmtu' hne
  refine ⟨body, hw, ((hr.reads build').resolve_right fun h ↦ h.2 (Or.inl ?_)).1⟩
  rw [← (sorted_perm packets).length_eq] at hlen
  exact (List.length_take_le' _ _).trans hlen

/-- **What is written is read back.**  The writer takes the `n` smallest numbers of a list that the
reader can hold, at least one unless the list is empty, and the reader gets these numbers in
ascending order. -/
theorem writeToVec_read (build build' : Build) {mtu : Nat} (hmtu : 7 ≤ mtu) (hmtu' : mtu < 2 ^ 16)
    {packets : List Uint24} (hlen : packets.length ≤ maxAcknowledgementPackets) :
    ∃ bytes n, writeToVec build ⟨packets⟩ mtu = .ok (bytes, n) ∧
      read build' new bytes = .ok ⟨(sorted packets).take n⟩ ∧ n ≤ packets.length ∧
      (packets ≠ [] → 1 ≤ n) ∧ (sorted packets).Perm packets ∧
      (sorted packets).Pairwise (· ≤ ·) := by
  have hperm := sorted_perm packets
  have hpairwise : (sorted packets).Pairwise (· ≤ ·) := List.pairwise_insertionSort _ packets
  by_cases hne : packets = []
  · subst hne
    exact ⟨[0, 0], 0, rfl, rfl, Nat.le_refl 0, fun h ↦ absurd rfl h, hperm, hpairwise⟩
  · obtain ⟨body, hw, hr⟩ := @writeToBuf_read build build' mtu packets [] hmtu hmtu' hne hlen
    have hs : sorted packets ≠ [] := fun hs ↦ hne (List.nil_perm.mp (hs ▸ hperm))
    exact ⟨body, _, hw, hr, (capacity_le mtu _).trans_eq hperm.length_eq,
      fun _ ↦ capacity_pos mtu hs, hperm, hpairwise⟩

/-- Four numbers, one of them twice. -/
theorem writeToVec_read_four :
    7 ≤ 1464 ∧ 1464 < 2 ^ 16 ∧
      ∃ bytes n, writeToVec .debug ⟨[.new 9, .new 3, .new 4, .new 3]⟩ 1464 = .ok (bytes, n) ∧
        read .debug new bytes =
          .ok ⟨(sorted [.new 9, .new 3, .new 4, .new 3]).take n⟩ ∧ n ≤ 4 ∧
        ([Uint24.new 9, .new 3, .new 4, .new 3] ≠ [] → 1 ≤ n) ∧
        (sorted [.new 9, .new 3, .new 4, .new 3]).Perm [.new 9, .new 3, .new 4, .new 3] ∧
        (sorted [.new 9, .new 3, .new 4, .new 3]).Pairwise (· ≤ ·) :=
  ⟨by decide, by decide, writeToVec_read .debug .debug (by decide) (by decide) (by decide)⟩

end Ragnet.Acknowledgement

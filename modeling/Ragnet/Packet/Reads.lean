import Ragnet.Packet.Codec

/-!
# Reading packets from any bytes

A read consumes a packet or ends with an error value.  Each stage either finds its field at its
offset, and then does what it does behind an encoding, or finds that the bytes end too early.

Written back, a packet that was read gives the bytes it was read from, except for the bits that the
encoding has no use for.
-/

namespace Ragnet

open Proc Wire

namespace Packet

variable (build : Build)

/-! ## Bytes that end too early -/

theorem readIndex_short {pre tail : Bytes} {width : Nat} (h : tail.length < width)
    (set : Uint24 → Packet → Packet) (s : Packet) :
    readIndex build (pre ++ tail) width set pre.length s =
      (s, .error (.error .unexpectedEof)) := by
  rw [readIndex, List.length_append, Checked.sub_of_le _ _ (Nat.le_add_right _ _),
    ofExcept_ok_bind, Nat.add_sub_cancel_left, if_pos h]
  rfl

theorem readSplit_short {pre tail : Bytes} (h : tail.length < 10) (s : Packet) :
    readSplit build (pre ++ tail) pre.length s = (s, .error (.error .unexpectedEof)) := by
  rw [readSplit, List.length_append, Checked.sub_of_le _ _ (Nat.le_add_right _ _),
    ofExcept_ok_bind, Nat.add_sub_cancel_left, if_pos h]
  rfl

theorem readContent_short {pre tail : Bytes} {n : Nat} (h : tail.length < n) (s : Packet) :
    readContent build (pre ++ tail) n pre.length s = (s, .error (.error .unexpectedEof)) := by
  rw [readContent, List.length_append, Checked.sub_of_le _ _ (Nat.le_add_right _ _),
    ofExcept_ok_bind, Nat.add_sub_cancel_left, if_pos h]
  rfl

/-! ## Stages -/

/-- The stage `x` at the start of `tail` ends with an error value, or it consumes a field there
and leaves a packet behind that goes with it. -/
def Stage (x : Proc (Fault Error) Packet Nat) (pre tail : Bytes) (s : Packet)
    (found : Bytes → Packet → Prop) : Prop :=
  (∃ s' e, x s = (s', .error (.error e))) ∨
    ∃ field rest s', tail = field ++ rest ∧ found field s' ∧
      x s = (s', .ok (pre ++ field).length)

section Stages

variable {x : Proc (Fault Error) Packet Nat} {pre tail : Bytes} {s : Packet}
  {found found' : Bytes → Packet → Prop}

theorem Stage.mono (h : Stage x pre tail s found)
    (hf : ∀ field s', found field s' → found' field s') :
    Stage x pre tail s found' := by
  rcases h with herror | ⟨field, rest, s', htail, hfound, hx⟩
  · exact Or.inl herror
  · exact Or.inr ⟨field, rest, s', htail, hf field s' hfound, hx⟩

/-- The next stage starts behind the field. -/
theorem Stage.bind {f : Nat → Proc (Fault Error) Packet Nat} (h : Stage x pre tail s found)
    (hf : ∀ field rest s', pre ++ field ++ rest = pre ++ tail → found field s' →
      Stage (f (pre ++ field).length) (pre ++ field) rest s' fun field' s'' ↦
        found' (field ++ field') s'') :
    Stage (x >>= f) pre tail s found' := by
  rcases h with ⟨s', e, hx⟩ | ⟨field, rest, s', htail, hfound, hx⟩
  · exact Or.inl ⟨s', e, bind_error hx⟩
  have hat : pre ++ field ++ rest = pre ++ tail := by rw [htail, List.append_assoc]
  rcases hf field rest s' hat hfound with ⟨s'', e, hy⟩ | ⟨field', rest', s'', hrest, hfound', hy⟩
  · exact Or.inl ⟨s'', e, (bind_ok hx).trans hy⟩
  · refine Or.inr ⟨field ++ field', rest', s'', ?_, hfound', ?_⟩
    · rw [htail, hrest, List.append_assoc]
    · rw [bind_ok hx, hy, List.append_assoc]

/-- A stage that is not asked for consumes nothing. -/
theorem Stage.readIf {asks : Packet → Bool} {stage : Nat → Proc (Fault Error) Packet Nat}
    (h : asks s = true → Stage (stage pre.length) pre tail s found)
    (hnot : asks s = false → found [] s) :
    Stage (readIf asks stage pre.length) pre tail s found := by
  unfold Stage
  rw [Packet.readIf, get_bind]
  cases hasks : asks s with
  | true => exact h hasks
  | false => exact Or.inr ⟨[], tail, s, rfl, hnot hasks, by rw [List.append_nil]; rfl⟩

theorem exists_split {n : Nat} (tail : Bytes) (h : n ≤ tail.length) :
    ∃ field rest, tail = field ++ rest ∧ field.length = n :=
  ⟨tail.take n, tail.drop n, (List.take_append_drop n tail).symm, List.length_take_of_le h⟩

variable (s) {b : Bytes} (hb : pre ++ tail = b)
include hb

theorem readIndex_stage (k : Nat) (set : Uint24 → Packet → Packet) :
    Stage (readIndex build b (3 + k) set pre.length) pre tail s fun field s' ↦
      ∃ v pad, pad.length = k ∧ field = writeUint24 v ++ pad ∧ s' = set v s := by
  subst hb
  by_cases h : tail.length < 3 + k
  · exact Or.inl ⟨s, _, readIndex_short build h set s⟩
  · obtain ⟨index, rest, rfl, hindex⟩ := exists_split (n := 3) tail (by omega)
    rw [List.length_append, hindex] at h
    obtain ⟨pad, rest, rfl, hpad⟩ := exists_split (n := k) rest (by omega)
    obtain ⟨v, rfl⟩ := exists_writeUint24 hindex
    have hread := readIndex_append build v pad pre rest set s
    rw [hpad, List.append_assoc, ← List.length_append] at hread
    exact Or.inr ⟨_, rest, _, (List.append_assoc _ _ _).symm, ⟨v, pad, hpad, rfl, rfl⟩, hread⟩

theorem readSplit_stage :
    Stage (readSplit build b pre.length) pre tail s fun field s' ↦
      ∃ count id index, field = writeUint32 count ++ writeUint16 id ++ writeUint32 index ∧
        s' = { s with splitCount := count, splitId := id, splitIndex := index } := by
  subst hb
  by_cases h : tail.length < 10
  · exact Or.inl ⟨s, _, readSplit_short build h s⟩
  · obtain ⟨count, rest, rfl, hcount⟩ := exists_split (n := 4) tail (by omega)
    rw [List.length_append, hcount] at h
    obtain ⟨id, rest, rfl, hid⟩ := exists_split (n := 2) rest (by omega)
    rw [List.length_append, hid] at h
    obtain ⟨index, rest, rfl, hindex⟩ := exists_split (n := 4) rest (by omega)
    obtain ⟨count, rfl⟩ := exists_writeUint32 hcount
    obtain ⟨id, rfl⟩ := exists_writeUint16 hid
    obtain ⟨index, rfl⟩ := exists_writeUint32 hindex
    have hread := readSplit_append build count index id pre rest s
    rw [← List.length_append] at hread
    refine Or.inr ⟨_, rest, _, ?_, ⟨count, id, index, rfl, rfl⟩, ?_⟩
    · simp only [List.append_assoc]
    · simpa only [List.append_assoc] using hread

theorem readContent_stage (n : Nat) :
    Stage (readContent build b n pre.length) pre tail s fun field s' ↦
      field.length = n ∧ s' = { s with content := field } := by
  subst hb
  by_cases h : tail.length < n
  · exact Or.inl ⟨s, _, readContent_short build h s⟩
  · obtain ⟨content, rest, rfl, rfl⟩ := exists_split tail (Nat.le_of_not_lt h)
    have hread := readContent_append build content pre rest s
    rw [← List.length_append] at hread
    exact Or.inr ⟨content, rest, _, rfl, ⟨rfl, rfl⟩, hread⟩

end Stages

/-! ## What an encoding keeps of the bytes -/

/-- The bytes `written` are the bytes `read` with all bits cleared that the mask leaves out. -/
def Masks (mask read written : Bytes) : Prop :=
  mask.length = read.length ∧ written = List.zipWith (· &&& ·) mask read

theorem Masks.append {mask mask' read read' written written' : Bytes} (h : Masks mask read written)
    (h' : Masks mask' read' written') :
    Masks (mask ++ mask') (read ++ read') (written ++ written') := by
  obtain ⟨hlen, rfl⟩ := h
  obtain ⟨hlen', rfl⟩ := h'
  refine ⟨by rw [List.length_append, List.length_append, hlen, hlen'], ?_⟩
  rw [List.zipWith_append hlen]

theorem masks_nil : Masks [] [] [] := ⟨rfl, rfl⟩

/-- Nothing is left out. -/
theorem masks_all (bytes : Bytes) : Masks (List.replicate bytes.length 0xff) bytes bytes := by
  refine ⟨List.length_replicate, ?_⟩
  induction bytes with
  | nil => rfl
  | cons b bytes ih =>
      rw [List.length_cons, List.replicate_succ, List.zipWith_cons_cons, ← ih]
      exact congrArg (· :: bytes) (UInt8.neg_one_and).symm

/-- Everything is left out. -/
theorem masks_none (bytes : Bytes) :
    Masks (List.replicate bytes.length 0) bytes (List.replicate bytes.length 0) := by
  refine ⟨List.length_replicate, ?_⟩
  induction bytes with
  | nil => rfl
  | cons b bytes ih =>
      rw [List.length_cons, List.replicate_succ, List.zipWith_cons_cons, ← ih, UInt8.zero_and]

/-- The bits of an encoding of `pk` that stand for something: not the low four bits of the header,
nor the low three of the length, nor the order channel. -/
def mask (pk : Packet) : Bytes :=
  [0xf0, 0xff, 0xf8] ++ (if pk.isReliable then List.replicate 3 0xff else []) ++
    (if pk.isSequenced then List.replicate 3 0xff else []) ++
    (if pk.isSequencedOrOrdered then List.replicate 3 0xff ++ [0] else []) ++
    (if pk.split then List.replicate 10 0xff else []) ++ List.replicate pk.content.length 0xff

/-- The header that is written for a header that was read. -/
theorem header_eq {header : UInt8} {pk : Packet} (hsplit : pk.split = (header &&& splitFlag != 0))
    (hreliability : pk.reliability = (header &&& 224) >>> 5) : pk.header = 0xf0 &&& header := by
  have hbits : ∀ b < 256, (if (UInt8.ofNat b &&& splitFlag != 0) = true then
      ((UInt8.ofNat b &&& 224) >>> 5) <<< 5 ||| splitFlag
      else ((UInt8.ofNat b &&& 224) >>> 5) <<< 5) = 0xf0 &&& UInt8.ofNat b := by
    decide +kernel
  have h := hbits header.toNat header.toNat_lt
  rw [UInt8.ofNat_toNat] at h
  rw [Packet.header, hsplit, hreliability]
  exact h

/-- Dividing by 8 and multiplying again clears the low three bits. -/
theorem shift_back (b : UInt8) : (b >>> 3) <<< 3 = 0xf8 &&& b := by
  have hbits : ∀ n < 256, (UInt8.ofNat n >>> 3) <<< 3 = 0xf8 &&& UInt8.ofNat n := by
    decide +kernel
  have h := hbits b.toNat b.toNat_lt
  rwa [UInt8.ofNat_toNat] at h

/-- The length that is written for a length that was read. -/
theorem length_masks (b1 b2 : UInt8) :
    Masks [0xff, 0xf8] [b1, b2]
      (writeUint16 (UInt16.ofNat (u16FromBeBytes b1 b2 >>> 3).toNat <<< 3)) := by
  obtain ⟨u, hu⟩ := exists_writeUint16 (show [b1, b2].length = 2 from rfl)
  rw [writeUint16] at hu
  obtain ⟨rfl, rfl⟩ : (u >>> 8).toUInt8 = b1 ∧ u.toUInt8 = b2 := by simpa using hu
  refine ⟨rfl, ?_⟩
  rw [u16FromBeBytes_write, UInt16.ofNat_toNat]
  simp only [writeUint16, List.zipWith_cons_cons, List.zipWith_nil_left, ← shift_back]
  have hhigh : ((u >>> 3) <<< 3 >>> 8).toUInt8 = (0xff : UInt8) &&& (u >>> 8).toUInt8 := by
    refine Eq.trans ?_ UInt8.neg_one_and.symm
    apply UInt8.toNat_inj.mp
    simp [Nat.shiftRight_eq_div_pow, Nat.shiftLeft_eq]
    have := u.toNat_lt
    omega
  have hlow : ((u >>> 3) <<< 3).toUInt8 = (u.toUInt8 >>> 3) <<< 3 := by
    apply UInt8.toNat_inj.mp
    simp [Nat.shiftRight_eq_div_pow, Nat.shiftLeft_eq]
    have := u.toNat_lt
    omega
  rw [hhigh, hlow]

theorem masks_prelude {header b1 b2 : UInt8} {pk : Packet}
    (hsplit : pk.split = (header &&& splitFlag != 0))
    (hreliability : pk.reliability = (header &&& 224) >>> 5)
    (hlen : pk.content.length = (u16FromBeBytes b1 b2 >>> 3).toNat) :
    Masks [0xf0, 0xff, 0xf8] [header, b1, b2] pk.prelude := by
  have hheader : Masks [0xf0] [header] [pk.header] :=
    ⟨rfl, congrArg (fun b ↦ [b]) (header_eq hsplit hreliability)⟩
  rw [prelude, hlen]
  exact hheader.append (length_masks b1 b2)

/-! ## The read as a whole -/

section Optional

variable {pre tail b : Bytes} (s : Packet) (hb : pre ++ tail = b)
include hb

/-- An index field and the `k` bytes behind it, where there are any. -/
theorem readIndexIf_stage (asks : Packet → Bool) (index : Packet → Uint24)
    (set : Uint24 → Packet → Packet) (k : Nat) (hasks : ∀ v, asks (set v s) = asks s)
    (hindex : ∀ v, index (set v s) = v) (hset : set (index s) s = s) :
    Stage (readIf asks (readIndex build b (3 + k) set) pre.length) pre tail s
      fun field s' ↦ (∃ v, s' = set v s) ∧
        Masks (if asks s' then List.replicate 3 0xff ++ List.replicate k 0 else []) field
          (if asks s' then writeUint24 (index s') ++ List.replicate k 0 else []) := by
  refine .readIf (fun ha ↦ ?_) fun hnot ↦ ⟨⟨index s, hset.symm⟩, ?_⟩
  · refine (readIndex_stage build s hb k set).mono fun field s' hfound ↦ ?_
    obtain ⟨v, pad, rfl, rfl, rfl⟩ := hfound
    refine ⟨⟨v, rfl⟩, ?_⟩
    rw [hasks, ha, hindex]
    exact (masks_all (writeUint24 v)).append (masks_none pad)
  · rw [hnot]
    exact masks_nil

theorem readSplitIf_stage :
    Stage (readIf Packet.split (readSplit build b) pre.length) pre tail s
      fun field s' ↦
        (∃ count id index,
          s' = { s with splitCount := count, splitId := id, splitIndex := index }) ∧
        Masks (if s'.split then List.replicate 10 0xff else []) field s'.splitFields := by
  refine .readIf (fun ha ↦ ?_) fun hnot ↦ ⟨⟨_, _, _, rfl⟩, ?_⟩
  · refine (readSplit_stage build s hb).mono fun field s' hfound ↦ ?_
    obtain ⟨count, id, index, rfl, rfl⟩ := hfound
    refine ⟨⟨count, id, index, rfl⟩, ?_⟩
    rw [splitFields]
    dsimp only
    rw [ha, if_pos rfl, if_pos rfl]
    exact masks_all (writeUint32 count ++ writeUint16 id ++ writeUint32 index)
  · rw [splitFields, hnot]
    exact masks_nil

end Optional

/-- The first three bytes are missing, or give an empty content, or are a header. -/
theorem readHeader_cases (b : Bytes) (self : Packet) :
    (∃ s' e, readHeader b self = (s', .error (.error e))) ∨
      ∃ (header b1 b2 : UInt8) (tail : Bytes) (s : Packet), [header, b1, b2] ++ tail = b ∧
        s.split = (header &&& splitFlag != 0) ∧ s.reliability = (header &&& 224) >>> 5 ∧
          readHeader b self = (s, .ok (u16FromBeBytes b1 b2 >>> 3).toNat) := by
  by_cases hshort : b.length < 3
  · refine Or.inl ⟨self, .unexpectedEof, ?_⟩
    rw [readHeader, if_pos hshort]
    rfl
  obtain ⟨prelude, tail, rfl, hprelude⟩ := exists_split (n := 3) b (by omega)
  obtain ⟨header, b1, b2, rfl⟩ := List.length_eq_three.mp hprelude
  rw [readHeader, if_neg hshort]
  simp only [Checked.index, List.cons_append, List.getElem?_cons_zero, List.getElem?_cons_succ,
    ofExcept_ok_bind, modify_bind]
  by_cases hn : (u16FromBeBytes b1 b2 >>> 3).toNat = 0
  · rw [if_pos hn]
    exact Or.inl ⟨_, _, rfl⟩
  · rw [if_neg hn]
    exact Or.inr ⟨header, b1, b2, tail, _, rfl, rfl, rfl, rfl⟩

/-- The stages behind a header. -/
theorem readFields_stage {header b1 b2 : UInt8} {tail b : Bytes}
    (hb : [header, b1, b2] ++ tail = b) {s : Packet}
    (hsplit : s.split = (header &&& splitFlag != 0))
    (hreliability : s.reliability = (header &&& 224) >>> 5) :
    Stage (do
      let offset ← readIf isReliable (readMessageIndex build b) 3
      let offset ← readIf isSequenced (readSequenceIndex build b) offset
      let offset ← readIf isSequencedOrOrdered (readOrderIndex build b) offset
      let offset ← readIf Packet.split (readSplit build b) offset
      readContent build b (u16FromBeBytes b1 b2 >>> 3).toNat offset) [header, b1, b2] tail s
      fun field pk ↦ Masks pk.mask ([header, b1, b2] ++ field) pk.write := by
  refine (readIndexIf_stage build s hb isReliable messageIndex
    (fun index pk ↦ { pk with messageIndex := index }) 0 (fun _ ↦ rfl) (fun _ ↦ rfl) rfl).bind ?_
  rintro field₁ tail₁ s₂ hat₁ ⟨⟨v₁, hs₂⟩, hm₁⟩
  have hb₁ := hat₁.trans hb
  refine (readIndexIf_stage build _ hb₁ isSequenced sequenceIndex
    (fun index pk ↦ { pk with sequenceIndex := index }) 0 (fun _ ↦ rfl) (fun _ ↦ rfl) rfl).bind ?_
  rintro field₂ tail₂ s₃ hat₂ ⟨⟨v₂, hs₃⟩, hm₂⟩
  have hb₂ := hat₂.trans hb₁
  refine (readIndexIf_stage build _ hb₂ isSequencedOrOrdered orderIndex
    (fun index pk ↦ { pk with orderIndex := index }) 1 (fun _ ↦ rfl) (fun _ ↦ rfl) rfl).bind ?_
  rintro field₃ tail₃ s₄ hat₃ ⟨⟨v₃, hs₄⟩, hm₃⟩
  have hb₃ := hat₃.trans hb₂
  refine (readSplitIf_stage build _ hb₃).bind ?_
  rintro field₄ tail₄ s₅ hat₄ ⟨⟨count, id, index, hs₅⟩, hm₄⟩
  refine (readContent_stage build _ (hat₄.trans hb₃) _).mono ?_
  rintro content pk ⟨hlen, hpk⟩
  -- no later stage changes what the header has set
  have hm₀ : Masks [0xf0, 0xff, 0xf8] [header, b1, b2] pk.prelude := by
    refine masks_prelude ?_ ?_ ?_
    · rw [hpk, hs₅, hs₄, hs₃, hs₂, ← hsplit]
    · rw [hpk, hs₅, hs₄, hs₃, hs₂, ← hreliability]
    · rw [hpk, hlen]
  subst hpk hs₅ hs₄ hs₃ hs₂
  have hall := ((((hm₀.append hm₁).append hm₂).append hm₃).append hm₄).append (masks_all content)
  simp only [List.append_assoc, List.replicate_zero, List.append_nil] at hall
  simp only [mask, write_eq, List.append_assoc]
  exact hall

/-- A read ends with an error value, or it consumes the bytes of a packet. -/
theorem read_stage (b : Bytes) (self : Packet) :
    Stage (read build b) [] b self fun bytes pk ↦ Masks pk.mask bytes pk.write := by
  rcases readHeader_cases b self with
    ⟨s', e, hheader⟩ | ⟨header, b1, b2, tail, s, hb, hsplit, hreliability, hheader⟩
  · exact Or.inl ⟨s', e, bind_error hheader⟩
  rcases readFields_stage build hb hsplit hreliability with
    ⟨s', e, he⟩ | ⟨field, rest, pk, htail, hfound, hok⟩
  · exact Or.inl ⟨s', e, (bind_ok hheader).trans he⟩
  · refine Or.inr ⟨[header, b1, b2] ++ field, rest, pk, ?_, hfound, (bind_ok hheader).trans hok⟩
    rw [← hb, htail, List.append_assoc]

/-- A packet takes up bytes that are there. -/
theorem read_le {b : Bytes} {self pk : Packet} {n : Nat} (h : read build b self = (pk, .ok n)) :
    n ≤ b.length := by
  rcases read_stage build b self with ⟨s', e, he⟩ | ⟨field, rest, pk', rfl, -, hok⟩
  · rw [h] at he
    cases (Prod.mk.inj he).2
  · rw [h] at hok
    obtain rfl := Except.ok.inj (Prod.mk.inj hok).2
    rw [List.nil_append, List.length_append]
    exact Nat.le_add_right _ _

/-- Reading a packet never panics. -/
theorem read_avoids (b : Bytes) : Avoids .panic (read build b) := by
  intro self
  rcases read_stage build b self with ⟨s', e, he⟩ | ⟨field, rest, pk, -, -, hok⟩
  · rw [he]
    intro h
    cases h
  · rw [hok]
    intro h
    cases h

/-- A packet that was read, written back. -/
theorem write_read {b : Bytes} {self pk : Packet} {n : Nat}
    (h : read build b self = (pk, .ok n)) :
    n ≤ b.length ∧ Masks pk.mask (b.take n) pk.write := by
  rcases read_stage build b self with ⟨s', e, he⟩ | ⟨field, rest, pk', rfl, hfound, hok⟩
  · rw [he] at h
    cases (Prod.mk.inj h).2
  · rw [hok] at h
    obtain ⟨rfl, hn⟩ := Prod.mk.inj h
    obtain rfl : field.length = n := Except.ok.inj hn
    refine ⟨?_, ?_⟩
    · rw [List.length_append]
      exact Nat.le_add_right _ _
    · rw [List.take_left]
      exact hfound

/-! ## The packets of a datagram -/

/-- The loop of `handle_datagram`, with the packets collected: each is read into a new packet, and
the next one starts behind it.  A packet takes up at least one byte, so the loop ends. -/
def readAll (build : Build) (data : Bytes) : Result (List Packet) :=
  if _hd : data = [] then .ok []
  else
    match _hread : read build data new with
    | (_, .error e) => .error e
    | (pk, .ok n) =>
        if n ≤ data.length then do
          let pks ← readAll build (data.drop n)
          .ok (pk :: pks)
        else panicked
termination_by data.length
decreasing_by
  rw [List.length_drop]
  exact Nat.sub_lt (List.length_pos_iff.mpr _hd) (read_pos _hread)

theorem readAll_nil : readAll build [] = .ok [] := by
  rw [readAll, dif_pos rfl]

theorem readAll_cons {data : Bytes} {pk : Packet} {n : Nat} (hd : data ≠ [])
    (hread : read build data new = (pk, .ok n)) (hn : n ≤ data.length) :
    readAll build data = readAll build (data.drop n) >>= fun pks ↦ .ok (pk :: pks) := by
  rw [readAll, dif_neg hd]
  split
  · next he =>
    rw [hread] at he
    cases (Prod.mk.inj he).2
  · next hok =>
    rw [hread] at hok
    obtain ⟨rfl, hm⟩ := Prod.mk.inj hok
    obtain rfl := Except.ok.inj hm
    rw [if_pos hn]

/-- What the loop returned, it read from the front. -/
theorem readAll_eq_ok {data : Bytes} {pks : List Packet} (h : readAll build data = .ok pks) :
    data = [] ∧ pks = [] ∨
      ∃ pk n pks', pks = pk :: pks' ∧ data ≠ [] ∧ read build data new = (pk, .ok n) ∧
        n ≤ data.length ∧ readAll build (data.drop n) = .ok pks' := by
  by_cases hd : data = []
  · subst hd
    rw [readAll_nil] at h
    exact Or.inl ⟨rfl, (Except.ok.inj h).symm⟩
  · right
    rcases hread : read build data new with ⟨pk, e | n⟩
    · rw [readAll, dif_neg hd] at h
      split at h
      · cases h
      · next hok =>
        rw [hread] at hok
        cases (Prod.mk.inj hok).2
    · have hn := (write_read build hread).1
      rw [readAll_cons build hd hread hn] at h
      cases hrest : readAll build (data.drop n) with
      | error e =>
          rw [hrest] at h
          cases h
      | ok pks' =>
          rw [hrest] at h
          exact ⟨pk, n, pks', (Except.ok.inj h).symm, hd, rfl, hn, hrest⟩

/-- The encodings of packets one behind the other are read back in order. -/
theorem readAll_write {pks : List Packet} (h : ∀ pk ∈ pks, pk.Encodable) :
    readAll build (pks.flatMap write) = .ok (pks.map fun pk ↦ pk.overlay new) := by
  induction pks with
  | nil => exact readAll_nil build
  | cons pk pks ih =>
      have hpk : pk.Encodable := h pk (List.mem_cons_self ..)
      have hread := read_write build hpk (pks.flatMap write) new
      have hne : pk.write ++ pks.flatMap write ≠ [] := List.cons_ne_nil _ _
      have hle : pk.write.length ≤ (pk.write ++ pks.flatMap write).length := by
        rw [List.length_append]
        exact Nat.le_add_right _ _
      rw [List.flatMap_cons, readAll_cons build hne hread hle, List.drop_left,
        ih fun pk' hpk' ↦ h pk' (List.mem_cons_of_mem _ hpk')]
      rfl

end Packet

end Ragnet

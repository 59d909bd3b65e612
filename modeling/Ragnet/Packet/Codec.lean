import Ragnet.Packet

/-!
# Reading back what was written

`Packet.read_write` is the round trip of one packet, whatever follows it in the datagram and
whatever the packet it is read into held before.  Fields that the encoding leaves out keep the
value they had, which `Packet.overlay` spells out.

Each stage of the read is run on a byte string cut at its offset, so the round trip is the
composition of five stage lemmas along the encoding.
-/

namespace Ragnet

open Wire

namespace Packet

variable (build : Build)

/-- The packets whose encoding is faithful: a reliability of three bits, and a content whose length
in bits fits 16 bits and is not 0. -/
structure Encodable (pk : Packet) : Prop where
  reliability_lt : pk.reliability.toNat < 8
  content_ne_nil : pk.content ≠ []
  content_length_lt : pk.content.length < 2 ^ 13

/-- What reading the encoding of `pk` into `self` gives. -/
def overlay (pk self : Packet) : Packet where
  reliability := pk.reliability
  messageIndex := if pk.isReliable then pk.messageIndex else self.messageIndex
  sequenceIndex := if pk.isSequenced then pk.sequenceIndex else self.sequenceIndex
  orderIndex := if pk.isSequencedOrOrdered then pk.orderIndex else self.orderIndex
  content := pk.content
  split := pk.split
  splitCount := if pk.split then pk.splitCount else self.splitCount
  splitIndex := if pk.split then pk.splitIndex else self.splitIndex
  splitId := if pk.split then pk.splitId else self.splitId

/-! ## The header -/

/-- The two fields of the header byte do not overlap. -/
theorem header_bits : ∀ r < 8, ∀ c : Bool,
    let header := if c then UInt8.ofNat r <<< 5 ||| splitFlag else UInt8.ofNat r <<< 5
    (header &&& splitFlag != 0) = c ∧ (header &&& 224) >>> 5 = UInt8.ofNat r := by
  decide

theorem header_split {pk : Packet} (h : pk.reliability.toNat < 8) :
    (pk.header &&& splitFlag != 0) = pk.split := by
  have hb := (header_bits pk.reliability.toNat h pk.split).1
  rw [UInt8.ofNat_toNat] at hb
  exact hb

theorem header_reliability {pk : Packet} (h : pk.reliability.toNat < 8) :
    (pk.header &&& 224) >>> 5 = pk.reliability := by
  have hb := (header_bits pk.reliability.toNat h pk.split).2
  rw [UInt8.ofNat_toNat] at hb
  exact hb

/-- The length field is a bit count, and the read divides it by 8 again. -/
theorem toNat_length_field {n : Nat} (h : n < 2 ^ 13) :
    ((UInt16.ofNat n <<< 3) >>> 3).toNat = n := by
  have hn : (UInt16.ofNat n).toNat = n := UInt16.toNat_ofNat_of_lt' (by
    change n < 2 ^ 16
    omega)
  rw [UInt16.toNat_shiftRight, UInt16.toNat_shiftLeft, hn]
  change (n <<< 3 % 2 ^ 16) >>> 3 = n
  rw [Nat.shiftLeft_eq, Nat.shiftRight_eq_div_pow]
  omega

/-- The first three bytes of an encoding. -/
def prelude (pk : Packet) : Bytes :=
  [pk.header] ++ writeUint16 (UInt16.ofNat pk.content.length <<< 3)

@[simp] theorem length_prelude (pk : Packet) : pk.prelude.length = 3 := rfl

theorem readHeader_append {pk : Packet} (h : pk.Encodable) (tail : Bytes) (self : Packet) :
    readHeader (pk.prelude ++ tail) self =
      ({ self with split := pk.split, reliability := pk.reliability },
        .ok pk.content.length) := by
  have hlen : ¬ (pk.prelude ++ tail).length < 3 := by simp
  have hn : pk.content.length ≠ 0 := by
    simpa using h.content_ne_nil
  rw [readHeader, if_neg hlen]
  simp only [prelude, writeUint16, List.cons_append, List.nil_append, Checked.index,
    List.getElem?_cons_zero, List.getElem?_cons_succ, Proc.ofExcept_ok_bind, Proc.modify_bind,
    u16FromBeBytes_write, toNat_length_field h.content_length_lt, if_neg hn, Proc.pure_apply,
    header_split h.reliability_lt, header_reliability h.reliability_lt]

/-! ## The stages -/

/-- An index stage at the start of its field consumes the field. -/
theorem readIndex_append (v : Uint24) (pad pre tail : Bytes) (set : Uint24 → Packet → Packet)
    (s : Packet) :
    readIndex build (pre ++ ((writeUint24 v ++ pad) ++ tail)) (3 + pad.length) set pre.length s =
      (set v s, .ok (pre.length + (writeUint24 v ++ pad).length)) := by
  have hle : pre.length ≤ (pre ++ ((writeUint24 v ++ pad) ++ tail)).length := by simp
  have hleft : (pre ++ ((writeUint24 v ++ pad) ++ tail)).length - pre.length =
      3 + pad.length + tail.length := by
    simp only [List.length_append, length_writeUint24]
    omega
  have hdrop : (pre ++ ((writeUint24 v ++ pad) ++ tail)).drop pre.length =
      writeUint24 v ++ (pad ++ tail) := by
    rw [List.drop_left, List.append_assoc]
  rw [readIndex, Checked.sub_of_le _ _ hle, Proc.ofExcept_ok_bind, hleft,
    if_neg (by omega), Checked.sliceFrom_of_le hle, hdrop, List.length_append,
    length_writeUint24]
  change (Proc.ofExcept (loadUint24 (writeUint24 v ++ (pad ++ tail))) >>= _) s = _
  rw [loadUint24_writeUint24]
  rfl

/-- The split stage at the start of its fields consumes them. -/
theorem readSplit_append (count index : UInt32) (id : UInt16) (pre tail : Bytes) (s : Packet) :
    readSplit build
        (pre ++ ((writeUint32 count ++ writeUint16 id ++ writeUint32 index) ++ tail)) pre.length s =
      ({ s with splitCount := count, splitId := id, splitIndex := index },
        .ok (pre.length + (writeUint32 count ++ writeUint16 id ++ writeUint32 index).length)) := by
  generalize hf : writeUint32 count ++ writeUint16 id ++ writeUint32 index = field
  have hle : pre.length ≤ (pre ++ (field ++ tail)).length := by simp
  have hten : field.length = 10 := by rw [← hf]; rfl
  have hleft : (pre ++ (field ++ tail)).length - pre.length = 10 + tail.length := by
    simp only [List.length_append, hten]
    omega
  have hat : ∀ i, i < 10 → (pre ++ (field ++ tail))[pre.length + i]? = field[i]? := by
    intro i hi
    rw [List.getElem?_append_right (Nat.le_add_right _ _), Nat.add_sub_cancel_left,
      List.getElem?_append_left (by omega)]
  have h0 := hat 0 (by omega)
  rw [Nat.add_zero] at h0
  rw [readSplit, Checked.sub_of_le _ _ hle, Proc.ofExcept_ok_bind, hleft, if_neg (by omega), hten]
  simp only [Checked.index, h0, hat 1 (by omega), hat 2 (by omega), hat 3 (by omega),
    hat 4 (by omega), hat 5 (by omega), hat 6 (by omega), hat 7 (by omega), hat 8 (by omega),
    hat 9 (by omega)]
  subst hf
  simp [writeUint32, writeUint16, u32FromBeBytes_write, u16FromBeBytes_write]

/-- The last stage at the start of the content consumes the content. -/
theorem readContent_append (content pre tail : Bytes) (s : Packet) :
    readContent build (pre ++ (content ++ tail)) content.length pre.length s =
      ({ s with content := content }, .ok (pre.length + content.length)) := by
  have hle : pre.length ≤ (pre ++ (content ++ tail)).length := by simp
  have hleft : (pre ++ (content ++ tail)).length - pre.length =
      content.length + tail.length := by
    simp only [List.length_append]
    omega
  have hto : content.length ≤ (content ++ tail).length := by simp
  rw [readContent, Checked.sub_of_le _ _ hle, Proc.ofExcept_ok_bind, hleft,
    if_neg (by omega), Checked.sliceFrom_of_le hle, Proc.ofExcept_ok_bind, List.drop_left,
    Checked.sliceTo_of_le hto, Proc.ofExcept_ok_bind, List.take_left]
  rfl

/-- A stage that is asked for exactly when its field is present consumes the field if there is
one. -/
theorem readIf_append {asks : Packet → Bool} {stage : Bytes → Nat → Proc (Fault Error) Packet Nat}
    {f : Packet → Packet} {field : Bytes}
    (hstage : ∀ pre tail s,
      stage (pre ++ (field ++ tail)) pre.length s = (f s, .ok (pre.length + field.length)))
    {s : Packet} {c : Bool} (hc : asks s = c) (pre tail : Bytes) :
    readIf asks (stage (pre ++ ((if c then field else []) ++ tail))) pre.length s =
      (if c then f s else s, .ok (pre ++ if c then field else []).length) := by
  rw [readIf, Proc.get_bind, hc]
  cases c with
  | true => simpa using hstage pre tail s
  | false => simp

/-! ## The encoding, field by field -/

/-- The message index, where there is one. -/
def messageField (pk : Packet) : Bytes :=
  if pk.isReliable then writeUint24 pk.messageIndex else []

/-- The sequence index, where there is one. -/
def sequenceField (pk : Packet) : Bytes :=
  if pk.isSequenced then writeUint24 pk.sequenceIndex else []

/-- The order index and channel, where there are any. -/
def orderField (pk : Packet) : Bytes :=
  if pk.isSequencedOrOrdered then writeUint24 pk.orderIndex ++ [0] else []

/-- The split fields, where there are any. -/
def splitFields (pk : Packet) : Bytes :=
  if pk.split then
    writeUint32 pk.splitCount ++ writeUint16 pk.splitId ++ writeUint32 pk.splitIndex
  else []

theorem write_eq (pk : Packet) :
    pk.write = pk.prelude ++ pk.messageField ++ pk.sequenceField ++ pk.orderField ++
      pk.splitFields ++ pk.content := rfl

section Stages

variable (pk s : Packet) (pre tail : Bytes)

theorem readMessageIndex_append (hs : s.reliability = pk.reliability) :
    readIf isReliable (readMessageIndex build (pre ++ (pk.messageField ++ tail))) pre.length s =
      (if pk.isReliable then { s with messageIndex := pk.messageIndex } else s,
        .ok (pre ++ pk.messageField).length) := by
  refine @readIf_append isReliable (readMessageIndex build)
    (fun s ↦ { s with messageIndex := pk.messageIndex }) (writeUint24 pk.messageIndex) ?_ s _
    (isReliable_congr hs) pre tail
  intro pre tail s
  have h := readIndex_append build pk.messageIndex [] pre tail
    (fun index s ↦ { s with messageIndex := index }) s
  rwa [List.append_nil] at h

theorem readSequenceIndex_append (hs : s.reliability = pk.reliability) :
    readIf isSequenced (readSequenceIndex build (pre ++ (pk.sequenceField ++ tail))) pre.length s =
      (if pk.isSequenced then { s with sequenceIndex := pk.sequenceIndex } else s,
        .ok (pre ++ pk.sequenceField).length) := by
  refine @readIf_append isSequenced (readSequenceIndex build)
    (fun s ↦ { s with sequenceIndex := pk.sequenceIndex }) (writeUint24 pk.sequenceIndex) ?_ s _
    (isSequenced_congr hs) pre tail
  intro pre tail s
  have h := readIndex_append build pk.sequenceIndex [] pre tail
    (fun index s ↦ { s with sequenceIndex := index }) s
  rwa [List.append_nil] at h

theorem readOrderIndex_append (hs : s.reliability = pk.reliability) :
    readIf isSequencedOrOrdered (readOrderIndex build (pre ++ (pk.orderField ++ tail)))
        pre.length s =
      (if pk.isSequencedOrOrdered then { s with orderIndex := pk.orderIndex } else s,
        .ok (pre ++ pk.orderField).length) :=
  @readIf_append isSequencedOrOrdered (readOrderIndex build)
    (fun s ↦ { s with orderIndex := pk.orderIndex }) (writeUint24 pk.orderIndex ++ [0])
    (fun pre tail s ↦ readIndex_append build pk.orderIndex [0] pre tail _ s) s _
    (isSequencedOrOrdered_congr hs) pre tail

theorem readSplitFields_append (hs : s.split = pk.split) :
    readIf Packet.split (readSplit build (pre ++ (pk.splitFields ++ tail))) pre.length s =
      (if pk.split then
        { s with splitCount := pk.splitCount, splitId := pk.splitId, splitIndex := pk.splitIndex }
        else s,
        .ok (pre ++ pk.splitFields).length) :=
  @readIf_append Packet.split (readSplit build)
    (fun s ↦
      { s with splitCount := pk.splitCount, splitId := pk.splitId, splitIndex := pk.splitIndex })
    _ (fun pre tail s ↦ readSplit_append build pk.splitCount pk.splitIndex pk.splitId pre tail s)
    s _ hs pre tail

end Stages

/-- **Round trip of a packet.**  Reading the encoding of an encodable packet consumes exactly the
encoding, and gives the packet with the fields left out by the encoding as they were. -/
theorem read_write {pk : Packet} (h : pk.Encodable) (rest : Bytes) (self : Packet) :
    read build (pk.write ++ rest) self = (pk.overlay self, .ok pk.write.length) := by
  -- the same bytes, cut at the offset of each stage
  have e₀ : pk.write ++ rest = pk.prelude ++ (pk.messageField ++ (pk.sequenceField ++
      (pk.orderField ++ (pk.splitFields ++ (pk.content ++ rest))))) := by
    simp only [write_eq, List.append_assoc]
  have e₁ : pk.write ++ rest = (pk.prelude ++ pk.messageField) ++ (pk.sequenceField ++
      (pk.orderField ++ (pk.splitFields ++ (pk.content ++ rest)))) := by
    simp only [write_eq, List.append_assoc]
  have e₂ : pk.write ++ rest = (pk.prelude ++ pk.messageField ++ pk.sequenceField) ++
      (pk.orderField ++ (pk.splitFields ++ (pk.content ++ rest))) := by
    simp only [write_eq, List.append_assoc]
  have e₃ : pk.write ++ rest = (pk.prelude ++ pk.messageField ++ pk.sequenceField ++
      pk.orderField) ++ (pk.splitFields ++ (pk.content ++ rest)) := by
    simp only [write_eq, List.append_assoc]
  have e₄ : pk.write ++ rest = (pk.prelude ++ pk.messageField ++ pk.sequenceField ++
      pk.orderField ++ pk.splitFields) ++ (pk.content ++ rest) := by
    simp only [write_eq, List.append_assoc]
  -- the packet after each stage
  let s₁ : Packet := { self with split := pk.split, reliability := pk.reliability }
  let s₂ : Packet := if pk.isReliable then { s₁ with messageIndex := pk.messageIndex } else s₁
  let s₃ : Packet := if pk.isSequenced then { s₂ with sequenceIndex := pk.sequenceIndex } else s₂
  let s₄ : Packet :=
    if pk.isSequencedOrOrdered then { s₃ with orderIndex := pk.orderIndex } else s₃
  have hs₂ : s₂.reliability = pk.reliability ∧ s₂.split = pk.split := by
    dsimp only [s₂]
    split <;> exact ⟨rfl, rfl⟩
  have hs₃ : s₃.reliability = pk.reliability ∧ s₃.split = pk.split := by
    dsimp only [s₃]
    split <;> exact hs₂
  have hs₄ : s₄.split = pk.split := by
    dsimp only [s₄]
    split <;> exact hs₃.2
  have r₁ := readHeader_append h (pk.messageField ++ (pk.sequenceField ++ (pk.orderField ++
    (pk.splitFields ++ (pk.content ++ rest))))) self
  have r₂ := readMessageIndex_append build pk s₁ pk.prelude (pk.sequenceField ++
    (pk.orderField ++ (pk.splitFields ++ (pk.content ++ rest)))) rfl
  have r₃ := readSequenceIndex_append build pk s₂ (pk.prelude ++ pk.messageField)
    (pk.orderField ++ (pk.splitFields ++ (pk.content ++ rest))) hs₂.1
  have r₄ := readOrderIndex_append build pk s₃ (pk.prelude ++ pk.messageField ++ pk.sequenceField)
    (pk.splitFields ++ (pk.content ++ rest)) hs₃.1
  have r₅ := readSplitFields_append build pk s₄
    (pk.prelude ++ pk.messageField ++ pk.sequenceField ++ pk.orderField) (pk.content ++ rest) hs₄
  rw [← e₀] at r₁ r₂
  rw [← e₁] at r₃
  rw [← e₂] at r₄
  rw [← e₃] at r₅
  rw [length_prelude] at r₂
  rw [read, Proc.bind_ok r₁, Proc.bind_ok r₂, Proc.bind_ok r₃, Proc.bind_ok r₄, Proc.bind_ok r₅,
    e₄, readContent_append, ← List.length_append, ← write_eq]
  congr 1
  rw [overlay]
  dsimp only [s₄, s₃, s₂, s₁]
  ext1 <;> split <;> split <;> split <;> split <;> rfl

end Packet

end Ragnet

import Ragnet.Binary
import Ragnet.Lib.Proc

/-!
# Packets

`packet.rs`: the encapsulation of one message, or of one fragment of a message, inside a datagram.

`Packet::read` fills in a packet it is given and can fail after writing some of its fields, so it
is a `Proc` over the packet: the fields written before a failure stay written.  The read runs in
stages, one per group of fields, each of which returns the offset behind what it has consumed.
-/

namespace Ragnet

open Wire

def bitFlagDatagram : UInt8 := 0x80

def bitFlagAck : UInt8 := 0x40

def bitFlagNack : UInt8 := 0x20

def bitFlagNeedsBAndAs : UInt8 := 0x04

def reliabilityUnreliableSequenced : UInt8 := 1

def reliabilityReliable : UInt8 := 2

def reliabilityReliableOrdered : UInt8 := 3

def reliabilityReliableSequenced : UInt8 := 4

def splitFlag : UInt8 := 0x10

def packetAdditionalSize : Nat := 1 + 3 + 1 + 2 + 3 + 3 + 1

def splitAdditionalSize : Nat := 4 + 2 + 4

@[ext]
structure Packet where
  reliability : UInt8
  messageIndex : Uint24
  sequenceIndex : Uint24
  orderIndex : Uint24
  content : Bytes
  split : Bool
  splitCount : UInt32
  splitIndex : UInt32
  splitId : UInt16
deriving DecidableEq

namespace Packet

def new : Packet where
  reliability := reliabilityReliableOrdered
  messageIndex := Uint24.new 0
  sequenceIndex := Uint24.new 0
  orderIndex := Uint24.new 0
  content := []
  split := false
  splitCount := 0
  splitIndex := 0
  splitId := 0

def isReliable (self : Packet) : Bool :=
  self.reliability == reliabilityReliable || self.reliability == reliabilityReliableOrdered ||
    self.reliability == reliabilityReliableSequenced

def isSequencedOrOrdered (self : Packet) : Bool :=
  self.reliability == reliabilityUnreliableSequenced ||
    self.reliability == reliabilityReliableOrdered ||
    self.reliability == reliabilityReliableSequenced

def isSequenced (self : Packet) : Bool :=
  self.reliability == reliabilityUnreliableSequenced ||
    self.reliability == reliabilityReliableSequenced

/-- The reliability alone decides which indices a packet has. -/
theorem isReliable_congr {pk pk' : Packet} (h : pk.reliability = pk'.reliability) :
    pk.isReliable = pk'.isReliable := by
  rw [isReliable, isReliable, h]

theorem isSequencedOrOrdered_congr {pk pk' : Packet} (h : pk.reliability = pk'.reliability) :
    pk.isSequencedOrOrdered = pk'.isSequencedOrOrdered := by
  rw [isSequencedOrOrdered, isSequencedOrOrdered, h]

theorem isSequenced_congr {pk pk' : Packet} (h : pk.reliability = pk'.reliability) :
    pk.isSequenced = pk'.isSequenced := by
  rw [isSequenced, isSequenced, h]

/-- The header byte that `Packet::write` emits. -/
def header (self : Packet) : UInt8 :=
  if self.split then self.reliability <<< 5 ||| splitFlag else self.reliability <<< 5

def write (self : Packet) : Bytes :=
  [self.header] ++ writeUint16 (UInt16.ofNat self.content.length <<< 3) ++
    (if self.isReliable then writeUint24 self.messageIndex else []) ++
    (if self.isSequenced then writeUint24 self.sequenceIndex else []) ++
    -- the order channel is always 0
    (if self.isSequencedOrOrdered then writeUint24 self.orderIndex ++ [0] else []) ++
    (if self.split then
      writeUint32 self.splitCount ++ writeUint16 self.splitId ++ writeUint32 self.splitIndex
    else []) ++
    self.content

/-! ## Reading -/

/-- The first three bytes: the flags, and the content length, which is returned. -/
def readHeader (b : Bytes) : Proc (Fault Error) Packet Nat :=
  if b.length < 3 then Proc.fail (.error .unexpectedEof)
  else do
    let header ← Proc.ofExcept (Checked.index b 0)
    Proc.modify fun pk ↦ { pk with split := header &&& splitFlag != 0 }
    Proc.modify fun pk ↦ { pk with reliability := (header &&& 224) >>> 5 }
    let b1 ← Proc.ofExcept (Checked.index b 1)
    let b2 ← Proc.ofExcept (Checked.index b 2)
    let n := (u16FromBeBytes b1 b2 >>> 3).toNat
    if n = 0 then Proc.fail (.error (.invalidPacketLength "cannot be 0")) else pure n

/-- The content is not empty. -/
theorem readHeader_pos {b : Bytes} {self pk : Packet} {n : Nat}
    (h : readHeader b self = (pk, .ok n)) : 0 < n := by
  rw [readHeader] at h
  split at h
  · cases h
  · obtain ⟨s₁, header, -, h⟩ := Proc.bind_eq_ok.mp h
    obtain ⟨s₂, -, -, h⟩ := Proc.bind_eq_ok.mp h
    obtain ⟨s₃, -, -, h⟩ := Proc.bind_eq_ok.mp h
    obtain ⟨s₄, b1, -, h⟩ := Proc.bind_eq_ok.mp h
    obtain ⟨s₅, b2, -, h⟩ := Proc.bind_eq_ok.mp h
    split at h
    · cases h
    · next hn =>
      obtain rfl := Except.ok.inj (Prod.mk.inj h).2
      exact Nat.pos_of_ne_zero hn

/-- One of the three index fields, which takes up `width` bytes, the index itself the first three
of them. -/
def readIndex (build : Build) (b : Bytes) (width : Nat) (set : Uint24 → Packet → Packet)
    (offset : Nat) : Proc (Fault Error) Packet Nat := do
  let left ← Proc.ofExcept (Checked.sub build 64 b.length offset)
  if left < width then Proc.fail (.error .unexpectedEof)
  else do
    let index ← Proc.ofExcept (Checked.sliceFrom b offset >>= loadUint24)
    Proc.modify (set index)
    pure (offset + width)

def readMessageIndex (build : Build) (b : Bytes) : Nat → Proc (Fault Error) Packet Nat :=
  readIndex build b 3 fun index pk ↦ { pk with messageIndex := index }

def readSequenceIndex (build : Build) (b : Bytes) : Nat → Proc (Fault Error) Packet Nat :=
  readIndex build b 3 fun index pk ↦ { pk with sequenceIndex := index }

def readOrderIndex (build : Build) (b : Bytes) : Nat → Proc (Fault Error) Packet Nat :=
  readIndex build b 4 fun index pk ↦ { pk with orderIndex := index }

def readSplit (build : Build) (b : Bytes) (offset : Nat) : Proc (Fault Error) Packet Nat := do
  let left ← Proc.ofExcept (Checked.sub build 64 b.length offset)
  if left < 10 then Proc.fail (.error .unexpectedEof)
  else do
    let b0 ← Proc.ofExcept (Checked.index b offset)
    let b1 ← Proc.ofExcept (Checked.index b (offset + 1))
    let b2 ← Proc.ofExcept (Checked.index b (offset + 2))
    let b3 ← Proc.ofExcept (Checked.index b (offset + 3))
    Proc.modify fun pk ↦ { pk with splitCount := u32FromBeBytes b0 b1 b2 b3 }
    let b4 ← Proc.ofExcept (Checked.index b (offset + 4))
    let b5 ← Proc.ofExcept (Checked.index b (offset + 5))
    Proc.modify fun pk ↦ { pk with splitId := u16FromBeBytes b4 b5 }
    let b6 ← Proc.ofExcept (Checked.index b (offset + 6))
    let b7 ← Proc.ofExcept (Checked.index b (offset + 7))
    let b8 ← Proc.ofExcept (Checked.index b (offset + 8))
    let b9 ← Proc.ofExcept (Checked.index b (offset + 9))
    Proc.modify fun pk ↦ { pk with splitIndex := u32FromBeBytes b6 b7 b8 b9 }
    pure (offset + 10)

def readContent (build : Build) (b : Bytes) (n offset : Nat) :
    Proc (Fault Error) Packet Nat := do
  let left ← Proc.ofExcept (Checked.sub build 64 b.length offset)
  if left < n then Proc.fail (.error .unexpectedEof)
  else do
    let tail ← Proc.ofExcept (Checked.sliceFrom b offset)
    let content ← Proc.ofExcept (Checked.sliceTo tail n)
    Proc.modify fun pk ↦ { pk with content := content }
    pure (offset + n)

/-- A stage that the packet read so far asks for, or none. -/
def readIf (asks : Packet → Bool) (stage : Nat → Proc (Fault Error) Packet Nat) (offset : Nat) :
    Proc (Fault Error) Packet Nat := do
  let pk ← Proc.get
  if asks pk then stage offset else pure offset

def read (build : Build) (b : Bytes) : Proc (Fault Error) Packet Nat := do
  let n ← readHeader b
  let offset ← readIf isReliable (readMessageIndex build b) 3
  let offset ← readIf isSequenced (readSequenceIndex build b) offset
  let offset ← readIf isSequencedOrOrdered (readOrderIndex build b) offset
  let offset ← readIf Packet.split (readSplit build b) offset
  readContent build b n offset

/-- A packet takes up at least one byte. -/
theorem read_pos {build : Build} {b : Bytes} {self pk : Packet} {n : Nat}
    (h : read build b self = (pk, .ok n)) : 0 < n := by
  obtain ⟨s₁, len, hlen, h⟩ := Proc.bind_eq_ok.mp h
  obtain ⟨s₂, o₂, -, h⟩ := Proc.bind_eq_ok.mp h
  obtain ⟨s₃, o₃, -, h⟩ := Proc.bind_eq_ok.mp h
  obtain ⟨s₄, o₄, -, h⟩ := Proc.bind_eq_ok.mp h
  obtain ⟨s₅, o₅, -, h⟩ := Proc.bind_eq_ok.mp h
  have hpos := readHeader_pos hlen
  obtain ⟨s₆, left, -, h⟩ := Proc.bind_eq_ok.mp h
  split at h
  · cases h
  · obtain ⟨s₇, tail, -, h⟩ := Proc.bind_eq_ok.mp h
    obtain ⟨s₈, content, -, h⟩ := Proc.bind_eq_ok.mp h
    obtain ⟨s₉, -, -, h⟩ := Proc.bind_eq_ok.mp h
    obtain rfl : o₅ + len = n := Except.ok.inj (Prod.mk.inj h).2
    exact Nat.add_pos_right _ hpos

end Packet

/-! ## Splitting -/

/-- `usize::div_ceil`, which panics on a zero divisor. -/
def divCeil (n m : Nat) : Result Nat :=
  if m = 0 then panicked else .ok ((n + m - 1) / m)

/-- The loop of `split`: `k` fragments of `maxSize` bytes, and what remains. -/
def splitLoop : Nat → Bytes → Nat → Result (List Bytes)
  | 0, remaining, _ => .ok [remaining]
  | k + 1, remaining, maxSize => do
      let head ← Checked.sliceTo remaining maxSize
      let rest ← Checked.sliceFrom remaining maxSize
      let fragments ← splitLoop k rest maxSize
      .ok (head :: fragments)

def split (build : Build) (b : Bytes) (mtu : Nat) : Result (List Bytes) := do
  let whole ← Checked.sub build 16 mtu packetAdditionalSize
  let maxSize ← if b.length > whole then
      Checked.sub build 16 whole splitAdditionalSize
    else .ok whole
  let fragmentCount ← divCeil b.length maxSize
  let full ← Checked.sub build 64 fragmentCount 1
  splitLoop full b maxSize

end Ragnet

import Ragnet.Binary

/-!
# The fields of messages

The ids of the messages, and their fixed-width fields.  A reader indexes slices, so it can panic;
the checks of the length in front of the indexing are those of the source.

A `u32` or `u64` is kept as such, an `i64` as `Int64`; both are written big-endian.
-/

namespace Ragnet

open Wire

namespace Id

def connectedPing : UInt8 := 0x00

def unconnectedPing : UInt8 := 0x01

def unconnectedPingOpenConnections : UInt8 := 0x02

def connectedPong : UInt8 := 0x03

def detectLostConnections : UInt8 := 0x04

def openConnectionRequest1 : UInt8 := 0x05

def openConnectionReply1 : UInt8 := 0x06

def openConnectionRequest2 : UInt8 := 0x07

def openConnectionReply2 : UInt8 := 0x08

def connectionRequest : UInt8 := 0x09

def connectionRequestAccepted : UInt8 := 0x10

def newIncomingConnection : UInt8 := 0x13

def disconnectNotification : UInt8 := 0x15

def incompatibleProtocolVersion : UInt8 := 0x19

def unconnectedPong : UInt8 := 0x1c

end Id

def unconnectedMessageSequence : Bytes :=
  [0x00, 0xff, 0xff, 0x00, 0xfe, 0xfe, 0xfe, 0xfe,
    0xfd, 0xfd, 0xfd, 0xfd, 0x12, 0x34, 0x56, 0x78]

/-! ## Fixed-width fields -/

/-- `[u8; n]`. -/
abbrev Octets (n : Nat) := { octets : Bytes // octets.length = n }

/-- The `n` bytes of a slice from an offset on. -/
def loadOctets (n : Nat) (data : Bytes) (offset : Nat) : Result (Octets n) :=
  if h : offset + n ≤ data.length then
    .ok ⟨(data.drop offset).take n, by
      rw [List.length_take, List.length_drop]
      exact Nat.min_eq_left (Nat.le_sub_of_add_le' h)⟩
  else panicked

/-- `from_be_bytes` of the `n` bytes of a slice from an offset on. -/
def loadBe (n : Nat) (data : Bytes) (offset : Nat) : Result Nat := do
  let octets ← loadOctets n data offset
  .ok (ofBeBytes octets.val)

/-- `i64::from_be_bytes`. -/
def loadInt64 (data : Bytes) (offset : Nat) : Result Int64 := do
  let bits ← loadBe 8 data offset
  .ok (UInt64.ofNat bits).toInt64

/-- `i64::to_be_bytes`. -/
def writeInt64 (v : Int64) : Bytes := beBytes 8 v.toUInt64.toNat

/-- `u16::from_be_bytes`. -/
def loadUInt16 (data : Bytes) (offset : Nat) : Result UInt16 := do
  let bits ← loadBe 2 data offset
  .ok (UInt16.ofNat bits)

/-- `u32::from_be_bytes`. -/
def loadUInt32 (data : Bytes) (offset : Nat) : Result UInt32 := do
  let bits ← loadBe 4 data offset
  .ok (UInt32.ofNat bits)

/-- `u64::from_be_bytes`. -/
def loadUInt64 (data : Bytes) (offset : Nat) : Result UInt64 := do
  let bits ← loadBe 8 data offset
  .ok (UInt64.ofNat bits)

/-- `u64::to_be_bytes`. -/
def writeUInt64 (v : UInt64) : Bytes := beBytes 8 v.toNat

/-! ## Fields that are there -/

variable {n offset : Nat} {data : Bytes}

theorem loadOctets_noPanic (h : offset + n ≤ data.length) :
    Checked.NoPanic (loadOctets n data offset) := by
  rw [loadOctets, dif_pos h]
  exact .ok _

theorem loadBe_noPanic (h : offset + n ≤ data.length) : Checked.NoPanic (loadBe n data offset) :=
  .bind (loadOctets_noPanic h) fun _ _ ↦ .ok _

theorem loadInt64_noPanic (h : offset + 8 ≤ data.length) :
    Checked.NoPanic (loadInt64 data offset) := .bind (loadBe_noPanic h) fun _ _ ↦ .ok _

theorem loadUInt16_noPanic (h : offset + 2 ≤ data.length) :
    Checked.NoPanic (loadUInt16 data offset) := .bind (loadBe_noPanic h) fun _ _ ↦ .ok _

theorem loadUInt32_noPanic (h : offset + 4 ≤ data.length) :
    Checked.NoPanic (loadUInt32 data offset) := .bind (loadBe_noPanic h) fun _ _ ↦ .ok _

theorem loadUInt64_noPanic (h : offset + 8 ≤ data.length) :
    Checked.NoPanic (loadUInt64 data offset) := .bind (loadBe_noPanic h) fun _ _ ↦ .ok _

end Ragnet

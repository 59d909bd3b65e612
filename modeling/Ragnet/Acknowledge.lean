import Ragnet.Binary
import Mathlib.Data.List.Sort

/-!
# Acknowledgements

`acknowledge.rs`: ACK and NACK bodies.  The writer sorts the sequence numbers, joins neighbours
into ranges, and stops before the MTU is exceeded, so it returns how many numbers it has written.
The reader expands the ranges again and refuses to hold more than a fixed number of them.

The writer reserves two bytes for the record count and fills them in at the end.  The model keeps
the records apart from these two bytes and puts the count in front when it is known.
-/

namespace Ragnet

open Wire

def packetRange : UInt8 := 0

def packetSingle : UInt8 := 1

def maxAcknowledgementPackets : Nat := 8192

structure Acknowledgement where
  packets : List Uint24

namespace Acknowledgement

def new : Acknowledgement := ⟨[]⟩

/-! ## Writing -/

/-- `write_record_to_vec`. -/
def writeRecord (first last : Uint24) : Bytes :=
  if first = last then [packetSingle] ++ writeUint24 first
  else [packetRange] ++ writeUint24 first ++ writeUint24 last

/-- What the writer holds between two numbers: the records written, how many they are, how many
numbers it has taken, and the range it has not written yet. -/
structure Pending where
  body : Bytes
  records : Nat
  n : Nat
  firstPacketInRange : Uint24
  lastPacketInRange : Uint24

def Pending.flush (p : Pending) : Bytes :=
  p.body ++ writeRecord p.firstPacketInRange p.lastPacketInRange

/-- The loop of `write_to_buf` over the sorted numbers behind the first. -/
def writeLoop (build : Build) (mtu : Nat) : List Uint24 → Pending → Result Pending
  | [], p => .ok p
  | pk :: iter, p => do
      let limit ← Checked.sub build 16 mtu 7
      if 2 + p.body.length ≥ limit then .ok p
      else if pk.value = p.lastPacketInRange.value + 1 then
        writeLoop build mtu iter { p with n := p.n + 1, lastPacketInRange := pk }
      else
        writeLoop build mtu iter
          { body := p.flush, records := p.records + 1, n := p.n + 1,
            firstPacketInRange := pk, lastPacketInRange := pk }

/-- `packets.sort()`. -/
def sorted (packets : List Uint24) : List Uint24 :=
  packets.insertionSort (· ≤ ·)

/-- `Acknowledgement::write_to_buf`: the buffer with the records appended, and the number of
sequence numbers written. -/
def writeToBuf (build : Build) (self : Acknowledgement) (buf : Bytes) (mtu : Nat) :
    Result (Bytes × Nat) :=
  match sorted self.packets with
  | [] => .ok (buf ++ [0, 0], 0)
  | first :: iter => do
      let p ← writeLoop build mtu iter ⟨[], 0, 1, first, first⟩
      let records := p.records + 1
      .ok (buf ++ ([UInt8.ofNat (records >>> 8), UInt8.ofNat records] ++ p.flush), p.n)

def writeToVec (build : Build) (self : Acknowledgement) (mtu : Nat) : Result (Bytes × Nat) :=
  self.writeToBuf build [] mtu

/-! ## Reading -/

/-- `start..=end`. -/
def rangeInclusive (first last : Uint24) : List Uint24 :=
  (List.range' first.value (last.value + 1 - first.value)).map Uint24.new

/-- The loop of `read`: `k` records from `offset` on. -/
def readLoop (build : Build) (b : Bytes) : Nat → Nat → List Uint24 → Result (List Uint24)
  | 0, _, packets => .ok packets
  | k + 1, offset, packets => do
      let left ← Checked.sub build 64 b.length offset
      if left < 4 then err .unexpectedEof
      else
        let kind ← Checked.index b offset
        if kind = packetRange then
          let left ← Checked.sub build 64 b.length offset
          if left < 7 then err .unexpectedEof
          else
            let first ← Checked.sliceFrom b (offset + 1) >>= loadUint24
            let last ← Checked.sliceFrom b (offset + 4) >>= loadUint24
            let total ← Checked.add build 32 (packets.length % 2 ^ 32) last.value
            let total ← Checked.sub build 32 total first.value
            if total > maxAcknowledgementPackets then err .maxAcknowledgement
            else readLoop build b k (offset + 7) (packets ++ rangeInclusive first last)
        else if kind = packetSingle then
          if packets.length + 1 > maxAcknowledgementPackets then err .maxAcknowledgement
          else
            let packet ← Checked.sliceFrom b (offset + 1) >>= loadUint24
            readLoop build b k (offset + 4) (packets ++ [packet])
        else
          -- unknown record types are skipped
          readLoop build b k (offset + 4) packets

def read (build : Build) (self : Acknowledgement) (b : Bytes) : Result Acknowledgement :=
  match b with
  | b0 :: b1 :: _ => do
      let packets ← readLoop build b (u16FromBeBytes b0 b1).toNat 2 self.packets
      .ok ⟨packets⟩
  | _ => err .unexpectedEof

end Acknowledgement

end Ragnet

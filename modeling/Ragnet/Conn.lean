import Ragnet.Acknowledge
import Ragnet.DatagramWindow
import Ragnet.Lib.Ledger
import Ragnet.Lib.Proc
import Ragnet.PacketQueue
import Ragnet.ResendMap

/-!
# Connections

The data model of `conn.rs`.  The methods of a connection are in `Ragnet.Conn.Send` and
`Ragnet.Conn.Receive`, as computations over `Conn`.

Both tokio channels are kept as the list of what was ever sent on them, oldest first.  The scratch
buffers, the socket and the notifiers carry no data between calls and are left out.  Three more
fields record history; nothing reads them except the handler, which may remember what it has been
shown.

A call that reads the clock takes its readings as an argument, in the order in which it makes them.
-/

namespace Ragnet

def minMtuSize : Nat := 400

def maxMtuSize : Nat := 1492

def maxWindowSize : Nat := 2048

def maxSplitCount : UInt32 := 512

def maxConcurrentSplits : Nat := 16

/-- The MTU of a connection, which `Conn::new` clamps. -/
structure Mtu where
  value : Nat
  min_le : minMtuSize ≤ value
  le_max : value ≤ maxMtuSize

namespace Mtu

/-- `mtu.clamp(MIN_MTU_SIZE, MAX_MTU_SIZE)`. -/
def clamp (mtu : Nat) : Mtu where
  value := max minMtuSize (min mtu maxMtuSize)
  min_le := le_max_left _ _
  le_max := max_le (by decide) (min_le_right _ _)

/-- `Conn::effective_mtu`. -/
def effective (self : Mtu) : Nat := self.value - 28

theorem effective_bounds (m : Mtu) : 372 ≤ m.effective ∧ m.effective ≤ 1464 := by
  have hlo := m.min_le
  have hhi := m.le_max
  rw [minMtuSize] at hlo
  rw [maxMtuSize] at hhi
  rw [effective]
  omega

/-- A packet with a split message has room in a datagram. -/
theorem le_effective (m : Mtu) : 25 ≤ m.effective := le_trans (by decide) m.effective_bounds.1

end Mtu

/-- The readings of the clock that a call makes, in order. -/
abbrev Clock := Nat → Instant

/-- `ConnectionHandler`.  What `handle` does with a content may depend on the contents that came
before it. -/
structure ConnectionHandler where
  /-- `limits_enabled`. -/
  limitsEnabled : Bool
  /-- `handle`. -/
  handle : List Wire.Bytes → Wire.Bytes → Result Bool

/-- Limits, and no use for any content: all go on to the application. -/
def ConnectionHandler.forwarding : ConnectionHandler := ⟨true, fun _ _ ↦ .ok false⟩

structure ConnState where
  pk : Packet
  seq : Uint24
  orderIndex : Uint24
  messageIndex : Uint24
  splitId : UInt32
  splits : HashMap UInt16 (List Wire.Bytes)
  win : DatagramWindow
  ackSlice : List Uint24
  packetQueue : PacketQueue
  retransmission : ResendMap

/-- The events in the life of the tracked packets: a packet goes into the datagram of a number, or
an ACK naming a number is processed. -/
abbrev SendEvent := Ledger.Event Nat Packet

structure Conn where
  mtu : Mtu
  rtt : Duration
  closing : Int
  closed : Bool
  state : ConnState
  /-- The contents sent to the application. -/
  packetTx : List Wire.Bytes
  /-- The datagrams sent to the sender task. -/
  sendTx : List Wire.Bytes
  /-- History: the contents passed to `handle_packet`. -/
  handled : List Wire.Bytes
  /-- History: the packets combined from fragments. -/
  reassembled : List Packet
  /-- History: the life of the tracked packets. -/
  sends : List SendEvent

namespace Conn

def newState : ConnState where
  pk := Packet.new
  seq := Uint24.new 0
  orderIndex := Uint24.new 0
  messageIndex := Uint24.new 0
  splitId := 0
  splits := ∅
  win := DatagramWindow.new
  ackSlice := []
  packetQueue := PacketQueue.new
  retransmission := ResendMap.new

def new (mtu : Nat) : Conn where
  mtu := Mtu.clamp mtu
  rtt := 0
  closing := 0
  closed := false
  state := newState
  packetTx := []
  sendTx := []
  handled := []
  reassembled := []
  sends := []

/-- A computation over a connection. -/
abbrev Action (α : Type) := Proc (Fault Error) Conn α

end Conn

end Ragnet

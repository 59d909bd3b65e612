import Ragnet.Conn
import Ragnet.Lib.Lts

/-!
# Sending

The send side of a connection: `write`, `send_message`, and the two paths that send a packet again,
`handle_nack` and `check_resend`.  Each path gives its packet the next datagram number and tracks
it under this number, which is `emit`; the paths differ in where the packet comes from and in how
the datagram goes to the sender task.

`send` waits for room in the channel and fails when the sender task is gone, while `try_send`
gives up in silence.  Whether the channel takes the `i`-th datagram of a call is an argument.
-/

namespace Ragnet

open Wire

/-- What a call finds in its surroundings: its clock readings, and whether the channel of the
sender task takes its datagrams. -/
structure Env where
  clock : Clock
  accepts : Nat → Bool

/-- The clock stands still, and every datagram is accepted. -/
def Env.calm : Env := ⟨fun _ ↦ 0, fun _ ↦ true⟩

namespace Conn

def datagram (seq : Uint24) (pk : Packet) : Bytes :=
  (bitFlagDatagram ||| bitFlagNeedsBAndAs) :: (writeUint24 seq ++ pk.write)

/-- Number a packet and track it.  The datagram is returned. -/
def emit (pk : Packet) (now : Instant) (self : Conn) : Conn × Bytes :=
  let seq := self.state.seq.inc
  ({ self with
      state.seq := seq.1
      state.retransmission := self.state.retransmission.add seq.2 pk now
      sends := self.sends ++ [.emit seq.2.value pk] },
    datagram seq.2 pk)

/-- `let _ = self.send_tx.try_send(data)`. -/
def trySend (accepted : Bool) (data : Bytes) (self : Conn) : Conn :=
  if accepted then { self with sendTx := self.sendTx ++ [data] } else self

/-- `self.send_tx.send(data).await`, which fails when the sender task is gone. -/
def send (accepted : Bool) (data : Bytes) : Action Unit :=
  if accepted then Proc.modify (trySend true data)
  else Proc.fail (.error .connectionClosed)

def sendDatagram (now : Instant) (accepted : Bool) (pk : Packet) : Action Unit := do
  let data ← Proc.update (emit pk now)
  send accepted data

/-- The loop of `write_locked` over the fragments from the `i`-th on. -/
def writeLoop (env : Env) (count : Nat) (splitId : UInt16) (orderIndex : Uint24) :
    Nat → List Bytes → Nat → Action Nat
  | _, [], n => pure n
  | i, content :: rest, n => do
      let messageIndex ← Proc.update fun c ↦
        ({ c with state.messageIndex := c.state.messageIndex.inc.1 }, c.state.messageIndex.inc.2)
      let pk : Packet :=
        { Packet.new with
          content := content, orderIndex := orderIndex, messageIndex := messageIndex }
      let pk : Packet :=
        if count > 1 then
          { pk with
            split := true
            splitCount := UInt32.ofNat count
            splitIndex := UInt32.ofNat i
            splitId := splitId }
        else pk
      sendDatagram (env.clock i) (env.accepts i) pk
      writeLoop env count splitId orderIndex (i + 1) rest (n + content.length)

def writeLocked (build : Build) (env : Env) (data : Bytes) : Action Nat := do
  let c ← Proc.get
  let fragments ← Proc.ofExcept (split build data c.mtu.effective)
  let orderIndex ← Proc.update fun c ↦
    ({ c with state.orderIndex := c.state.orderIndex.inc.1 }, c.state.orderIndex.inc.2)
  let splitId := c.state.splitId.toUInt16
  if fragments.length > 1 then
    Proc.modify fun c ↦ { c with state.splitId := c.state.splitId + 1 }
    writeLoop env fragments.length splitId orderIndex 0 fragments 0
  else
    writeLoop env fragments.length splitId orderIndex 0 fragments 0

def write (build : Build) (env : Env) (data : Bytes) : Action Nat := do
  let c ← Proc.get
  if c.closed then Proc.fail (.error .connectionClosed) else writeLocked build env data

/-- The task that `Conn::send_message` spawns. -/
def sendMessage (env : Env) (data : Bytes) (self : Conn) : Conn :=
  let orderIndex := self.state.orderIndex.inc
  let messageIndex := self.state.messageIndex.inc
  let pk : Packet :=
    { Packet.new with
      content := data, orderIndex := orderIndex.2, messageIndex := messageIndex.2 }
  let sent := emit pk (env.clock 0)
    { self with state.orderIndex := orderIndex.1, state.messageIndex := messageIndex.1 }
  sent.1.trySend (env.accepts 0) sent.2

/-! ## Sending again -/

/-- Send the packet tracked under a number again, under a new number. -/
def resend (removed added : Instant) (accepted : Bool) (seq : Uint24) (self : Conn) : Conn :=
  let taken := self.state.retransmission.retransmit seq removed
  let self : Conn := { self with state.retransmission := taken.1 }
  match taken.2 with
  | none => self
  | some pk =>
      let sent := emit pk added self
      sent.1.trySend accepted sent.2

/-- The loops of `handle_nack` and `check_resend`. -/
def resendAll (env : Env) : Nat → List Uint24 → Conn → Conn
  | _, [], self => self
  | i, seq :: seqs, self =>
      resendAll env (i + 1) seqs
        (resend (env.clock (2 * i)) (env.clock (2 * i + 1)) (env.accepts i) seq self)

def handleNack (build : Build) (env : Env) (data : Bytes) : Action Unit := do
  let nack ← Proc.ofExcept (Acknowledgement.new.read build data)
  Proc.modify (resendAll env 0 nack.packets)

/-- `Conn::check_resend`.  `iter` lists the numbers tracked, in the order in which the hash map
yields them. -/
def checkResend (env : Env) (now : Instant) (iter : List Uint24) (self : Conn) : Conn :=
  let estimated := self.state.retransmission.rtt now
  let rtt := estimated.2
  let delay := rtt + rtt / 2
  let self : Conn := { self with state.retransmission := estimated.1, rtt := rtt }
  let timedOut (seq : Uint24) : Bool :=
    match self.state.retransmission.unacknowledged.lookup seq.value with
    | some record => decide (durationSince now record.timestamp > delay)
    | none => false
  resendAll env 0 (iter.filter timedOut) self

/-! ## Acknowledged packets -/

/-- The loop of `handle_ack`. -/
def acknowledgeAll (clock : Clock) : Nat → List Uint24 → Conn → Conn
  | _, [], self => self
  | i, seq :: seqs, self =>
      acknowledgeAll clock (i + 1) seqs
        { self with
          state.retransmission := (self.state.retransmission.acknowledge seq (clock i)).1
          sends := self.sends ++ [.acked seq.value] }

def handleAck (build : Build) (clock : Clock) (data : Bytes) : Action Unit := do
  let ack ← Proc.ofExcept (Acknowledgement.new.read build data)
  Proc.modify (acknowledgeAll clock 0 ack.packets)

/-! ## The send side as a system -/

/-- The calls that use the send side.  Each holds the state lock throughout, so they interleave as
whole steps. -/
inductive SendCall where
  | writeLocked (env : Env) (data : Bytes)
  | sendMessage (env : Env) (data : Bytes)
  | handleAck (clock : Clock) (data : Bytes)
  | handleNack (env : Env) (data : Bytes)
  | checkResend (env : Env) (now : Instant) (iter : List Uint24)

/-- The connection after a call, whether or not the call has failed. -/
def SendCall.run (build : Build) (c : Conn) : SendCall → Conn
  | .writeLocked env data => (Conn.writeLocked build env data c).1
  | .sendMessage env data => Conn.sendMessage env data c
  | .handleAck clock data => (Conn.handleAck build clock data c).1
  | .handleNack env data => (Conn.handleNack build env data c).1
  | .checkResend env now iter => Conn.checkResend env now iter c

/-- All interleavings of the send-side calls on a new connection. -/
def sending (build : Build) : Lts Conn SendCall where
  init c := ∃ mtu, c = new mtu
  step c call c' := c' = call.run build c

end Conn

end Ragnet

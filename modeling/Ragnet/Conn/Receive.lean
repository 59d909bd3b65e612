import Ragnet.Conn.SendAcknowledgement

/-!
# Receiving

The receive side of a connection: a datagram is entered into the window and cut into packets,
fragments are put together, ordered packets are put into order, and contents go to the handler and
on to the application.

Every method keeps what it has changed when it fails later on, so all of them are computations
over the connection.  An error value is built where the source builds it, its text included.
-/

namespace Ragnet.Conn

open Wire

/-- `Conn::handle_packet`.  `packet_tx.send(..).await` waits for room in the channel of the
application; what is sent is recorded here. -/
def handlePacket (handler : ConnectionHandler) (content : Bytes) : Action Unit := do
  let c ← Proc.get
  Proc.modify fun c ↦ { c with handled := c.handled ++ [content] }
  if content = [] then Proc.fail (.error .zeroPacket)
  else if c.closing ≠ 0 then pure ()
  else do
    let handled ← Proc.ofExcept (handler.handle c.handled content)
    if handled then pure ()
    else Proc.modify fun c ↦ { c with packetTx := c.packetTx ++ [content] }

/-- `for content in contents { self.handle_packet(content).await?; }`. -/
def handleAll (handler : ConnectionHandler) : List Bytes → Action Unit
  | [] => pure ()
  | content :: contents => do
      handlePacket handler content
      handleAll handler contents

/-- The block of `receive_packet` that holds the lock: the contents that are now in order. -/
def orderPacket (build : Build) (handler : ConnectionHandler) (pk : Packet) :
    Action (List Bytes) := do
  let put ← Proc.update fun c ↦
    ({ c with state.packetQueue := (c.state.packetQueue.put pk.orderIndex pk.content).1 },
      (c.state.packetQueue.put pk.orderIndex pk.content).2)
  if put = false then pure []
  else do
    let c ← Proc.get
    let size ← Proc.ofExcept (c.state.packetQueue.windowSize build)
    if size > maxWindowSize ∧ handler.limitsEnabled = true then
      Proc.fail (.error (.windowSizeTooBig c.state.packetQueue.lowest.value
        c.state.packetQueue.highest.value))
    else Proc.update fun c ↦
      ({ c with state.packetQueue := c.state.packetQueue.fetch.1 }, c.state.packetQueue.fetch.2)

def receivePacket (build : Build) (handler : ConnectionHandler) (pk : Packet) : Action Unit :=
  if pk.reliability ≠ reliabilityReliableOrdered then handlePacket handler pk.content
  else do
    let packetsToHandle ← orderPacket build handler pk
    handleAll handler packetsToHandle

/-- The fragments of a split packet: the open entry of its split id, or as many empty slots as the
packet announces. -/
def fragmentsOf (splits : HashMap UInt16 (List Bytes)) (pk : Packet) : List Bytes :=
  match splits.lookup pk.splitId with
  | some fragments => fragments
  | none => List.replicate pk.splitCount.toNat []

/-- The text of the error about an index out of range, which subtracts one from the number of
slots. -/
def splitIndexError (build : Build) (splitIndex : UInt32) (count : Nat) : Result String := do
  let last ← Checked.sub build 64 count 1
  .ok s!"split index {splitIndex} is out of range (0 - {last})"

/-- The block of `receive_split_packet` that holds the lock: the combined packet, once all
fragments have arrived. -/
def reassemble (build : Build) (handler : ConnectionHandler) (pk : Packet) :
    Action (Option Packet) := do
  if pk.splitCount > maxSplitCount ∧ handler.limitsEnabled = true then
    let count := pk.splitCount
    Proc.fail (.error (.splitPacket s!"split count {count} exceeds maximum {maxSplitCount}"))
  else do
    let c ← Proc.get
    if c.state.splits.len > maxConcurrentSplits ∧ handler.limitsEnabled = true then
      Proc.fail (.error (.splitPacket
        s!"maximum concurrent splits {maxConcurrentSplits} reached"))
    else do
      let fragments := fragmentsOf c.state.splits pk
      Proc.modify fun c ↦
        { c with state.splits := c.state.splits.insert pk.splitId fragments }
      if pk.splitIndex ≥ UInt32.ofNat fragments.length then do
        let text ← Proc.ofExcept (splitIndexError build pk.splitIndex fragments.length)
        Proc.fail (.error (.splitPacket text))
      else
        let fragments := fragments.set pk.splitIndex.toNat pk.content
        Proc.modify fun c ↦
          { c with state.splits := c.state.splits.insert pk.splitId fragments }
        if fragments.any List.isEmpty then pure none
        else do
          let combinedPk : Packet :=
            { Packet.new with
              content := fragments.flatten
              orderIndex := pk.orderIndex
              reliability := pk.reliability }
          Proc.modify fun c ↦
            { c with
              state.splits := c.state.splits.erase pk.splitId
              reassembled := c.reassembled ++ [combinedPk] }
          pure (some combinedPk)

def receiveSplitPacket (build : Build) (handler : ConnectionHandler) (pk : Packet) :
    Action Unit := do
  let combinedPk ← reassemble build handler pk
  match combinedPk with
  | none => pure ()
  | some combinedPk => receivePacket build handler combinedPk

/-! ## Datagrams -/

/-- The block of `handle_datagram` that holds the lock: the next packet, and how many bytes it
takes up. -/
def readPacket (build : Build) (data : Bytes) : Action (Packet × Nat) := do
  let n ← Proc.zoom (fun c ↦ c.state.pk) (fun c pk ↦ { c with state.pk := pk })
    (Packet.read build data)
  let c ← Proc.get
  Proc.modify fun c ↦ { c with state.pk := Packet.new }
  pure (c.state.pk, n)

/-- What `handle_datagram` does with one packet. -/
def takePacket (build : Build) (handler : ConnectionHandler) (pk : Packet) : Action Unit :=
  if pk.split then receiveSplitPacket build handler pk else receivePacket build handler pk

/-- The loop of `handle_datagram`, with a bound on the number of rounds. -/
def handleLoop (build : Build) (handler : ConnectionHandler) : Nat → Bytes → Action Unit
  | 0, _ => pure ()
  | rounds + 1, data =>
      if data = [] then pure ()
      else do
        let read ← readPacket build data
        let data ← Proc.ofExcept (Checked.sliceFrom data read.2)
        takePacket build handler read.1
        handleLoop build handler rounds data

/-- `Conn::handle_datagram`.  Every packet takes up at least one byte, so the loop needs no more
rounds than there are bytes; `handleDatagram_cons` is the loop without the bound. -/
def handleDatagram (build : Build) (handler : ConnectionHandler) (data : Bytes) : Action Unit :=
  handleLoop build handler data.length data

/-- What the block of `receive_datagram` that holds the lock finds out about a new datagram: the
numbers to report as missing, and the bounds of a window that is too big. -/
abbrev Arrival := List Uint24 × Option (Nat × Nat)

/-- The numbers that a window which could not be shifted reports as missing. -/
def scanMissing (clock : Clock) (shifted : Nat) : Action (List Uint24) :=
  if shifted = 0 then
    Proc.update fun c ↦
      let missing := c.state.win.missing (c.rtt + c.rtt / 2) (clock 1) fun i ↦ clock (2 + i)
      ({ c with state.win := missing.1 }, missing.2)
  else pure []

/-- The bounds of a window that is too big. -/
def checkWindow (build : Build) (handler : ConnectionHandler) : Action (Option (Nat × Nat)) := do
  let c ← Proc.get
  let size ← Proc.ofExcept (c.state.win.size build)
  if size > maxWindowSize ∧ handler.limitsEnabled = true then
    pure (some (c.state.win.lowest.value, c.state.win.highest.value))
  else pure none

/-- The block of `receive_datagram` that holds the lock.  A datagram that arrives again has no
`Arrival`. -/
def enterDatagram (build : Build) (handler : ConnectionHandler) (clock : Clock) (seq : Uint24) :
    Action (Option Arrival) := do
  let added ← Proc.update fun c ↦
    ({ c with state.win := (c.state.win.add seq (clock 0)).1 }, (c.state.win.add seq (clock 0)).2)
  if added = false then pure none
  else do
    Proc.modify fun c ↦ { c with state.ackSlice := c.state.ackSlice ++ [seq] }
    let shifted ← Proc.update fun c ↦
      ({ c with state.win := c.state.win.shift.1 }, c.state.win.shift.2)
    let missing ← scanMissing clock shifted
    let windowError ← checkWindow build handler
    pure (some (missing, windowError))

/-- `if !missing.is_empty() { self.send_nack(&missing).await?; }`. -/
def reportMissing (build : Build) (env : Env) (missing : List Uint24) : Action Unit :=
  if missing = [] then pure () else sendNack build env missing

def receiveDatagram (build : Build) (handler : ConnectionHandler) (env : Env) (data : Bytes) :
    Action Unit :=
  if data.length < 3 then Proc.fail (.error .unexpectedEof)
  else do
    let seq ← Proc.ofExcept (loadUint24 data)
    let arrival ← enterDatagram build handler env.clock seq
    match arrival with
    | none => pure ()
    | some (missing, windowError) => do
        reportMissing build env missing
        match windowError with
        | some (lowest, highest) => Proc.fail (.error (.windowSizeTooBig lowest highest))
        | none => do
            let contents ← Proc.ofExcept (Checked.sliceFrom data 3)
            handleDatagram build handler contents

def receive (build : Build) (handler : ConnectionHandler) (env : Env) (data : Bytes) :
    Action Unit :=
  match data with
  | [] => pure ()
  | flags :: rest =>
      if flags &&& bitFlagAck ≠ 0 then handleAck build env.clock rest
      else if flags &&& bitFlagNack ≠ 0 then handleNack build env rest
      else if flags &&& bitFlagDatagram ≠ 0 then receiveDatagram build handler env rest
      else pure ()

end Ragnet.Conn

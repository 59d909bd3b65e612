import Ragnet.Message.Addr

/-!
# Messages on a connection

The messages of `message/` that travel in packets of a connection.  A reader is given the bytes
behind the id.

`ConnectionRequestAccepted` and `NewIncomingConnection` end alike, with twenty system addresses and
two times.  Of the addresses a reader takes as many as there are bytes for: it stops when only the
times are left.
-/

namespace Ragnet

open Wire

/-! ## Pings -/

@[ext]
structure ConnectedPing where
  pingTime : Int64
deriving DecidableEq

namespace ConnectedPing

def read (data : Bytes) : Result ConnectedPing :=
  if data.length < 8 then err .unexpectedEof
  else do
    let pingTime ← loadInt64 data 0
    .ok ⟨pingTime⟩

def write (self : ConnectedPing) : Bytes := [Id.connectedPing] ++ writeInt64 self.pingTime

end ConnectedPing

@[ext]
structure ConnectedPong where
  pingTime : Int64
  pongTime : Int64
deriving DecidableEq

namespace ConnectedPong

def read (data : Bytes) : Result ConnectedPong :=
  if data.length < 16 then err .unexpectedEof
  else do
    let pingTime ← loadInt64 data 0
    let pongTime ← loadInt64 data 8
    .ok ⟨pingTime, pongTime⟩

def write (self : ConnectedPong) : Bytes :=
  [Id.connectedPong] ++ writeInt64 self.pingTime ++ writeInt64 self.pongTime

end ConnectedPong

/-! ## The connection request -/

@[ext]
structure ConnectionRequest where
  clientGuid : UInt64
  requestTime : Int64
  secure : Bool
deriving DecidableEq

namespace ConnectionRequest

def read (data : Bytes) : Result ConnectionRequest :=
  if data.length < 17 then err .unexpectedEof
  else do
    let clientGuid ← loadUInt64 data 0
    let requestTime ← loadInt64 data 8
    let secure ← Checked.index data 16
    .ok ⟨clientGuid, requestTime, secure != 0⟩

def write (self : ConnectionRequest) : Bytes :=
  [Id.connectionRequest] ++ writeUInt64 self.clientGuid ++ writeInt64 self.requestTime ++
    [if self.secure then 1 else 0]

end ConnectionRequest

/-! ## System addresses and times -/

/-- The loop over the system addresses.  It is given the addresses that are kept where it stops. -/
def readSystemAddresses (build : Build) (data : Bytes) :
    (kept : List SocketAddr) → Nat →
      Result ({ addresses : List SocketAddr // addresses.length = kept.length } × Nat)
  | [], offset => .ok (⟨[], rfl⟩, offset)
  | systemAddr :: kept, offset => do
      let left ← Checked.sub build 64 data.length offset
      if left = 16 then .ok (⟨systemAddr :: kept, rfl⟩, offset)
      else do
        let address ← Checked.sliceFrom data offset
        if left < addrSize address then err .unexpectedEof
        else do
          let addr ← readAddr address
          let rest ← readSystemAddresses build data kept (offset + addr.2)
          .ok (⟨addr.1 :: rest.1.val, congrArg Nat.succ rest.1.property⟩, rest.2)

/-- What two of the messages end with. -/
@[ext]
structure Trailer where
  systemAddresses : SystemAddresses
  pingTime : Int64
  pongTime : Int64
deriving DecidableEq

namespace Trailer

/-- The end of `ConnectionRequestAccepted::read` and of `NewIncomingConnection::read`. -/
def read (build : Build) (data : Bytes) (offset : Nat) : Result Trailer := do
  let systemAddresses ← readSystemAddresses build data defaultSystemAddresses.val offset
  let offset := systemAddresses.2
  let left ← Checked.sub build 64 data.length offset
  if left < 16 then err .unexpectedEof
  else do
    let pingTime ← loadInt64 data offset
    let pongTime ← loadInt64 data (offset + 8)
    .ok ⟨⟨systemAddresses.1.val, systemAddresses.1.property⟩, pingTime, pongTime⟩

/-- The end of `ConnectionRequestAccepted::write` and of `NewIncomingConnection::write`. -/
def write (self : Trailer) : Bytes :=
  self.systemAddresses.val.flatMap putAddr ++ writeInt64 self.pingTime ++ writeInt64 self.pongTime

end Trailer

@[ext]
structure ConnectionRequestAccepted where
  clientAddress : SocketAddr
  systemIndex : UInt16
  systemAddresses : SystemAddresses
  pingTime : Int64
  pongTime : Int64
deriving DecidableEq

namespace ConnectionRequestAccepted

def read (build : Build) (data : Bytes) : Result ConnectionRequestAccepted :=
  if data.length < addrSize data then err .unexpectedEof
  else do
    let clientAddress ← readAddr data
    let offset := clientAddress.2
    if data.length < offset + 2 then err .unexpectedEof
    else do
      let systemIndex ← loadUInt16 data offset
      let trailer ← Trailer.read build data (offset + 2)
      .ok ⟨clientAddress.1, systemIndex, trailer.systemAddresses, trailer.pingTime,
        trailer.pongTime⟩

def write (self : ConnectionRequestAccepted) : Bytes :=
  [Id.connectionRequestAccepted] ++ putAddr self.clientAddress ++ writeUint16 self.systemIndex ++
    Trailer.write ⟨self.systemAddresses, self.pingTime, self.pongTime⟩

end ConnectionRequestAccepted

@[ext]
structure NewIncomingConnection where
  serverAddress : SocketAddr
  systemAddresses : SystemAddresses
  pingTime : Int64
  pongTime : Int64
deriving DecidableEq

namespace NewIncomingConnection

def read (build : Build) (data : Bytes) : Result NewIncomingConnection :=
  if data.length < addrSize data then err .unexpectedEof
  else do
    let serverAddress ← readAddr data
    let trailer ← Trailer.read build data serverAddress.2
    .ok ⟨serverAddress.1, trailer.systemAddresses, trailer.pingTime, trailer.pongTime⟩

def write (self : NewIncomingConnection) : Bytes :=
  [Id.newIncomingConnection] ++ putAddr self.serverAddress ++
    Trailer.write ⟨self.systemAddresses, self.pingTime, self.pongTime⟩

end NewIncomingConnection

end Ragnet

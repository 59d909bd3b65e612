import Ragnet.Message.Addr

/-!
# Messages before a connection

The messages of `message/` that are sent outside of any connection: the ping of a server and the
handshake that opens a connection.  A reader is given the bytes behind the id.
-/

namespace Ragnet

open Wire

/-! ## Pings -/

@[ext]
structure UnconnectedPing where
  pingTime : Int64
  clientGuid : Int64
deriving DecidableEq

namespace UnconnectedPing

def read (data : Bytes) : Result UnconnectedPing :=
  if data.length < 32 then err .unexpectedEof
  else do
    let pingTime ← loadInt64 data 0
    let clientGuid ← loadInt64 data 24
    .ok ⟨pingTime, clientGuid⟩

def write (self : UnconnectedPing) : Bytes :=
  [Id.unconnectedPing] ++ writeInt64 self.pingTime ++ unconnectedMessageSequence ++
    writeInt64 self.clientGuid

end UnconnectedPing

@[ext]
structure UnconnectedPong where
  pingTime : Int64
  serverGuid : Int64
  data : Bytes
deriving DecidableEq

namespace UnconnectedPong

def read (data : Bytes) : Result UnconnectedPong :=
  if data.length < 34 then err .unexpectedEof
  else do
    let pingTime ← loadInt64 data 0
    let serverGuid ← loadInt64 data 8
    let dataLen ← loadUInt16 data 32
    if data.length < 34 + dataLen.toNat then err .unexpectedEof
    else do
      let pongData ← loadOctets dataLen.toNat data 34
      .ok ⟨pingTime, serverGuid, pongData.val⟩

def write (self : UnconnectedPong) : Bytes :=
  [Id.unconnectedPong] ++ writeInt64 self.pingTime ++ writeInt64 self.serverGuid ++
    unconnectedMessageSequence ++ writeUint16 (UInt16.ofNat self.data.length) ++ self.data

end UnconnectedPong

/-! ## The first request -/

@[ext]
structure OpenConnectionRequest1 where
  clientProtocol : UInt8
  mtu : UInt16
deriving DecidableEq

namespace OpenConnectionRequest1

/-- `OpenConnectionRequest1::read`, which takes the MTU from the length. -/
def read (data : Bytes) : Result OpenConnectionRequest1 :=
  if data.length < 17 then err .unexpectedEof
  else do
    let clientProtocol ← Checked.index data 16
    .ok ⟨clientProtocol, UInt16.ofNat (data.length + 20 + 8 + 1)⟩

/-- `OpenConnectionRequest1::write`, which fills the datagram up to the MTU.  A buffer that is too
short for the fields is indexed out of range. -/
def write (build : Build) (self : OpenConnectionRequest1) : Result Bytes := do
  let size ← Checked.sub build 16 self.mtu.toNat 20
  let size ← Checked.sub build 16 size 8
  if size < 18 then panicked
  else
    .ok ([Id.openConnectionRequest1] ++ unconnectedMessageSequence ++ [self.clientProtocol] ++
      List.replicate (size - 18) 0)

end OpenConnectionRequest1

@[ext]
structure IncompatibleProtocolVersion where
  serverProtocol : UInt8
  serverGuid : Int64
deriving DecidableEq

namespace IncompatibleProtocolVersion

def read (data : Bytes) : Result IncompatibleProtocolVersion :=
  if data.length < 25 then err .unexpectedEof
  else do
    let serverProtocol ← Checked.index data 0
    let serverGuid ← loadInt64 data 17
    .ok ⟨serverProtocol, serverGuid⟩

def write (self : IncompatibleProtocolVersion) : Bytes :=
  [Id.incompatibleProtocolVersion] ++ [self.serverProtocol] ++ unconnectedMessageSequence ++
    writeInt64 self.serverGuid

end IncompatibleProtocolVersion

@[ext]
structure OpenConnectionReply1 where
  serverGuid : Int64
  serverHasSecurity : Bool
  cookie : UInt32
  mtu : UInt16
deriving DecidableEq

namespace OpenConnectionReply1

def new (serverGuid : Int64) (mtu : UInt16) : OpenConnectionReply1 := ⟨serverGuid, false, 0, mtu⟩

def withSecurity (serverGuid : Int64) (cookie : UInt32) (mtu : UInt16) : OpenConnectionReply1 :=
  ⟨serverGuid, true, cookie, mtu⟩

/-- The cookie of a reply, and how many bytes it takes up. -/
def readCookie (data : Bytes) (serverHasSecurity : Bool) : Result (UInt32 × Nat) :=
  if serverHasSecurity then
    if data.length < 29 then err .unexpectedEof
    else do
      let cookie ← loadUInt32 data 25
      .ok (cookie, 4)
  else .ok (0, 0)

def read (data : Bytes) : Result OpenConnectionReply1 :=
  if data.length < 27 then err .unexpectedEof
  else do
    let serverGuid ← loadInt64 data 16
    let security ← Checked.index data 24
    let serverHasSecurity := security != 0
    let cookie ← readCookie data serverHasSecurity
    let offset := cookie.2
    if data.length < 27 + offset then err .unexpectedEof
    else do
      let mtu ← loadUInt16 data (25 + offset)
      .ok ⟨serverGuid, serverHasSecurity, cookie.1, mtu⟩

def write (self : OpenConnectionReply1) : Bytes :=
  [Id.openConnectionReply1] ++ unconnectedMessageSequence ++ writeInt64 self.serverGuid ++
    (if self.serverHasSecurity then [1] ++ writeUint32 self.cookie else [0]) ++
    writeUint16 self.mtu

end OpenConnectionReply1

/-! ## The second request -/

@[ext]
structure OpenConnectionRequest2 where
  serverAddress : SocketAddr
  mtu : UInt16
  clientGuid : UInt64
  serverHasSecurity : Bool
  cookie : UInt32
deriving DecidableEq

namespace OpenConnectionRequest2

def default : OpenConnectionRequest2 := ⟨SocketAddr.unspecified, 0, 0, false, 0⟩

def new (serverAddress : SocketAddr) (mtu : UInt16) (clientGuid : UInt64) :
    OpenConnectionRequest2 :=
  ⟨serverAddress, mtu, clientGuid, false, 0⟩

def withSecurity (serverAddress : SocketAddr) (mtu : UInt16) (clientGuid : UInt64)
    (cookie : UInt32) : OpenConnectionRequest2 :=
  ⟨serverAddress, mtu, clientGuid, true, cookie⟩

/-- How many bytes the cookie and the byte behind it take up. -/
def cookieOffset (self : OpenConnectionRequest2) : Nat := if self.serverHasSecurity then 5 else 0

/-- The cookie of a request; without security the field is left as it is. -/
def readCookie (self : OpenConnectionRequest2) (data : Bytes) : Result UInt32 :=
  if self.serverHasSecurity then loadUInt32 data 16 else .ok self.cookie

/-- `OpenConnectionRequest2::read`.  Whether the request has a cookie is known beforehand. -/
def read (self : OpenConnectionRequest2) (data : Bytes) : Result OpenConnectionRequest2 :=
  if data.length < 16 + self.cookieOffset then err .unexpectedEof
  else do
    let cookie ← self.readCookie data
    let offset := 16 + self.cookieOffset
    let address ← Checked.sliceFrom data offset
    if data.length < offset + addrSize address then err .unexpectedEof
    else do
      let serverAddress ← readAddr address
      let offset := offset + serverAddress.2
      if data.length < offset + 10 then err .unexpectedEof
      else do
        let mtu ← loadUInt16 data offset
        let clientGuid ← loadUInt64 data (offset + 2)
        .ok ⟨serverAddress.1, mtu, clientGuid, self.serverHasSecurity, cookie⟩

def write (self : OpenConnectionRequest2) : Bytes :=
  [Id.openConnectionRequest2] ++ unconnectedMessageSequence ++
    (if self.serverHasSecurity then writeUint32 self.cookie ++ [0] else []) ++
    putAddr self.serverAddress ++ writeUint16 self.mtu ++ writeUInt64 self.clientGuid

end OpenConnectionRequest2

@[ext]
structure OpenConnectionReply2 where
  serverGuid : Int64
  clientAddress : SocketAddr
  mtu : UInt16
  doSecurity : Bool
deriving DecidableEq

namespace OpenConnectionReply2

def new (serverGuid : Int64) (clientAddress : SocketAddr) (mtu : UInt16) : OpenConnectionReply2 :=
  ⟨serverGuid, clientAddress, mtu, false⟩

def read (data : Bytes) : Result OpenConnectionReply2 :=
  if data.length < 24 then err .unexpectedEof
  else do
    let serverGuid ← loadInt64 data 16
    let address ← Checked.sliceFrom data 24
    if data.length < 24 + addrSize address then err .unexpectedEof
    else do
      let clientAddress ← readAddr address
      let offset := clientAddress.2
      if data.length < 24 + offset + 3 then err .unexpectedEof
      else do
        let mtu ← loadUInt16 data (24 + offset)
        let security ← Checked.index data (26 + offset)
        .ok ⟨serverGuid, clientAddress.1, mtu, security != 0⟩

def write (self : OpenConnectionReply2) : Bytes :=
  [Id.openConnectionReply2] ++ unconnectedMessageSequence ++ writeInt64 self.serverGuid ++
    putAddr self.clientAddress ++ writeUint16 self.mtu ++ [if self.doSecurity then 1 else 0]

end OpenConnectionReply2

end Ragnet

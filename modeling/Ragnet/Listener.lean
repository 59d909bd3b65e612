import Ragnet.Conn.Receive
import Ragnet.Conn.Steps
import Ragnet.Message.Connected
import Ragnet.Message.Unconnected

/-!
# Listeners

`listener.rs` and the listener's half of `handler.rs`: one loop receives the datagrams of all
addresses and hands each to the connection of its address, or answers it itself.

An `Arc<Conn>` is an index into the list of all connections the listener has created, so that a
connection lives on after its entry of the connections map is gone, as it does for whoever holds
another reference to it.  The methods of the loop are computations over the listener.

`crc32fast::hash` is a parameter.
-/

namespace Ragnet

open Conn Wire

def protocolVersion : UInt8 := 11

structure ListenConfig where
  disableCookies : Bool
  blockDuration : Duration

def ListenConfig.default : ListenConfig := ⟨false, seconds 10⟩

/-- A connection of the listener: the fields of `Conn` that only the listener uses, and how far the
tasks are that end it. -/
structure Peer where
  remoteAddr : SocketAddr
  conn : Conn
  connected : Bool
  /-- The task that `handle_open_connection_request_2` spawns still waits. -/
  waiting : Bool
  /-- How many calls of `connections.remove` with its address other tasks than the loop are about to
  make. -/
  removals : Nat

namespace Peer

/-- `Conn::close_immediately`, called by another task, as far as the `swap` of `closed`. -/
def closeImmediately (self : Peer) : Peer :=
  if self.conn.closed then self
  else { self with conn.closed := true, removals := self.removals + 1 }

/-- The connect task when its ten seconds are over first: `close_immediately`, and
`connections.remove` after it. -/
def timeOut (self : Peer) : Peer :=
  if self.waiting then
    let self := self.closeImmediately
    { self with waiting := false, removals := self.removals + 1 }
  else self

end Peer

structure Listener where
  config : ListenConfig
  id : Int64
  cookieSalt : UInt32
  /-- Every connection the listener has created. -/
  peers : List Peer
  /-- The connections map. -/
  connections : HashMap SocketAddr Nat
  blocks : HashMap (Octets 16) Instant
  blockCount : UInt32
  pongData : Bytes
  /-- The datagrams the listener itself has sent. -/
  sent : List (SocketAddr × Bytes)

namespace Listener

/-- `ListenConfig::listen`, with the random numbers it draws. -/
def new (config : ListenConfig) (id : Int64) (cookieSalt : UInt32) : Listener where
  config := config
  id := id
  cookieSalt := cookieSalt
  peers := []
  connections := ∅
  blocks := ∅
  blockCount := 0
  pongData := []
  sent := []

/-- A computation over a listener. -/
abbrev Action (α : Type) := Proc (Fault Error) Listener α

/-! ## Blocked addresses -/

/-- `to_ipv6_mapped().octets()`. -/
def mapped (octets : Octets 4) : Octets 16 :=
  ⟨[0, 0, 0, 0, 0, 0, 0, 0, 0, 0, 255, 255] ++ octets.val, by
    rw [List.length_append, octets.property]
    rfl⟩

/-- The key of an address in the map of blocks. -/
def blockKey : SocketAddr → Octets 16
  | .v4 octets _ => mapped octets
  | .v6 octets _ _ _ => octets

/-- `Listener::block`.  `fetch_add` wraps around. -/
def block (addr : SocketAddr) (now : Instant) (self : Listener) : Listener :=
  if self.config.blockDuration = 0 then self
  else
    { self with
      blockCount := self.blockCount + 1
      blocks := self.blocks.insert (blockKey addr) now }

def isBlocked (self : Listener) (addr : SocketAddr) : Bool :=
  if self.config.blockDuration = 0 ∨ self.blockCount = 0 then false
  else self.blocks.containsKey (blockKey addr)

/-- One round of `Listener::gc_blocks`. -/
def gcBlocks (now : Instant) (self : Listener) : Listener :=
  if self.blockCount = 0 then self
  else
    let blocks := self.blocks.retain fun _ t ↦ durationSince now t ≤ self.config.blockDuration
    { self with blocks := blocks, blockCount := UInt32.ofNat blocks.len }

/-! ## Connections -/

def modifyPeer (i : Nat) (f : Peer → Peer) (self : Listener) : Listener :=
  { self with peers := self.peers.modify i f }

/-- `Conn::mark_connected`. -/
def markConnected (i : Nat) (self : Listener) : Listener :=
  self.modifyPeer i fun peer ↦ { peer with connected := true }

/-- `ListenerConnectionHandler::close`. -/
def handlerClose (peer : Peer) (self : Listener) : Listener :=
  { self with connections := self.connections.erase peer.remoteAddr }

/-- `Conn::close_immediately`, called by the loop, which alone enters connections.  The disconnect
notification is sent by a task of its own. -/
def closeImmediately (i : Nat) (self : Listener) : Listener :=
  match self.peers[i]? with
  | none => self
  | some peer =>
      if peer.conn.closed then self
      else
        (self.modifyPeer i fun peer ↦ { peer with conn.closed := true }).handlerClose peer

/-- `ListenerConnectionHandler::handle` on the fields of a connection that the listener keeps.  The
messages it sends are sent by tasks of their own. -/
def handleMessage (i : Nat) (self : Listener) : Bytes → Listener
  | [] => self
  | id :: _ =>
      if id = Id.newIncomingConnection then self.markConnected i
      else if id = Id.disconnectNotification then self.closeImmediately i
      else self

end Listener

namespace ListenerConnectionHandler

/-- What `ListenerConnectionHandler::handle` returns.  The time depends on the contents that were
handled before. -/
def handle (timestamp : List Bytes → Int64) (handled : List Bytes) : Bytes → Result Bool
  | [] => .ok false
  | id :: data =>
      if id = Id.connectionRequest then do
        let _ ← ConnectionRequest.read data
        .ok true
      else if id = Id.connectionRequestAccepted then
        err (.unexpectedPacket "CONNECTION_REQUEST_ACCEPTED")
      else if id = Id.newIncomingConnection then .ok true
      else if id = Id.connectedPing then do
        let _ ← ConnectedPing.read data
        .ok true
      else if id = Id.connectedPong then do
        let pk ← ConnectedPong.read data
        if pk.pingTime > timestamp handled then err .timestampInFuture else .ok true
      else if id = Id.disconnectNotification then .ok true
      else if id = Id.detectLostConnections then .ok true
      else .ok false

/-- The handler of a listener's connections. -/
def handler (timestamp : List Bytes → Int64) : ConnectionHandler := ⟨true, handle timestamp⟩

end ListenerConnectionHandler

/-- What a round of the listen loop finds in its surroundings: what `Conn::receive` finds there,
the time at which a content is handled, the time of a block, and how `send_to` fails, if it does. -/
structure ListenEnv where
  conn : Env
  timestamp : List Bytes → Int64
  now : Instant
  ioError : Option String

def ListenEnv.calm : ListenEnv := ⟨.calm, fun _ ↦ 0, 0, none⟩

namespace Listener

/-- `self.socket.send_to(data, addr).await.map_err(Error::Io)`. -/
def sendTo (env : ListenEnv) (data : Bytes) (addr : SocketAddr) : Action Unit :=
  match env.ioError with
  | some message => Proc.fail (.error (.io message))
  | none => Proc.modify fun self ↦ { self with sent := self.sent ++ [(addr, data)] }

/-- The bytes that `Listener::cookie` hashes: the port takes the place of the first two bytes of the
salt. -/
def cookieData (self : Listener) (addr : SocketAddr) : Bytes :=
  leBytes 2 addr.port.toNat ++ (leBytes 4 self.cookieSalt.toNat).drop 2 ++ [0, 0] ++ addr.octets

section Loop

variable (build : Build) (hash : Bytes → UInt32) (env : ListenEnv)

def cookie (self : Listener) (addr : SocketAddr) : UInt32 :=
  if self.config.disableCookies then 0 else hash (self.cookieData addr)

def handleUnconnectedPing (data : Bytes) (addr : SocketAddr) : Action Unit := do
  let pk ← Proc.ofExcept (UnconnectedPing.read data)
  let self ← Proc.get
  let response : UnconnectedPong := ⟨pk.pingTime, self.id, self.pongData⟩
  sendTo env response.write addr

def handleOpenConnectionRequest1 (data : Bytes) (addr : SocketAddr) : Action Unit := do
  let pk ← Proc.ofExcept (OpenConnectionRequest1.read data)
  let mtu := min pk.mtu (UInt16.ofNat maxMtuSize)
  let self ← Proc.get
  if pk.clientProtocol ≠ protocolVersion then do
    let response : IncompatibleProtocolVersion := ⟨protocolVersion, self.id⟩
    sendTo env response.write addr
    Proc.fail (.error (.protocolMismatch pk.clientProtocol protocolVersion))
  else
    let response :=
      if self.config.disableCookies then OpenConnectionReply1.new self.id mtu
      else OpenConnectionReply1.withSecurity self.id (self.cookie hash addr) mtu
    sendTo env response.write addr

/-- The new connection of `handle_open_connection_request_2`: it is entered into the map, and a task
waits until it is established. -/
def openConnection (addr : SocketAddr) (mtu : UInt16) (self : Listener) : Listener :=
  { self with
    peers := self.peers ++ [⟨addr, Conn.new mtu.toNat, false, true, 0⟩]
    connections := self.connections.insert addr self.peers.length }

def handleOpenConnectionRequest2 (data : Bytes) (addr : SocketAddr) : Action Unit := do
  let self ← Proc.get
  let pk ← Proc.ofExcept (OpenConnectionRequest2.read
    { OpenConnectionRequest2.default with serverHasSecurity := !self.config.disableCookies } data)
  let expectedCookie := self.cookie hash addr
  if pk.cookie ≠ expectedCookie then Proc.fail (.error (.invalidCookie pk.cookie expectedCookie))
  else do
    let mtu := min pk.mtu (UInt16.ofNat maxMtuSize)
    sendTo env (OpenConnectionReply2.new self.id addr mtu).write addr
    Proc.modify (openConnection addr mtu)

def handleUnconnected (data : Bytes) (addr : SocketAddr) : Action Unit :=
  match data with
  | [] => pure ()
  | id :: rest =>
      if id = Id.unconnectedPing ∨ id = Id.unconnectedPingOpenConnections then
        handleUnconnectedPing env rest addr
      else if id = Id.openConnectionRequest1 then
        handleOpenConnectionRequest1 hash env rest addr
      else if id = Id.openConnectionRequest2 then
        handleOpenConnectionRequest2 hash env rest addr
      else if id &&& bitFlagDatagram ≠ 0 then pure ()
      else Proc.fail (.error (.unknownPacket id data.length))

/-- The contents that a call of `Conn::receive` has passed to the handler. -/
def messages (before after : Conn) : List Bytes :=
  if before.closing = 0 then after.handled.drop before.handled.length else []

/-- `conn.receive(data).await` on one of the listener's connections. -/
def receive (i : Nat) (data : Bytes) : Action Unit := do
  let self ← Proc.get
  match self.peers[i]? with
  | none => pure ()
  | some peer => do
      let received := Conn.receive build (ListenerConnectionHandler.handler env.timestamp) env.conn
        data peer.conn
      Proc.modify (modifyPeer i fun peer ↦ { peer with conn := received.1 })
      Proc.modify fun self ↦ (messages peer.conn received.1).foldl (handleMessage i) self
      Proc.ofExcept received.2

def handle (data : Bytes) (addr : SocketAddr) : Action Unit := do
  let self ← Proc.get
  match self.connections.lookup addr with
  | some i => receive build env i data
  | none => handleUnconnected hash env data addr

/-- A round of `Listener::listen` that has received a datagram.  An error blocks the address; only
a panic ends the loop. -/
def listenRound (data : Bytes) (addr : SocketAddr) (self : Listener) : Listener × Result Unit :=
  if data = [] ∨ self.isBlocked addr then (self, .ok ())
  else
    match handle build hash env data addr self with
    | (self, .error (.error _)) => (self.block addr env.now, .ok ())
    | (self, result) => (self, result)

/-- A second request that can be read and has the right cookie opens a connection, if the reply is
sent. -/
theorem handleUnconnected_openConnectionRequest2 {rest : Bytes} {addr : SocketAddr}
    {self : Listener} {pk : OpenConnectionRequest2} (hread : OpenConnectionRequest2.read
      { OpenConnectionRequest2.default with serverHasSecurity := !self.config.disableCookies }
      rest = .ok pk) (hcookie : pk.cookie = self.cookie hash addr) (hio : env.ioError = none) :
    let mtu := min pk.mtu (UInt16.ofNat maxMtuSize)
    let reply := OpenConnectionReply2.new self.id addr mtu
    handleUnconnected hash env (Id.openConnectionRequest2 :: rest) addr self =
      (openConnection addr mtu { self with sent := self.sent ++ [(addr, reply.write)] },
        .ok ()) := by
  have hid : ¬ (Id.openConnectionRequest2 = Id.unconnectedPing ∨
      Id.openConnectionRequest2 = Id.unconnectedPingOpenConnections) := by decide
  have hid' : ¬ Id.openConnectionRequest2 = Id.openConnectionRequest1 := by decide
  rw [handleUnconnected, if_neg hid, if_neg hid', if_pos rfl, handleOpenConnectionRequest2,
    Proc.get_bind, hread, Proc.ofExcept_ok_bind]
  dsimp only
  rw [if_neg (fun hn ↦ hn hcookie), sendTo, hio]
  rfl

/-- Any other datagram from an address without a connection makes the loop send something or
nothing, and that is all. -/
theorem handleUnconnected_sent_or (data : Bytes) (addr : SocketAddr) (self : Listener) :
    (∃ sent, (handleUnconnected hash env data addr self).1 = { self with sent := sent }) ∨
      env.ioError = none ∧ ∃ rest pk, data = Id.openConnectionRequest2 :: rest ∧
        OpenConnectionRequest2.read
          { OpenConnectionRequest2.default with serverHasSecurity := !self.config.disableCookies }
          rest = .ok pk ∧ pk.cookie = self.cookie hash addr := by
  let I (l : Listener) : Prop := ∃ sent, l = { self with sent := sent }
  have hself : I self := ⟨self.sent, rfl⟩
  have hsend (data : Bytes) : Proc.Preserves I (sendTo env data addr) := by
    rw [sendTo]
    split
    · exact .fail _
    · refine .modify ?_
      rintro _ ⟨sent, rfl⟩
      exact ⟨_, rfl⟩
  have hsame {x : Action Unit} (hx : Proc.Preserves I x) : I (x self).1 := hx self hself
  cases data with
  | nil => exact Or.inl hself
  | cons id rest =>
      rw [handleUnconnected]
      split
      · exact Or.inl (hsame (.bind (.ofExcept _) fun _ ↦ .bind .get fun _ ↦ hsend _))
      split
      · exact Or.inl (hsame (.bind (.ofExcept _) fun _ ↦ .bind .get fun _ ↦
          .ite (.bind (hsend _) fun _ ↦ .fail _) (hsend _)))
      split
      · next hid =>
        rw [handleOpenConnectionRequest2, Proc.get_bind]
        cases hread : OpenConnectionRequest2.read
          { OpenConnectionRequest2.default with serverHasSecurity := !self.config.disableCookies }
          rest with
        | error e => exact Or.inl hself
        | ok pk =>
            rw [Proc.ofExcept_ok_bind]
            dsimp only
            by_cases hcookie : pk.cookie = self.cookie hash addr
            · rw [if_neg (fun hn ↦ hn hcookie), sendTo]
              cases hio : env.ioError with
              | some message => exact Or.inl hself
              | none => exact Or.inr ⟨rfl, rest, pk, by rw [hid], hread, hcookie⟩
            · rw [if_pos hcookie]
              exact Or.inl hself
      split
      · exact Or.inl hself
      · exact Or.inl hself

/-- What the loop makes of a datagram from an address without a connection: it sends something or
nothing, and opens at most one connection. -/
theorem handleUnconnected_cases (data : Bytes) (addr : SocketAddr) (self : Listener) :
    ∃ sent, (handleUnconnected hash env data addr self).1 = { self with sent := sent } ∨
      ∃ mtu, (handleUnconnected hash env data addr self).1 =
        openConnection addr mtu { self with sent := sent } := by
  rcases handleUnconnected_sent_or hash env data addr self with
    ⟨sent, hsent⟩ | ⟨hio, rest, pk, rfl, hread, hcookie⟩
  · exact ⟨sent, Or.inl hsent⟩
  · rw [handleUnconnected_openConnectionRequest2 hash env hread hcookie hio]
    exact ⟨_, Or.inr ⟨_, rfl⟩⟩

end Loop

/-! ## Other tasks -/

/-- The end of the connect task when the connection is established. -/
def established (i : Nat) (self : Listener) : Listener :=
  self.modifyPeer i fun peer ↦ { peer with waiting := peer.waiting && !peer.connected }

/-- `connections.remove` with the address of a connection, whoever is entered under it by now. -/
def removeEntry (i : Nat) (self : Listener) : Listener :=
  match self.peers[i]? with
  | none => self
  | some peer =>
      if peer.removals = 0 then self
      else
        { self.modifyPeer i fun peer ↦ { peer with removals := peer.removals - 1 } with
          connections := self.connections.erase peer.remoteAddr }

/-- What a task other than the listen loop does to the listener or to one of its connections. -/
inductive Task where
  /-- A call on the send side of a connection. -/
  | call (i : Nat) (call : SendCall)
  /-- `Conn::flush_acks`. -/
  | flushAcks (i : Nat) (env : Env)
  /-- `Conn::close`, at a time. -/
  | close (i : Nat) (now : Int)
  /-- The ticker or `Listener::close` calls `Conn::close_immediately`. -/
  | closeImmediately (i : Nat)
  /-- The connect task finds the connection established. -/
  | established (i : Nat)
  /-- The connect task times out. -/
  | timeOut (i : Nat)
  /-- A task that closes a connection, or has timed out, removes the entry of its address. -/
  | removeEntry (i : Nat)
  /-- A round of `Listener::gc_blocks`. -/
  | gcBlocks (now : Instant)
  /-- `Listener::set_pong_data`. -/
  | setPongData (data : Bytes)

def Task.run (build : Build) (self : Listener) : Task → Listener
  | .call i sendCall =>
      self.modifyPeer i fun peer ↦ { peer with conn := sendCall.run build peer.conn }
  | .flushAcks i env =>
      self.modifyPeer i fun peer ↦ { peer with conn := Conn.flushAcks build env peer.conn }
  | .close i now =>
      self.modifyPeer i fun peer ↦
        { peer with conn.closing := if peer.conn.closing = 0 then now else peer.conn.closing }
  | .closeImmediately i => self.modifyPeer i Peer.closeImmediately
  | .established i => self.established i
  | .timeOut i => self.modifyPeer i Peer.timeOut
  | .removeEntry i => self.removeEntry i
  | .gcBlocks now => self.gcBlocks now
  | .setPongData data => { self with pongData := data }

end Listener

end Ragnet

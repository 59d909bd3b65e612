import Ragnet.Message.Reads
import Ragnet.Message.Shortened
import Ragnet.Packet.Reads

/-!
# Messages

The twelve message types of `message/` together.  What is written is read back, and no reader
panics on any bytes.
-/

namespace Ragnet

open Checked Wire

inductive ProtocolMessage where
  | connectedPing (m : ConnectedPing)
  | connectedPong (m : ConnectedPong)
  | connectionRequest (m : ConnectionRequest)
  | connectionRequestAccepted (m : ConnectionRequestAccepted)
  | incompatibleProtocolVersion (m : IncompatibleProtocolVersion)
  | newIncomingConnection (m : NewIncomingConnection)
  | openConnectionReply1 (m : OpenConnectionReply1)
  | openConnectionReply2 (m : OpenConnectionReply2)
  | openConnectionRequest1 (m : OpenConnectionRequest1)
  | openConnectionRequest2 (m : OpenConnectionRequest2)
  | unconnectedPing (m : UnconnectedPing)
  | unconnectedPong (m : UnconnectedPong)
deriving DecidableEq

/-- The reader of one of the types.  That of a second request fills in a request it is given. -/
inductive Reader where
  | connectedPing
  | connectedPong
  | connectionRequest
  | connectionRequestAccepted
  | incompatibleProtocolVersion
  | newIncomingConnection
  | openConnectionReply1
  | openConnectionReply2
  | openConnectionRequest1
  | openConnectionRequest2 (self : OpenConnectionRequest2)
  | unconnectedPing
  | unconnectedPong

def Reader.read (build : Build) (data : Bytes) : Reader → Result ProtocolMessage
  | connectedPing => ProtocolMessage.connectedPing <$> ConnectedPing.read data
  | connectedPong => ProtocolMessage.connectedPong <$> ConnectedPong.read data
  | connectionRequest => ProtocolMessage.connectionRequest <$> ConnectionRequest.read data
  | connectionRequestAccepted =>
      ProtocolMessage.connectionRequestAccepted <$> ConnectionRequestAccepted.read build data
  | incompatibleProtocolVersion =>
      ProtocolMessage.incompatibleProtocolVersion <$> IncompatibleProtocolVersion.read data
  | newIncomingConnection =>
      ProtocolMessage.newIncomingConnection <$> NewIncomingConnection.read build data
  | openConnectionReply1 => ProtocolMessage.openConnectionReply1 <$> OpenConnectionReply1.read data
  | openConnectionReply2 => ProtocolMessage.openConnectionReply2 <$> OpenConnectionReply2.read data
  | openConnectionRequest1 =>
      ProtocolMessage.openConnectionRequest1 <$> OpenConnectionRequest1.read data
  | openConnectionRequest2 self => ProtocolMessage.openConnectionRequest2 <$> self.read data
  | unconnectedPing => ProtocolMessage.unconnectedPing <$> UnconnectedPing.read data
  | unconnectedPong => ProtocolMessage.unconnectedPong <$> UnconnectedPong.read data

namespace ProtocolMessage

def write (build : Build) : ProtocolMessage → Result Bytes
  | connectedPing m => .ok m.write
  | connectedPong m => .ok m.write
  | connectionRequest m => .ok m.write
  | connectionRequestAccepted m => .ok m.write
  | incompatibleProtocolVersion m => .ok m.write
  | newIncomingConnection m => .ok m.write
  | openConnectionReply1 m => .ok m.write
  | openConnectionReply2 m => .ok m.write
  | openConnectionRequest1 m => m.write build
  | openConnectionRequest2 m => .ok m.write
  | unconnectedPing m => .ok m.write
  | unconnectedPong m => .ok m.write

/-- The id in front of the message. -/
def id : ProtocolMessage → UInt8
  | connectedPing _ => Id.connectedPing
  | connectedPong _ => Id.connectedPong
  | connectionRequest _ => Id.connectionRequest
  | connectionRequestAccepted _ => Id.connectionRequestAccepted
  | incompatibleProtocolVersion _ => Id.incompatibleProtocolVersion
  | newIncomingConnection _ => Id.newIncomingConnection
  | openConnectionReply1 _ => Id.openConnectionReply1
  | openConnectionReply2 _ => Id.openConnectionReply2
  | openConnectionRequest1 _ => Id.openConnectionRequest1
  | openConnectionRequest2 _ => Id.openConnectionRequest2
  | unconnectedPing _ => Id.unconnectedPing
  | unconnectedPong _ => Id.unconnectedPong

/-- The reader of a message.  For a second request it has to know whether there is a cookie. -/
def reader : ProtocolMessage → Reader
  | connectedPing _ => .connectedPing
  | connectedPong _ => .connectedPong
  | connectionRequest _ => .connectionRequest
  | connectionRequestAccepted _ => .connectionRequestAccepted
  | incompatibleProtocolVersion _ => .incompatibleProtocolVersion
  | newIncomingConnection _ => .newIncomingConnection
  | openConnectionReply1 _ => .openConnectionReply1
  | openConnectionReply2 _ => .openConnectionReply2
  | openConnectionRequest1 _ => .openConnectionRequest1
  | openConnectionRequest2 m => .openConnectionRequest2
      { OpenConnectionRequest2.default with serverHasSecurity := m.serverHasSecurity }
  | unconnectedPing _ => .unconnectedPing
  | unconnectedPong _ => .unconnectedPong

/-- What the format can carry: the data of a pong is counted in two bytes, the MTU of a first
request is a length, and there is a cookie only with security. -/
def WellFormed : ProtocolMessage → Prop
  | openConnectionReply1 m => m.serverHasSecurity = false → m.cookie = 0
  | openConnectionRequest1 m => 46 ≤ m.mtu.toNat
  | openConnectionRequest2 m => m.serverHasSecurity = false → m.cookie = 0
  | unconnectedPong m => m.data.length ≤ 65535
  | _ => True

/-- The message without the flow information and the scopes of its addresses. -/
def plain : ProtocolMessage → ProtocolMessage
  | connectionRequestAccepted m => connectionRequestAccepted
      { m with
        clientAddress := m.clientAddress.plain
        systemAddresses := m.systemAddresses.plain }
  | newIncomingConnection m => newIncomingConnection
      { m with
        serverAddress := m.serverAddress.plain
        systemAddresses := m.systemAddresses.plain }
  | openConnectionReply2 m =>
      openConnectionReply2 { m with clientAddress := m.clientAddress.plain }
  | openConnectionRequest2 m =>
      openConnectionRequest2 { m with serverAddress := m.serverAddress.plain }
  | m => m

variable (build : Build)

/-- **Reading what was written.**  Behind its id, every message is read back as it was written,
the flow information and the scopes of its addresses excepted. -/
theorem round_trip (m : ProtocolMessage) (h : m.WellFormed) :
    ∃ bytes, m.write build = .ok (m.id :: bytes) ∧ m.reader.read build bytes = .ok m.plain := by
  cases m with
  | connectedPing m => exact ⟨_, rfl, congrArg (_ <$> ·) m.read_write⟩
  | connectedPong m => exact ⟨_, rfl, congrArg (_ <$> ·) m.read_write⟩
  | connectionRequest m => exact ⟨_, rfl, congrArg (_ <$> ·) m.read_write⟩
  | connectionRequestAccepted m =>
      exact ⟨_, rfl, congrArg (_ <$> ·) (m.read_write build)⟩
  | incompatibleProtocolVersion m => exact ⟨_, rfl, congrArg (_ <$> ·) m.read_write⟩
  | newIncomingConnection m => exact ⟨_, rfl, congrArg (_ <$> ·) (m.read_write build)⟩
  | openConnectionReply1 m => exact ⟨_, rfl, congrArg (_ <$> ·) (m.read_write h)⟩
  | openConnectionReply2 m => exact ⟨_, rfl, congrArg (_ <$> ·) m.read_write⟩
  | openConnectionRequest1 m =>
      obtain ⟨bytes, hwrite, hread⟩ := m.read_write build h
      exact ⟨bytes, hwrite, congrArg (_ <$> ·) hread⟩
  | openConnectionRequest2 m => exact ⟨_, rfl, congrArg (_ <$> ·) (m.read_write h)⟩
  | unconnectedPing m => exact ⟨_, rfl, congrArg (_ <$> ·) m.read_write⟩
  | unconnectedPong m => exact ⟨_, rfl, congrArg (_ <$> ·) (m.read_write h)⟩

/-- A request without a cookie, read and written. -/
theorem round_trip_request : ∃ bytes,
    write .debug (openConnectionRequest2
        ⟨.v6 ⟨List.replicate 16 1, rfl⟩ 80 3 4, 1492, 5, false, 0⟩) =
      .ok (7 :: bytes) ∧
    Reader.read .debug bytes (.openConnectionRequest2 .default) =
      .ok (openConnectionRequest2
        ⟨.v6 ⟨List.replicate 16 1, rfl⟩ 80 0 0, 1492, 5, false, 0⟩) :=
  round_trip .debug (openConnectionRequest2 _) fun _ ↦ rfl

end ProtocolMessage

/-- **No reader panics.**  Every reader of a message, and that of packets, ends with a value or an
error value, whatever the bytes. -/
theorem readers_noPanic (build : Build) :
    (∀ (reader : Reader) (data : Bytes), NoPanic (reader.read build data)) ∧
      ∀ (data : Bytes) (self : Packet), NoPanic (Packet.read build data self).2 := by
  constructor
  · intro reader data
    cases reader with
    | connectedPing => exact .map _ (ConnectedPing.read_safe data)
    | connectedPong => exact .map _ (ConnectedPong.read_safe data)
    | connectionRequest => exact .map _ (ConnectionRequest.read_safe data)
    | connectionRequestAccepted => exact .map _ (ConnectionRequestAccepted.read_safe build data)
    | incompatibleProtocolVersion => exact .map _ (IncompatibleProtocolVersion.read_safe data)
    | newIncomingConnection => exact .map _ (NewIncomingConnection.read_safe build data)
    | openConnectionReply1 => exact .map _ (OpenConnectionReply1.read_safe data)
    | openConnectionReply2 => exact .map _ (OpenConnectionReply2.read_safe data)
    | openConnectionRequest1 => exact .map _ (OpenConnectionRequest1.read_safe data)
    | openConnectionRequest2 self => exact .map _ (self.read_safe data)
    | unconnectedPing => exact .map _ (UnconnectedPing.read_safe data)
    | unconnectedPong => exact .map _ (UnconnectedPong.read_safe data)
  · intro data self
    exact Packet.read_avoids build data self

end Ragnet

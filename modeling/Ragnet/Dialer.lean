import Ragnet.Listener

/-!
# Dialing

The handshake of `dial.rs`: what a client sends, and what it does with a datagram that arrives in
time.  When it is to go on waiting, or to send again, there is no value.
-/

namespace Ragnet

open Wire

/-- The bytes of the buffers that datagrams are received into.  What does not fit is cut off. -/
def bufferSize : Nat := 1500

namespace Dialer

/-- What `Dialer::discover_mtu` returns: the MTU, whether the server has security, and the
cookie. -/
abbrev Discovery := UInt16 × Bool × UInt32

/-- The datagram that probes an MTU. -/
def discoverRequest (build : Build) (mtu : UInt16) : Result Bytes :=
  OpenConnectionRequest1.write build ⟨protocolVersion, mtu⟩

/-- What `Dialer::discover_mtu` does with a datagram. -/
def discoverReply (data : Bytes) : Result (Option Discovery) :=
  match data with
  | [] => .ok none
  | id :: rest =>
      if id = Id.openConnectionReply1 then do
        let reply ← OpenConnectionReply1.read rest
        if reply.serverGuid = 0 ∨ reply.mtu < 400 ∨ reply.mtu > 1500 then .ok none
        else .ok (some (reply.mtu, reply.serverHasSecurity, reply.cookie))
      else if id = Id.incompatibleProtocolVersion then do
        let pk ← IncompatibleProtocolVersion.read rest
        err (.protocolMismatch protocolVersion pk.serverProtocol)
      else .ok none

/-- The datagram with which `Dialer::open_connection` asks for a connection. -/
def openRequest (remoteAddr : SocketAddr) (clientGuid : UInt64) (discovery : Discovery) : Bytes :=
  let (mtu, serverHasSecurity, cookie) := discovery
  let request :=
    if serverHasSecurity then OpenConnectionRequest2.withSecurity remoteAddr mtu clientGuid cookie
    else OpenConnectionRequest2.new remoteAddr mtu clientGuid
  request.write

/-- What `Dialer::open_connection` does with a datagram. -/
def openReply (data : Bytes) : Result (Option UInt16) :=
  match data with
  | [] => .ok none
  | id :: rest =>
      if id = Id.openConnectionReply2 then do
        let reply ← OpenConnectionReply2.read rest
        .ok (some reply.mtu)
      else if id = Id.incompatibleProtocolVersion then do
        let pk ← IncompatibleProtocolVersion.read rest
        err (.protocolMismatch protocolVersion pk.serverProtocol)
      else .ok none

/-! ## Attempts -/

def mtuSizes : List UInt16 := [1492, 1200, 576]

/-- The attempts of `Dialer::discover_mtu`: three for each size. -/
def attempts : List UInt16 := mtuSizes.flatMap (List.replicate 3)

theorem mem_mtuSizes {m : UInt16} : m ∈ mtuSizes ↔ m = 1492 ∨ m = 1200 ∨ m = 576 := by
  simp only [mtuSizes, List.mem_cons, List.not_mem_nil, or_false]

theorem mem_mtuSizes_of_mem_attempts {m : UInt16} (h : m ∈ attempts) : m ∈ mtuSizes := by
  obtain ⟨size, hsize, hm⟩ := List.mem_flatMap.mp h
  rwa [List.eq_of_mem_replicate hm]

end Dialer

/-- How far a call of `Dialer::dial_addr` has got. -/
inductive Stage where
  /-- In `discover_mtu`, with the attempts that are left. -/
  | discovering (attempts : List UInt16)
  /-- In `open_connection`, after some errors. -/
  | opening (discovery : Dialer.Discovery) (errors : UInt32)
  /-- `open_connection` has returned. -/
  | opened (mtu : UInt16)
  /-- One of the two has failed, or has run out of time. -/
  | failed (fault : Fault Error)
deriving DecidableEq

namespace Stage

/-- `discover_mtu` goes on to its next attempt. -/
def discover : List UInt16 → Stage
  | [] => failed (.error .timeout)
  | attempts => discovering attempts

/-- What a round sends, if there is to be another one. -/
def request (build : Build) (remoteAddr : SocketAddr) (clientGuid : UInt64) :
    Stage → Option (Result Bytes)
  | discovering [] => none
  | discovering (mtu :: _) => some (Dialer.discoverRequest build mtu)
  | opening discovery _ => some (.ok (Dialer.openRequest remoteAddr clientGuid discovery))
  | opened _ => none
  | failed _ => none

/-- What becomes of it when the round has waited: for a datagram, or until the time was over or the
socket failed.  The count of errors is below its bound, and does not wrap around. -/
def answer (errorCount : UInt32) (received : Option Bytes) : Stage → Stage
  | discovering [] => discovering []
  | discovering (_ :: attempts) =>
      match received.elim (.ok none) Dialer.discoverReply with
      | .ok none => discover attempts
      | .ok (some discovery) => opening discovery 0
      | .error fault => failed fault
  | opening discovery errors =>
      match received.elim (.ok none) Dialer.openReply with
      | .ok none =>
          if errors + 1 ≥ errorCount then failed (.error .timeout)
          else opening discovery (errors + 1)
      | .ok (some mtu) => opened mtu
      | .error fault => failed fault
  | opened mtu => opened mtu
  | failed fault => failed fault

end Stage

/-- A call of `Dialer::dial_addr`, up to its connection. -/
structure Dial where
  stage : Stage
  /-- It waits for a datagram. -/
  waiting : Bool
  /-- The datagrams it has sent. -/
  sent : List Bytes

namespace Dial

/-- The beginning of the call. -/
def new : Dial := ⟨.discovering Dialer.attempts, false, []⟩

/-- The first half of a round.  Sending may fail. -/
def send (build : Build) (remoteAddr : SocketAddr) (clientGuid : UInt64)
    (ioError : Option String) (self : Dial) : Dial :=
  match self.stage.request build remoteAddr clientGuid, ioError with
  | none, _ => self
  | some (.error fault), _ => { self with stage := .failed fault }
  | some (.ok _), some message => { self with stage := .failed (.error (.io message)) }
  | some (.ok request), none => { self with waiting := true, sent := self.sent ++ [request] }

/-- The second half. -/
def answer (errorCount : UInt32) (received : Option Bytes) (self : Dial) : Dial :=
  { self with stage := self.stage.answer errorCount received, waiting := false }

/-- The time of `discover_mtu` or of `open_connection` is over. -/
def expire (self : Dial) : Dial :=
  { self with stage := .failed (.error .timeout), waiting := false }

end Dial

end Ragnet

import Ragnet.Lib.Checked

/-!
# Errors

The error values of the library (`error.rs`).  A call of the library ends with a value, with one
of these, or with a panic.
-/

namespace Ragnet

inductive Error where
  | bufferTooSmall
  | listenerClosed
  | connectionClosed
  | notSupported
  | io (message : String)
  | unexpectedEof
  | invalidPacketLength (message : String)
  | maxAcknowledgement
  | protocolMismatch (client server : UInt8)
  | timeout
  | windowSizeTooBig (lowest highest : Nat)
  | splitPacket (message : String)
  | zeroPacket
  | invalidCookie (got expected : UInt32)
  | unexpectedPacket (packetType : String)
  | unknownPacket (id : UInt8) (len : Nat)
  | other (message : String)
  | timestampInFuture
deriving DecidableEq, Repr

/-- `Result`, with panics. -/
abbrev Result (α : Type) := Except (Fault Error) α

/-- `Err(e)`. -/
abbrev err {α : Type} (e : Error) : Result α := .error (.error e)

abbrev panicked {α : Type} : Result α := .error .panic

end Ragnet

import Ragnet.Message.Field

/-!
# Addresses in messages

`message/addr.rs`.  The format of an IPv4 address inverts the octets; that of an IPv6 address has
room for the flow information and the scope, which are written as zero.
-/

namespace Ragnet

open Wire

inductive SocketAddr where
  | v4 (octets : Octets 4) (port : UInt16)
  | v6 (octets : Octets 16) (port : UInt16) (flowinfo scopeId : UInt32)
deriving DecidableEq

namespace SocketAddr

def port : SocketAddr → UInt16
  | v4 _ port => port
  | v6 _ port _ _ => port

/-- The octets of `SocketAddr::ip`. -/
def octets : SocketAddr → Bytes
  | v4 octets _ => octets.val
  | v6 octets _ _ _ => octets.val

/-- `0.0.0.0:0`. -/
def unspecified : SocketAddr := v4 ⟨[0, 0, 0, 0], rfl⟩ 0

end SocketAddr

def sizeofAddr4 : Nat := 1 + 4 + 2

def sizeofAddr6 : Nat := 1 + 2 + 2 + 4 + 16 + 4

/-- The bytes that `put_addr` puts into its buffer. -/
def putAddr : SocketAddr → Bytes
  | .v4 octets port =>
      -- for `0.0.0.0` this is what inverting gives as well
      [4] ++ (if octets.val = [0, 0, 0, 0] then [255, 255, 255, 255]
        else octets.val.map (~~~ ·)) ++ writeUint16 port
  | .v6 octets port _ _ =>
      [6, 23, 0] ++ writeUint16 port ++ [0, 0, 0, 0] ++ octets.val ++ [0, 0, 0, 0]

/-- The test by which `read_addr` and `addr_size` take an address for IPv4. -/
def isAddr4 : Bytes → Bool
  | [] => true
  | b :: _ => b == 4 || b == 0

def addrSize (buf : Bytes) : Nat := if isAddr4 buf then sizeofAddr4 else sizeofAddr6

def readAddr (buf : Bytes) : Result (SocketAddr × Nat) :=
  if isAddr4 buf then do
    let octets ← loadOctets 4 buf 1
    let port ← loadUInt16 buf 5
    let ip : Octets 4 := ⟨octets.val.map fun b ↦ UInt8.ofInt (-(b.toNat : Int) - 1), by
      rw [List.length_map, octets.property]⟩
    .ok (.v4 ip port, sizeofAddr4)
  else do
    let port ← loadUInt16 buf 3
    let octets ← loadOctets 16 buf 9
    .ok (.v6 octets port 0 0, sizeofAddr6)

def sizeofAddr : SocketAddr → Nat
  | .v4 _ _ => sizeofAddr4
  | .v6 _ _ _ _ => sizeofAddr6

abbrev SystemAddresses := { addresses : List SocketAddr // addresses.length = 20 }

def defaultSystemAddresses : SystemAddresses :=
  ⟨List.replicate 20 SocketAddr.unspecified, List.length_replicate⟩

end Ragnet

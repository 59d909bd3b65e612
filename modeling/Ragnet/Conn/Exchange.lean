import Ragnet.Conn.Arrival
import Ragnet.Conn.Steps

/-!
# Datagrams between two connections

What `receive` does with the datagram of a packet that `write_locked` or `send_message` has made.
Such a packet survives the encoding, so the receive side gets to see the packet itself.
-/

namespace Ragnet

open Wire

namespace Conn

open Proc

variable (build : Build) (handler : ConnectionHandler) (env : Env)

/-! ## The packets -/

/-- The contents that a packet can carry: not empty, and their length in bits fits 16 bits. -/
def Sendable (content : Bytes) : Prop := content ≠ [] ∧ content.length < 2 ^ 13

instance (content : Bytes) : Decidable (Sendable content) := inferInstanceAs (Decidable (_ ∧ _))

section Packets

variable {count : Nat} {splitId : UInt16} {orderIndex messageIndex : Uint24} {i : Nat}
  {content : Bytes}

theorem fragmentPacket_encodable (h : Sendable content) :
    (fragmentPacket count splitId orderIndex messageIndex i content).Encodable := by
  have hrel : reliabilityReliableOrdered.toNat < 8 := by decide
  rw [fragmentPacket]
  split
  · exact ⟨hrel, h.1, h.2⟩
  · exact ⟨hrel, h.1, h.2⟩

/-- The fields that the encoding leaves out are those of a new packet. -/
theorem fragmentPacket_overlay :
    (fragmentPacket count splitId orderIndex messageIndex i content).overlay Packet.new =
      fragmentPacket count splitId orderIndex messageIndex i content := by
  rw [fragmentPacket]
  split
  · rfl
  · rfl

/-- The packet of a message that fits one datagram. -/
theorem fragmentPacket_whole (h : ¬ count > 1) :
    fragmentPacket count splitId orderIndex messageIndex i content =
      { Packet.new with
        content := content, orderIndex := orderIndex, messageIndex := messageIndex } := by
  rw [fragmentPacket]
  exact if_neg h

end Packets

/-! ## Their datagrams -/

variable {c : Conn} {seq : Uint24} {pk : Packet}

theorem loadUint24_number (seq : Uint24) (rest : Bytes) :
    loadUint24 (writeUint24 seq ++ rest) = .ok seq :=
  loadUint24_writeUint24 seq rest

theorem receive_datagram :
    receive build handler env (datagram seq pk) =
      receiveDatagram build handler env (writeUint24 seq ++ pk.write) := rfl

/-- A number that has been seen is ignored. -/
theorem receive_seen (h : c.state.win.Seen seq.value) :
    receive build handler env (datagram seq pk) c = (c, .ok ()) := by
  rw [receive_datagram]
  exact receiveDatagram_seen build handler env (loadUint24_number seq _) h

/-- The connection that has entered the number of a datagram and reported what is missing. -/
def awaiting (self : Conn) (clock : Clock) (seq : Uint24) (nacks : List Bytes) : Conn :=
  { self.entered clock seq with
    sendTx := self.sendTx ++ nacks, state.pk := Packet.new }

/-- A new number is entered, and unless the window is too big the contents are handled. -/
theorem receiveDatagram_fresh (hfresh : c.state.pk = Packet.new) (h : ¬ c.state.win.Seen seq.value)
    (contents : Bytes) :
    ∃ nacks, receiveDatagram build handler env (writeUint24 seq ++ contents) c =
      match (c.entered env.clock seq).state.win.size build with
      | .error e => (c.entered env.clock seq, .error e)
      | .ok size =>
          if Exceeds handler size then
            (c.awaiting env.clock seq nacks,
              .error (.error (.windowSizeTooBig (c.entered env.clock seq).state.win.lowest.value
                (c.entered env.clock seq).state.win.highest.value)))
          else handleDatagram build handler contents (c.awaiting env.clock seq nacks) := by
  obtain ⟨nacks, hrecv⟩ := receiveDatagram_new build handler env (loadUint24_number seq contents) h
  have hawait : ({ c.entered env.clock seq with sendTx := c.sendTx ++ nacks } : Conn) =
      c.awaiting env.clock seq nacks := by
    rw [awaiting, entered]
    simp only [hfresh]
  rw [hawait] at hrecv
  exact ⟨nacks, hrecv⟩

/-- Of a datagram with one packet, the packet is taken in. -/
theorem receive_new (hpk : pk.Encodable) (hover : pk.overlay Packet.new = pk)
    (hfresh : c.state.pk = Packet.new) (h : ¬ c.state.win.Seen seq.value) :
    ∃ nacks, receive build handler env (datagram seq pk) c =
      match (c.entered env.clock seq).state.win.size build with
      | .error e => (c.entered env.clock seq, .error e)
      | .ok size =>
          if Exceeds handler size then
            (c.awaiting env.clock seq nacks,
              .error (.error (.windowSizeTooBig (c.entered env.clock seq).state.win.lowest.value
                (c.entered env.clock seq).state.win.highest.value)))
          else takePacket build handler pk (c.awaiting env.clock seq nacks) := by
  obtain ⟨nacks, hrecv⟩ := receiveDatagram_fresh build handler env hfresh h pk.write
  have htake : handleDatagram build handler pk.write (c.awaiting env.clock seq nacks) =
      takePacket build handler pk (c.awaiting env.clock seq nacks) := by
    rw [handleDatagram_write build handler hpk]
    change takePacket build handler (pk.overlay Packet.new) (c.awaiting env.clock seq nacks) = _
    rw [hover]
  rw [htake] at hrecv
  exact ⟨nacks, hrecv⟩

/-- A whole packet that is reliable and ordered goes into the queue. -/
theorem takePacket_ordered (hsplit : pk.split = false)
    (hrel : pk.reliability = reliabilityReliableOrdered) :
    takePacket build handler pk = orderPacket build handler pk >>= handleAll handler := by
  have hns : ¬ pk.split = true := by rw [hsplit]; exact Bool.false_ne_true
  rw [takePacket, if_neg hns, receivePacket, if_neg (fun hn ↦ hn hrel)]

end Conn

end Ragnet

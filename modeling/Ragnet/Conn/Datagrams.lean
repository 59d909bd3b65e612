import Ragnet.Conn.Frames
import Ragnet.Packet.Reads

/-!
# The packets of a datagram

`handle_datagram` takes the packets that a datagram consists of one after the other, and a datagram
that is the encoding of packets consists of these packets.
-/

namespace Ragnet.Conn

open Proc Wire

variable (build : Build) (handler : ConnectionHandler)

/-- The packets one after the other, up to the first that fails. -/
def takeAll : List Packet → Action Unit
  | [] => pure ()
  | pk :: pks => do
      takePacket build handler pk
      takeAll pks

/-- A datagram is handled packet by packet. -/
theorem handleDatagram_readAll {data : Bytes} {pks : List Packet} {c : Conn}
    (hpk : c.state.pk = Packet.new) (h : Packet.readAll build data = .ok pks) :
    handleDatagram build handler data c = takeAll build handler pks c := by
  induction pks generalizing data c with
  | nil =>
      rcases Packet.readAll_eq_ok build h with ⟨rfl, -⟩ | ⟨pk, n, pks', hcons, -⟩
      · rfl
      · cases hcons
  | cons pk pks ih =>
      rcases Packet.readAll_eq_ok build h with
        ⟨-, hnil⟩ | ⟨pk', n, pks', hcons, hd, hread, hn, hrest⟩
      · cases hnil
      obtain ⟨rfl, rfl⟩ := List.cons.inj hcons
      have hnext : readPacket build data c = (c, .ok (pk, n)) := by
        refine (readPacket_eq_ok build).mpr ⟨?_, ?_⟩
        · rw [hpk, hread]
        · rw [← hpk]
      rw [handleDatagram_cons build handler hd, bind_ok hnext, Checked.sliceFrom_of_le hn,
        ofExcept_ok_bind, takeAll]
      refine bind_congr fun c' _ htake ↦ ?_
      refine ih ?_ hrest
      -- the packet that the next one is read into is left alone
      have hkeep := (takePacket_frame build handler pk).comp (fun c ↦ c.state.pk) c
      rw [htake] at hkeep
      exact hkeep.trans hpk

/-- **Packets in datagrams.**  The encodings of packets one behind the other are read back as these
packets, the fields left out at their defaults, and `handle_datagram` takes exactly these.
Conversely a packet that was read from `n` bytes is written back as these bytes, up to the bits
outside its mask. -/
theorem handleDatagram_packets :
    (∀ pks : List Packet, (∀ pk ∈ pks, pk.Encodable) →
      Packet.readAll build (pks.flatMap Packet.write) =
        .ok (pks.map fun pk ↦ pk.overlay Packet.new) ∧
      ∀ handler c, c.state.pk = Packet.new →
        handleDatagram build handler (pks.flatMap Packet.write) c =
          takeAll build handler (pks.map fun pk ↦ pk.overlay Packet.new) c) ∧
    ∀ (b : Bytes) (self pk : Packet) (n : Nat), Packet.read build b self = (pk, .ok n) →
      n ≤ b.length ∧ Packet.Masks pk.mask (b.take n) pk.write := by
  refine ⟨fun pks hpks ↦ ⟨Packet.readAll_write build hpks, fun handler c hpk ↦ ?_⟩, ?_⟩
  · exact handleDatagram_readAll build handler hpk (Packet.readAll_write build hpks)
  · intro b self pk n h
    exact Packet.write_read build h

/-- Two packets, the second of them a fragment. -/
theorem handleDatagram_packets_two :
    Packet.readAll .debug
      ([{ Packet.new with content := [7] },
        { Packet.new with content := [8], split := true, splitCount := 2 }].flatMap Packet.write) =
      .ok [{ Packet.new with content := [7] },
        { Packet.new with content := [8], split := true, splitCount := 2 }] := by
  refine ((handleDatagram_packets .debug).1 _ fun pk hpk ↦ ?_).1
  simp only [List.mem_cons, List.not_mem_nil, or_false] at hpk
  rcases hpk with rfl | rfl
  · exact ⟨by decide, by decide, by decide⟩
  · exact ⟨by decide, by decide, by decide⟩

end Ragnet.Conn

import Ragnet.Acknowledge.Reads
import Ragnet.Conn.Intake
import Ragnet.Conn.Traffic
import Ragnet.Message.Reads
import Ragnet.Packet.Reads

/-!
# A release build does not panic

In a release build the subtractions wrap around, and what is left that could panic are the indices
and the slices.  All of them are in bounds, whatever the datagram and whatever the state of the
connection that it finds.
-/

namespace Ragnet

open Checked Proc Wire

namespace Acknowledgement

theorem Item.push_noPanic (item : Item) (packets : List Uint24) :
    NoPanic (item.push .release packets) := by
  cases item with
  | range first last =>
      exact .bind (.sub_release _ _ _) fun _ _ ↦ .ite (fun _ ↦ .error _) fun _ ↦ .ok _
  | single packet => exact .ite (fun _ ↦ .error _) fun _ ↦ .ok _
  | unknown => exact .ok _

theorem foldlM_push_noPanic (items : List Item) (packets : List Uint24) :
    NoPanic (items.foldlM (fun packets item ↦ item.push .release packets) packets) := by
  induction items generalizing packets with
  | nil => exact .ok _
  | cons item items ih =>
      rw [List.foldlM_cons]
      exact .bind (item.push_noPanic packets) fun packets' _ ↦ ih packets'

/-- Reading an acknowledgement. -/
theorem read_safe : Safe (new.read .release) := by
  intro b
  rw [read_eq]
  refine .map mk (.bind (foldlM_push_noPanic _ _) fun _ _ ↦ ?_)
  exact .ite (fun _ ↦ .error _) fun _ ↦ .ok _

end Acknowledgement

namespace Conn

variable {handler : ConnectionHandler}
  (hhandler : ∀ handled content, NoPanic (handler.handle handled content)) (env : Env)

/-! ## The window -/

theorem enterDatagram_avoids_panic (clock : Clock) (seq : Uint24) :
    Proc.Avoids .panic (enterDatagram .release handler clock seq) := by
  refine .bind (.update _) fun added ↦ .ite (.pure none) (.bind (.modify _) fun _ ↦
    .bind (.update _) fun shifted ↦ .bind (.ite (.update _) (.pure [])) fun missing ↦
      .bind (.bind .get fun c ↦ ?_) fun _ ↦ .pure _)
  exact .bind (.ofExcept (NoPanic.sub_release _ _ _)) fun size ↦ .ite (.pure _) (.pure none)

theorem reportMissing_avoids_panic (build : Build) (missing : List Uint24) :
    Proc.Avoids .panic (reportMissing build env missing) := by
  intro c
  obtain ⟨datagrams, hreport⟩ := reportMissing_ok build env missing c
  rw [hreport]
  intro h
  cases h

/-! ## Packets -/

section Receive

include hhandler

theorem receivePacket_avoids_panic (pk : Packet) :
    Proc.Avoids .panic (receivePacket .release handler pk) := by
  have hfail (e : Error) : (Fault.error e : Fault Error) ≠ .panic := fun h ↦ by cases h
  refine .ite (handlePacket_avoids (hfail _).symm hhandler pk.content)
    (.bind (.bind (.update _) fun put ↦ .ite (.pure []) (.bind .get fun c ↦ ?_))
      (handleAll_avoids (hfail _).symm hhandler))
  exact .bind (.ofExcept (NoPanic.sub_release _ _ _)) fun size ↦ .ite (.fail (hfail _)) (.update _)

theorem takePacket_avoids_panic (pk : Packet) :
    Proc.Avoids .panic (takePacket .release handler pk) := by
  have hfail (e : Error) : (Fault.error e : Fault Error) ≠ .panic := fun h ↦ by cases h
  refine .ite (.bind ?_ fun combined ↦ ?_) (receivePacket_avoids_panic hhandler pk)
  · refine .ite (.fail (hfail _)) (.bind .get fun c ↦ .ite (.fail (hfail _)) ?_)
    refine .bind (.modify _) fun _ ↦ .ite (.bind (.ofExcept ?_) fun _ ↦ .fail (hfail _)) ?_
    · exact NoPanic.bind (.sub_release _ _ _) fun _ _ ↦ .ok _
    · exact .bind (.modify _) fun _ ↦ .ite (.pure none) (.bind (.modify _) fun _ ↦ .pure _)
  · cases combined with
    | none => exact .pure ()
    | some pk => exact receivePacket_avoids_panic hhandler pk

/-- What a packet takes up is there. -/
theorem handleDatagram_avoids_panic (data : Bytes) :
    Proc.Avoids .panic (handleDatagram .release handler data) := by
  suffices hloop : ∀ rounds data, Proc.Avoids .panic (handleLoop .release handler rounds data) from
    hloop data.length data
  intro rounds
  induction rounds with
  | zero => exact fun _ ↦ .pure ()
  | succ rounds ih =>
      intro data
      refine .ite (.pure ()) (.bind_of_ok ?_ fun c c' read hread ↦ ?_)
      · exact .bind (.zoom (Packet.read_avoids .release data)) fun n ↦ .bind .get fun c ↦
          .bind (.modify _) fun _ ↦ .pure _
      · have hle := Packet.read_le .release ((readPacket_eq_ok .release).mp hread).1
        exact Proc.Avoids.bind (.ofExcept (NoPanic.sliceFrom hle))
          (fun rest ↦ .bind (takePacket_avoids_panic hhandler read.1) fun _ ↦ ih rest) c'

/-! ## Datagrams -/

theorem receiveDatagram_avoids_panic (data : Bytes) :
    Proc.Avoids .panic (receiveDatagram .release handler env data) := by
  have hfail (e : Error) : (Fault.error e : Fault Error) ≠ .panic := fun h ↦ by cases h
  rw [receiveDatagram]
  split
  · exact .fail (hfail _)
  · next hlen =>
    have hle : 3 ≤ data.length := Nat.not_lt.mp hlen
    obtain ⟨seq, hseq⟩ := loadUint24_isOk.mpr hle
    refine .bind (.ofExcept ?_) fun seq ↦ .bind (enterDatagram_avoids_panic env.clock seq)
      fun arrival ↦ ?_
    · rw [hseq]
      intro h
      cases h
    rcases arrival with _ | ⟨missing, windowError⟩
    · exact .pure ()
    refine .bind (reportMissing_avoids_panic env .release missing) fun _ ↦ ?_
    rcases windowError with _ | ⟨lowest, highest⟩
    · exact .bind (.ofExcept (NoPanic.sliceFrom hle)) (handleDatagram_avoids_panic hhandler)
    · exact .fail (hfail _)

/-- Whatever it receives. -/
theorem receive_avoids_panic (data : Bytes) :
    Proc.Avoids .panic (receive .release handler env data) := by
  cases data with
  | nil => exact .pure ()
  | cons flags rest =>
      refine .ite ?_ (.ite ?_ (.ite (receiveDatagram_avoids_panic hhandler env rest) (.pure ())))
      · exact .bind (.ofExcept (Acknowledgement.read_safe rest)) fun _ ↦ .modify _
      · exact .bind (.ofExcept (Acknowledgement.read_safe rest)) fun _ ↦ .modify _

end Receive

end Conn

end Ragnet

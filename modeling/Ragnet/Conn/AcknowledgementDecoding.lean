import Ragnet.Acknowledge.Reads
import Ragnet.Conn.Send
import Ragnet.Lib.Splits

/-!
# Decoding acknowledgements without overflow

`handle_ack` and `handle_nack` decode whatever a peer sends.  No slice is out of range, and the sum
that is held against the cap does not overflow; but it becomes negative at a range whose start is
above its end and the numbers in front of it together.
-/

namespace Ragnet.Acknowledgement

open Splits Wire

/-- Behind `n` numbers, the reader comes to the end of the records. -/
def AllFit (n : Nat) : List Item → Prop :=
  Everywhere fun pre item ↦ item.Fits (n + (expansion pre).length)

/-- Behind `n` numbers, the unsigned sum stays in range at every record that the reader comes
to. -/
def SumInBounds (n : Nat) : List Item → Prop :=
  Everywhere fun pre item ↦ AllFit n pre → item.InBounds (n + (expansion pre).length)

theorem length_expansion_cons (n : Nat) (item : Item) (items : List Item) :
    n + (expansion (item :: items)).length =
      n + item.expand.length + (expansion items).length := by
  rw [expansion_cons, List.length_append, Nat.add_assoc]

theorem allFit_cons {n : Nat} {item : Item} {items : List Item} :
    AllFit n (item :: items) ↔ item.Fits n ∧ AllFit (n + item.expand.length) items := by
  rw [AllFit, everywhere_cons, AllFit]
  simp only [length_expansion_cons]
  rfl

/-- The first record is reached, and the others when it fits. -/
theorem sumInBounds_cons {n : Nat} {item : Item} {items : List Item} :
    SumInBounds n (item :: items) ↔
      item.InBounds n ∧ (item.Fits n → SumInBounds (n + item.expand.length) items) := by
  rw [SumInBounds, everywhere_cons]
  refine and_congr ⟨fun h ↦ h everywhere_nil, fun h _ ↦ h⟩ ?_
  simp only [allFit_cons, length_expansion_cons]
  exact ⟨fun h hfits pre item' post hsplit hpre ↦ h pre item' post hsplit ⟨hfits, hpre⟩,
    fun h pre item' post hsplit hpre ↦ h hpre.1 pre item' post hsplit hpre.2⟩

/-- Folding over the records in a checked build panics exactly where the sum becomes negative. -/
theorem foldlM_push_noPanic_iff (items : List Item) (packets : List Uint24) :
    Checked.NoPanic (items.foldlM (fun packets item ↦ item.push .debug packets) packets) ↔
      SumInBounds packets.length items := by
  induction items generalizing packets with
  | nil => exact ⟨fun _ ↦ everywhere_nil, fun _ ↦ Checked.NoPanic.ok packets⟩
  | cons item items ih =>
      rw [List.foldlM_cons, sumInBounds_cons]
      by_cases hbounds : item.InBounds packets.length
      · rw [and_iff_right hbounds]
        by_cases hfits : item.Fits packets.length
        · rw [Item.push_of_fits .debug hbounds hfits, Checked.ok_bind, ih, List.length_append,
            forall_prop_of_true hfits]
        · rw [Item.push_of_not_fits .debug hbounds hfits, forall_prop_of_false hfits]
          exact ⟨fun _ ↦ trivial, fun _ ↦ Checked.NoPanic.error _⟩
      · have hpush : item.push .debug packets = panicked := by
          cases item with
          | range first last => exact Item.push_backwards .debug hbounds
          | single packet => exact absurd trivial hbounds
          | unknown => exact absurd trivial hbounds
        rw [hpush]
        exact ⟨fun h ↦ absurd rfl h, fun h ↦ absurd h.1 hbounds⟩

/-- Reading panics where the fold does. -/
theorem read_noPanic_iff_foldlM (build : Build) (b : Bytes) :
    Checked.NoPanic (read build new b) ↔
      Checked.NoPanic ((records b).1.foldlM (fun packets item ↦ item.push build packets) []) := by
  rw [read_eq, readItems]
  cases (records b).1.foldlM (fun packets item ↦ item.push build packets) [] with
  | error e =>
      cases e with
      | error e => exact ⟨fun _ ↦ Checked.NoPanic.error e, fun _ ↦ Checked.NoPanic.error e⟩
      | panic => exact ⟨fun h ↦ absurd rfl h, fun h ↦ absurd rfl h⟩
  | ok packets =>
      refine ⟨fun _ ↦ Checked.NoPanic.ok packets, fun _ ↦ ?_⟩
      cases (records b).2 with
      | false => exact Checked.NoPanic.ok _
      | true => exact Checked.NoPanic.error _

end Ragnet.Acknowledgement

namespace Ragnet.Conn

open Acknowledgement Wire

/-- Both handlers decode the bytes without unsigned underflow or overflow, and without a slice
index out of range: a build that checks for these does not panic. -/
structure DecodesInBounds (b : Bytes) : Prop where
  ack : ∀ clock c, (handleAck .debug clock b c).2 ≠ .error .panic
  nack : ∀ env c, (handleNack .debug env b c).2 ≠ .error .panic

/-- What follows the decoding does not fail. -/
theorem decode_ne_panic_iff {build : Build} {b : Bytes} {f : List Uint24 → Conn → Conn} {c : Conn} :
    ((Proc.ofExcept (Acknowledgement.new.read build b) >>= fun ack ↦
      Proc.modify (f ack.packets) : Action Unit) c).2 ≠ .error .panic ↔
        Checked.NoPanic (Acknowledgement.new.read build b) := by
  cases Acknowledgement.new.read build b with
  | error e =>
      rw [Proc.ofExcept_error_bind]
      exact Checked.error_eq_iff.not
  | ok ack => exact ⟨fun _ ↦ Checked.NoPanic.ok ack, fun _ h ↦ by cases h⟩

/-- **Acknowledgements are decoded in bounds iff no range that is reached starts above the sum.**
For any bytes, `handle_ack` and `handle_nack` decode them without an overflow and without a slice
out of range exactly when no range record whose predecessors all fit has a start above its end and
the numbers of its predecessors together. -/
theorem decodesInBounds_iff (b : Bytes) : DecodesInBounds b ↔ SumInBounds 0 (records b).1 := by
  have hread : Checked.NoPanic (Acknowledgement.new.read .debug b) ↔
      SumInBounds 0 (records b).1 := by
    rw [read_noPanic_iff_foldlM, foldlM_push_noPanic_iff]
    rfl
  rw [← hread]
  constructor
  · exact fun h ↦ decode_ne_panic_iff.mp (h.ack (fun _ ↦ 0) (new 1492))
  · exact fun h ↦ ⟨fun _ _ ↦ decode_ne_panic_iff.mpr h, fun _ _ ↦ decode_ne_panic_iff.mpr h⟩

/-- A range from 1 to 0. -/
theorem handleAck_underflows :
    ∃ c, (handleAck .debug (fun _ ↦ 0) [0, 1, 0, 1, 0, 0, 0, 0, 0] c).2 = .error .panic := by
  have hrecords : (records [0, 1, 0, 1, 0, 0, 0, 0, 0]).1 = [.range (.new 1) (.new 0)] := by decide
  refine ⟨new 1492, by_contra fun h ↦ ?_⟩
  rw [← Ne, handleAck, decode_ne_panic_iff, read_noPanic_iff_foldlM, hrecords] at h
  exact h rfl

end Ragnet.Conn

import Ragnet.Lib.Coupling
import Ragnet.Packet.Codec

/-!
# What a packet announces

A read writes the fields that the header of the packet announces and leaves the others as they
were.  So the packet it was given shows in these others only: what is read, and whether anything
is, depends on the bytes alone.
-/

namespace Ragnet

open Proc Wire

namespace Packet

variable (build : Build)

/-- The fields that the header of a packet announces, the others being cleared. -/
def announced (pk : Packet) : Packet := pk.overlay Packet.new

section Fields

variable {pk pk' : Packet} (h : pk.announced = pk'.announced)
include h

theorem reliability_of_announced : pk.reliability = pk'.reliability :=
  (congrArg reliability h : pk.announced.reliability = _)

theorem content_of_announced : pk.content = pk'.content :=
  (congrArg content h : pk.announced.content = _)

theorem split_of_announced : pk.split = pk'.split :=
  (congrArg Packet.split h : pk.announced.split = _)

/-- The order index of a sequenced or ordered packet is announced. -/
theorem orderIndex_of_announced (ho : pk.isSequencedOrOrdered = true) :
    pk.orderIndex = pk'.orderIndex := by
  have ho' := (isSequencedOrOrdered_congr (reliability_of_announced h)).symm.trans ho
  have hi : pk.announced.orderIndex = pk'.announced.orderIndex := by rw [h]
  simpa [announced, overlay, ho, ho'] using hi

/-- The split fields of a fragment are announced. -/
theorem splitFields_of_announced (hs : pk.split = true) :
    pk.splitCount = pk'.splitCount ∧ pk.splitIndex = pk'.splitIndex ∧
      pk.splitId = pk'.splitId := by
  have hs' : pk'.split = true := (split_of_announced h).symm.trans hs
  have hfields : pk.announced.splitCount = pk'.announced.splitCount ∧
      pk.announced.splitIndex = pk'.announced.splitIndex ∧
      pk.announced.splitId = pk'.announced.splitId := by
    rw [h]
    exact ⟨rfl, rfl, rfl⟩
  simpa [announced, overlay, hs, hs'] using hfields

end Fields

/-! ## The stages of a read -/

/-- Nothing is known about two packets: those a read is given, and those a failed read leaves. -/
abbrev Anything (_ _ : Packet) : Prop := True

/-- The packets agree on a field that both announce. -/
def AgreeOn {κ : Type} (asks : Packet → Bool) (field : Packet → κ) (s t : Packet) : Prop :=
  asks s = true → field s = field t

def SameFlags (s t : Packet) : Prop := s.reliability = t.reliability ∧ s.split = t.split

theorem readHeader_coupled (b : Bytes) :
    Coupled Anything Anything (fun n m s t ↦ n = m ∧ SameFlags s t) (readHeader b)
      (readHeader b) := by
  intro s t _
  rw [readHeader]
  split
  · exact .error trivial
  · refine .ofExcept_bind trivial fun header ↦ ?_
    rw [modify_bind, modify_bind, modify_bind, modify_bind]
    refine .ofExcept_bind trivial fun b1 ↦ .ofExcept_bind trivial fun b2 ↦ ?_
    dsimp only
    split
    · exact .error trivial
    · exact .ok ⟨rfl, rfl, rfl⟩

section Stages

variable {R R' : Packet → Packet → Prop}

theorem readIndex_coupled (b : Bytes) (width : Nat) {set : Uint24 → Packet → Packet}
    (hset : ∀ index s t, R s t → R' (set index s) (set index t)) (offset : Nat) :
    Coupled R Anything (fun n m s t ↦ n = m ∧ R' s t) (readIndex build b width set offset)
      (readIndex build b width set offset) := by
  intro s t h
  rw [readIndex]
  refine .ofExcept_bind trivial fun left ↦ ?_
  split
  · exact .error trivial
  · exact .ofExcept_bind trivial fun index ↦ .ok ⟨rfl, hset index s t h⟩

theorem readSplit_coupled (b : Bytes)
    (hset : ∀ count id index s t, R s t →
      R' { s with splitCount := count, splitId := id, splitIndex := index }
        { t with splitCount := count, splitId := id, splitIndex := index }) (offset : Nat) :
    Coupled R Anything (fun n m s t ↦ n = m ∧ R' s t) (readSplit build b offset)
      (readSplit build b offset) := by
  intro s t h
  rw [readSplit]
  refine .ofExcept_bind trivial fun left ↦ ?_
  split
  · exact .error trivial
  · refine .ofExcept_bind trivial fun b0 ↦ .ofExcept_bind trivial fun b1 ↦
      .ofExcept_bind trivial fun b2 ↦ .ofExcept_bind trivial fun b3 ↦ ?_
    rw [modify_bind, modify_bind]
    refine .ofExcept_bind trivial fun b4 ↦ .ofExcept_bind trivial fun b5 ↦ ?_
    rw [modify_bind, modify_bind]
    refine .ofExcept_bind trivial fun b6 ↦ .ofExcept_bind trivial fun b7 ↦
      .ofExcept_bind trivial fun b8 ↦ .ofExcept_bind trivial fun b9 ↦ ?_
    exact .ok ⟨rfl, hset _ _ _ s t h⟩

theorem readContent_coupled (b : Bytes) (n : Nat)
    (hset : ∀ content s t, R s t → R' { s with content := content } { t with content := content })
    (offset : Nat) :
    Coupled R Anything (fun n m s t ↦ n = m ∧ R' s t) (readContent build b n offset)
      (readContent build b n offset) := by
  intro s t h
  rw [readContent]
  refine .ofExcept_bind trivial fun left ↦ ?_
  split
  · exact .error trivial
  · exact .ofExcept_bind trivial fun tail ↦ .ofExcept_bind trivial fun content ↦
      .ok ⟨rfl, hset content s t h⟩

/-- A stage that is asked for by flags that the packets share. -/
theorem readIf_coupled {κ : Type} {asks : Packet → Bool} (field : Packet → κ)
    (stage : Nat → Proc (Fault Error) Packet Nat) (hasks : ∀ s t, R s t → asks s = asks t)
    (hstage : ∀ offset, Coupled R Anything (fun n m s t ↦ n = m ∧ R s t ∧ field s = field t)
      (stage offset) (stage offset)) (offset : Nat) :
    Coupled R Anything (fun n m s t ↦ n = m ∧ R s t ∧ AgreeOn asks field s t)
      (readIf asks stage offset) (readIf asks stage offset) := by
  intro s t h
  rw [readIf, get_bind, get_bind, ← hasks s t h]
  cases hs : asks s with
  | false =>
      refine .ok ⟨rfl, h, fun ha ↦ ?_⟩
      rw [hs] at ha
      cases ha
  | true => exact (hstage offset s t h).mono fun _ _ _ _ hr ↦ ⟨hr.1, hr.2.1, fun _ ↦ hr.2.2⟩

end Stages

/-- Packets that agree on all fields they announce. -/
theorem announced_eq {s t : Packet} (hflags : SameFlags s t)
    (hmessage : AgreeOn isReliable messageIndex s t)
    (hsequence : AgreeOn isSequenced sequenceIndex s t)
    (horder : AgreeOn isSequencedOrOrdered orderIndex s t)
    (hsplit : AgreeOn Packet.split (fun pk ↦ (pk.splitCount, pk.splitIndex, pk.splitId)) s t)
    (hcontent : s.content = t.content) : s.announced = t.announced := by
  obtain ⟨hreliability, hs⟩ := hflags
  rw [announced, announced, overlay, overlay, ← isReliable_congr hreliability,
    ← isSequenced_congr hreliability, ← isSequencedOrOrdered_congr hreliability, ← hs,
    hreliability, hcontent]
  congr 1
  · exact ite_congr rfl hmessage fun _ ↦ rfl
  · exact ite_congr rfl hsequence fun _ ↦ rfl
  · exact ite_congr rfl horder fun _ ↦ rfl
  · exact ite_congr rfl (fun hsp ↦ congrArg Prod.fst (hsplit hsp)) fun _ ↦ rfl
  · exact ite_congr rfl (fun hsp ↦ congrArg (Prod.fst ∘ Prod.snd) (hsplit hsp)) fun _ ↦ rfl
  · exact ite_congr rfl (fun hsp ↦ congrArg (Prod.snd ∘ Prod.snd) (hsplit hsp)) fun _ ↦ rfl

/-- **What is read depends on the bytes alone.**  Two reads of the same bytes end alike, whatever
the packets were that they were given: both consume the same and agree on what is announced, or
both fail with the same error. -/
theorem read_coupled (b : Bytes) :
    Coupled Anything Anything (fun n m s t ↦ n = m ∧ s.announced = t.announced) (read build b)
      (read build b) := by
  refine (readHeader_coupled b).bind_eq fun n ↦ ?_
  refine .bind_eq (readIf_coupled messageIndex (readMessageIndex build b)
    (fun _ _ h ↦ isReliable_congr h.1)
    (readIndex_coupled build b 3 fun _ _ _ h ↦ ⟨h, rfl⟩) 3) fun offset ↦ ?_
  refine .bind_eq (readIf_coupled sequenceIndex (readSequenceIndex build b)
    (fun _ _ h ↦ isSequenced_congr h.1.1)
    (readIndex_coupled build b 3 fun _ _ _ h ↦ ⟨h, rfl⟩) offset) fun offset ↦ ?_
  refine .bind_eq (readIf_coupled orderIndex (readOrderIndex build b)
    (fun _ _ h ↦ isSequencedOrOrdered_congr h.1.1.1)
    (readIndex_coupled build b 4 fun _ _ _ h ↦ ⟨h, rfl⟩) offset) fun offset ↦ ?_
  refine .bind_eq (readIf_coupled (fun pk ↦ (pk.splitCount, pk.splitIndex, pk.splitId))
    (readSplit build b) (fun _ _ h ↦ h.1.1.1.2)
    (readSplit_coupled build b fun _ _ _ _ _ h ↦ ⟨h, rfl⟩) offset) fun offset ↦ ?_
  refine readContent_coupled build b n (fun content s t h ↦ ?_) offset
  obtain ⟨⟨⟨⟨hflags, hmessage⟩, hsequence⟩, horder⟩, hsplit⟩ := h
  exact announced_eq hflags hmessage hsequence horder hsplit rfl

end Packet

end Ragnet

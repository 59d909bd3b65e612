import Ragnet.Packet
import Mathlib.Algebra.Order.Ring.Nat
import Mathlib.Tactic.Ring

/-!
# Splitting a message into fragments

For a non-empty message and a sensible MTU, `split` returns non-empty fragments whose
concatenation is the message.  There is one fragment iff the message fits a packet; otherwise the
fragments have the smaller size that leaves room for the split fields.
-/

namespace Ragnet

open Wire

/-- The number of content bytes in an unsplit packet. -/
def wholeSize (mtu : Nat) : Nat := mtu - packetAdditionalSize

def fragmentSize (mtu : Nat) : Nat := mtu - packetAdditionalSize - splitAdditionalSize

def fragmentCount (n mtu : Nat) : Nat :=
  if n > wholeSize mtu then (n + fragmentSize mtu - 1) / fragmentSize mtu else 1

/-- The loop cuts `k` pieces of `m` bytes off a list that is longer than `k * m`. -/
theorem splitLoop_spec {m : Nat} (hm : 0 < m) (k : Nat) (b : Bytes) (hlo : k * m < b.length) :
    ∃ fs, splitLoop k b m = .ok fs ∧ fs.length = k + 1 ∧ fs.flatten = b ∧
      (∀ f ∈ fs, f ≠ []) ∧ (b.length ≤ (k + 1) * m → ∀ f ∈ fs, f.length ≤ m) ∧
      ∀ f ∈ fs.dropLast, f.length = m := by
  induction k generalizing b with
  | zero =>
      refine ⟨[b], rfl, rfl, by simp, ?_, ?_, by simp⟩
      · intro f hf
        rw [List.mem_singleton.mp hf]
        exact List.ne_nil_of_length_pos (by omega)
      · intro hle f hf
        rw [List.mem_singleton.mp hf]
        simpa using hle
  | succ k ih =>
      have hmk : (k + 1) * m = k * m + m := by ring
      have hle : m ≤ b.length := by omega
      obtain ⟨fs, hfs, hlen, hflat, hne, hmax, hfull⟩ := ih (b.drop m) (by
        rw [List.length_drop]
        omega)
      refine ⟨b.take m :: fs, ?_, ?_, ?_, ?_, ?_, ?_⟩
      · simp only [splitLoop, Checked.sliceTo_of_le hle, Checked.sliceFrom_of_le hle]
        exact congrArg (fun r : Result (List Bytes) ↦ r >>= fun t ↦ .ok (b.take m :: t)) hfs
      · rw [List.length_cons, hlen]
      · rw [List.flatten_cons, hflat, List.take_append_drop]
      · intro f hf
        rcases List.mem_cons.mp hf with rfl | hf
        · exact List.ne_nil_of_length_pos (by rw [List.length_take]; omega)
        · exact hne f hf
      · intro hle' f hf
        have hmk' : (k + 1 + 1) * m = (k + 1) * m + m := by ring
        rcases List.mem_cons.mp hf with rfl | hf
        · exact List.length_take_le m b
        · exact hmax (by rw [List.length_drop]; omega) f hf
      · intro f hf
        have hfs_ne : fs ≠ [] := List.ne_nil_of_length_pos (by omega)
        rw [List.dropLast_cons_of_ne_nil hfs_ne] at hf
        rcases List.mem_cons.mp hf with rfl | hf
        · rw [List.length_take]
          omega
        · exact hfull f hf

/-- The number of content bytes in a packet for a message of `n` bytes. -/
def maxSize (n mtu : Nat) : Nat := if n > wholeSize mtu then fragmentSize mtu else wholeSize mtu

section Mtu

variable (build : Build) {mtu : Nat} (hmtu : 25 ≤ mtu)
include hmtu

theorem fragmentSize_pos : 0 < fragmentSize mtu := by
  have hwhole : packetAdditionalSize = 14 := rfl
  have hsplit : splitAdditionalSize = 10 := rfl
  rw [fragmentSize]
  omega

theorem maxSize_pos (n : Nat) : 0 < maxSize n mtu := by
  have hf := fragmentSize_pos hmtu
  rw [maxSize]
  split
  · exact hf
  · exact hf.trans_le (Nat.sub_le _ _)

/-- The sizes that `split` computes do not underflow. -/
theorem split_eq (b : Bytes) :
    split build b mtu = (do
      let full ← Checked.sub build 64
        ((b.length + maxSize b.length mtu - 1) / maxSize b.length mtu) 1
      splitLoop full b (maxSize b.length mtu)) := by
  have hwhole : packetAdditionalSize = 14 := rfl
  have hsplit : splitAdditionalSize = 10 := rfl
  have hrest : ∀ {m : Nat}, 0 < m → (do
      let fragmentCount ← divCeil b.length m
      let full ← Checked.sub build 64 fragmentCount 1
      splitLoop full b m : Result (List Bytes)) = (do
        let full ← Checked.sub build 64 ((b.length + m - 1) / m) 1
        splitLoop full b m) := by
    intro m hm
    rw [divCeil, if_neg hm.ne', Checked.ok_bind]
  have hpos := maxSize_pos hmtu b.length
  rw [split, Checked.sub_of_le _ _ (by omega), Checked.ok_bind]
  change (if b.length > wholeSize mtu then _ else _) = _
  by_cases hlong : b.length > wholeSize mtu
  · rw [maxSize, if_pos hlong] at hpos ⊢
    rw [if_pos hlong, Checked.sub_of_le _ _ (by omega), Checked.ok_bind]
    exact hrest hpos
  · rw [maxSize, if_neg hlong] at hpos ⊢
    rw [if_neg hlong, Checked.ok_bind]
    exact hrest hpos

/-- A message that does not fit a packet is cut into fragments. -/
theorem split_long {b : Bytes} (hlong : b.length > wholeSize mtu) :
    ∃ fs, split build b mtu = .ok fs ∧ fs.length = fragmentCount b.length mtu ∧
      fs.flatten = b ∧ (∀ f ∈ fs, f ≠ []) ∧ (∀ f ∈ fs, f.length ≤ fragmentSize mtu) ∧
      ∀ f ∈ fs.dropLast, f.length = fragmentSize mtu := by
  have hm := fragmentSize_pos hmtu
  rw [split_eq build hmtu, maxSize, if_pos hlong, fragmentCount, if_pos hlong]
  have hdiv := Nat.div_add_mod (b.length + fragmentSize mtu - 1) (fragmentSize mtu)
  have hmod := Nat.mod_lt (b.length + fragmentSize mtu - 1) hm
  have hcount : 1 ≤ (b.length + fragmentSize mtu - 1) / fragmentSize mtu := by
    rw [Nat.one_le_div_iff hm]
    omega
  rw [Checked.sub_of_le _ _ hcount]
  -- all fragments but the last are full, and the last one is not empty
  obtain ⟨d, hd⟩ := Nat.exists_eq_add_of_le' hcount
  rw [hd, Nat.mul_comm] at hdiv
  have hmul : (d + 1) * fragmentSize mtu = d * fragmentSize mtu + fragmentSize mtu := by ring
  obtain ⟨fs, hfs, hlen, hflat, hne, hmax, hfull⟩ := splitLoop_spec hm d b (by omega)
  rw [hd]
  exact ⟨fs, hfs, hlen, hflat, hne, hmax (by omega), hfull⟩

/-- A message that fits a packet is its own single fragment. -/
theorem split_short {b : Bytes} (hb : b ≠ []) (hshort : b.length ≤ wholeSize mtu) :
    split build b mtu = .ok [b] := by
  have hpos := List.length_pos_iff.mpr hb
  have hone : (b.length + wholeSize mtu - 1) / wholeSize mtu = 1 :=
    Nat.div_eq_of_lt_le (by omega) (by omega)
  rw [split_eq build hmtu, maxSize, if_neg (Nat.not_lt_of_le hshort), hone]
  rfl

/-- What `split` returns for a non-empty message. -/
theorem split_spec {b : Bytes} (hb : b ≠ []) :
    ∃ fs, split build b mtu = .ok fs ∧ fs.length = fragmentCount b.length mtu ∧
      fs.flatten = b ∧ (∀ f ∈ fs, f ≠ []) ∧
      (b.length > wholeSize mtu →
        (∀ f ∈ fs, f.length ≤ fragmentSize mtu) ∧ ∀ f ∈ fs.dropLast, f.length = fragmentSize mtu) ∧
      (b.length ≤ wholeSize mtu → fs = [b]) := by
  by_cases hlong : b.length > wholeSize mtu
  · obtain ⟨fs, hfs, hlen, hflat, hne, hmax, hfull⟩ := split_long build hmtu hlong
    exact ⟨fs, hfs, hlen, hflat, hne, fun _ ↦ ⟨hmax, hfull⟩,
      fun h ↦ absurd hlong (Nat.not_lt_of_le h)⟩
  · refine ⟨[b], split_short build hmtu hb (Nat.le_of_not_lt hlong), ?_, List.flatten_singleton, ?_,
      fun h ↦ absurd h hlong, fun _ ↦ rfl⟩
    · rw [fragmentCount, if_neg hlong]
      rfl
    · intro f hf
      rw [List.mem_singleton.mp hf]
      exact hb

/-- An empty message has no fragments to take one from. -/
theorem split_nil_eq : split build [] mtu = panicked := by
  have hpos := maxSize_pos hmtu 0
  have hcount : (0 + maxSize 0 mtu - 1) / maxSize 0 mtu = 0 := Nat.div_eq_of_lt (by omega)
  rw [split_eq build hmtu, List.length_nil, hcount]
  cases build with
  | debug => rfl
  | release =>
      -- the number of full fragments wraps around, and the first of them is out of range
      change splitLoop (2 ^ 64 - 2 + 1) [] (maxSize 0 mtu) = _
      rw [splitLoop, Checked.sliceTo, List.length_nil, if_neg (Nat.not_le_of_lt hpos)]
      rfl

/-- An empty message is not split. -/
theorem split_nil (fragments : List Bytes) : split build [] mtu ≠ .ok fragments := by
  rw [split_nil_eq build hmtu]
  intro h
  cases h

end Mtu

end Ragnet

import Mathlib.Data.Nat.Bitwise
import Mathlib.Data.UInt
import Mathlib.Tactic.Ring

/-!
# Fixed-width byte encodings of natural numbers

Little- and big-endian encodings over an arbitrary number of bytes, with the round trip in both
directions.  Concrete field writers are shown equal to these and inherit the round trip.
-/

namespace Wire

abbrev Bytes := List UInt8

/-- The `k` low bytes of `v`, least significant first. -/
def leBytes : Nat → Nat → Bytes
  | 0, _ => []
  | k + 1, v => UInt8.ofNat v :: leBytes k (v / 256)

/-- The number a little-endian byte string stands for. -/
def ofLeBytes : Bytes → Nat
  | [] => 0
  | b :: bs => b.toNat + 256 * ofLeBytes bs

/-- The `k` low bytes of `v`, most significant first. -/
def beBytes (k v : Nat) : Bytes := (leBytes k v).reverse

/-- The number a big-endian byte string stands for. -/
def ofBeBytes (bs : Bytes) : Nat := ofLeBytes bs.reverse

@[simp] theorem length_leBytes (k v : Nat) : (leBytes k v).length = k := by
  induction k generalizing v with
  | zero => rfl
  | succ k ih => simp [leBytes, ih]

@[simp] theorem length_beBytes (k v : Nat) : (beBytes k v).length = k := by
  simp [beBytes]

/-- Decoding what was encoded in `k` bytes gives the number modulo `256 ^ k`. -/
theorem ofLeBytes_leBytes (k v : Nat) : ofLeBytes (leBytes k v) = v % 256 ^ k := by
  induction k generalizing v with
  | zero => simp [leBytes, ofLeBytes, Nat.mod_one]
  | succ k ih =>
      have hb : (UInt8.ofNat v).toNat = v % 256 := by simp
      rw [leBytes, ofLeBytes, ih, hb, pow_succ', Nat.mod_mul]

/-- A number that fits survives the little-endian round trip. -/
theorem ofLeBytes_leBytes_of_lt {k v : Nat} (h : v < 256 ^ k) : ofLeBytes (leBytes k v) = v := by
  rw [ofLeBytes_leBytes, Nat.mod_eq_of_lt h]

/-- Numbers that fit are told apart by their bytes. -/
theorem leBytes_inj {k v w : Nat} (hv : v < 256 ^ k) (hw : w < 256 ^ k) :
    leBytes k v = leBytes k w ↔ v = w := by
  refine ⟨fun h ↦ ?_, congrArg _⟩
  rw [← ofLeBytes_leBytes_of_lt hv, h, ofLeBytes_leBytes_of_lt hw]

/-- Without the low bytes, the bytes are those of a quotient. -/
theorem drop_leBytes (n k v : Nat) : (leBytes (n + k) v).drop n = leBytes k (v / 256 ^ n) := by
  induction n generalizing v with
  | zero => rw [Nat.zero_add, List.drop_zero, pow_zero, Nat.div_one]
  | succ n ih =>
      rw [Nat.add_right_comm, leBytes, List.drop_succ_cons, ih, Nat.div_div_eq_div_mul, pow_succ']

/-- A number that fits survives the big-endian round trip. -/
theorem ofBeBytes_beBytes_of_lt {k v : Nat} (h : v < 256 ^ k) : ofBeBytes (beBytes k v) = v := by
  rw [ofBeBytes, beBytes, List.reverse_reverse, ofLeBytes_leBytes_of_lt h]

/-- A byte string of length `k` stands for a number below `256 ^ k`. -/
theorem ofLeBytes_lt (bs : Bytes) : ofLeBytes bs < 256 ^ bs.length := by
  induction bs with
  | nil => simp [ofLeBytes]
  | cons b bs ih =>
      have hb : b.toNat < 256 := b.toNat_lt
      rw [ofLeBytes, List.length_cons, pow_succ']
      calc b.toNat + 256 * ofLeBytes bs < 256 + 256 * ofLeBytes bs := by omega
        _ = 256 * (ofLeBytes bs + 1) := by ring
        _ ≤ 256 * 256 ^ bs.length := Nat.mul_le_mul_left _ ih

/-- Every byte string is the little-endian encoding of its number. -/
theorem leBytes_ofLeBytes (bs : Bytes) : leBytes bs.length (ofLeBytes bs) = bs := by
  induction bs with
  | nil => rfl
  | cons b bs ih =>
      have hb : b.toNat < 256 := b.toNat_lt
      have hlow : UInt8.ofNat (b.toNat + 256 * ofLeBytes bs) = b := by
        apply UInt8.toNat_inj.mp
        rw [UInt8.toNat_ofNat']
        omega
      have hhigh : (b.toNat + 256 * ofLeBytes bs) / 256 = ofLeBytes bs := by omega
      rw [List.length_cons, ofLeBytes, leBytes, hlow, hhigh, ih]

/-- Every byte string is the big-endian encoding of its number. -/
theorem beBytes_ofBeBytes (bs : Bytes) : beBytes bs.length (ofBeBytes bs) = bs := by
  have h := leBytes_ofLeBytes bs.reverse
  rw [List.length_reverse] at h
  rw [beBytes, ofBeBytes, h, List.reverse_reverse]

theorem ofBeBytes_lt (bs : Bytes) : ofBeBytes bs < 256 ^ bs.length := by
  have h := ofLeBytes_lt bs.reverse
  rwa [List.length_reverse] at h

end Wire

import Ragnet.Error
import Ragnet.Lib.Wire
import Mathlib.Order.Lattice

/-!
# 24-bit integers and field encodings

`Uint24` is kept in a `u32` by the source, but every constructor masks or assembles three bytes,
so its value always fits 24 bits.  Here the bound is a field.  The field writers are the source's
shifts and truncations; each is shown to be a fixed-width encoding of `Ragnet.Lib.Wire`, which
gives the round trips.
-/

namespace Ragnet

open Wire

@[ext]
structure Uint24 where
  /-- `Uint24::value`. -/
  value : Nat
  /-- The value fits 24 bits. -/
  lt : value < 2 ^ 24
deriving DecidableEq

namespace Uint24

/-- `Uint24::new`: the value masked to 24 bits. -/
def new (value : Nat) : Uint24 := ⟨value % 2 ^ 24, Nat.mod_lt _ (by norm_num)⟩

/-- `Uint24::inc`: the incremented counter, and the old value that the call returns. -/
def inc (self : Uint24) : Uint24 × Uint24 := (new (self.value + 1), self)

instance : Inhabited Uint24 := ⟨new 0⟩

/-- `Uint24` is ordered by its value. -/
instance : LinearOrder Uint24 := LinearOrder.lift' value fun _ _ ↦ Uint24.ext

@[simp] theorem value_new (n : Nat) : (new n).value = n % 2 ^ 24 := rfl

theorem value_new_of_lt {n : Nat} (h : n < 2 ^ 24) : (new n).value = n := Nat.mod_eq_of_lt h

@[simp] theorem new_value (u : Uint24) : new u.value = u :=
  Uint24.ext (value_new_of_lt u.lt)

theorem value_inj {u v : Uint24} : u.value = v.value ↔ u = v :=
  ⟨Uint24.ext, fun h ↦ h ▸ rfl⟩

@[simp] theorem inc_snd (u : Uint24) : u.inc.2 = u := rfl

/-- Counting up from a masked number. -/
theorem inc_new (n : Nat) : (new n).inc = (new (n + 1), new n) := by
  simp only [inc, Prod.mk.injEq, and_true]
  ext
  simp [Nat.add_mod]

end Uint24

def writeUint24 (v : Uint24) : Bytes :=
  [UInt8.ofNat v.value, UInt8.ofNat (v.value >>> 8), UInt8.ofNat (v.value >>> 16)]

/-- `load_uint24`, which indexes three bytes. -/
def loadUint24 (b : Bytes) : Result Uint24 :=
  match b with
  | b0 :: b1 :: b2 :: _ => .ok ⟨b0.toNat ||| b1.toNat <<< 8 ||| b2.toNat <<< 16, by
      refine Nat.or_lt_two_pow (Nat.or_lt_two_pow ?_ ?_) ?_
      · exact b0.toNat_lt.trans (by decide)
      · have := b1.toNat_lt
        rw [Nat.shiftLeft_eq]
        omega
      · have := b2.toNat_lt
        rw [Nat.shiftLeft_eq]
        omega⟩
  | _ => panicked

/-- Loading succeeds exactly on three bytes or more. -/
theorem loadUint24_isOk {b : Bytes} : (∃ v, loadUint24 b = .ok v) ↔ 3 ≤ b.length := by
  rcases b with _ | ⟨b0, _ | ⟨b1, _ | ⟨b2, rest⟩⟩⟩
  · simp [loadUint24]
  · simp [loadUint24]
  · simp [loadUint24]
  · simp only [List.length_cons]
    exact ⟨fun _ ↦ by omega, fun _ ↦ ⟨_, rfl⟩⟩

def writeUint16 (v : UInt16) : Bytes := [(v >>> 8).toUInt8, v.toUInt8]

def writeUint32 (v : UInt32) : Bytes :=
  [(v >>> 24).toUInt8, (v >>> 16).toUInt8, (v >>> 8).toUInt8, v.toUInt8]

/-- `u16::from_be_bytes`. -/
def u16FromBeBytes (b0 b1 : UInt8) : UInt16 := UInt16.ofNat (ofBeBytes [b0, b1])

/-- `u32::from_be_bytes`. -/
def u32FromBeBytes (b0 b1 b2 b3 : UInt8) : UInt32 := UInt32.ofNat (ofBeBytes [b0, b1, b2, b3])

/-! ## Round trips -/

theorem writeUint24_eq (v : Uint24) : writeUint24 v = leBytes 3 v.value := by
  simp [writeUint24, leBytes, Nat.shiftRight_eq_div_pow, Nat.div_div_eq_div_mul]

@[simp] theorem length_writeUint24 (v : Uint24) : (writeUint24 v).length = 3 := rfl

/-- Loading three bytes is their little-endian decoding. -/
theorem loadUint24_value {b0 b1 b2 : UInt8} {rest : Bytes} {v : Uint24}
    (h : loadUint24 (b0 :: b1 :: b2 :: rest) = .ok v) : v.value = ofLeBytes [b0, b1, b2] := by
  simp only [loadUint24, Except.ok.injEq] at h
  subst h
  have h0 : b0.toNat < 2 ^ 8 := b0.toNat_lt
  have h1 : b0.toNat ||| b1.toNat <<< 8 = b0.toNat + 256 * b1.toNat := by
    rw [Nat.or_comm, ← Nat.shiftLeft_add_eq_or_of_lt h0, Nat.shiftLeft_eq]
    omega
  have hlt : b0.toNat + 256 * b1.toNat < 2 ^ 16 := by
    have := b1.toNat_lt
    omega
  change b0.toNat ||| b1.toNat <<< 8 ||| b2.toNat <<< 16 = _
  rw [h1, Nat.or_comm, ← Nat.shiftLeft_add_eq_or_of_lt hlt, Nat.shiftLeft_eq]
  simp only [ofLeBytes]
  omega

/-- A 24-bit integer survives the round trip, whatever follows it. -/
@[simp] theorem loadUint24_writeUint24 (v : Uint24) (rest : Bytes) :
    loadUint24 (writeUint24 v ++ rest) = .ok v := by
  have hv : ofLeBytes (writeUint24 v) = v.value := by
    rw [writeUint24_eq]
    exact ofLeBytes_leBytes_of_lt (v.lt.trans_eq (by norm_num))
  rcases hl : loadUint24 (writeUint24 v ++ rest) with e | u
  · simp [loadUint24, writeUint24] at hl
  · have hu : u.value = ofLeBytes (writeUint24 v) := loadUint24_value hl
    rw [Except.ok.injEq]
    exact Uint24.ext (hu.trans hv)

theorem writeUint16_eq (v : UInt16) : writeUint16 v = beBytes 2 v.toNat := by
  simp only [writeUint16, beBytes, leBytes, List.reverse_cons, List.reverse_nil, List.nil_append,
    List.cons_append, List.cons.injEq, and_true]
  constructor
  · apply UInt8.toNat_inj.mp
    simp [Nat.shiftRight_eq_div_pow]
  · apply UInt8.toNat_inj.mp
    simp

theorem writeUint32_eq (v : UInt32) : writeUint32 v = beBytes 4 v.toNat := by
  simp only [writeUint32, beBytes, leBytes, List.reverse_cons, List.reverse_nil, List.nil_append,
    List.cons_append, List.cons.injEq, and_true]
  refine ⟨?_, ?_, ?_, ?_⟩ <;>
    · apply UInt8.toNat_inj.mp
      simp [Nat.shiftRight_eq_div_pow, Nat.div_div_eq_div_mul]

theorem u16FromBeBytes_write (v : UInt16) :
    u16FromBeBytes (v >>> 8).toUInt8 v.toUInt8 = v := by
  have h := writeUint16_eq v
  rw [writeUint16] at h
  rw [u16FromBeBytes, h, ofBeBytes_beBytes_of_lt (v.toNat_lt.trans_eq (by norm_num))]
  exact UInt16.ofNat_toNat

/-- Sixteen bits given as two bytes. -/
theorem u16FromBeBytes_ofNat {n : Nat} (h : n < 2 ^ 16) :
    (u16FromBeBytes (UInt8.ofNat (n >>> 8)) (UInt8.ofNat n)).toNat = n := by
  have hb : [UInt8.ofNat (n >>> 8), UInt8.ofNat n] = beBytes 2 n := by
    simp [beBytes, leBytes, Nat.shiftRight_eq_div_pow]
  rw [u16FromBeBytes, hb, ofBeBytes_beBytes_of_lt (h.trans_eq (by decide))]
  exact UInt16.toNat_ofNat_of_lt' h

theorem u32FromBeBytes_write (v : UInt32) :
    u32FromBeBytes (v >>> 24).toUInt8 (v >>> 16).toUInt8 (v >>> 8).toUInt8 v.toUInt8 = v := by
  have h := writeUint32_eq v
  rw [writeUint32] at h
  rw [u32FromBeBytes, h, ofBeBytes_beBytes_of_lt (v.toNat_lt.trans_eq (by norm_num))]
  exact UInt32.ofNat_toNat

/-! ## Fields that are there -/

/-- Three bytes are a 24-bit integer. -/
theorem exists_writeUint24 {bs : Bytes} (h : bs.length = 3) : ∃ v, writeUint24 v = bs := by
  have hlt : ofLeBytes bs < 2 ^ 24 := by
    have hlt := ofLeBytes_lt bs
    rw [h] at hlt
    exact hlt.trans_eq (by norm_num)
  refine ⟨⟨ofLeBytes bs, hlt⟩, ?_⟩
  rw [writeUint24_eq, ← h]
  exact leBytes_ofLeBytes bs

/-- Two bytes are a `u16`. -/
theorem exists_writeUint16 {bs : Bytes} (h : bs.length = 2) : ∃ v, writeUint16 v = bs := by
  have hlt : ofBeBytes bs < 2 ^ 16 := by
    have hlt := ofBeBytes_lt bs
    rw [h] at hlt
    exact hlt.trans_eq (by norm_num)
  refine ⟨UInt16.ofNat (ofBeBytes bs), ?_⟩
  rw [writeUint16_eq, UInt16.toNat_ofNat_of_lt' hlt, ← h]
  exact beBytes_ofBeBytes bs

/-- Four bytes are a `u32`. -/
theorem exists_writeUint32 {bs : Bytes} (h : bs.length = 4) : ∃ v, writeUint32 v = bs := by
  have hlt : ofBeBytes bs < 2 ^ 32 := by
    have hlt := ofBeBytes_lt bs
    rw [h] at hlt
    exact hlt.trans_eq (by norm_num)
  refine ⟨UInt32.ofNat (ofBeBytes bs), ?_⟩
  rw [writeUint32_eq, UInt32.toNat_ofNat_of_lt' hlt, ← h]
  exact beBytes_ofBeBytes bs

end Ragnet

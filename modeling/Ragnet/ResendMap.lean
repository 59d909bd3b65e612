import Ragnet.Packet
import Ragnet.DatagramWindow

/-!
# The resend map

`resend_map.rs`: the packets sent and not yet acknowledged, by the sequence number of the datagram
that carried them last, and the delays from which the round-trip time is estimated.
-/

namespace Ragnet

open HashMap

structure ResendRecord where
  packet : Packet
  timestamp : Instant

structure ResendMap where
  unacknowledged : HashMap Nat ResendRecord
  delays : HashMap Instant Duration

namespace ResendMap

def rttCalculationWindow : Duration := seconds 5

def new : ResendMap := ⟨∅, ∅⟩

def add (self : ResendMap) (index : Uint24) (packet : Packet) (now : Instant) : ResendMap :=
  { self with unacknowledged := self.unacknowledged.insert index.value ⟨packet, now⟩ }

def remove (self : ResendMap) (index : Uint24) (mul : Nat) (now : Instant) :
    ResendMap × Option Packet :=
  match self.unacknowledged.lookup index.value with
  | none => (self, none)
  | some record =>
      let delay := durationSince now record.timestamp * mul
      (⟨self.unacknowledged.erase index.value, self.delays.insert now delay⟩, some record.packet)

def acknowledge (self : ResendMap) (index : Uint24) (now : Instant) :
    ResendMap × Option Packet :=
  self.remove index 1 now

def retransmit (self : ResendMap) (index : Uint24) (now : Instant) : ResendMap × Option Packet :=
  self.remove index 2 now

def rtt (self : ResendMap) (now : Instant) : ResendMap × Duration :=
  let delays := self.delays.retain fun t _ ↦ durationSince now t ≤ rttCalculationWindow
  let self' : ResendMap := { self with delays := delays }
  if delays.len = 0 then (self', 50 * 10 ^ 6)
  else (self', delays.values.sum / delays.len)

def tracked (self : ResendMap) (seq : Nat) : Option Packet :=
  (self.unacknowledged.lookup seq).map ResendRecord.packet

@[simp] theorem tracked_new (seq : Nat) : new.tracked seq = none := by
  simp [tracked, new]

@[simp] theorem tracked_add (m : ResendMap) (index : Uint24) (packet : Packet) (now : Instant)
    (seq : Nat) :
    (m.add index packet now).tracked seq =
      if seq = index.value then some packet else m.tracked seq := by
  rw [tracked, add, lookup_insert_eq]
  split
  · rfl
  · rfl

/-- A removal returns the packet tracked under the number. -/
theorem remove_snd (m : ResendMap) (index : Uint24) (mul : Nat) (now : Instant) :
    (m.remove index mul now).2 = m.tracked index.value := by
  rw [remove, tracked]
  cases m.unacknowledged.lookup index.value with
  | none => rfl
  | some record => rfl

/-- A removal stops tracking under the number and under no other. -/
theorem tracked_remove (m : ResendMap) (index : Uint24) (mul : Nat) (now : Instant) (seq : Nat) :
    (m.remove index mul now).1.tracked seq =
      if seq = index.value then none else m.tracked seq := by
  rw [remove]
  cases h : m.unacknowledged.lookup index.value with
  | none =>
      by_cases hs : seq = index.value
      · subst hs
        simp [tracked, h]
      · rw [if_neg hs]
  | some record =>
      change ((m.unacknowledged.erase index.value).lookup seq).map _ = _
      rw [lookup_erase_eq]
      split
      · rfl
      · rfl

@[simp] theorem tracked_rtt (m : ResendMap) (now : Instant) (seq : Nat) :
    (m.rtt now).1.tracked seq = m.tracked seq := by
  simp only [rtt]
  split
  · rfl
  · rfl

end ResendMap

end Ragnet

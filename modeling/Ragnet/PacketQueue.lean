import Ragnet.Binary
import Ragnet.Lib.Drain

/-!
# The ordered packet queue

`packet_queue.rs`: the buffer that puts reliable ordered packets back into the order of their
order indices.  It is the drained buffer of `Ragnet.Lib.Drain` with a second bound, `highest`,
which only limits how far a `fetch` looks.
-/

namespace Ragnet

open HashMap Wire

structure PacketQueue where
  lowest : Uint24
  highest : Uint24
  queue : HashMap Nat Bytes

namespace PacketQueue

def new : PacketQueue := ⟨Uint24.new 0, Uint24.new 0, ∅⟩

/-- `PacketQueue::put`.  The sum is a `u32` and does not overflow; `Uint24::new` masks it. -/
def put (self : PacketQueue) (index : Uint24) (packet : Bytes) : PacketQueue × Bool :=
  if index.value < self.lowest.value then (self, false)
  else if self.queue.containsKey index.value then (self, false)
  else
    let highest :=
      if index.value ≥ self.highest.value then Uint24.new (index.value + 1) else self.highest
    ({ self with highest := highest, queue := self.queue.insert index.value packet }, true)

def fetch (self : PacketQueue) : PacketQueue × List Bytes :=
  let drained := self.queue.drain (self.highest.value - self.lowest.value) self.lowest.value
  ({ self with
      lowest := Uint24.new (self.lowest.value + drained.1.length), queue := drained.2 },
    drained.1)

def windowSize (build : Build) (self : PacketQueue) : Result Nat :=
  Checked.sub build 32 self.highest.value self.lowest.value

/-- An index the queue has no more use for: delivered, or buffered. -/
def Taken (self : PacketQueue) (i : Nat) : Prop := HashMap.Taken self.lowest.value self.queue i

instance (q : PacketQueue) (i : Nat) : Decidable (q.Taken i) :=
  inferInstanceAs (Decidable (_ ∨ _))

/-- An index in use is refused and nothing changes. -/
theorem put_of_taken {q : PacketQueue} {index : Uint24} (h : q.Taken index.value)
    (packet : Bytes) : q.put index packet = (q, false) := by
  rw [put]
  rcases h with h | h
  · rw [if_pos h]
  · rw [if_pos (containsKey_iff.mpr h), ite_self]

/-- A free index is buffered. -/
theorem put_of_not_taken {q : PacketQueue} {index : Uint24} (h : ¬ q.Taken index.value)
    (packet : Bytes) :
    q.put index packet =
      (⟨q.lowest,
        if index.value ≥ q.highest.value then Uint24.new (index.value + 1) else q.highest,
        q.queue.insert index.value packet⟩, true) := by
  rw [put, if_neg (fun hl ↦ h (Or.inl hl)),
    if_neg (fun hc ↦ h (Or.inr (containsKey_iff.mp hc)))]

theorem put_accepts_iff {q : PacketQueue} {index : Uint24} {packet : Bytes} :
    (q.put index packet).2 = true ↔ ¬ q.Taken index.value := by
  constructor
  · intro h ht
    rw [put_of_taken ht] at h
    exact Bool.false_ne_true h
  · intro h
    rw [put_of_not_taken h]

/-- The frontier after `fetch`.  It stays below `highest` when it moves, so it is not masked. -/
theorem fetch_lowest_value (q : PacketQueue) :
    q.fetch.1.lowest.value = q.lowest.value + q.fetch.2.length := by
  have hle := length_drain_le (q.highest.value - q.lowest.value) q.queue q.lowest.value
  have hlo := q.lowest.lt
  have hhi := q.highest.lt
  exact Uint24.value_new_of_lt (by omega)

/-! ## In-order delivery -/

/-- The queue delivers the source `src` in order, and `log` is what it has delivered. -/
def Delivers (src : Nat → Option Bytes) (log : List Bytes) (self : PacketQueue) : Prop :=
  Ordered src log self.lowest.value self.queue

theorem delivers_new (src : Nat → Option Bytes) : Delivers src [] new := Ordered.empty src

/-- Putting the packet that the source prescribes for its index. -/
theorem Delivers.put {src : Nat → Option Bytes} {log : List Bytes} {q : PacketQueue}
    (h : Delivers src log q) {index : Uint24} {packet : Bytes}
    (hs : src index.value = some packet) : Delivers src log (q.put index packet).1 := by
  by_cases ht : q.Taken index.value
  · rw [put_of_taken ht]
    exact h
  · rw [put_of_not_taken ht]
    exact Ordered.insert h hs

/-- Fetching delivers the next stretch of the source. -/
theorem Delivers.fetch {src : Nat → Option Bytes} {log : List Bytes} {q : PacketQueue}
    (h : Delivers src log q) : Delivers src (log ++ q.fetch.2) q.fetch.1 := by
  have hd := Ordered.drain h (q.highest.value - q.lowest.value)
  rw [Delivers, fetch_lowest_value]
  exact hd

end PacketQueue

end Ragnet

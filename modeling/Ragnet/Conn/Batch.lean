import Ragnet.Conn.Frames
import Ragnet.Conn.Intake

/-!
# Losing the rest of a batch

`fetch` takes a whole batch off the queue and moves `lowest` behind it before the first content of
the batch is handled.  The loop over the batch leaves at the first error, and what is behind the
content that is refused is neither handled nor in the queue.
-/

namespace Ragnet.Conn

open Proc Wire

/-- Each content of a batch that was buffered from the index `first` on has been handled, in order
and once, or is still in the queue. -/
def BatchKept (first : Nat) (batch : List Bytes) (c c' : Conn) : Prop :=
  ∃ k, c'.handled = c.handled ++ batch.take k ∧
    ∀ j content, k ≤ j → batch[j]? = some content →
      c'.state.packetQueue.queue.lookup (first + j) = some content

section HandleAll

variable {handler : ConnectionHandler} {contents : List Bytes} {c : Conn}

/-- A content that is refused before the last ends the loop early. -/
theorem handleAll_of_refused
    (h : BatchRefused handler c.closing c.handled contents.dropLast) :
    ∃ k e, k < contents.length ∧ (handleAll handler contents c).2 = .error (.error e) ∧
      (handleAll handler contents c).1.handled = c.handled ++ contents.take k := by
  induction contents generalizing c with
  | nil => exact h.elim
  | cons content contents ih =>
      cases contents with
      | nil => exact h.elim
      | cons next contents =>
          have hhandled := handlePacket_handled handler content c
          have hclosing : (handlePacket handler content c).1.closing = c.closing :=
            congrArg Prod.snd (handlePacket_state handler content c)
          rw [List.dropLast_cons_cons, BatchRefused] at h
          rw [handleAll]
          rcases h with hrefused | ⟨htaken, hrest⟩
          · obtain ⟨e, he⟩ := handlePacket_refused_iff.mpr hrefused
            rcases hp : handlePacket handler content c with ⟨c', r⟩
            rw [hp] at he hhandled
            obtain rfl : r = .error (.error e) := he
            rw [bind_error hp]
            exact ⟨1, e, by simp, rfl, hhandled⟩
          · rw [← handlePacket_handled handler, ← hclosing] at hrest
            obtain ⟨k, e, hk, he, hall⟩ := ih hrest
            rw [handlePacket_taken htaken] at hhandled hall he
            rw [bind_ok (handlePacket_taken htaken)]
            refine ⟨k + 1, e, Nat.succ_lt_succ hk, he, ?_⟩
            rw [hall, List.take_succ_cons, ← List.append_cons]

/-- Otherwise the loop comes to the last content, when it returns at all. -/
theorem handleAll_of_not_refused
    (h : ¬ BatchRefused handler c.closing c.handled contents.dropLast)
    (hreturns : (handleAll handler contents c).2 ≠ .error .panic) :
    (handleAll handler contents c).1.handled = c.handled ++ contents := by
  induction contents generalizing c with
  | nil => exact (List.append_nil _).symm
  | cons content contents ih =>
      have hhandled := handlePacket_handled handler content c
      have hclosing : (handlePacket handler content c).1.closing = c.closing :=
        congrArg Prod.snd (handlePacket_state handler content c)
      rw [handleAll] at hreturns ⊢
      rcases hp : handlePacket handler content c with ⟨c', r⟩
      rw [hp] at hhandled hclosing
      cases contents with
      | nil =>
          cases r with
          | error e =>
              rw [bind_error hp]
              exact hhandled
          | ok _ =>
              rw [bind_ok hp]
              exact hhandled
      | cons next contents =>
          rw [List.dropLast_cons_cons, BatchRefused, not_or] at h
          cases r with
          | error e =>
              -- not refused, so the handler does not return
              rw [bind_error hp] at hreturns
              refine absurd (handlePacket_refused_iff.mp ?_) h.1
              rw [hp]
              cases e with
              | error e => exact ⟨e, rfl⟩
              | panic => exact absurd rfl hreturns
          | ok _ =>
              have htaken := handlePacket_ok hp
              rw [bind_ok hp] at hreturns ⊢
              have hrest := not_and.mp h.2 htaken
              dsimp only at hhandled hclosing
              rw [← hhandled, ← hclosing] at hrest
              rw [ih hrest hreturns, hhandled, ← List.append_cons]

end HandleAll

section Batch

variable {build : Build} {handler : ConnectionHandler} {c c₁ : Conn} {pk : Packet}
  {batch : List Bytes}

/-- What is fetched is no longer in the queue. -/
theorem lookup_of_orderPacket (h : orderPacket build handler pk c = (c₁, .ok batch)) {j : Nat}
    (hj : j < batch.length) :
    c₁.state.packetQueue.queue.lookup (c.state.packetQueue.lowest.value + j) = none := by
  by_cases ht : c.state.packetQueue.Taken pk.orderIndex.value
  · rw [orderPacket_duplicate build ht] at h
    rw [← Except.ok.inj (Prod.mk.inj h).2] at hj
    exact absurd hj (Nat.not_lt_zero j)
  · rw [orderPacket_new build ht] at h
    have hlowest : (c.queued pk).lowest = c.state.packetQueue.lowest :=
      congrArg (fun r ↦ r.1.lowest) (PacketQueue.put_of_not_taken ht pk.content)
    cases hsize : (c.queued pk).windowSize build with
    | error e =>
        rw [hsize] at h
        cases h
    | ok size =>
        rw [hsize] at h
        dsimp only at h
        split at h
        · cases h
        · obtain ⟨rfl, hfetch⟩ := Prod.mk.inj h
          rw [← Except.ok.inj hfetch, PacketQueue.fetch] at hj
          rw [← hlowest]
          dsimp only [PacketQueue.fetch]
          rw [HashMap.lookup_drain, if_pos ⟨Nat.le_add_right _ _, Nat.add_lt_add_left hj _⟩]

/-- **A batch is kept iff nothing in front of its last content is refused.**  For any queue, any
handler and any ordered packet on whose arrival `fetch` releases a batch: when `receive_packet`
returns, each content of the batch has been passed to `handle_packet`, in order and once, or is
still in the queue, exactly when no content but the last is refused. -/
theorem batchKept_iff (hordered : pk.reliability = reliabilityReliableOrdered)
    (hbatch : orderPacket build handler pk c = (c₁, .ok batch)) :
    ((receivePacket build handler pk c).2 ≠ .error .panic →
        BatchKept c.state.packetQueue.lowest.value batch c (receivePacket build handler pk c).1) ↔
      ¬ BatchRefused handler c.closing c.handled batch.dropLast := by
  have hframe : ((orderPacket build handler pk c).1.handled,
      (orderPacket build handler pk c).1.closing) = (c.handled, c.closing) :=
    (orderPacket_frame build handler pk).comp (fun c ↦ (c.handled, c.closing)) c
  rw [hbatch] at hframe
  obtain ⟨hhandled, hclosing⟩ := Prod.mk.inj hframe
  have hreceive : receivePacket build handler pk c = handleAll handler batch c₁ := by
    rw [receivePacket, if_neg (not_not.mpr hordered), bind_ok hbatch]
  rw [hreceive, ← hclosing]
  constructor
  · intro h hrefused
    rw [← hhandled] at hrefused
    obtain ⟨k, e, hk, he, hpart⟩ := handleAll_of_refused hrefused
    obtain ⟨k', hpart', hheld⟩ := h (by rw [he]; exact fun hpanic ↦ by cases hpanic)
    -- the loop has stopped in front of the content `k`, which is no longer in the queue
    rw [hpart, hhandled] at hpart'
    have hlen := congrArg List.length (List.append_cancel_left hpart')
    rw [List.length_take, List.length_take, Nat.min_eq_left hk.le] at hlen
    have hqueue : (handleAll handler batch c₁).1.state = c₁.state :=
      congrArg Prod.fst (handleAll_state handler batch c₁)
    have hlookup := hheld k _ (by omega) (List.getElem?_eq_getElem hk)
    rw [hqueue, lookup_of_orderPacket hbatch hk] at hlookup
    cases hlookup
  · intro h hreturns
    rw [← hhandled] at h
    refine ⟨batch.length, ?_, fun j content hj hcontent ↦ ?_⟩
    · rw [handleAll_of_not_refused h hreturns, List.take_length, hhandled]
    · rw [List.getElem?_eq_none hj] at hcontent
      cases hcontent

end Batch

/-- A handler that refuses the message `[1]`. -/
def refusesOne : ConnectionHandler where
  limitsEnabled := true
  handle _ content := if content = [1] then err (.other "refused") else .ok false

def orderedPacket (index : Nat) (content : Bytes) : Packet :=
  { Packet.new with orderIndex := Uint24.new index, content := content }

/-- The message `[2]` arrives early, and is lost when the message in front of it is refused. -/
theorem batch_is_lost :
    ∃ c c₁ c', receivePacket .debug refusesOne (orderedPacket 1 [2]) (new 1492) = (c, .ok ()) ∧
      orderPacket .debug refusesOne (orderedPacket 0 [1]) c = (c₁, .ok [[1], [2]]) ∧
      receivePacket .debug refusesOne (orderedPacket 0 [1]) c =
        (c', .error (.error (.other "refused"))) ∧
      ¬ BatchKept c.state.packetQueue.lowest.value [[1], [2]] c c' := by
  let c := (receivePacket .debug refusesOne (orderedPacket 1 [2]) (new 1492)).1
  let c₁ := (orderPacket .debug refusesOne (orderedPacket 0 [1]) c).1
  let c' := (receivePacket .debug refusesOne (orderedPacket 0 [1]) c).1
  have horder : orderPacket .debug refusesOne (orderedPacket 0 [1]) c = (c₁, .ok [[1], [2]]) :=
    Prod.ext rfl rfl
  have hstate : c'.state = c₁.state := rfl
  refine ⟨c, c₁, c', Prod.ext rfl rfl, horder, Prod.ext rfl rfl, fun ⟨k, hhandled, hheld⟩ ↦ ?_⟩
  have hlen : 1 = ([[1], [2]].take k : List Bytes).length := congrArg List.length hhandled
  rw [List.length_take, List.length_cons, List.length_singleton] at hlen
  have hlookup := hheld 1 [2] (by omega) rfl
  rw [hstate, lookup_of_orderPacket horder (by decide)] at hlookup
  cases hlookup

/-- With a handler that takes both messages, the batch is kept. -/
theorem batchKept_iff_two :
    ∃ c c₁ c', receivePacket .debug refusesOne (orderedPacket 1 [2]) (new 1492) = (c, .ok ()) ∧
      (orderedPacket 0 [3]).reliability = reliabilityReliableOrdered ∧
      orderPacket .debug refusesOne (orderedPacket 0 [3]) c = (c₁, .ok [[3], [2]]) ∧
      c' = (receivePacket .debug refusesOne (orderedPacket 0 [3]) c).1 ∧
      (((receivePacket .debug refusesOne (orderedPacket 0 [3]) c).2 ≠ .error .panic →
          BatchKept c.state.packetQueue.lowest.value [[3], [2]] c c') ↔
        ¬ BatchRefused refusesOne c.closing c.handled [[3]]) :=
  ⟨_, _, _, Prod.ext rfl rfl, rfl, Prod.ext rfl rfl, rfl, batchKept_iff rfl (Prod.ext rfl rfl)⟩

end Ragnet.Conn

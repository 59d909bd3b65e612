import Ragnet.Bounds

/-!
# What a packet queue delivers over a whole run

A run is any sequence of `put` and `fetch` calls on a new queue, with any indices and contents.  The
history keeps the calls of `put` that returned `true` and everything that `fetch` returned.  The
accepted calls register the indices that the queue has taken, so they prescribe a content for each
of these, and what has been fetched is what they prescribe below `lowest`, in order.
-/

namespace Ragnet.PacketQueue

open HashMap Wire

/-- A queue with what it has accepted and delivered so far. -/
structure History where
  queue : PacketQueue
  /-- The calls of `put` that returned `true`. -/
  accepted : List (Uint24 × Bytes)
  /-- What the calls of `fetch` have returned, one after the other. -/
  fetched : List Bytes

namespace History

/-- One call, with its effect on the history. -/
def step (h : History) : Op → History
  | .put index packet =>
      let r := h.queue.put index packet
      { h with
        queue := r.1
        accepted := if r.2 then h.accepted ++ [(index, packet)] else h.accepted }
  | .fetch =>
      let r := h.queue.fetch
      { h with queue := r.1, fetched := h.fetched ++ r.2 }

def run (ops : List Op) : History := ops.foldl step ⟨PacketQueue.new, [], []⟩

@[simp] theorem run_append (ops : List Op) (op : Op) : run (ops ++ [op]) = (run ops).step op := by
  simp [run]

/-- The content that the accepted calls prescribe for an index. -/
def source (accepted : List (Uint24 × Bytes)) (i : Nat) : Option Bytes :=
  (accepted.find? fun call ↦ call.1.value = i).map Prod.snd

variable {accepted : List (Uint24 × Bytes)} {index : Uint24} {packet : Bytes} {h : History}

/-- A prescribed content was given to an accepted call. -/
theorem mem_of_source {i : Nat} (hs : source accepted i = some packet) :
    (Uint24.new i, packet) ∈ accepted := by
  obtain ⟨⟨index, packet⟩, hfind, rfl⟩ := Option.map_eq_some_iff.mp hs
  have hindex : index.value = i := of_decide_eq_true (List.find?_some hfind :)
  rw [← hindex, Uint24.new_value]
  exact List.mem_of_find?_eq_some hfind

/-- One more call leaves the contents prescribed so far as they are. -/
theorem source_append {call : Uint24 × Bytes} (i : Nat) (x : Bytes)
    (hs : source accepted i = some x) : source (accepted ++ [call]) i = some x := by
  obtain ⟨found, hfind, rfl⟩ := Option.map_eq_some_iff.mp hs
  rw [source, List.find?_append, hfind]
  rfl

/-- A call for an index without a content prescribes one. -/
theorem source_append_self (hnew : index ∉ accepted.map Prod.fst) :
    source (accepted ++ [(index, packet)]) index.value = some packet := by
  have hnone : accepted.find? (fun call ↦ call.1.value = index.value) = none := by
    refine List.find?_eq_none.mpr fun call hcall hvalue ↦ hnew ?_
    rw [← Uint24.ext (of_decide_eq_true hvalue)]
    exact List.mem_map_of_mem hcall
  rw [source, List.find?_append, hnone, Option.none_or, List.find?_singleton, if_pos (by simp)]
  rfl

/-- The accepted calls register the indices taken, and prescribe what is delivered. -/
structure Accounted (h : History) : Prop where
  registers : Registers (h.accepted.map Prod.fst) fun index ↦ h.queue.Taken index.value
  delivers : Delivers (source h.accepted) h.fetched h.queue

theorem accounted_new : Accounted ⟨PacketQueue.new, [], []⟩ where
  registers := Registers.nil.congr fun _ ↦ iff_false_intro fun ht ↦
    ht.elim (Nat.not_lt_zero _) Finmap.notMem_empty
  delivers := delivers_new _

/-- Putting a packet takes its index. -/
theorem Accounted.put (ha : h.Accounted) (index : Uint24) (packet : Bytes) :
    (h.step (.put index packet)).Accounted := by
  by_cases ht : h.queue.Taken index.value
  · rw [step, put_of_taken ht]
    exact ⟨ha.registers, ha.delivers⟩
  · have hacc : (h.queue.put index packet).2 = true := put_accepts_iff.mpr ht
    have hnew : index ∉ h.accepted.map Prod.fst := fun hm ↦ ht ((ha.registers.mem_iff index).mp hm)
    have hdelivers : Delivers (source (h.accepted ++ [(index, packet)])) h.fetched h.queue :=
      Ordered.mono ha.delivers source_append
    rw [step, if_pos hacc]
    refine ⟨?_, hdelivers.put (source_append_self hnew)⟩
    rw [List.map_append, List.map_singleton]
    refine ha.registers.append (List.nodup_singleton index) ?_ ?_
    · intro index' hindex'
      rw [List.mem_singleton.mp hindex']
      exact ht
    · intro index'
      rw [put_of_not_taken ht, List.mem_singleton, ← Uint24.value_inj]
      exact taken_insert

/-- Fetching delivers what is prescribed. -/
theorem Accounted.fetch (ha : h.Accounted) : (h.step .fetch).Accounted where
  registers := by
    refine ha.registers.congr fun index ↦ ?_
    change HashMap.Taken h.queue.fetch.1.lowest.value _ index.value ↔ _
    rw [fetch_lowest_value]
    exact taken_drain _ _ _ _
  delivers := ha.delivers.fetch

theorem run_accounted (ops : List Op) : (run ops).Accounted := by
  induction ops using List.reverseRecOn with
  | nil => exact accounted_new
  | append_singleton ops op ih =>
      rw [run_append]
      cases op with
      | put index packet => exact ih.put index packet
      | fetch => exact ih.fetch

/-- **The queue's account of its packets.**  Over any run, no two calls of `put` with the same index
return `true`; the calls of `fetch` have returned one content for each index below `lowest`, in
order, and it is the one of the accepted call; and a call that returns `false` changes nothing. -/
theorem run_delivers (ops : List Op) :
    ((run ops).accepted.map Prod.fst).Nodup ∧
      (run ops).fetched.length = (run ops).queue.lowest.value ∧
      (∀ i < (run ops).queue.lowest.value, ∃ packet, (run ops).fetched[i]? = some packet ∧
        ∀ packet', (Uint24.new i, packet') ∈ (run ops).accepted ↔ packet' = packet) ∧
      ∀ index packet, ((run ops).queue.put index packet).2 = false →
        ((run ops).queue.put index packet).1 = (run ops).queue := by
  have ha := run_accounted ops
  refine ⟨ha.registers.nodup, ha.delivers.length_eq, fun i hi ↦ ?_, fun index packet hput ↦ ?_⟩
  · have hlen : i < (run ops).fetched.length := ha.delivers.length_eq ▸ hi
    have hsource := ha.delivers.delivered i hi
    rw [List.getElem?_eq_getElem hlen] at hsource
    have hmem := mem_of_source hsource.symm
    refine ⟨_, List.getElem?_eq_getElem hlen, fun packet' ↦ ⟨fun hmem' ↦ ?_, ?_⟩⟩
    · exact (Prod.mk.inj (List.inj_on_of_nodup_map ha.registers.nodup hmem' hmem rfl)).2
    · rintro rfl
      exact hmem
  · have ht : (run ops).queue.Taken index.value := by
      by_contra ht
      rw [put_accepts_iff.mpr ht] at hput
      cases hput
    rw [put_of_taken ht]

end History

end Ragnet.PacketQueue

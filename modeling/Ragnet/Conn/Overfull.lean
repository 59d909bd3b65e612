import Ragnet.Reach

/-!
# What a refused packet leaves behind

`receive_packet` puts a packet into the queue before it looks at the size of the queue.  A packet
that is refused with `WindowSizeTooBig` stays in the queue, and so does the bound that it has
raised: from then on the packet that the queue waits for is refused as well.
-/

namespace Ragnet

namespace PacketQueue

variable {q : PacketQueue} {index : Uint24} {packet : Wire.Bytes}

theorem taken_put (i : Nat) :
    (q.put index packet).1.Taken i ↔ q.Taken i ∨ i = index.value := by
  by_cases h : q.Taken index.value
  · rw [put_of_taken h]
    exact (or_iff_left_of_imp fun hi ↦ hi ▸ h).symm
  · rw [put_of_not_taken h]
    exact HashMap.taken_insert

theorem taken_fetch (i : Nat) : q.fetch.1.Taken i ↔ q.Taken i := by
  rw [Taken, fetch_lowest_value]
  exact HashMap.taken_drain _ _ _ _

end PacketQueue

namespace Conn

open Proc Wire

variable {build : Build} {handler : ConnectionHandler} {c : Conn} {pk : Packet}

/-- Putting a packet into order takes its index, whatever comes of it. -/
theorem orderPacket_taken :
    (orderPacket build handler pk c).1.state.packetQueue.Taken pk.orderIndex.value := by
  have hqueued : (c.queued pk).Taken pk.orderIndex.value :=
    (PacketQueue.taken_put _).mpr (Or.inr rfl)
  by_cases ht : c.state.packetQueue.Taken pk.orderIndex.value
  · rw [orderPacket_duplicate build ht]
    exact ht
  · rw [orderPacket_new build ht]
    cases (c.queued pk).windowSize build with
    | error e => exact hqueued
    | ok size =>
        dsimp only
        split
        · exact hqueued
        · exact (PacketQueue.taken_fetch _).mpr hqueued

/-- An ordered packet that does not return was new, and its index is taken afterwards. -/
theorem taken_of_refused (hordered : pk.reliability = reliabilityReliableOrdered) {e : Fault Error}
    (h : (receivePacket build handler pk c).2 = .error e) :
    ¬ c.state.packetQueue.Taken pk.orderIndex.value ∧
      (receivePacket build handler pk c).1.state.packetQueue.Taken pk.orderIndex.value := by
  rw [receivePacket, if_neg (not_not.mpr hordered)] at h ⊢
  have htaken := @orderPacket_taken build handler c pk
  constructor
  · intro ht
    rw [bind_ok (orderPacket_duplicate build ht)] at h
    cases h
  · rcases horder : orderPacket build handler pk c with ⟨c', e' | batch⟩
    · rw [horder] at htaken
      rw [bind_error horder]
      exact htaken
    · rw [horder] at htaken
      have hstate : (handleAll handler batch c').1.state = c'.state :=
        congrArg Prod.fst (handleAll_state handler batch c')
      rw [bind_ok horder, hstate]
      exact htaken

/-- The limit refuses a new packet that makes the queue too big, and leaves it there. -/
theorem orderPacket_refused {lowest highest : Nat}
    (h : (orderPacket build handler pk c).2 = err (.windowSizeTooBig lowest highest)) :
    ¬ c.state.packetQueue.Taken pk.orderIndex.value ∧
      (∃ size, (c.queued pk).windowSize build = .ok size ∧ Exceeds handler size) ∧
        (orderPacket build handler pk c).1 = { c with state.packetQueue := c.queued pk } := by
  by_cases ht : c.state.packetQueue.Taken pk.orderIndex.value
  · rw [orderPacket_duplicate build ht] at h
    cases h
  rw [orderPacket_new build ht] at h ⊢
  cases hsize : (c.queued pk).windowSize build with
  | error e =>
      rw [hsize] at h
      obtain rfl : e = .error (.windowSizeTooBig lowest highest) := Except.error.inj h
      exact absurd hsize (Checked.sub_ne_error _ _ _ _ _)
  | ok size =>
      rw [hsize] at h
      dsimp only at h ⊢
      by_cases hbig : Exceeds handler size
      · rw [if_pos hbig]
        exact ⟨ht, ⟨size, rfl, hbig⟩, rfl⟩
      · rw [if_neg hbig] at h
        cases h

/-- The packet that a small queue waits for comes through. -/
theorem orderPacket_waited {next : Packet} (h : c.state.packetQueue.Compact)
    (hnext : next.orderIndex = c.state.packetQueue.lowest) (hlast : next.orderIndex ≠ lastIndex) :
    ∃ batch, (orderPacket build handler next c).2 = .ok (next.content :: batch) := by
  have ht : ¬ c.state.packetQueue.Taken next.orderIndex.value := by
    rw [hnext]
    exact fun ht ↦ ht.elim (Nat.lt_irrefl _) h.notMem
  have hsmall : (c.queued next).highest.value - (c.queued next).lowest.value ≤ maxWindowSize := by
    refine (h.put_size_iff hlast ht).mpr fun u hu hnot ↦ absurd (Or.inl ?_) hnot
    rwa [hnext] at hu
  have hbounded : (c.queued next).Bounded := h.bounded.put hlast next.content
  have hlookup : (c.queued next).queue.lookup (c.queued next).lowest.value =
      some next.content := by
    rw [queued, PacketQueue.put_of_not_taken ht]
    dsimp only
    rw [hnext, Finmap.lookup_insert]
  have hrange := (hbounded.mem _ (Finmap.mem_of_lookup_eq_some hlookup)).2
  obtain ⟨k, hk⟩ := Nat.exists_eq_add_of_lt hrange
  have hk' : (c.queued next).highest.value - (c.queued next).lowest.value = k + 1 := by omega
  have hfetch := HashMap.drain_succ_some k hlookup
  rw [← hk'] at hfetch
  rw [orderPacket_new build ht, PacketQueue.windowSize, Checked.sub_of_le _ _ hbounded.frontier_le]
  dsimp only
  rw [if_neg (not_exceeds hsmall)]
  exact ⟨_, congrArg Except.ok (congrArg Prod.fst hfetch)⟩

/-- A queue that is too big refuses the packet that it waits for. -/
theorem orderPacket_blocked {next : Packet} {size : Nat}
    (hsize : c.state.packetQueue.windowSize build = .ok size) (hbig : Exceeds handler size)
    (hnext : next.orderIndex = c.state.packetQueue.lowest)
    (hnot : c.state.packetQueue.lowest.value ∉ c.state.packetQueue.queue)
    (hlt : c.state.packetQueue.lowest.value < c.state.packetQueue.highest.value) :
    ∃ lowest highest,
      (orderPacket build handler next c).2 = err (.windowSizeTooBig lowest highest) := by
  have ht : ¬ c.state.packetQueue.Taken next.orderIndex.value := by
    rw [hnext]
    exact fun ht ↦ ht.elim (Nat.lt_irrefl _) hnot
  have hsame : (c.queued next).windowSize build = c.state.packetQueue.windowSize build := by
    rw [queued, PacketQueue.put_of_not_taken ht]
    dsimp only [PacketQueue.windowSize]
    rw [hnext, if_neg (Nat.not_le_of_lt hlt)]
  rw [orderPacket_new build ht, hsame, hsize]
  dsimp only
  rw [if_pos hbig]
  exact ⟨_, _, rfl⟩

/-- The queue keeps a packet that the limit refuses. -/
theorem receivePacket_of_refused {lowest highest : Nat}
    (hordered : pk.reliability = reliabilityReliableOrdered)
    (h : (orderPacket build handler pk c).2 = err (.windowSizeTooBig lowest highest)) :
    (receivePacket build handler pk c).1 = { c with state.packetQueue := c.queued pk } := by
  obtain ⟨-, -, hconn⟩ := orderPacket_refused h
  rcases horder : orderPacket build handler pk c with ⟨c', r⟩
  rw [horder] at h hconn
  obtain rfl : r = err (.windowSizeTooBig lowest highest) := h
  rw [receivePacket, if_neg (not_not.mpr hordered), bind_error horder]
  exact hconn

/-- A packet that makes a small queue too big is above the one that the queue waits for. -/
theorem lowest_lt_of_exceeds {size : Nat} (h : c.state.packetQueue.Compact)
    (hlast : pk.orderIndex ≠ lastIndex)
    (hnew : ¬ c.state.packetQueue.Taken pk.orderIndex.value)
    (hsize : (c.queued pk).windowSize build = .ok size) (hexceeds : Exceeds handler size) :
    c.state.packetQueue.lowest.value < pk.orderIndex.value := by
  have hbounded : (c.queued pk).Bounded := h.bounded.put hlast pk.content
  obtain rfl := Except.ok.inj (hsize.symm.trans (hbounded.windowSize build))
  refine Nat.lt_of_not_le fun hle ↦ absurd hexceeds.1 (Nat.not_lt_of_le ?_)
  exact (h.put_size_iff hlast hnew).mpr fun u hu hnot ↦ absurd (Or.inl (hu.trans_le hle)) hnot

/-- **A refused packet always marks the queue.**  Whenever `receive_packet` ends with
`WindowSizeTooBig`, the queue is not what it was: the index of the packet is taken now and was not
before.  When it is the limit that refuses the packet, at a queue that was small, then the packet
that the queue waits for would have been handed out next, and is refused as well from now on. -/
theorem tooBig_marks_queue {lowest highest : Nat}
    (hordered : pk.reliability = reliabilityReliableOrdered)
    (hbig : (receivePacket build handler pk c).2 = err (.windowSizeTooBig lowest highest)) :
    (receivePacket build handler pk c).1.state.packetQueue ≠ c.state.packetQueue ∧
      (c.state.packetQueue.Compact → pk.orderIndex ≠ lastIndex →
        (orderPacket build handler pk c).2 = err (.windowSizeTooBig lowest highest) →
          ∀ next : Packet, next.orderIndex = c.state.packetQueue.lowest →
            (∃ batch, (orderPacket build handler next c).2 = .ok (next.content :: batch)) ∧
              ∃ lowest highest,
                (orderPacket build handler next (receivePacket build handler pk c).1).2 =
                  err (.windowSizeTooBig lowest highest)) := by
  obtain ⟨hnew, htaken⟩ := taken_of_refused hordered hbig
  refine ⟨fun heq ↦ hnew (heq ▸ htaken), fun hcompact hlast hlimit next hnext ↦ ?_⟩
  obtain ⟨-, ⟨size, hsize, hexceeds⟩, -⟩ := orderPacket_refused hlimit
  have hfar := lowest_lt_of_exceeds hcompact hlast hnew hsize hexceeds
  have hlow : (c.queued pk).lowest = c.state.packetQueue.lowest := by
    rw [queued, PacketQueue.put_of_not_taken hnew]
  have hlastnext : next.orderIndex ≠ lastIndex := by
    have hlt := pk.orderIndex.lt
    have hvalue : lastIndex.value = 2 ^ 24 - 1 := rfl
    rw [hnext]
    intro heq
    rw [heq] at hfar
    omega
  refine ⟨orderPacket_waited hcompact hnext hlastnext, ?_⟩
  rw [receivePacket_of_refused hordered hlimit]
  refine orderPacket_blocked hsize hexceeds (hnext.trans hlow.symm) ?_ ?_
  · rw [queued, PacketQueue.put_of_not_taken hnew]
    intro hmem
    rcases Finmap.mem_insert.mp hmem with heq | hmem
    · exact absurd heq hfar.ne
    · exact hcompact.notMem hmem
  · have hbounded : (c.queued pk).Bounded := hcompact.bounded.put hlast pk.content
    obtain rfl := Except.ok.inj (hsize.symm.trans (hbounded.windowSize build))
    have hpos := hexceeds.1
    dsimp only
    omega

/-- The packet with the index 5000 is refused by a new connection, and stays in the queue. -/
theorem refused_is_queued :
    ∃ c', receivePacket .debug .forwarding
        { Packet.new with orderIndex := Uint24.new 5000, content := [1] } (new 1492) =
          (c', err (.windowSizeTooBig 0 5001)) ∧
      c'.state.packetQueue ≠ (new 1492).state.packetQueue := by
  refine ⟨_, Prod.ext rfl rfl, fun heq ↦ ?_⟩
  have hhighest : (5001 : Nat) = 0 := congrArg (fun q : PacketQueue ↦ q.highest.value) heq
  exact absurd hhighest (by decide)

/-- The same packet.  A packet with the index zero, which the queue waits for, would have been
handed out, and is refused from now on. -/
theorem tooBig_marks_queue_new :
    let pk : Packet := { Packet.new with orderIndex := Uint24.new 5000, content := [1] }
    let next : Packet := { Packet.new with content := [2] }
    let handler : ConnectionHandler := .forwarding
    (receivePacket .debug handler pk (new 1492)).1.state.packetQueue ≠
        (new 1492).state.packetQueue ∧
      (∃ batch, (orderPacket .debug handler next (new 1492)).2 = .ok ([2] :: batch)) ∧
      ∃ lowest highest,
        (orderPacket .debug handler next (receivePacket .debug handler pk (new 1492)).1).2 =
          err (.windowSizeTooBig lowest highest) := by
  intro pk next handler
  obtain ⟨hmarked, hnext⟩ :=
    @tooBig_marks_queue .debug handler (new 1492) pk 0 5001 rfl rfl
  refine ⟨hmarked, ?_⟩
  exact hnext PacketQueue.compact_new (by decide) rfl next rfl

end Conn

end Ragnet

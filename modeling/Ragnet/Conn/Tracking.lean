import Ragnet.Conn.Steps

/-!
# Every packet sent is tracked until it is acknowledged

The tracking of packets is an instance of `Ragnet.Lib.Ledger`: the items are the packets, told
apart by their message index, and the table is the resend map.  What the instance needs is that the
numbers are fresh.  They are as long as the two counters have not wrapped around, so the invariant
`Sound` is kept under the condition that fewer than `2 ^ 24` numbers have been issued.
-/

namespace Ragnet.Conn

open Ledger Wire

def issued (c : Conn) : Nat := (numbers c.sends).length

/-- The resend map tracks the history, and both counters are ahead of it. -/
structure Sound (c : Conn) : Prop where
  tracks : Tracks Packet.messageIndex c.tracked c.sends
  seq_eq : c.state.seq.value = c.issued
  numbers_lt : ∀ n ∈ numbers c.sends, n < c.issued
  messageIndex_le : c.state.messageIndex.value ≤ c.issued
  messageIndex_lt : ∀ n pk, .emit n pk ∈ c.sends →
    pk.messageIndex.value < c.state.messageIndex.value

/-- The invariant: a connection that has issued fewer than `2 ^ 24` numbers is sound. -/
def SoundBelowWrap (c : Conn) : Prop := c.issued < 2 ^ 24 → c.Sound

variable {c c' : Conn} {pk : Packet} {now : Instant}

theorem sound_new (mtu : Nat) : (new mtu).Sound where
  tracks := Tracks.nil
  seq_eq := rfl
  numbers_lt := fun _ h ↦ absurd h List.not_mem_nil
  messageIndex_le := le_rfl
  messageIndex_lt := fun _ _ h ↦ absurd h List.not_mem_nil

theorem issued_emit : (emit pk now c).1.issued = c.issued + 1 := by
  change (numbers (c.sends ++ [_])).length = _
  rw [numbers_append, List.length_append]
  rfl

/-- The number an emission uses is fresh, and the next one is ahead of it. -/
theorem Sound.emit_counters (h : c.Sound) (hlt : c.issued + 1 < 2 ^ 24) :
    c.state.seq.value ∉ numbers c.sends ∧
      (emit pk now c).1.state.seq.value = c.issued + 1 ∧
      ∀ n ∈ numbers (emit pk now c).1.sends, n < c.issued + 1 := by
  refine ⟨fun hm ↦ absurd (h.numbers_lt _ hm) (by rw [h.seq_eq]; exact lt_irrefl _), ?_, ?_⟩
  · change (c.state.seq.value + 1) % 2 ^ 24 = _
    rw [h.seq_eq, Nat.mod_eq_of_lt hlt]
  · intro n hn
    change n ∈ numbers (c.sends ++ [.emit c.state.seq.value pk]) at hn
    rw [numbers_append, List.mem_append] at hn
    rcases hn with hn | hn
    · exact Nat.lt_succ_of_lt (h.numbers_lt n hn)
    · rw [List.mem_singleton.mp hn, h.seq_eq]
      exact Nat.lt_succ_self _

/-- A new packet keeps the connection sound. -/
theorem Sound.issue (h : c.Sound) (hlt : c.issued + 1 < 2 ^ 24)
    (hpk : pk.messageIndex = c.state.messageIndex.inc.2) :
    (emit pk now { c with state.messageIndex := c.state.messageIndex.inc.1 }).1.Sound := by
  obtain ⟨hfresh, hseq, hnum⟩ := @Sound.emit_counters _ pk now h hlt
  have hnext : c.state.messageIndex.inc.1.value = c.state.messageIndex.value + 1 :=
    Nat.mod_eq_of_lt (lt_of_le_of_lt (Nat.succ_le_succ h.messageIndex_le) hlt)
  exact
    { tracks := by
        refine h.tracks.issue hfresh (fun n q hq he ↦ ?_) (fun n ↦ ResendMap.tracked_add _ _ _ _ _)
        have := h.messageIndex_lt n q hq
        rw [he, hpk, Uint24.inc_snd] at this
        exact lt_irrefl _ this
      seq_eq := by rw [issued_emit]; exact hseq
      numbers_lt := by rw [issued_emit]; exact hnum
      messageIndex_le := by
        rw [issued_emit]
        change c.state.messageIndex.inc.1.value ≤ _
        rw [hnext]
        exact Nat.succ_le_succ h.messageIndex_le
      messageIndex_lt := by
        intro n q hq
        change _ < c.state.messageIndex.inc.1.value
        rw [hnext]
        rcases List.mem_append.mp hq with hq | hq
        · exact Nat.lt_succ_of_lt (h.messageIndex_lt n q hq)
        · obtain ⟨-, rfl⟩ := Event.emit.inj (List.mem_singleton.mp hq)
          rw [hpk]
          exact Nat.lt_succ_self _ }

/-- So does a packet that goes out again. -/
theorem Sound.reissue {seq : Uint24} {removed added : Instant} (h : c.Sound)
    (hlt : c.issued + 1 < 2 ^ 24) (hpk : c.tracked seq.value = some pk) :
    (emit pk added
      { c with
        state.retransmission := (c.state.retransmission.retransmit seq removed).1 }).1.Sound := by
  obtain ⟨hfresh, hseq, hnum⟩ := @Sound.emit_counters _ pk added h hlt
  have hmem := ((h.tracks.tracked_iff _ _).mp hpk).mem
  exact
    { tracks := by
        refine h.tracks.reissue hpk hfresh fun n ↦ ?_
        have hadd := ResendMap.tracked_add (c.state.retransmission.retransmit seq removed).1
          c.state.seq pk added n
        rw [ResendMap.retransmit, ResendMap.tracked_remove] at hadd
        exact hadd
      seq_eq := by rw [issued_emit]; exact hseq
      numbers_lt := by rw [issued_emit]; exact hnum
      messageIndex_le := by
        rw [issued_emit]
        exact Nat.le_succ_of_le h.messageIndex_le
      messageIndex_lt := by
        intro n q hq
        rcases List.mem_append.mp hq with hq | hq
        · exact h.messageIndex_lt n q hq
        · obtain ⟨-, rfl⟩ := Event.emit.inj (List.mem_singleton.mp hq)
          exact h.messageIndex_lt _ _ hmem }

/-- An acknowledgement is not an emission. -/
theorem numbers_acked (t : List SendEvent) (n : Nat) :
    numbers (t ++ [.acked n]) = numbers t := by
  rw [numbers_append]
  exact List.append_nil _

/-- An acknowledgement keeps the connection sound. -/
theorem Sound.acknowledge (h : c.Sound) (seq : Uint24) (now : Instant) :
    ({ c with
      state.retransmission := (c.state.retransmission.acknowledge seq now).1
      sends := c.sends ++ [.acked seq.value] } : Conn).Sound where
  tracks := h.tracks.acknowledge fun n ↦
    ResendMap.tracked_remove c.state.retransmission seq 1 now n
  seq_eq := by rw [issued, numbers_acked]; exact h.seq_eq
  numbers_lt := by rw [issued, numbers_acked]; exact h.numbers_lt
  messageIndex_le := by rw [issued, numbers_acked]; exact h.messageIndex_le
  messageIndex_lt := fun n q hq ↦ h.messageIndex_lt n q (by simpa using hq)

/-- The elementary steps keep the invariant. -/
theorem SoundBelowWrap.step {new : Packet → Prop} (hs : SendStep new c c')
    (h : c.SoundBelowWrap) : c'.SoundBelowWrap := by
  intro hlt
  cases hs with
  | measure now =>
      obtain ⟨h₁, h₂, h₃, h₄, h₅⟩ := h hlt
      refine ⟨?_, h₂, h₃, h₄, h₅⟩
      change Tracks _ (c.state.retransmission.rtt now).1.tracked _
      rw [funext (ResendMap.tracked_rtt c.state.retransmission now)]
      exact h₁
  | issue now _ hm =>
      rw [issued_emit] at hlt
      exact (h (Nat.lt_of_succ_lt hlt)).issue hlt hm
  | reissue removed added ht =>
      rw [issued_emit] at hlt
      exact (h (Nat.lt_of_succ_lt hlt)).reissue hlt ht
  | acknowledge seq now =>
      rw [issued, numbers_acked] at hlt
      exact (h hlt).acknowledge seq now
  | send _ =>
      obtain ⟨h₁, h₂, h₃, h₄, h₅⟩ := h hlt
      exact ⟨h₁, h₂, h₃, h₄, h₅⟩

/-- Only datagrams of numbered packets go to the sender task. -/
def SendsEmitted (c : Conn) : Prop :=
  ∀ d ∈ c.sendTx, ∃ seq pk, .emit (Uint24.value seq) pk ∈ c.sends ∧ d = datagram seq pk

theorem SendsEmitted.step {new : Packet → Prop} (hs : SendStep new c c') (h : c.SendsEmitted) :
    c'.SendsEmitted := by
  have grow (e : SendEvent) (d : Bytes) (hd : d ∈ c.sendTx) :
      ∃ seq pk, .emit (Uint24.value seq) pk ∈ c.sends ++ [e] ∧ d = datagram seq pk := by
    obtain ⟨seq, pk, hm, rfl⟩ := h d hd
    exact ⟨seq, pk, List.mem_append_left _ hm, rfl⟩
  cases hs with
  | measure now => exact h
  | issue now _ _ => exact grow _
  | reissue removed added _ => exact grow _
  | acknowledge seq now => exact grow _
  | @send seq pk hm =>
      intro d hd
      rcases List.mem_append.mp hd with hd | hd
      · exact h d hd
      · exact ⟨seq, pk, hm, List.mem_singleton.mp hd⟩

/-- Both hold in every reachable connection. -/
theorem sound_of_reachable {build : Build} (h : (sending build).Reachable c) :
    c.SoundBelowWrap ∧ c.SendsEmitted := by
  refine h.invariant (I := fun c ↦ c.SoundBelowWrap ∧ c.SendsEmitted) ?_ ?_
  · rintro _ ⟨mtu, rfl⟩
    exact ⟨fun _ ↦ sound_new mtu, fun d hd ↦ absurd hd List.not_mem_nil⟩
  · rintro c call _ - ⟨hs, hd⟩ rfl
    obtain ⟨orderIndex, splitId, hsteps⟩ := call.run_steps build c
    have hs' : (c.renumber orderIndex splitId).SoundBelowWrap := fun hlt ↦
      have ⟨h₁, h₂, h₃, h₄, h₅⟩ := hs hlt
      ⟨h₁, h₂, h₃, h₄, h₅⟩
    exact hsteps.invariant (I := fun c ↦ c.SoundBelowWrap ∧ c.SendsEmitted)
      (fun _ _ hab ha ↦ ⟨ha.1.step hab, ha.2.step hab⟩) ⟨hs', hd⟩

/-! ## The life of a packet -/

/-- Every packet handed to a send path is tracked under the number of its most recent emission
until this number is acknowledged. -/
structure TrackedUntilAcknowledged (c : Conn) : Prop where
  /-- A packet once emitted is tracked under the number of its most recent emission and under no
  other, up to the acknowledgement of this number and not beyond. -/
  latest : ∀ n pk, .emit n pk ∈ c.sends →
    ∃ last after, LastEmission Packet.messageIndex c.sends last pk after ∧
      ∀ m q, q.messageIndex = pk.messageIndex →
        (c.tracked m = some q ↔ m = last ∧ q = pk ∧ .acked last ∉ after)
  /-- Nothing else is tracked. -/
  emitted : ∀ n pk, c.tracked n = some pk → .emit n pk ∈ c.sends
  /-- All emissions of a packet carry the same fields and the same content. -/
  same : ∀ m n pk q, .emit m pk ∈ c.sends → .emit n q ∈ c.sends →
    pk.messageIndex = q.messageIndex → pk = q
  /-- No two emissions share a number. -/
  distinct : (numbers c.sends).Nodup
  /-- What goes to the sender task are the datagrams of the emissions. -/
  sent : ∀ d ∈ c.sendTx, ∃ seq pk, .emit (Uint24.value seq) pk ∈ c.sends ∧ d = datagram seq pk

/-- **Packets are tracked until acknowledged.**  This holds after every interleaving of the calls
of the send side that has issued fewer than `2 ^ 24` numbers. -/
theorem tracked_until_acknowledged {build : Build} (h : (sending build).Reachable c)
    (hlt : c.issued < 2 ^ 24) : c.TrackedUntilAcknowledged := by
  obtain ⟨hs, hd⟩ := sound_of_reachable h
  have htracks := (hs hlt).tracks
  exact
    { latest := fun n pk hm ↦ htracks.latest hm
      emitted := fun n pk hpk ↦ ((htracks.tracked_iff n pk).mp hpk).mem
      same := htracks.coherent
      distinct := htracks.nodup
      sent := hd }

/-- A new connection that sends one message, gets a NACK that names its number and the number that
answering it creates, and then an ACK for a number that is no longer in use. -/
theorem tracked_until_acknowledged_resent :
    ∃ c, (sending .debug).Reachable c ∧ c.issued = 3 ∧ c.TrackedUntilAcknowledged := by
  let env : Env := .calm
  let c₁ := SendCall.run .debug (new 1492) (.sendMessage env [7])
  let c₂ := SendCall.run .debug c₁ (.handleNack env [0, 1, 0, 0, 0, 0, 1, 0, 0])
  let c₃ := SendCall.run .debug c₂ (.handleAck env.clock [0, 1, 1, 1, 0, 0])
  have hr : (sending .debug).Reachable c₃ :=
    .step (a := .handleAck env.clock [0, 1, 1, 1, 0, 0])
      (.step (a := .handleNack env [0, 1, 0, 0, 0, 0, 1, 0, 0])
        (.step (a := .sendMessage env [7]) (.init ⟨1492, rfl⟩) rfl) rfl) rfl
  have hi : c₃.issued = 3 := by decide
  exact ⟨c₃, hr, hi, tracked_until_acknowledged hr (by rw [hi]; decide)⟩

end Ragnet.Conn

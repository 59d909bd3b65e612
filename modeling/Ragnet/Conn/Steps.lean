import Ragnet.Conn.Send
import Mathlib.Logic.Relation

/-!
# What the send side can do

Every call of the send side is a sequence of elementary steps: a new packet is numbered, a tracked
packet is numbered again, a number is acknowledged, or the datagram of a numbered packet is handed
to the sender task.  An invariant of the send side needs one case for each of these, and not one
for each call.

The steps are indexed by a predicate that the new packets satisfy.  A call that takes an order
index or a split id does so before its first step, which `renumber` expresses.
-/

namespace Ragnet.Conn

open Wire

def tracked (c : Conn) : Nat → Option Packet := c.state.retransmission.tracked

/-- The part of a connection that its receive side works on. -/
structure Receiving where
  mtu : Mtu
  closing : Int
  closed : Bool
  pk : Packet
  splits : HashMap UInt16 (List Bytes)
  win : DatagramWindow
  ackSlice : List Uint24
  packetQueue : PacketQueue
  packetTx : List Bytes
  handled : List Bytes
  reassembled : List Packet

def receiving (c : Conn) : Receiving where
  mtu := c.mtu
  closing := c.closing
  closed := c.closed
  pk := c.state.pk
  splits := c.state.splits
  win := c.state.win
  ackSlice := c.state.ackSlice
  packetQueue := c.state.packetQueue
  packetTx := c.packetTx
  handled := c.handled
  reassembled := c.reassembled

/-- The elementary steps of the send side, whose new packets satisfy `new`. -/
inductive SendStep (new : Packet → Prop) : Conn → Conn → Prop
  /-- Bookkeeping of the round-trip time. -/
  | measure {c : Conn} (now : Instant) :
      SendStep new c
        { c with
          state.retransmission := (c.state.retransmission.rtt now).1
          rtt := (c.state.retransmission.rtt now).2 }
  /-- A new packet takes the next message index and is numbered. -/
  | issue {c : Conn} {pk : Packet} (now : Instant) :
      new pk → pk.messageIndex = c.state.messageIndex.inc.2 →
        SendStep new c
          (emit pk now { c with state.messageIndex := c.state.messageIndex.inc.1 }).1
  /-- A tracked packet is removed and numbered again. -/
  | reissue {c : Conn} {seq : Uint24} {pk : Packet} (removed added : Instant) :
      c.tracked seq.value = some pk →
        SendStep new c
          (emit pk added
            { c with state.retransmission := (c.state.retransmission.retransmit seq removed).1 }).1
  /-- A number is acknowledged. -/
  | acknowledge {c : Conn} (seq : Uint24) (now : Instant) :
      SendStep new c
        { c with
          state.retransmission := (c.state.retransmission.acknowledge seq now).1
          sends := c.sends ++ [.acked seq.value] }
  /-- The datagram of a numbered packet goes to the sender task. -/
  | send {c : Conn} {seq : Uint24} {pk : Packet} :
      .emit seq.value pk ∈ c.sends →
        SendStep new c { c with sendTx := c.sendTx ++ [datagram seq pk] }

abbrev SendSteps (new : Packet → Prop) : Conn → Conn → Prop :=
  Relation.ReflTransGen (SendStep new)

/-- A connection with other counters of orders and splits. -/
def renumber (orderIndex : Uint24) (splitId : UInt32) (c : Conn) : Conn :=
  { c with state.orderIndex := orderIndex, state.splitId := splitId }

variable {new new' : Packet → Prop} {c c' : Conn}

/-- The steps do not depend on what else the predicate admits. -/
theorem SendStep.mono (hn : ∀ pk, new pk → new' pk) (h : SendStep new c c') :
    SendStep new' c c' := by
  cases h with
  | measure now => exact .measure now
  | issue now hpk hm => exact .issue now (hn _ hpk) hm
  | reissue removed added ht => exact .reissue removed added ht
  | acknowledge seq now => exact .acknowledge seq now
  | send hm => exact .send hm

theorem SendSteps.mono (hn : ∀ pk, new pk → new' pk) (h : SendSteps new c c') :
    SendSteps new' c c' :=
  Relation.ReflTransGen.mono (fun _ _ ↦ SendStep.mono hn) c c' h

/-- An invariant of the elementary steps is one of their sequences. -/
theorem SendSteps.invariant {I : Conn → Prop} (hstep : ∀ a b, SendStep new a b → I a → I b)
    (h : SendSteps new c c') (hc : I c) : I c' := by
  induction h with
  | refl => exact hc
  | tail _ hs ih => exact hstep _ _ hs ih

/-! ## What the steps leave alone -/

/-- The receive side does not take part in the steps. -/
theorem SendSteps.receiving_eq (h : SendSteps new c c') : c'.receiving = c.receiving := by
  refine h.invariant (I := fun d ↦ d.receiving = c.receiving) ?_ rfl
  intro a b hs ha
  refine Eq.trans ?_ ha
  cases hs <;> rfl

/-- Nor do the counters of orders and splits. -/
theorem SendSteps.counters_eq (h : SendSteps new c c') :
    c'.state.orderIndex = c.state.orderIndex ∧ c'.state.splitId = c.state.splitId := by
  refine h.invariant
    (I := fun d ↦ d.state.orderIndex = c.state.orderIndex ∧ d.state.splitId = c.state.splitId)
    ?_ ⟨rfl, rfl⟩
  intro a b hs ha
  cases hs <;> exact ha

/-- What has been emitted stays on record. -/
theorem SendSteps.sends_subset (h : SendSteps new c c') : c.sends ⊆ c'.sends := by
  refine h.invariant (I := fun d ↦ c.sends ⊆ d.sends) ?_ (List.Subset.refl _)
  intro a b hs ha
  cases hs with
  | measure now => exact ha
  | issue now _ _ => exact fun e he ↦ List.mem_append_left _ (ha he)
  | reissue removed added _ => exact fun e he ↦ List.mem_append_left _ (ha he)
  | acknowledge seq now => exact fun e he ↦ List.mem_append_left _ (ha he)
  | send _ => exact ha

/-- What is handed to the sender task comes behind what was. -/
theorem SendSteps.sendTx_prefix (h : SendSteps new c c') : c.sendTx <+: c'.sendTx := by
  refine h.invariant (I := fun d ↦ c.sendTx <+: d.sendTx) ?_ (List.prefix_refl _)
  intro a b hs ha
  cases hs with
  | measure now => exact ha
  | issue now _ _ => exact ha
  | reissue removed added _ => exact ha
  | acknowledge seq now => exact ha
  | send _ => exact ha.trans (List.prefix_append _ _)

theorem SendSteps.sendTx_subset (h : SendSteps new c c') : c.sendTx ⊆ c'.sendTx :=
  h.sendTx_prefix.subset

/-! ## The calls as sequences of steps -/

/-- A numbered packet is handed to the sender task, or not. -/
theorem emit_trySend {pk : Packet} {now : Instant} {d : Conn}
    (h : SendStep new c (emit pk now d).1) (accepted : Bool) :
    SendSteps new c ((emit pk now d).1.trySend accepted (emit pk now d).2) := by
  cases accepted with
  | false => exact .single h
  | true =>
      refine (Relation.ReflTransGen.single h).tail (SendStep.send ?_)
      exact List.mem_append_right _ (List.mem_singleton.mpr rfl)

theorem resend_steps (removed added : Instant) (accepted : Bool) (seq : Uint24) (c : Conn) :
    SendSteps new c (resend removed added accepted seq c) := by
  have hsnd := ResendMap.remove_snd c.state.retransmission seq 2 removed
  cases hpk : c.tracked seq.value with
  | none =>
      -- removing an unknown number does nothing
      have hid :
          c.state.retransmission.retransmit seq removed = (c.state.retransmission, none) := by
        have hl : c.state.retransmission.unacknowledged.lookup seq.value = none := by
          simpa [tracked, ResendMap.tracked] using hpk
        rw [ResendMap.retransmit, ResendMap.remove, hl]
      have hsame : resend removed added accepted seq c = c := by rw [resend, hid]
      rw [hsame]
  | some pk =>
      have hret : (c.state.retransmission.retransmit seq removed).2 = some pk :=
        hsnd.trans hpk
      rw [resend]
      dsimp only
      rw [hret]
      exact emit_trySend (.reissue removed added hpk) accepted

theorem resendAll_steps (env : Env) (i : Nat) (seqs : List Uint24) (c : Conn) :
    SendSteps new c (resendAll env i seqs c) := by
  induction seqs generalizing i c with
  | nil => exact .refl
  | cons seq seqs ih => exact (resend_steps _ _ _ seq c).trans (ih (i + 1) _)

theorem acknowledgeAll_steps (clock : Clock) (i : Nat) (seqs : List Uint24) (c : Conn) :
    SendSteps new c (acknowledgeAll clock i seqs c) := by
  induction seqs generalizing i c with
  | nil => exact .refl
  | cons seq seqs ih => exact .head (.acknowledge seq (clock i)) (ih (i + 1) _)

theorem handleAck_steps (build : Build) (clock : Clock) (data : Bytes) (c : Conn) :
    SendSteps new c (handleAck build clock data c).1 := by
  rw [handleAck]
  cases Acknowledgement.new.read build data with
  | error e => exact .refl
  | ok ack => exact acknowledgeAll_steps clock 0 ack.packets c

theorem handleNack_steps (build : Build) (env : Env) (data : Bytes) (c : Conn) :
    SendSteps new c (handleNack build env data c).1 := by
  rw [handleNack]
  cases Acknowledgement.new.read build data with
  | error e => exact .refl
  | ok nack => exact resendAll_steps env 0 nack.packets c

theorem checkResend_steps (env : Env) (now : Instant) (iter : List Uint24) (c : Conn) :
    SendSteps new c (checkResend env now iter c) :=
  .head (.measure now) (resendAll_steps env 0 _ _)

/-- The packet that `write_locked` makes of its `i`-th fragment. -/
def fragmentPacket (count : Nat) (splitId : UInt16) (orderIndex messageIndex : Uint24) (i : Nat)
    (content : Bytes) : Packet :=
  let pk : Packet :=
    { Packet.new with content := content, orderIndex := orderIndex, messageIndex := messageIndex }
  if count > 1 then
    { pk with
      split := true
      splitCount := UInt32.ofNat count
      splitIndex := UInt32.ofNat i
      splitId := splitId }
  else pk

theorem writeLoop_steps (env : Env) (count : Nat) (splitId : UInt16) (orderIndex : Uint24)
    (i : Nat) (fragments : List Bytes) (n : Nat) (c : Conn)
    (hnew : ∀ j content messageIndex, fragments[j]? = some content →
      new (fragmentPacket count splitId orderIndex messageIndex (i + j) content)) :
    SendSteps new c (writeLoop env count splitId orderIndex i fragments n c).1 := by
  induction fragments generalizing i n c with
  | nil => exact .refl
  | cons content rest ih =>
      have hpk := hnew 0 content c.state.messageIndex rfl
      have hmi : (fragmentPacket count splitId orderIndex c.state.messageIndex i
          content).messageIndex = c.state.messageIndex := by
        rw [fragmentPacket]
        split <;> rfl
      have hstep := SendStep.issue (env.clock i) hpk hmi
      have hrest := emit_trySend hstep (env.accepts i)
      rw [writeLoop, Proc.update_bind]
      change SendSteps new c ((sendDatagram (env.clock i) (env.accepts i)
        (fragmentPacket count splitId orderIndex c.state.messageIndex i content) >>= fun _ ↦
          writeLoop env count splitId orderIndex (i + 1) rest (n + content.length))
        { c with state.messageIndex := c.state.messageIndex.inc.1 }).1
      -- a send that fails leaves the emission behind and ends the loop
      cases hacc : env.accepts i with
      | false => exact .single hstep
      | true =>
          rw [hacc] at hrest
          refine hrest.trans (ih (i + 1) _ _ fun j content' messageIndex hj ↦ ?_)
          rw [Nat.add_right_comm, Nat.add_assoc]
          exact hnew (j + 1) content' messageIndex hj

/-- The connection that has sent the packet of one fragment. -/
def sentFragment (env : Env) (count : Nat) (splitId : UInt16) (orderIndex : Uint24) (i : Nat)
    (content : Bytes) (self : Conn) : Conn :=
  let sent := emit (fragmentPacket count splitId orderIndex self.state.messageIndex i content)
    (env.clock i) { self with state.messageIndex := self.state.messageIndex.inc.1 }
  sent.1.trySend true sent.2

/-- A datagram that is taken, and the rest of the loop. -/
theorem writeLoop_cons {env : Env} {i : Nat} (haccepts : env.accepts i = true) (count : Nat)
    (splitId : UInt16) (orderIndex : Uint24) (content : Bytes) (rest : List Bytes) (n : Nat)
    (c : Conn) :
    writeLoop env count splitId orderIndex i (content :: rest) n c =
      writeLoop env count splitId orderIndex (i + 1) rest (n + content.length)
        (c.sentFragment env count splitId orderIndex i content) := by
  rw [writeLoop, Proc.update_bind, haccepts]
  rfl

/-- The first datagram of a write. -/
theorem writeLoop_sends {env : Env} {i : Nat} (haccepts : env.accepts i = true) (count : Nat)
    (splitId : UInt16) (orderIndex : Uint24) (content : Bytes) (rest : List Bytes) (n : Nat)
    (c : Conn) :
    datagram c.state.seq
        (fragmentPacket count splitId orderIndex c.state.messageIndex i content) ∈
      (writeLoop env count splitId orderIndex i (content :: rest) n c).1.sendTx := by
  have hsteps := @writeLoop_steps (fun _ ↦ True) env count splitId orderIndex (i + 1) rest
    (n + content.length) (c.sentFragment env count splitId orderIndex i content)
    fun _ _ _ _ ↦ trivial
  rw [writeLoop_cons haccepts]
  exact hsteps.sendTx_subset (List.mem_append_right _ (List.mem_singleton.mpr rfl))

/-- A write whose datagrams are taken emits every fragment. -/
theorem writeLoop_emits {env : Env} (haccepts : ∀ i, env.accepts i = true) (count : Nat)
    (splitId : UInt16) (orderIndex : Uint24) (i : Nat) (fragments : List Bytes) (n : Nat)
    (c : Conn) {j : Nat} {content : Bytes} (hj : fragments[j]? = some content) :
    ∃ number messageIndex,
      .emit number (fragmentPacket count splitId orderIndex messageIndex (i + j) content) ∈
        (writeLoop env count splitId orderIndex i fragments n c).1.sends := by
  induction fragments generalizing i j n c with
  | nil => cases hj
  | cons first rest ih =>
      rw [writeLoop_cons (haccepts i)]
      cases j with
      | zero =>
          obtain rfl := Option.some.inj hj
          refine ⟨c.state.seq.value, c.state.messageIndex, ?_⟩
          have hsteps := @writeLoop_steps (fun _ ↦ True) env count splitId orderIndex (i + 1) rest
            (n + first.length) (c.sentFragment env count splitId orderIndex i first)
            fun _ _ _ _ ↦ trivial
          exact hsteps.sends_subset (List.mem_append_right _ (List.mem_singleton.mpr rfl))
      | succ j =>
          rw [Nat.add_comm j 1, ← Nat.add_assoc]
          exact ih (i + 1) _ _ hj

/-- A write that gets as far as its fragments takes its numbers before the first of them. -/
theorem writeLocked_of_ok {build : Build} (env : Env) {data : Bytes} {c : Conn}
    {fragments : List Bytes} (hf : split build data c.mtu.effective = .ok fragments) :
    writeLocked build env data c =
      writeLoop env fragments.length c.state.splitId.toUInt16 c.state.orderIndex 0 fragments 0
        (c.renumber c.state.orderIndex.inc.1
          (if fragments.length > 1 then c.state.splitId + 1 else c.state.splitId)) := by
  rw [writeLocked, Proc.get_bind, hf, Proc.ofExcept_ok_bind, Proc.update_bind]
  dsimp only
  split
  · rfl
  · rfl

/-- A write that does not get as far as its fragments changes nothing. -/
theorem writeLocked_of_error {build : Build} (env : Env) {data : Bytes} {c : Conn}
    {e : Fault Error} (hf : split build data c.mtu.effective = .error e) :
    writeLocked build env data c = (c, .error e) := by
  rw [writeLocked, Proc.get_bind, hf, Proc.ofExcept_error_bind]

theorem writeLocked_emits {build : Build} {env : Env} (haccepts : ∀ i, env.accepts i = true)
    {data : Bytes} {c : Conn} {fragments : List Bytes}
    (hf : split build data c.mtu.effective = .ok fragments) {j : Nat} {content : Bytes}
    (hj : fragments[j]? = some content) :
    ∃ number messageIndex,
      .emit number (fragmentPacket fragments.length c.state.splitId.toUInt16 c.state.orderIndex
        messageIndex j content) ∈ (writeLocked build env data c).1.sends := by
  rw [writeLocked_of_ok env hf]
  have hemits := writeLoop_emits haccepts fragments.length c.state.splitId.toUInt16
    c.state.orderIndex 0 fragments 0 (c.renumber c.state.orderIndex.inc.1
      (if fragments.length > 1 then c.state.splitId + 1 else c.state.splitId)) hj
  rwa [Nat.zero_add] at hemits

/-- The first datagram of a write. -/
theorem writeLocked_sends {build : Build} {env : Env} (haccepts : env.accepts 0 = true)
    {data : Bytes} {c : Conn} {content : Bytes} {rest : List Bytes}
    (hf : split build data c.mtu.effective = .ok (content :: rest)) :
    datagram c.state.seq (fragmentPacket (content :: rest).length c.state.splitId.toUInt16
        c.state.orderIndex c.state.messageIndex 0 content) ∈
      (writeLocked build env data c).1.sendTx := by
  rw [writeLocked_of_ok env hf]
  exact writeLoop_sends haccepts _ _ _ content rest 0 (c.renumber c.state.orderIndex.inc.1 _)

/-- A write whose datagrams are taken counts the bytes of its fragments. -/
theorem writeLoop_length {env : Env} (haccepts : ∀ i, env.accepts i = true) (count : Nat)
    (splitId : UInt16) (orderIndex : Uint24) (i : Nat) (fragments : List Bytes) (n : Nat)
    (c : Conn) :
    (writeLoop env count splitId orderIndex i fragments n c).2 =
      .ok (n + fragments.flatten.length) := by
  induction fragments generalizing i n c with
  | nil => rfl
  | cons content rest ih =>
      rw [writeLoop_cons (haccepts i), ih, List.flatten_cons, List.length_append, Nat.add_assoc]

theorem writeLocked_length {build : Build} {env : Env} (haccepts : ∀ i, env.accepts i = true)
    {data : Bytes} {c : Conn} {fragments : List Bytes}
    (hf : split build data c.mtu.effective = .ok fragments) :
    (writeLocked build env data c).2 = .ok fragments.flatten.length := by
  rw [writeLocked_of_ok env hf, writeLoop_length haccepts, Nat.zero_add]

theorem sendMessage_steps (env : Env) (data : Bytes) (c : Conn)
    (hnew : ∀ messageIndex,
      new (fragmentPacket 1 0 c.state.orderIndex messageIndex 0 data)) :
    SendSteps new (c.renumber c.state.orderIndex.inc.1 c.state.splitId)
      (sendMessage env data c) := by
  have hstep : SendStep new (c.renumber c.state.orderIndex.inc.1 c.state.splitId) _ :=
    .issue (env.clock 0) (hnew c.state.messageIndex) rfl
  exact emit_trySend hstep (env.accepts 0)

/-- A write that gets as far as its fragments. -/
theorem writeLocked_steps {build : Build} (env : Env) {data : Bytes} {c : Conn}
    {fragments : List Bytes} (hf : split build data c.mtu.effective = .ok fragments)
    (hnew : ∀ j content messageIndex, fragments[j]? = some content →
      new (fragmentPacket fragments.length c.state.splitId.toUInt16 c.state.orderIndex
        messageIndex j content)) :
    SendSteps new
      (c.renumber c.state.orderIndex.inc.1
        (if fragments.length > 1 then c.state.splitId + 1 else c.state.splitId))
      (writeLocked build env data c).1 := by
  have hnew' : ∀ j content messageIndex, fragments[j]? = some content →
      new (fragmentPacket fragments.length c.state.splitId.toUInt16 c.state.orderIndex
        messageIndex (0 + j) content) := by
    intro j content messageIndex hj
    rw [Nat.zero_add]
    exact hnew j content messageIndex hj
  rw [writeLocked_of_ok env hf]
  exact writeLoop_steps env _ _ _ 0 fragments 0 _ hnew'

/-- Every call is a sequence of steps. -/
theorem SendCall.run_steps (build : Build) (call : SendCall) (c : Conn) :
    ∃ orderIndex splitId,
      SendSteps (fun _ ↦ True) (c.renumber orderIndex splitId) (call.run build c) := by
  cases call with
  | writeLocked env data =>
      cases hf : split build data c.mtu.effective with
      | error e =>
          refine ⟨c.state.orderIndex, c.state.splitId, ?_⟩
          rw [run, writeLocked_of_error env hf]
          exact .refl
      | ok fragments => exact ⟨_, _, writeLocked_steps env hf fun _ _ _ _ ↦ trivial⟩
  | sendMessage env data => exact ⟨_, _, sendMessage_steps env data c fun _ ↦ trivial⟩
  | handleAck clock data =>
      exact ⟨c.state.orderIndex, c.state.splitId, handleAck_steps build clock data c⟩
  | handleNack env data =>
      exact ⟨c.state.orderIndex, c.state.splitId, handleNack_steps build env data c⟩
  | checkResend env now iter =>
      exact ⟨c.state.orderIndex, c.state.splitId, checkResend_steps env now iter c⟩

/-! ## The calls and the receive side -/

theorem handleAck_receiving (build : Build) (clock : Clock) (data : Bytes) (c : Conn) :
    (handleAck build clock data c).1.receiving = c.receiving :=
  (@handleAck_steps (fun _ ↦ True) build clock data c).receiving_eq

theorem handleNack_receiving (build : Build) (env : Env) (data : Bytes) (c : Conn) :
    (handleNack build env data c).1.receiving = c.receiving :=
  (@handleNack_steps (fun _ ↦ True) build env data c).receiving_eq

/-- No call of the send side touches the receive side. -/
theorem SendCall.run_receiving (build : Build) (call : SendCall) (c : Conn) :
    (call.run build c).receiving = c.receiving := by
  obtain ⟨orderIndex, splitId, hsteps⟩ := call.run_steps build c
  exact hsteps.receiving_eq

end Ragnet.Conn

import Ragnet.Conn.Connected
import Ragnet.Handler
import Ragnet.Lib.Lts

/-!
# Two connected peers

Two connections that send to each other.  Each writes, sends messages of its own, checks for packets
to send again, and acknowledges what it receives.  Whatever one of them has handed to its sender
task may reach the other at any time, any number of times, or never.

A direction is intact as long as the writes at its one end and the receiving calls at its other end
return: a write fails when the sender task is gone, and a failed receive ends the receive loop of a
dialer and blocks the peer of a listener.  What happens in the other direction does not matter.
-/

namespace Ragnet

open Conn Proc Wire

/-- The two connections, each with the messages that it has started. -/
abbrev Duplex := Side → Sender

namespace Duplex

/-! ## The system -/

inductive Move where
  /-- A call of its own: it writes, sends a message, or checks for packets to send again. -/
  | call (call : SendCall)
  /-- A datagram of the other end arrives. -/
  | receive (handler : ConnectionHandler) (env : Env) (data : Bytes)
  /-- The acknowledgements are flushed. -/
  | flush (env : Env)
  /-- Closing begins, or ends. -/
  | close (closing : Int) (closed : Bool)

/-- What happens at one end, given what the other end has sent. -/
inductive Moves (build : Build) (network : List Bytes) (s : Sender) : Move → Sender → Prop
  | call {call : SendCall} {s' : Sender} :
      call.Own → s.Calls build call s' → Moves build network s (.call call) s'
  | receive {handler : ConnectionHandler} {env : Env} {data : Bytes} :
      data ∈ network →
        Moves build network s (.receive handler env data)
          { s with conn := (Conn.receive build handler env data s.conn).1 }
  | flush {env : Env} :
      Moves build network s (.flush env) { s with conn := flushAcks build env s.conn }
  | close {closing : Int} {closed : Bool} :
      Moves build network s (.close closing closed)
        { s with conn := { s.conn with closing := closing, closed := closed } }

def duplexes (build : Build) : Lts Duplex (Side × Move) where
  init s := ∃ mtu : Side → Nat, s = fun side ↦ ⟨new (mtu side), []⟩
  step s e s' := ∃ sender, Moves build (s e.1.other).conn.sendTx (s e.1) e.2 sender ∧
    s' = Function.update s e.1 sender

/-- A write returns, and it is cut into less than `2 ^ 32` fragments. -/
def Writes (build : Build) (s : Sender) : Move → Prop
  | .call (.writeLocked env data) =>
      (∃ n, (writeLocked build env data s.conn).2 = .ok n) ∧
        ∀ fragments, split build data s.conn.mtu.effective = .ok fragments →
          fragments.length < 2 ^ 32
  | _ => True

/-- A receiving call returns. -/
def Receives (build : Build) (r : Sender) : Move → Prop
  | .receive handler env data => (Conn.receive build handler env data r.conn).2 = .ok ()
  | _ => True

/-- The direction from the side `source` to the other side is intact. -/
def Intact (build : Build) (source : Side) (s : Duplex) (e : Side × Move) : Prop :=
  (e.1 = source → Writes build (s e.1) e.2) ∧ (e.1 = source.other → Receives build (s e.1) e.2)

/-! ## What one end does -/

section Moves

variable {build : Build} {network : List Bytes} {s s' r r' : Sender} {move : Move}

/-- Every move adds to the history and to the messages. -/
theorem Moves.extends (h : Moves build network s move s') : s.Extends s' := by
  cases h with
  | call _ hcalls =>
      obtain ⟨ms, -, rfl⟩ := hcalls
      exact ⟨List.prefix_append _ _, (adds_call _).sends⟩
  | receive _ => exact ⟨List.prefix_refl _, (adds_receive _).sends⟩
  | flush => exact ⟨List.prefix_refl _, adds_flushAcks.sends⟩
  | close => exact ⟨List.prefix_refl _, List.prefix_refl _⟩

/-- An internal message is emitted, whether or not the channel takes it. -/
theorem sendMessage_emits (env : Env) (data : Bytes) (c : Conn) :
    .emit c.state.seq.value
        (fragmentPacket 1 0 c.state.orderIndex c.state.messageIndex 0 data) ∈
      (sendMessage env data c).sends := by
  have hmem (accepted : Bool) (c' : Conn) (d : Bytes) :
      (c'.trySend accepted d).sends = c'.sends := by cases accepted <;> rfl
  rw [sendMessage, hmem]
  exact List.mem_append_right _ (List.mem_singleton.mpr rfl)

/-- A call that returns emits every fragment of what it starts. -/
theorem emitted_of_starts {call : SendCall} {ms : List Message} (h : Starts build s.conn call ms)
    (hok : Writes build s (.call call)) {m : Message} (hm : m ∈ ms) {i : Nat} {content : Bytes}
    (hi : m.fragments[i]? = some content) : ∃ number messageIndex,
      .emit number (m.packet messageIndex i content) ∈ (call.run build s.conn).sends := by
  cases h with
  | writeLocked hf ho hs =>
      obtain rfl := List.mem_singleton.mp hm
      obtain ⟨⟨n, hn⟩, -⟩ := hok
      obtain ⟨number, messageIndex, hemit⟩ := writeLocked_returns hf hn hi
      refine ⟨number, messageIndex, ?_⟩
      rw [Message.packet, hs, ho]
      exact hemit
  | @sendMessage env m' hf ho hs =>
      obtain rfl := List.mem_singleton.mp hm
      refine ⟨s.conn.state.seq.value, s.conn.state.messageIndex, ?_⟩
      rw [hf] at hi
      obtain ⟨rfl, rfl⟩ : i = 0 ∧ m.payload = content := by
        cases i with
        | zero => exact ⟨rfl, Option.some.inj hi⟩
        | succ i => cases hi
      rw [Message.packet, hf, hs, ho]
      exact sendMessage_emits env m.payload s.conn
  | handleAck => cases hm
  | handleNack => cases hm
  | checkResend => cases hm

/-- And its message announces all of its fragments. -/
theorem count_lt_of_starts {call : SendCall} {ms : List Message} (h : Starts build s.conn call ms)
    (hok : Writes build s (.call call)) : ∀ m ∈ ms, m.fragments.length < 2 ^ 32 := by
  intro m hm
  cases h with
  | writeLocked hf _ _ =>
      obtain rfl := List.mem_singleton.mp hm
      exact hok.2 _ hf
  | sendMessage hf _ _ =>
      obtain rfl := List.mem_singleton.mp hm
      rw [hf]
      exact Nat.one_lt_two_pow (by decide)
  | handleAck => cases hm
  | handleNack => cases hm
  | checkResend => cases hm

/-- A move of the sender. -/
theorem Moves.at_sender (hm : Moves build r.conn.sendTx s move s') (h : Connected s r)
    (hf : s'.Fresh) (hok : Writes build s move) : Connected s' r := by
  cases hm with
  | @call call _ hown hcalls =>
      have hcounted := h.counted.calls hcalls
      obtain ⟨ms, hstarts, rfl⟩ := hcalls
      have hadds : Adds s.conn (call.run build s.conn) := adds_call call
      refine h.advance rfl hadds hcounted (h.sound.call call hf.issued_lt)
        (count_lt_of_starts hstarts hok) (fun m hm i content hi ↦ ?_)
        fun n hn ↦ Or.inl (hown.acks build s.conn n hn)
      rcases List.mem_append.mp hm with hm | hm
      · exact h.emitted.mono hadds.sends.subset m hm i content hi
      · exact emitted_of_starts hstarts hok hm hi
  | receive hdata => exact h.sender_receive hdata hf.issued_lt
  | @flush env =>
      obtain ⟨datagrams, hflush, -⟩ := flushAcks_names build env s.conn
      refine h.sender_quiet ?_ adds_flushAcks
      rw [hflush]
      rfl
  | close => exact h.sender_quiet rfl ⟨List.prefix_refl _, fun _ hd ↦ Or.inl hd⟩

/-- A move of the receiver. -/
theorem Moves.at_receiver (hm : Moves build s.conn.sendTx r move r') (h : Connected s r)
    (hf : s.Fresh) (hok : Receives build r move) : Connected s r' := by
  cases hm with
  | @call call _ _ hcalls =>
      obtain ⟨ms, -, rfl⟩ := hcalls
      exact h.receiver_sends (SendCall.run_receiving build call r.conn) (adds_call call)
  | receive hdata => exact h.receiver_receive hf hdata hok
  | @flush env =>
      obtain ⟨datagrams, hflush, -⟩ := flushAcks_names build env r.conn
      refine h.receiver_quiet (flushAcks_delivery build env r.conn) ?_ ?_ adds_flushAcks
      · rw [hflush]
      · rw [hflush]
        exact List.nil_subset _
  | close =>
      exact h.receiver_quiet rfl rfl (List.Subset.refl _) ⟨List.prefix_refl _, fun _ hd ↦ Or.inl hd⟩

end Moves

/-! ## Runs -/

section Runs

variable {build : Build} {source : Side} {s s' : Duplex} {e : Side × Move}

/-- The direction has worked so far, unless a counter of its sender has come round. -/
def Sound (source : Side) (s : Duplex) : Prop :=
  (s source).Fresh → Connected (s source) (s source.other)

/-- Every step of an intact direction keeps it. -/
theorem Sound.step (h : Sound source s) (hok : Intact build source s e)
    (hs : (duplexes build).step s e s') : Sound source s' := by
  obtain ⟨sender, hmoves, rfl⟩ := hs
  obtain ⟨side, move⟩ := e
  intro hf
  rcases side.eq_or_eq_other source with rfl | rfl
  · rw [Function.update_self] at hf ⊢
    rw [Function.update_of_ne side.other_ne]
    exact hmoves.at_sender (h (hf.of_extends hmoves.extends)) hf (hok.1 rfl)
  · rw [Function.update_of_ne source.other_ne.symm] at hf ⊢
    rw [Function.update_self]
    dsimp only at hmoves
    rw [Side.other_other] at hmoves
    exact hmoves.at_receiver (h hf) hf (hok.2 rfl)

theorem sound_of_reachable (h : ((duplexes build).restrict (Intact build source)).Reachable s) :
    Sound source s := by
  refine h.invariant ?_ fun s e s' _ hs hstep ↦ hs.step hstep.1 hstep.2
  rintro _ ⟨mtu, rfl⟩
  exact fun _ ↦ connected_new _ _

/-- No fragment of the message is tracked. -/
def Untracked (s : Sender) (m : Message) : Prop :=
  ∀ n i content messageIndex, s.conn.tracked n ≠ some (m.packet messageIndex i content)

end Runs

end Duplex

end Ragnet

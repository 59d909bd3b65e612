import Ragnet.Conn.Messages
import Ragnet.Lib.Lts
import Ragnet.Lib.Notify
import Ragnet.Message.Connected

/-!
# The order in which messages go out

A connection and the tasks that send on it.  A call of `write` waits for the state lock itself; a
call of `send_message` spawns a task that does so and returns at once.  Whoever gets the lock
numbers its message.  `sender_task` hands the datagrams to the socket, and when `cancel_notify`
wakes it, it drains the channel and stops.

The callers are numbered.  A lock that is free goes to any task that waits for it, and the scheduler
runs the tasks in any order.
-/

namespace Ragnet

open Wire

namespace Conn

/-- The part of the task of `send_message` that holds the state lock.  The datagram is returned. -/
def numberMessage (env : Env) (data : Bytes) (self : Conn) : Conn × Bytes :=
  let orderIndex := self.state.orderIndex.inc
  let messageIndex := self.state.messageIndex.inc
  let pk : Packet :=
    { Packet.new with
      content := data, orderIndex := orderIndex.2, messageIndex := messageIndex.2 }
  emit pk (env.clock 0)
    { self with state.orderIndex := orderIndex.1, state.messageIndex := messageIndex.1 }

/-- When nothing comes between, the task is a single step. -/
theorem trySend_numberMessage (env : Env) (data : Bytes) (c : Conn) :
    (numberMessage env data c).1.trySend (env.accepts 0) (numberMessage env data c).2 =
      sendMessage env data c := rfl

/-- Whatever else a connection does, it numbers no message, and what it sends it adds. -/
structure Quiet (c c' : Conn) : Prop where
  closed : c'.closed = c.closed
  orderIndex : c'.state.orderIndex = c.state.orderIndex
  sendTx : c.sendTx <+: c'.sendTx

theorem Quiet.refl (c : Conn) : c.Quiet c := ⟨rfl, rfl, List.prefix_refl _⟩

/-- The elementary steps of the send side are quiet. -/
theorem SendSteps.quiet {new : Packet → Prop} {c c' : Conn} (h : SendSteps new c c') :
    c.Quiet c' where
  closed := congrArg Receiving.closed h.receiving_eq
  orderIndex := h.counters_eq.1
  sendTx := h.sendTx_prefix

/-- A write counts one message, however many datagrams it sends. -/
theorem writeLocked_quiet (build : Build) (env : Env) {data : Bytes} (hd : data ≠ []) (c : Conn) :
    ∃ splitId, (c.renumber c.state.orderIndex.inc.1 splitId).Quiet
      (writeLocked build env data c).1 := by
  obtain ⟨fragments, hf, -⟩ := split_sendable build c.mtu hd
  exact ⟨_, (@writeLocked_steps (fun _ ↦ True) build env data c fragments hf
    fun _ _ _ _ ↦ trivial).quiet⟩

end Conn

/-! ## The model -/

/-- What issues a message. -/
inductive Origin where
  /-- A call of `write`. -/
  | write
  /-- A call of `send_message`. -/
  | message
  /-- The call in `handle_connection_request_accepted`. -/
  | newIncomingConnection
  /-- The call in `close_immediately`. -/
  | disconnectNotification

structure Issued where
  caller : Nat
  origin : Origin
  data : Bytes
  /-- How many messages there were when `wait_connected` last returned to the caller. -/
  waited : Option Nat

/-- How far a message has come. -/
inductive Progress where
  /-- The call or its task has yet to get the state lock. -/
  | locking
  /-- A call of `write` has numbered it. -/
  | written (orderIndex : Uint24)
  /-- Its task has numbered it and dropped the lock. -/
  | queueing (orderIndex : Uint24) (datagram : Bytes)
  /-- The channel has taken its datagram. -/
  | queued (orderIndex : Uint24) (datagram : Bytes)
  /-- The channel has not. -/
  | dropped (orderIndex : Uint24)

namespace Progress

def orderIndex : Progress → Option Uint24
  | locking => none
  | written orderIndex => some orderIndex
  | queueing orderIndex _ => some orderIndex
  | queued orderIndex _ => some orderIndex
  | dropped orderIndex => some orderIndex

/-- The task of the message still has something to do. -/
def Pending : Progress → Prop
  | locking => True
  | queueing _ _ => True
  | _ => False

theorem eq_locking_iff {p : Progress} : p = locking ↔ p.orderIndex = none := by
  cases p <;> simp [orderIndex]

end Progress

inductive SenderPhase where
  /-- Not in its `select!`. -/
  | busy
  /-- In its `select!`, with a cancel future. -/
  | selecting (cancel : Notified)
  /-- In the loop that drains the channel. -/
  | draining
  /-- It has returned. -/
  | stopped

structure Outgoing where
  conn : Conn
  /-- Whether it was dialed. -/
  dialed : Bool
  connected : Bool
  /-- The callers that have sent NEW_INCOMING_CONNECTION and not yet marked the connection. -/
  marking : List Nat
  /-- How many messages there were when `wait_connected` last returned to a caller. -/
  waited : Nat → Option Nat
  /-- The messages, in the order in which they were issued. -/
  messages : List Issued
  progress : Nat → Progress
  /-- History: how many messages have been numbered. -/
  numbered : Nat
  /-- The call of `close_immediately` that has sent its notification and not yet notified. -/
  closing : Option Nat
  cancelNotify : Notify
  sender : SenderPhase
  /-- How many datagrams the sender task has taken from the channel. -/
  taken : Nat

namespace Outgoing

def channel (self : Outgoing) : List Bytes := self.conn.sendTx.drop self.taken

/-- The datagrams that have gone to the socket. -/
def sent (self : Outgoing) : List Bytes := self.conn.sendTx.take self.taken

/-- The caller is not in the middle of another call. -/
def Free (s : Outgoing) (caller : Nat) : Prop :=
  caller ∉ s.marking ∧ s.closing ≠ some caller ∧
    ∀ i a, s.messages[i]? = some a → a.caller = caller → a.origin = .write →
      s.progress i ≠ .locking

def issue (caller : Nat) (origin : Origin) (data : Bytes) (self : Outgoing) : Outgoing :=
  { self with messages := self.messages ++ [⟨caller, origin, data, self.waited caller⟩] }

/-- A call of `write` numbers its message. -/
def lockWrite (build : Build) (env : Env) (i : Nat) (data : Bytes) (self : Outgoing) : Outgoing :=
  { self with
    conn := (Conn.writeLocked build env data self.conn).1
    progress := Function.update self.progress i (.written self.conn.state.orderIndex)
    numbered := self.numbered + 1 }

/-- A spawned task numbers its message. -/
def lockMessage (env : Env) (i : Nat) (data : Bytes) (self : Outgoing) : Outgoing :=
  let numbered := Conn.numberMessage env data self.conn
  { self with
    conn := numbered.1
    progress :=
      Function.update self.progress i (.queueing self.conn.state.orderIndex numbered.2)
    numbered := self.numbered + 1 }

inductive Event where
  /-- A call of `send_message`. -/
  | message (caller : Nat) (data : Bytes)
  /-- `handle_connection_request_accepted`, up to `mark_connected`. -/
  | accept (caller : Nat) (response : NewIncomingConnection)
  /-- Its call of `mark_connected`. -/
  | mark (caller : Nat)
  /-- The call of `mark_connected` in `handle_new_incoming_connection`. -/
  | connect
  /-- `wait_connected` returns. -/
  | wait (caller : Nat)
  /-- A call of `write`, up to the state lock. -/
  | write (caller : Nat) (data : Bytes)
  /-- A message gets the state lock and is numbered. -/
  | lock (i : Nat) (env : Env)
  /-- The task of a message hands its datagram to the channel. -/
  | queue (i : Nat) (accepted : Bool)
  /-- A call of `close_immediately`, up to the notification. -/
  | close (caller : Nat)
  /-- The rest of it. -/
  | notify
  /-- The sender task comes to its `select!`. -/
  | enter
  /-- It takes a datagram. -/
  | take
  /-- It takes the branch of its cancel future. -/
  | cancel
  /-- It takes a datagram while it drains the channel. -/
  | drain
  /-- It finds the channel empty and returns. -/
  | stop
  /-- Anything else that happens on the connection. -/
  | other

inductive Step (build : Build) : Outgoing → Event → Outgoing → Prop
  | message {s : Outgoing} {caller : Nat} {data : Bytes} :
      s.Free caller → Step build s (.message caller data) (s.issue caller .message data)
  | accept {s : Outgoing} {caller : Nat} {response : NewIncomingConnection} :
      s.dialed = true → s.Free caller →
        Step build s (.accept caller response)
          { s.issue caller .newIncomingConnection response.write with
            marking := caller :: s.marking }
  | mark {s : Outgoing} {caller : Nat} :
      caller ∈ s.marking →
        Step build s (.mark caller)
          { s with connected := true, marking := s.marking.erase caller }
  | connect {s : Outgoing} :
      s.dialed = false → Step build s .connect { s with connected := true }
  | wait {s : Outgoing} {caller : Nat} :
      s.connected = true → s.Free caller →
        Step build s (.wait caller)
          { s with waited := Function.update s.waited caller (some s.messages.length) }
  | write {s : Outgoing} {caller : Nat} {data : Bytes} :
      s.conn.closed = false → data ≠ [] → s.Free caller →
        Step build s (.write caller data) (s.issue caller .write data)
  | lockWrite {s : Outgoing} {i : Nat} {a : Issued} {env : Env} :
      s.messages[i]? = some a → a.origin = .write → s.progress i = .locking →
        (s.sender = .stopped → ∀ k, env.accepts k = false) →
          Step build s (.lock i env) (s.lockWrite build env i a.data)
  | lockMessage {s : Outgoing} {i : Nat} {a : Issued} {env : Env} :
      s.messages[i]? = some a → a.origin ≠ .write → s.progress i = .locking →
        Step build s (.lock i env) (s.lockMessage env i a.data)
  | queue {s : Outgoing} {i : Nat} {orderIndex : Uint24} {datagram : Bytes} :
      s.progress i = .queueing orderIndex datagram → s.sender ≠ .stopped →
        Step build s (.queue i true)
          { s with
            conn := s.conn.trySend true datagram
            progress := Function.update s.progress i (.queued orderIndex datagram) }
  | drop {s : Outgoing} {i : Nat} {orderIndex : Uint24} {datagram : Bytes} :
      s.progress i = .queueing orderIndex datagram →
        Step build s (.queue i false)
          { s with progress := Function.update s.progress i (.dropped orderIndex) }
  | close {s : Outgoing} {caller : Nat} :
      s.conn.closed = false → s.Free caller →
        Step build s (.close caller)
          { s.issue caller .disconnectNotification [Id.disconnectNotification] with
            conn.closed := true, closing := some caller }
  | notify {s : Outgoing} {caller : Nat} :
      s.closing = some caller →
        Step build s .notify
          { s with closing := none, cancelNotify := s.cancelNotify.notifyWaiters }
  | enter {s : Outgoing} :
      s.sender = .busy →
        Step build s .enter { s with sender := .selecting s.cancelNotify.notified }
  | take {s : Outgoing} {future : Notified} :
      s.sender = .selecting future → s.channel ≠ [] →
        Step build s .take { s with sender := .busy, taken := s.taken + 1 }
  | cancel {s : Outgoing} {future : Notified} :
      s.sender = .selecting future → future.Ready s.cancelNotify →
        Step build s .cancel { s with sender := .draining }
  | drain {s : Outgoing} :
      s.sender = .draining → s.channel ≠ [] →
        Step build s .drain { s with taken := s.taken + 1 }
  | stop {s : Outgoing} :
      s.sender = .draining → s.channel = [] →
        Step build s .stop { s with sender := .stopped }
  | other {s : Outgoing} {conn : Conn} :
      s.conn.Quiet conn → (s.sender = .stopped → conn.sendTx = s.conn.sendTx) →
        Step build s .other { s with conn := conn }

def new (dialed : Bool) (mtu : Nat) : Outgoing where
  conn := Conn.new mtu
  dialed := dialed
  connected := false
  marking := []
  waited := fun _ ↦ none
  messages := []
  progress := fun _ ↦ .locking
  numbered := 0
  closing := none
  cancelNotify := .new
  sender := .busy
  taken := 0

/-- All interleavings of the callers, of the tasks they spawn and of the sender task. -/
def outgoings (build : Build) : Lts Outgoing Event where
  init s := ∃ dialed mtu, s = new dialed mtu
  step := Step build

/-! ## The order -/

/-- The first message is to be numbered before the second: the same caller has issued it earlier, or
it is the NEW_INCOMING_CONNECTION that comes before the return of `wait_connected`, and the second
is written after that. -/
inductive Precedes (s : Outgoing) (i j : Nat) : Prop
  | program {a b : Issued} :
      s.messages[i]? = some a → s.messages[j]? = some b → i < j → a.caller = b.caller →
        Precedes s i j
  | newIncomingConnection {a b : Issued} {n : Nat} :
      s.messages[i]? = some a → s.messages[j]? = some b → i < j →
        a.origin = .newIncomingConnection → b.origin = .write → b.waited = some n → i < n →
          Precedes s i j

def IsFrom (s : Outgoing) (origin : Origin) (i : Nat) : Prop :=
  ∃ a, s.messages[i]? = some a ∧ a.origin = origin

abbrev IsDisconnect (s : Outgoing) (i : Nat) : Prop := s.IsFrom .disconnectNotification i

/-- The messages are numbered in order, and the disconnect notification has gone out when the sender
task stops. -/
structure Ordered (s : Outgoing) : Prop where
  /-- No message is numbered before one that precedes it, which has the smaller number. -/
  numbers : ∀ i j, s.Precedes i j → ∀ o, (s.progress j).orderIndex = some o →
    ∃ o', (s.progress i).orderIndex = some o' ∧ o'.value < o.value
  /-- The disconnect notification is not dropped. -/
  kept : ∀ i, s.IsDisconnect i → ∀ o, s.progress i ≠ .dropped o
  /-- The sender task does not stop without it. -/
  drained : s.sender = .stopped → (∃ i, s.IsDisconnect i) ∧
    ∀ i, s.IsDisconnect i → ∃ o d, s.progress i = .queued o d ∧ d ∈ s.sent

/-- A message gets the lock after those that precede it, and the sender task does not stop before
the task of the disconnect notification has come to its end, for which the channel has room. -/
def InTurn (s : Outgoing) : Event → Prop
  | .lock j _ => ∀ i, s.Precedes i j → s.progress i ≠ .locking
  | .queue i accepted => s.IsDisconnect i → accepted = true
  | .stop => ∀ i, s.IsDisconnect i → ¬ (s.progress i).Pending
  | _ => True

/-- The order indices have not come round. -/
def CountFits (s : Outgoing) : Event → Prop
  | .lock _ _ => s.numbered < 2 ^ 24
  | _ => True

/-- What holds in every run, in order or not, while the order indices have not come round. -/
structure Sound (s : Outgoing) : Prop where
  /-- An empty write panics before it is numbered: it is no message. -/
  ne_nil : ∀ (i : Nat) (a : Issued), s.messages[i]? = some a → a.origin = .write → a.data ≠ []
  /-- Messages that have not been issued have not come far. -/
  fresh : ∀ i, s.messages.length ≤ i → s.progress i = .locking
  numbered_le : s.numbered ≤ 2 ^ 24
  orderIndex_eq : s.conn.state.orderIndex = Uint24.new s.numbered
  lt_numbered : ∀ i o, (s.progress i).orderIndex = some o → o.value < s.numbered
  /-- Only writes are numbered by a write. -/
  written : ∀ i o, s.progress i = .written o → ¬ s.IsDisconnect i
  /-- What the channel has taken is in it, or was. -/
  queued : ∀ i o d, s.progress i = .queued o d → d ∈ s.conn.sendTx
  /-- `close_immediately` sets `closed` before it sends its notification. -/
  closed : ∀ i, s.IsDisconnect i → s.conn.closed = true
  /-- And it notifies after it. -/
  notified : s.closing ≠ none ∨ 0 < s.cancelNotify.calls → ∃ i, s.IsDisconnect i
  /-- The sender task drains the channel once it has been notified. -/
  sender : s.sender = .draining ∨ s.sender = .stopped → ∃ i, s.IsDisconnect i

section Steps

variable {build : Build} {s s' : Outgoing} {e : Event} {i j : Nat} {m : Issued}

theorem Precedes.lt (h : s.Precedes i j) : i < j := by
  cases h with
  | program _ _ hlt _ => exact hlt
  | newIncomingConnection _ _ hlt _ _ _ _ => exact hlt

/-- Which messages precede others depends on the messages alone. -/
theorem Precedes.congr (h : s.Precedes i j) (hi : ∀ a, s.messages[i]? = some a →
      s'.messages[i]? = some a) (hj : ∀ a, s.messages[j]? = some a → s'.messages[j]? = some a) :
    s'.Precedes i j := by
  cases h with
  | program ha hb hlt hcaller => exact .program (hi _ ha) (hj _ hb) hlt hcaller
  | newIncomingConnection ha hb hlt horigin hwrite hwaited hn =>
      exact .newIncomingConnection (hi _ ha) (hj _ hb) hlt horigin hwrite hwaited hn

theorem IsFrom.congr {origin : Origin} (h : s.IsFrom origin i)
    (hi : ∀ a, s.messages[i]? = some a → s'.messages[i]? = some a) : s'.IsFrom origin i := by
  obtain ⟨a, ha, horigin⟩ := h
  exact ⟨a, hi a ha, horigin⟩

theorem precedes_iff (hm : s'.messages = s.messages) : s'.Precedes i j ↔ s.Precedes i j := by
  have hmem {k : Nat} (a : Issued) : s'.messages[k]? = some a ↔ s.messages[k]? = some a := by
    rw [hm]
  exact ⟨fun h ↦ h.congr (fun a ↦ (hmem a).mp) fun a ↦ (hmem a).mp,
    fun h ↦ h.congr (fun a ↦ (hmem a).mpr) fun a ↦ (hmem a).mpr⟩

theorem isFrom_iff {origin : Origin} (hm : s'.messages = s.messages) :
    s'.IsFrom origin i ↔ s.IsFrom origin i := by
  rw [IsFrom, IsFrom, hm]

/-- The messages that were there before one was issued. -/
theorem getElem?_issued (hm : s'.messages = s.messages ++ [m]) {a : Issued}
    (h : s'.messages[i]? = some a) : s.messages[i]? = some a ∨ i = s.messages.length ∧ a = m := by
  rw [hm] at h
  rcases Nat.lt_trichotomy i s.messages.length with hlt | rfl | hgt
  · rw [List.getElem?_append_left hlt] at h
    exact Or.inl h
  · rw [List.getElem?_append_right le_rfl, Nat.sub_self] at h
    exact Or.inr ⟨rfl, (Option.some.inj h).symm⟩
  · rw [List.getElem?_eq_none (by simpa using Nat.succ_le_of_lt hgt)] at h
    cases h

theorem getElem?_of_issued (hm : s'.messages = s.messages ++ [m]) {a : Issued}
    (h : s.messages[i]? = some a) : s'.messages[i]? = some a := by
  rw [hm, List.getElem?_append_left (List.getElem?_eq_some_iff.mp h).1]
  exact h

theorem isFrom_issued_iff {origin : Origin} (hm : s'.messages = s.messages ++ [m]) :
    s'.IsFrom origin i ↔ s.IsFrom origin i ∨ i = s.messages.length ∧ m.origin = origin := by
  constructor
  · rintro ⟨a, ha, horigin⟩
    rcases getElem?_issued hm ha with ha | ⟨rfl, rfl⟩
    · exact Or.inl ⟨a, ha, horigin⟩
    · exact Or.inr ⟨rfl, horigin⟩
  · rintro (hi | ⟨rfl, horigin⟩)
    · exact hi.congr fun _ ↦ getElem?_of_issued hm
    · exact ⟨m, by rw [hm, List.getElem?_concat_length], horigin⟩

/-- What has been sent stays sent. -/
theorem sent_subset (htx : s.conn.sendTx <+: s'.conn.sendTx) (htaken : s.taken ≤ s'.taken) :
    s.sent ⊆ s'.sent := by
  intro d hd
  exact List.take_subset_take_left _ htaken ((htx.take s.taken).subset hd)

end Steps

end Outgoing

end Ragnet

import Ragnet.Lib.Lts
import Ragnet.Listener
import Ragnet.Message.Reads

/-!
# A listener in service

The listener with its loop, its other tasks and the application that reads from its connections.

The channel from a connection to the application is bounded.  The loop handles a datagram in one
step, up to the first content that it sends.  It takes up the other contents of the datagram one by
one, each when the one before it is in the channel, and receives the next datagram after the last
one.  While a channel is full, `packet_tx.send` waits, and the loop is parked in it; the other tasks
and the application go on at any time.
-/

namespace Ragnet

open Wire

/-- The capacity of the channel that `Conn::new` makes. -/
def packetCapacity : Nat := 4096

/-- The contents that a connection has sent to the application. -/
def Listener.sentTo (self : Listener) (i : Nat) : List Bytes :=
  match self.peers[i]? with
  | none => []
  | some peer => peer.conn.packetTx

/-- How many contents of a connection have been released between two states of a listener. -/
def Listener.released (before after : Listener) (i : Nat) : Nat :=
  (after.sentTo i).length - (before.sentTo i).length

structure Service where
  listener : Listener
  /-- Whether the listen loop still runs; a panic ends it. -/
  running : Bool
  /-- The connection in whose `packet_tx.send` the loop is. -/
  sending : Option Nat
  /-- How many contents of each connection the loop has still to take up. -/
  line : Nat → Nat
  /-- How many contents are in the channel of each connection. -/
  channel : Nat → Nat

namespace Service

/-- The loop is parked in `packet_tx.send` of a connection. -/
def ParkedIn (s : Service) (i : Nat) : Prop := s.sending = some i ∧ packetCapacity ≤ s.channel i

/-- The loop waits for the next datagram. -/
structure Receiving (s : Service) : Prop where
  running : s.running = true
  sending : s.sending = none
  line : ∀ i, s.line i = 0

/-- A connection has been closed by its application. -/
def Closing (s : Service) (i : Nat) : Prop :=
  ∃ peer, s.listener.peers[i]? = some peer ∧ peer.conn.closing ≠ 0

inductive Event where
  /-- The loop receives a datagram. -/
  | datagram (env : ListenEnv) (data : Bytes) (addr : SocketAddr)
  /-- A content gets into the channel of a connection. -/
  | send (i : Nat)
  /-- The loop takes up the next content of a connection. -/
  | take (i : Nat)
  /-- The loop finds the connection closing and does not send the content. -/
  | skip (i : Nat)
  /-- The application takes a content of a connection. -/
  | read (i : Nat)
  /-- Another task runs. -/
  | task (task : Listener.Task)

section System

variable (build : Build) (hash : Bytes → UInt32)

/-- The service after a round of the loop, which sends the first content that the datagram releases
and has the others in line. -/
def received (env : ListenEnv) (data : Bytes) (addr : SocketAddr) (s : Service) : Service :=
  let round := s.listener.listenRound build hash env data addr
  let released := s.listener.released round.1
  { s with
    listener := round.1
    running := decide (round.2 ≠ panicked)
    sending := (List.range round.1.peers.length).find? fun i ↦ 0 < released i
    line := fun i ↦ released i - 1 }

/-- The steps of a service.  The buffer of the loop has 1500 bytes. -/
inductive Step : Service → Event → Service → Prop
  | datagram {s : Service} {env : ListenEnv} {data : Bytes} {addr : SocketAddr} :
      s.Receiving → data.length ≤ 1500 →
        Step s (.datagram env data addr) (s.received build hash env data addr)
  | send {s : Service} {i : Nat} :
      s.sending = some i → s.channel i < packetCapacity →
        Step s (.send i)
          { s with
            sending := none
            channel := Function.update s.channel i (s.channel i + 1) }
  | take {s : Service} {i : Nat} :
      s.sending = none → 0 < s.line i → ¬ s.Closing i →
        Step s (.take i)
          { s with
            sending := some i
            line := Function.update s.line i (s.line i - 1) }
  | skip {s : Service} {i : Nat} :
      s.sending = none → 0 < s.line i → s.Closing i →
        Step s (.skip i) { s with line := Function.update s.line i (s.line i - 1) }
  | read {s : Service} {i : Nat} :
      0 < s.channel i →
        Step s (.read i) { s with channel := Function.update s.channel i (s.channel i - 1) }
  | task {s : Service} {task : Listener.Task} :
      Step s (.task task) { s with listener := task.run build s.listener }

def services : Lts Service Event where
  init s := ∃ config id cookieSalt,
    s = ⟨Listener.new config id cookieSalt, true, none, fun _ ↦ 0, fun _ ↦ 0⟩
  step := Step build hash

end System

/-! ## One client -/

def clientAddr : SocketAddr := .v4 ⟨[10, 0, 0, 1], rfl⟩ 19132

/-- The request with which the client opens a connection. -/
def openRequest : Bytes := (OpenConnectionRequest2.new clientAddr 1492 0).write

/-- A new listener that asks for no cookies. -/
def start : Service := ⟨Listener.new ⟨true, seconds 10⟩ 1 0, true, none, fun _ ↦ 0, fun _ ↦ 0⟩

theorem receiving_start : start.Receiving := ⟨rfl, rfl, fun _ ↦ rfl⟩

/-- After a datagram from the client. -/
def given (data : Bytes) (s : Service) : Service :=
  s.received .release (fun _ ↦ 0) .calm data clientAddr

/-- A datagram that leaves the connections without a content released is handled without a wait. -/
theorem receiving_of_quiet {data : Bytes} {s : Service} (hrunning : (s.given data).running = true)
    (hquiet : ∀ peer ∈ (s.given data).listener.peers, peer.conn.packetTx = []) :
    (s.given data).Receiving := by
  have hnone (i : Nat) : s.listener.released (s.given data).listener i = 0 := by
    have hnil : (s.given data).listener.sentTo i = [] := by
      rw [Listener.sentTo]
      split
      · rfl
      · next peer hp => exact hquiet peer (List.mem_of_getElem? hp)
    rw [Listener.released, hnil, List.length_nil, Nat.zero_sub]
  refine ⟨hrunning, List.find?_eq_none.mpr fun i _ ↦ ?_, fun i ↦ ?_⟩
  · change ¬ decide (0 < s.listener.released (s.given data).listener i) = true
    rw [hnone i]
    exact Bool.false_ne_true
  · change s.listener.released (s.given data).listener i - 1 = 0
    rw [hnone i]

end Service

end Ragnet

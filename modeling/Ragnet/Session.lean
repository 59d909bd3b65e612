import Ragnet.Duplex

/-!
# Sessions

A dialer and a listener with everything that drives their connection: the application, the handlers,
the tasks that `send_message` spawns, and the ticker.  The dialer begins by sending its connection
request.

What each end does is a sequence of the moves of `Ragnet.Duplex`.  The rounds of the ticker come
apart into the pieces that lock the state, and these come in any order here.

A run is orderly when no write and no receiving call fails, the clocks do not go back, and the
application does not write messages of the protocol.
-/

namespace Ragnet

open Conn Proc Wire

/-! ## One end -/

/-- What the ticker finds when it looks whether a connection may be closed. -/
structure Inspection where
  /-- `acks_left`. -/
  acksLeft : Nat
  /-- History: how many messages had been started. -/
  started : Nat

structure Endpoint where
  sender : Sender
  remoteAddr : SocketAddr
  /-- `connected`. -/
  connected : Bool
  /-- The contents of the tasks of `send_message` that have not run yet. -/
  spawned : List Bytes
  /-- The ticker is between `acks_left` and its decision. -/
  inspection : Option Inspection
  /-- History: the last time that was read. -/
  now : Int64
  /-- History: what the application has written. -/
  written : List Bytes
  /-- History: what had been started when the ticker found that nothing was left. -/
  released : Option Nat

namespace Endpoint

def new (mtu : Nat) (remoteAddr : SocketAddr) (now : Int64) : Endpoint where
  sender := ⟨Conn.new mtu, []⟩
  remoteAddr := remoteAddr
  connected := false
  spawned := []
  inspection := none
  now := now
  written := []
  released := none

abbrev conn (self : Endpoint) : Conn := self.sender.conn

/-- `Conn::send_message`. -/
def sendMessage (data : Bytes) (self : Endpoint) : Endpoint :=
  { self with spawned := self.spawned ++ [data] }

/-- `Conn::close`. -/
def close (now : Int) (self : Endpoint) : Endpoint :=
  { self with sender.conn.closing := if self.conn.closing = 0 then now else self.conn.closing }

/-- `Conn::close_immediately`. -/
def closeImmediately (self : Endpoint) : Endpoint :=
  if self.conn.closed then self
  else sendMessage [Id.disconnectNotification] { self with sender.conn.closed := true }

/-- What a handler does. -/
def perform (self : Endpoint) : Effect → Endpoint
  | .sendMessage data => self.sendMessage data
  | .markConnected => { self with connected := true }
  | .closeImmediately => self.closeImmediately

/-- What the handler does with contents, one after the other. -/
def effects (build : Build) (side : Side) (remoteAddr : SocketAddr)
    (timestamp : List Bytes → Int64) : List Bytes → List Bytes → List Effect
  | _, [] => []
  | handled, content :: contents =>
      (match side.react build remoteAddr (timestamp handled) content with
        | .ok r => r.2
        | .error _ => []) ++
      effects build side remoteAddr timestamp (handled ++ [content]) contents

/-- `Conn::receive`. -/
def receive (build : Build) (side : Side) (env : Env) (timestamp : List Bytes → Int64)
    (data : Bytes) (self : Endpoint) : Endpoint × Result Unit :=
  let received := Conn.receive build (side.handler build self.remoteAddr timestamp) env data
    self.conn
  ((effects build side self.remoteAddr timestamp self.conn.handled
      (Listener.messages self.conn received.1)).foldl perform
      { self with sender.conn := received.1 }, received.2)

/-- `start_ticking` looks how much is left, if the connection is closing. -/
def inspect (self : Endpoint) : Endpoint :=
  if self.conn.closing = 0 then self
  else
    let acksLeft := self.conn.state.retransmission.unacknowledged.len
    { self with inspection := some ⟨acksLeft, self.sender.messages.length⟩ }

/-- `start_ticking` decides whether to close.  The seconds since closing began are cast to a
`u64`. -/
def decide (now : Int) (self : Endpoint) : Endpoint :=
  match self.inspection with
  | none => self
  | some inspection =>
      let since := (now - self.conn.closing) % 2 ^ 64
      let self := { self with inspection := none }
      if inspection.acksLeft = 0 ∧ since > 1 then
        { self.closeImmediately with released := some inspection.started }
      else if since > 5 then self.closeImmediately
      else self

inductive Move where
  /-- The application writes. -/
  | write (env : Env) (data : Bytes)
  /-- A task of `send_message` runs. -/
  | task (env : Env) (i : Nat)
  /-- A datagram of the other end is received.  The last time that the call reads is `last`. -/
  | receive (env : Env) (timestamp : List Bytes → Int64) (last : Int64) (data : Bytes)
  /-- The ticker flushes the acknowledgements. -/
  | flush (env : Env)
  /-- The ticker checks for packets to send again. -/
  | checkResend (env : Env) (now : Instant) (iter : List Uint24)
  /-- The ticker sends a ping. -/
  | ping (now : Int64)
  /-- The ticker looks whether the connection may be closed. -/
  | inspect
  /-- The ticker decides. -/
  | decide (now : Int)
  /-- Closing begins. -/
  | close (now : Int)
  /-- Someone closes the connection at once. -/
  | closeImmediately

/-- What happens at one end, given what the other end has sent. -/
inductive Moves (build : Build) (side : Side) (network : List Bytes) (p : Endpoint) :
    Move → Endpoint → Prop
  | write {env : Env} {data : Bytes} {sender : Sender} :
      p.conn.closed = false → p.sender.Calls build (.writeLocked env data) sender →
        Moves build side network p (.write env data)
          { p with sender := sender, written := p.written ++ [data] }
  | task {env : Env} {i : Nat} {data : Bytes} {sender : Sender} :
      p.spawned[i]? = some data → p.sender.Calls build (.sendMessage env data) sender →
        Moves build side network p (.task env i)
          { p with sender := sender, spawned := p.spawned.eraseIdx i }
  | receive {env : Env} {timestamp : List Bytes → Int64} {last : Int64} {data : Bytes} :
      data ∈ network →
        Moves build side network p (.receive env timestamp last data)
          { (p.receive build side env timestamp data).1 with now := last }
  | flush {env : Env} :
      Moves build side network p (.flush env)
        { p with sender.conn := flushAcks build env p.conn }
  | checkResend {env : Env} {now : Instant} {iter : List Uint24} :
      Moves build side network p (.checkResend env now iter)
        { p with sender.conn := Conn.checkResend env now iter p.conn }
  | ping {now : Int64} :
      Moves build side network p (.ping now)
        { p.sendMessage (ConnectedPing.write ⟨now⟩) with now := now }
  | inspect : Moves build side network p .inspect p.inspect
  | decide {now : Int} : Moves build side network p (.decide now) (p.decide now)
  | close {now : Int} : Moves build side network p (.close now) (p.close now)
  | closeImmediately : Moves build side network p .closeImmediately p.closeImmediately

/-- No write and no receiving call fails, the clock does not go back, and the application does not
write messages of the protocol. -/
def Orderly (build : Build) (side : Side) (p : Endpoint) : Move → Prop
  | .write env data => External data ∧ Duplex.Writes build p.sender (.call (.writeLocked env data))
  | .receive env timestamp last data => (p.receive build side env timestamp data).2 = .ok () ∧
      ∀ handled, p.now ≤ timestamp handled ∧ timestamp handled ≤ last
  | .ping now => p.now ≤ now
  | _ => True

end Endpoint

/-! ## Both ends -/

abbrev Session := Side → Endpoint

namespace Session

open Endpoint

/-- Sessions that begin with the connection request of the dialer. -/
def sessions (build : Build) (request : ConnectionRequest) : Lts Session (Side × Move) where
  init s := ∃ (mtu : Side → Nat) (addr : Side → SocketAddr) (now : Int64),
    s .dialer = (Endpoint.new (mtu .dialer) (addr .listener) request.requestTime).sendMessage
        request.write ∧
      s .listener = Endpoint.new (mtu .listener) (addr .dialer) now
  step s e s' := ∃ p, Moves build e.1 (s e.1.other).conn.sendTx (s e.1) e.2 p ∧
    s' = Function.update s e.1 p

def Orderly (build : Build) (s : Session) (e : Side × Move) : Prop :=
  Endpoint.Orderly build e.1 (s e.1) e.2

def duplex (s : Session) : Duplex := fun side ↦ (s side).sender

end Session

/-! ## The connections of a session -/

namespace Endpoint

variable {build : Build} {side : Side} {network : List Bytes} {p p' : Endpoint} {move : Move}

/-- What a handler does to the connection is to close it. -/
theorem closeImmediately_sender (p : Endpoint) :
    ∃ closed, p.closeImmediately.sender = { p.sender with conn.closed := closed } := by
  rw [closeImmediately]
  split
  · exact ⟨p.conn.closed, rfl⟩
  · exact ⟨true, rfl⟩

theorem foldl_perform_sender (effects : List Effect) (p : Endpoint) :
    ∃ closed, (effects.foldl perform p).sender = { p.sender with conn.closed := closed } := by
  induction effects generalizing p with
  | nil => exact ⟨p.conn.closed, rfl⟩
  | cons effect effects ih =>
      obtain ⟨closed, hclosed⟩ := ih (p.perform effect)
      refine ⟨closed, hclosed.trans ?_⟩
      cases effect with
      | sendMessage data => rfl
      | markConnected => rfl
      | closeImmediately =>
          obtain ⟨closed', hclosed'⟩ := p.closeImmediately_sender
          rw [perform, hclosed']

theorem receive_sender (p : Endpoint) (env : Env) (timestamp : List Bytes → Int64) (data : Bytes) :
    ∃ closed, (p.receive build side env timestamp data).1.sender =
      { p.sender with
        conn := { (Conn.receive build (side.handler build p.remoteAddr timestamp) env data
          p.conn).1 with closed := closed } } :=
  foldl_perform_sender _ _

/-- What comes of a move, seen from the connection: it is closed, or left as it is. -/
theorem inspect_sender (p : Endpoint) : p.inspect.sender = p.sender := by
  rw [inspect]
  split <;> rfl

theorem decide_sender (p : Endpoint) (now : Int) :
    ∃ closed, (p.decide now).sender = { p.sender with conn.closed := closed } := by
  rw [decide]
  split
  · exact ⟨p.conn.closed, rfl⟩
  · dsimp only
    split
    · exact closeImmediately_sender _
    split
    · exact closeImmediately_sender _
    · exact ⟨p.conn.closed, rfl⟩

/-- Moves of a connection that do not fail. -/
abbrev Steps (build : Build) (network : List Bytes) : Sender → Sender → Prop :=
  Relation.ReflTransGen fun a b ↦ ∃ move, Duplex.Moves build network a move b ∧
    Duplex.Writes build a move ∧ Duplex.Receives build a move

theorem Steps.close (s : Sender) (closing : Int) (closed : Bool) :
    Steps build network s { s with conn := { s.conn with closing := closing, closed := closed } } :=
  .single ⟨_, .close, trivial, trivial⟩

theorem Steps.extends {s s' : Sender} (h : Steps build network s s') : s.Extends s' := by
  induction h with
  | refl => exact ⟨List.prefix_refl _, List.prefix_refl _⟩
  | tail _ hstep ih =>
      obtain ⟨_, hmoves, -⟩ := hstep
      exact ⟨ih.messages.trans hmoves.extends.messages, ih.sends.trans hmoves.extends.sends⟩

/-- Every move of an end is a sequence of moves of its connection. -/
theorem Moves.steps (h : Moves build side network p move p') (hok : Orderly build side p move) :
    Steps build network p.sender p'.sender := by
  have hclosed {s s' : Sender} (hs : ∃ closed, s' = { s with conn.closed := closed }) :
      Steps build network s s' := by
    obtain ⟨closed, rfl⟩ := hs
    exact .close s s.conn.closing closed
  cases h with
  | @write env data _ _ hcalls =>
      have hown : (SendCall.writeLocked env data).Own := trivial
      exact .single ⟨_, .call hown hcalls, hok.2, trivial⟩
  | @task env _ data _ _ hcalls =>
      have hown : (SendCall.sendMessage env data).Own := trivial
      exact .single ⟨_, .call hown hcalls, trivial, trivial⟩
  | receive hdata =>
      exact .head ⟨_, .receive hdata, trivial, hok.1⟩ (hclosed (foldl_perform_sender _ _))
  | flush => exact .single ⟨_, .flush, trivial, trivial⟩
  | @checkResend env now iter =>
      have hown : (SendCall.checkResend env now iter).Own := trivial
      refine .single ⟨_, .call hown ⟨[], .checkResend, ?_⟩, trivial, trivial⟩
      rw [List.append_nil]
      rfl
  | ping => exact .refl
  | inspect =>
      rw [inspect_sender]
  | decide => exact hclosed (decide_sender p _)
  | close => exact .close p.sender _ p.conn.closed
  | closeImmediately => exact hclosed p.closeImmediately_sender

end Endpoint

namespace Session

variable {build : Build} {request : ConnectionRequest} {source side : Side} {s s' : Session}

/-- An end may make an orderly move. -/
theorem reachable_move (side : Side) (move : Endpoint.Move) {p : Endpoint}
    (h : ((sessions build request).restrict (Orderly build)).Reachable s)
    (hok : Endpoint.Orderly build side (s side) move)
    (hm : Endpoint.Moves build side (s side.other).conn.sendTx (s side) move p) :
    ((sessions build request).restrict (Orderly build)).Reachable (Function.update s side p) :=
  .step (a := (side, move)) h ⟨hok, p, hm, rfl⟩

/-- A task of `send_message` may run. -/
theorem reachable_task (h : ((sessions build request).restrict (Orderly build)).Reachable s)
    (side : Side) (env : Env) {i : Nat} {m : Message}
    (hi : (s side).spawned[i]? = some m.payload)
    (hm : Starts build (s side).conn (.sendMessage env m.payload) [m]) :
    ((sessions build request).restrict (Orderly build)).Reachable (Function.update s side
      { s side with
        sender := ⟨Conn.sendMessage env m.payload (s side).conn, (s side).sender.messages ++ [m]⟩
        spawned := (s side).spawned.eraseIdx i }) :=
  reachable_move side (.task env i) h trivial (.task hi ⟨[m], hm, rfl⟩)

/-- The application may write. -/
theorem reachable_write (h : ((sessions build request).restrict (Orderly build)).Reachable s)
    (side : Side) (env : Env) {m : Message} (hclosed : (s side).conn.closed = false)
    (hexternal : External m.payload)
    (hok : Duplex.Writes build (s side).sender (.call (.writeLocked env m.payload)))
    (hm : Starts build (s side).conn (.writeLocked env m.payload) [m]) :
    ((sessions build request).restrict (Orderly build)).Reachable (Function.update s side
      { s side with
        sender := ⟨(writeLocked build env m.payload (s side).conn).1,
          (s side).sender.messages ++ [m]⟩
        written := (s side).written ++ [m.payload] }) :=
  reachable_move side (.write env m.payload) h ⟨hexternal, hok⟩ (.write hclosed ⟨[m], hm, rfl⟩)

/-- The acknowledgements may be flushed. -/
theorem reachable_flush (h : ((sessions build request).restrict (Orderly build)).Reachable s)
    (side : Side) (env : Env) {c : Conn} (hflush : flushAcks build env (s side).conn = c) :
    ((sessions build request).restrict (Orderly build)).Reachable (Function.update s side
      { s side with sender.conn := c }) :=
  hflush ▸ reachable_move side (.flush env) h trivial .flush

/-- What the other end has sent may arrive. -/
theorem reachable_receive (h : ((sessions build request).restrict (Orderly build)).Reachable s)
    (side : Side) (env : Env) {data : Bytes} (hd : data ∈ (s side.other).conn.sendTx)
    (hok : ((s side).receive build side env (fun _ ↦ (s side).now) data).2 = .ok ()) :
    ((sessions build request).restrict (Orderly build)).Reachable (Function.update s side
      { ((s side).receive build side env (fun _ ↦ (s side).now) data).1 with
        now := (s side).now }) :=
  reachable_move side (.receive env (fun _ ↦ (s side).now) (s side).now data) h
    ⟨hok, fun _ ↦ ⟨Int64.le_refl _, Int64.le_refl _⟩⟩ (.receive hd)

/-- Moves of one end that do not fail leave both directions intact. -/
theorem reachable_steps {d : Duplex} {sender sender' : Sender}
    (h : Endpoint.Steps build (d side.other).conn.sendTx sender sender')
    (hd : ((Duplex.duplexes build).restrict (Duplex.Intact build source)).Reachable
      (Function.update d side sender)) :
    ((Duplex.duplexes build).restrict (Duplex.Intact build source)).Reachable
      (Function.update d side sender') := by
  induction h with
  | refl => exact hd
  | @tail b c _ hstep ih =>
      obtain ⟨move, hmoves, hwrites, hreceives⟩ := hstep
      have hself : Function.update d side b side = b := Function.update_self side b d
      have hother : Function.update d side b side.other = d side.other :=
        Function.update_of_ne side.other_ne b d
      refine .step (a := (side, move)) ih ⟨⟨fun _ ↦ ?_, fun _ ↦ ?_⟩, c, ?_, ?_⟩
      · dsimp only
        rwa [hself]
      · dsimp only
        rwa [hself]
      · dsimp only
        rwa [hself, hother]
      · exact (Function.update_idem b c d).symm

/-- **Orderly sessions are runs of two connected peers**, with both directions intact. -/
theorem duplex_reachable (h : ((sessions build request).restrict (Orderly build)).Reachable s)
    (source : Side) :
    ((Duplex.duplexes build).restrict (Duplex.Intact build source)).Reachable s.duplex := by
  refine h.invariant (I := fun s ↦
    ((Duplex.duplexes build).restrict (Duplex.Intact build source)).Reachable s.duplex) ?_ ?_
  · rintro s ⟨mtu, addr, now, hdialer, hlistener⟩
    refine .init ⟨mtu, funext fun side ↦ ?_⟩
    cases side with
    | dialer => rw [duplex, hdialer]; rfl
    | listener => rw [duplex, hlistener]; rfl
  · rintro s ⟨side, move⟩ s' - hs ⟨hok, p, hmoves, rfl⟩
    have hupdate : duplex (Function.update s side p) =
        Function.update s.duplex side p.sender := by
      funext other
      rw [duplex]
      by_cases hother : other = side
      · subst hother
        rw [Function.update_self, Function.update_self]
      · rw [Function.update_of_ne hother, Function.update_of_ne hother]
        rfl
    rw [hupdate]
    refine reachable_steps (hmoves.steps hok) ?_
    change ((Duplex.duplexes build).restrict _).Reachable
      (Function.update s.duplex side (s.duplex side))
    rwa [Function.update_eq_self]

/-- So each end has received what the other has sent. -/
theorem connected_of_reachable
    (h : ((sessions build request).restrict (Orderly build)).Reachable s)
    (hf : (s side).sender.Fresh) : Connected (s side).sender (s side.other).sender :=
  Duplex.sound_of_reachable (duplex_reachable h side) hf

end Session

end Ragnet

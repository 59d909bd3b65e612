import Ragnet.Conn.Panics
import Ragnet.Handler

/-!
# No datagram stops a release build

The loop of a listener ends when a round panics, and so does the receive task of a dialer.  In a
release build neither ever does.
-/

namespace Ragnet

open Checked Conn Wire

/-! ## The handlers -/

section Handlers

variable {build : Build} {remoteAddr : SocketAddr} {now : Int64}

theorem handleConnectedPing_noPanic (data : Bytes) : NoPanic (handleConnectedPing now data) :=
  .bind (ConnectedPing.read_safe data) fun _ _ ↦ .ok _

theorem handleConnectedPong_noPanic (data : Bytes) : NoPanic (handleConnectedPong now data) :=
  .bind (ConnectedPong.read_safe data) fun _ _ ↦ .ite (fun _ ↦ .error _) fun _ ↦ .ok _

/-- No handler panics. -/
theorem Side.react_noPanic (side : Side) (content : Bytes) :
    NoPanic (side.react build remoteAddr now content) := by
  have hbind {r : Result (List Effect)} (hr : NoPanic r) :
      NoPanic (r >>= fun es ↦ (.ok (true, es) : Result (Bool × List Effect))) :=
    .bind hr fun _ _ ↦ .ok _
  cases content with
  | nil => cases side <;> exact .ok _
  | cons id data =>
      cases side with
      | dialer =>
          refine .ite (fun _ ↦ .error _) fun _ ↦ .ite (fun _ ↦ hbind ?_) fun _ ↦
            .ite (fun _ ↦ .error _) fun _ ↦ .ite (fun _ ↦ hbind (handleConnectedPing_noPanic data))
              fun _ ↦ .ite (fun _ ↦ hbind (handleConnectedPong_noPanic data)) fun _ ↦
                .ite (fun _ ↦ .ok _) fun _ ↦ .ite (fun _ ↦ .ok _) fun _ ↦ .ok _
          exact .bind (ConnectionRequestAccepted.read_safe build data) fun _ _ ↦ .ok _
      | listener =>
          refine .ite (fun _ ↦ hbind ?_) fun _ ↦ .ite (fun _ ↦ .error _) fun _ ↦
            .ite (fun _ ↦ .ok _) fun _ ↦ .ite (fun _ ↦ hbind (handleConnectedPing_noPanic data))
              fun _ ↦ .ite (fun _ ↦ hbind (handleConnectedPong_noPanic data)) fun _ ↦
                .ite (fun _ ↦ .ok _) fun _ ↦ .ite (fun _ ↦ .ok _) fun _ ↦ .ok _
          exact .bind (ConnectionRequest.read_safe data) fun _ _ ↦ .ok _

theorem Side.handler_noPanic (side : Side) (timestamp : List Bytes → Int64)
    (handled : List Bytes) (content : Bytes) :
    NoPanic ((side.handler build remoteAddr timestamp).handle handled content) :=
  .map _ (side.react_noPanic content)

theorem ListenerConnectionHandler.handler_noPanic (timestamp : List Bytes → Int64)
    (handled : List Bytes) (content : Bytes) :
    NoPanic ((ListenerConnectionHandler.handler timestamp).handle handled content) := by
  rw [← @Side.handler_listener .release SocketAddr.unspecified timestamp]
  exact Side.handler_noPanic .listener timestamp handled content

end Handlers

namespace Listener

variable (hash : Bytes → UInt32) (env : ListenEnv) (data : Bytes)

/-- The loop answers without a panic. -/
theorem handleUnconnected_avoids (data : Bytes) (addr : SocketAddr) :
    Proc.Avoids .panic (handleUnconnected hash env data addr) := by
  cases data with
  | nil => exact .pure ()
  | cons id rest =>
      have hfail {e : Error} : (Fault.error e : Fault Error) ≠ .panic := fun h ↦ by cases h
      have hsend (data : Bytes) : Proc.Avoids .panic (sendTo env data addr) := by
        rw [sendTo]
        split
        · exact .fail hfail
        · exact .modify _
      refine .ite ?_ (.ite ?_ (.ite ?_ (.ite (.pure ()) (.fail hfail))))
      · exact .bind (.ofExcept (UnconnectedPing.read_safe rest)) fun _ ↦ .bind .get fun _ ↦ hsend _
      · exact .bind (.ofExcept (OpenConnectionRequest1.read_safe rest)) fun _ ↦ .bind .get fun _ ↦
          .ite (.bind (hsend _) fun _ ↦ .fail hfail) (hsend _)
      · exact .bind .get fun _ ↦ .bind (.ofExcept (OpenConnectionRequest2.read_safe _ rest))
          fun _ ↦ .ite (.fail hfail) (.bind (hsend _) fun _ ↦ .modify _)

theorem receive_avoids_panic (i : Nat) : Proc.Avoids .panic (receive .release env i data) := by
  refine .bind .get fun self ↦ ?_
  cases self.peers[i]? with
  | none => exact .pure ()
  | some peer =>
      refine .bind (.modify _) fun _ ↦ .bind (.modify _) fun _ ↦ .ofExcept ?_
      exact Conn.receive_avoids_panic (ListenerConnectionHandler.handler_noPanic env.timestamp)
        env.conn data peer.conn

theorem handle_avoids_panic (addr : SocketAddr) :
    Proc.Avoids .panic (handle .release hash env data addr) := by
  refine .bind .get fun self ↦ ?_
  cases self.connections.lookup addr with
  | none => exact handleUnconnected_avoids hash env data addr
  | some i => exact receive_avoids_panic env data i

/-- No round panics. -/
theorem listenRound_release (addr : SocketAddr) (self : Listener) :
    (self.listenRound .release hash env data addr).2 = .ok () := by
  have hround := handle_avoids_panic hash env data addr self
  rw [listenRound]
  split
  · rfl
  rcases hhandle : handle .release hash env data addr self with ⟨self', fault | _⟩
  · cases fault with
    | error e => rfl
    | panic =>
        rw [hhandle] at hround
        exact absurd rfl hround
  · rfl

end Listener

end Ragnet

import Ragnet.Listener.Service

/-!
# A request that is sent again

A client whose `OpenConnectionReply2` got lost sends its `OpenConnectionRequest2` again.  By then
its address has an entry in the connections map, so the loop hands the request to the connection,
which takes it for neither a datagram nor an acknowledgement.
-/

namespace Ragnet

open Conn Proc Wire

/-- A connection ignores whatever has none of the three flags. -/
theorem Conn.receive_unflagged {build : Build} {handler : ConnectionHandler} {env : Env}
    {flags : UInt8} {rest : Bytes} {c : Conn} (hack : flags &&& bitFlagAck = 0)
    (hnack : flags &&& bitFlagNack = 0) (hdatagram : flags &&& bitFlagDatagram = 0) :
    Conn.receive build handler env (flags :: rest) c = (c, .ok ()) := by
  rw [Conn.receive, if_neg (not_not.mpr hack), if_neg (not_not.mpr hnack),
    if_neg (not_not.mpr hdatagram)]
  rfl

namespace Listener

variable {build : Build} {hash : Bytes → UInt32} {env : ListenEnv} {self : Listener} {i : Nat}
  {peer : Peer} {addr : SocketAddr}

/-- Setting the connection of a peer to what it is. -/
theorem modifyPeer_same (h : self.peers[i]? = some peer) :
    (self.modifyPeer i fun other ↦ { other with conn := peer.conn }) = self := by
  have hsame : self.peers.modify i (fun other ↦ { other with conn := peer.conn }) = self.peers := by
    refine List.ext_getElem? fun j ↦ ?_
    rw [List.getElem?_modify]
    by_cases hj : i = j
    · subst hj
      rw [h]
      simp
    · simp [hj]
  rw [modifyPeer, hsame]

/-- The request of a client that has an entry in the map goes to its connection and changes
nothing. -/
theorem listenRound_request {rest : Bytes} (hentry : self.connections.lookup addr = some i)
    (hpeer : self.peers[i]? = some peer) :
    self.listenRound build hash env (Id.openConnectionRequest2 :: rest) addr = (self, .ok ()) := by
  have hrecv := @Conn.receive_unflagged build (ListenerConnectionHandler.handler env.timestamp)
    env.conn Id.openConnectionRequest2 rest peer.conn rfl rfl rfl
  have hhandle : handle build hash env (Id.openConnectionRequest2 :: rest) addr self =
      (self, .ok ()) := by
    have hnone : messages peer.conn peer.conn = [] := by
      rw [messages, List.drop_length, ite_self]
    rw [handle, get_bind, hentry]
    dsimp only
    rw [receive, get_bind, hpeer]
    dsimp only
    rw [modify_bind, modify_bind, hrecv, modifyPeer_same hpeer, hnone]
    rfl
  rw [listenRound, hhandle, ite_self]

end Listener

namespace Service

variable {build : Build} {hash : Bytes → UInt32} {s s' : Service} {env : ListenEnv} {data : Bytes}
  {addr : SocketAddr}

/-- The map has an entry for the address, and its connection is open and not yet established. -/
structure Opening (s : Service) (addr : SocketAddr) (peer : Peer) : Prop where
  entered : ∃ i, s.listener.connections.lookup addr = some i ∧ s.listener.peers[i]? = some peer
  not_closed : peer.conn.closed = false
  not_connected : peer.connected = false

/-- A request as the listener expects it from an address, with the right cookie. -/
def Requests (hash : Bytes → UInt32) (s : Service) (addr : SocketAddr) (data : Bytes) : Prop :=
  ∃ rest pk, data = Id.openConnectionRequest2 :: rest ∧
    OpenConnectionRequest2.read { OpenConnectionRequest2.default with
      serverHasSecurity := !s.listener.config.disableCookies } rest = .ok pk ∧
    pk.cookie = s.listener.cookie hash addr

/-- The request is answered with the MTU of the connection, and the map is left as it is. -/
def Answered (s s' : Service) (addr : SocketAddr) (peer : Peer) : Prop :=
  s'.listener.sent = s.listener.sent ++ [(addr,
      (OpenConnectionReply2.new s.listener.id addr (UInt16.ofNat peer.conn.mtu.value)).write)] ∧
    s'.listener.connections = s.listener.connections

/-- Whoever sends a request again, it leaves the listener as it is. -/
theorem listener_of_request {peer : Peer} (hopening : Opening s addr peer)
    (hrequests : Requests hash s addr data)
    (hstep : Step build hash s (.datagram env data addr) s') : s'.listener = s.listener := by
  obtain ⟨i, hentry, hpeer⟩ := hopening.entered
  obtain ⟨rest, pk, rfl, -, -⟩ := hrequests
  cases hstep with
  | datagram _ _ =>
      rw [received, Listener.listenRound_request hentry hpeer]

theorem not_answered_of_request {peer : Peer} (hopening : Opening s addr peer)
    (hrequests : Requests hash s addr data)
    (hstep : Step build hash s (.datagram env data addr) s') : ¬ Answered s s' addr peer := by
  rintro ⟨hsent, -⟩
  rw [listener_of_request hopening hrequests hstep] at hsent
  have hlen := congrArg List.length hsent
  rw [List.length_append, List.length_singleton] at hlen
  exact absurd hlen (Nat.succ_ne_self _).symm

/-- Nothing happens but requests from one address. -/
def OnlyRequests (hash : Bytes → UInt32) (addr : SocketAddr) (s : Service) : Event → Prop
  | .datagram _ data client => client = addr ∧ Requests hash s addr data
  | _ => False

/-- So do any number of requests. -/
theorem listener_of_requests {peer : Peer} {events : List Event} (hopening : Opening s addr peer)
    (hrun : ((services build hash).restrict (OnlyRequests hash addr)).Run s events s') :
    s'.listener = s.listener := by
  induction hrun with
  | nil => rfl
  | @snoc s₁ s₂ _ e _ hstep hsame =>
      have hopening₁ : Opening s₁ addr peer :=
        ⟨hsame ▸ hopening.entered, hopening.not_closed, hopening.not_connected⟩
      obtain ⟨honly, hstep⟩ := hstep
      cases e with
      | datagram env data client =>
          obtain ⟨rfl, hrequests⟩ := honly
          exact (listener_of_request hopening₁ hrequests hstep).trans hsame
      | _ => exact honly.elim

/-- **A request that is sent again is never answered.**  Whatever the state of the listener in which
the connection of an address is open and not yet established, it answers the request of this
address neither at once nor after any number of earlier requests. -/
theorem request_not_answered {peer : Peer} {events : List Event} {s₁ : Service}
    (hopening : Opening s addr peer)
    (hrun : ((services build hash).restrict (OnlyRequests hash addr)).Run s events s₁)
    (hrequests : Requests hash s₁ addr data)
    (hstep : (services build hash).step s₁ (.datagram env data addr) s') :
    ¬ Answered s₁ s' addr peer := by
  have hsame := listener_of_requests hopening hrun
  have hopening₁ : Opening s₁ addr peer :=
    ⟨hsame ▸ hopening.entered, hopening.not_closed, hopening.not_connected⟩
  exact not_answered_of_request hopening₁ hrequests hstep

/-! ## A lost reply -/

/-- The request of the client has arrived, and the reply is lost. -/
def requested : Service := start.given openRequest

theorem reachable_requested : (services .release fun _ ↦ 0).Reachable requested := by
  exact .step (a := .datagram .calm openRequest clientAddr) (.init ⟨_, _, _, rfl⟩)
    (.datagram receiving_start (by decide))

theorem opening_requested :
    Opening requested clientAddr ⟨clientAddr, Conn.new 1492, false, true, 0⟩ where
  entered := ⟨0, by decide +kernel, rfl⟩
  not_closed := rfl
  not_connected := rfl

theorem requests_requested : Requests (fun _ ↦ 0) requested clientAddr openRequest :=
  ⟨_, OpenConnectionRequest2.new clientAddr 1492 0, rfl, by decide +kernel, rfl⟩

theorem step_requested :
    Step .release (fun _ ↦ 0) requested (.datagram .calm openRequest clientAddr)
      (requested.given openRequest) :=
  .datagram (receiving_of_quiet (by decide +kernel) (by decide +kernel)) (by decide)

theorem request_not_answered_requested :
    Opening requested clientAddr ⟨clientAddr, Conn.new 1492, false, true, 0⟩ ∧
      ¬ Answered requested (requested.given openRequest) clientAddr
        ⟨clientAddr, Conn.new 1492, false, true, 0⟩ :=
  ⟨opening_requested,
    request_not_answered opening_requested (.nil requested) requests_requested step_requested⟩

/-- The client sends its request again, and waits for a second reply in vain. -/
theorem lost_reply :
    ∃ s s' peer, (services .release fun _ ↦ 0).Reachable s ∧ Opening s clientAddr peer ∧
      Requests (fun _ ↦ 0) s clientAddr openRequest ∧
      (services .release fun _ ↦ 0).step s (.datagram .calm openRequest clientAddr) s' ∧
      ¬ Answered s s' clientAddr peer :=
  ⟨requested, requested.given openRequest, _, reachable_requested, opening_requested,
    requests_requested, step_requested,
    not_answered_of_request opening_requested requests_requested step_requested⟩

end Service

end Ragnet

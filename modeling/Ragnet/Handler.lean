import Ragnet.Listener
import Ragnet.Message.Shortened

/-!
# Handling protocol messages

`handler.rs`: what the handlers of a listener's and of a dialer's connections do with a message.  A
message is left to the application, or it is handled; then the handler may send messages of its own,
mark the connection as established, or close it.  A handler that fails has done none of these.

`timestamp()` is an argument.
-/

namespace Ragnet

open Wire

def ConnectionRequest.new (clientGuid : UInt64) (requestTime : Int64) : ConnectionRequest :=
  ⟨clientGuid, requestTime, false⟩

def ConnectionRequestAccepted.new (clientAddress : SocketAddr) (pingTime pongTime : Int64) :
    ConnectionRequestAccepted := ⟨clientAddress, 0, defaultSystemAddresses, pingTime, pongTime⟩

def NewIncomingConnection.new (serverAddress : SocketAddr) (pingTime pongTime : Int64) :
    NewIncomingConnection := ⟨serverAddress, defaultSystemAddresses, pingTime, pongTime⟩

/-- What a handler does to its connection. -/
inductive Effect where
  | sendMessage (data : Bytes)
  | markConnected
  | closeImmediately
deriving DecidableEq

/-! ## The handlers -/

section Handlers

variable (build : Build) (remoteAddr : SocketAddr) (now : Int64)

def handleConnectedPing (data : Bytes) : Result (List Effect) := do
  let pk ← ConnectedPing.read data
  let response : ConnectedPong := ⟨pk.pingTime, now⟩
  .ok [.sendMessage response.write]

def handleConnectedPong (data : Bytes) : Result (List Effect) := do
  let pk ← ConnectedPong.read data
  if pk.pingTime > now then err .timestampInFuture else .ok []

namespace ListenerConnectionHandler

def handleConnectionRequest (data : Bytes) : Result (List Effect) := do
  let pk ← ConnectionRequest.read data
  let response := ConnectionRequestAccepted.new remoteAddr pk.requestTime now
  .ok [.sendMessage response.write]

def handleNewIncomingConnection : List Effect := [.markConnected]

/-- `ListenerConnectionHandler::handle`, with what it does to the connection. -/
def react : Bytes → Result (Bool × List Effect)
  | [] => .ok (false, [])
  | id :: data =>
      if id = Id.connectionRequest then do
        let effects ← handleConnectionRequest remoteAddr now data
        .ok (true, effects)
      else if id = Id.connectionRequestAccepted then
        err (.unexpectedPacket "CONNECTION_REQUEST_ACCEPTED")
      else if id = Id.newIncomingConnection then .ok (true, handleNewIncomingConnection)
      else if id = Id.connectedPing then do
        let effects ← handleConnectedPing now data
        .ok (true, effects)
      else if id = Id.connectedPong then do
        let effects ← handleConnectedPong now data
        .ok (true, effects)
      else if id = Id.disconnectNotification then .ok (true, [.closeImmediately])
      else if id = Id.detectLostConnections then
        .ok (true, [.sendMessage (ConnectedPing.write ⟨now⟩)])
      else .ok (false, [])

end ListenerConnectionHandler

namespace DialerConnectionHandler

def handleConnectionRequestAccepted (data : Bytes) : Result (List Effect) := do
  let pk ← ConnectionRequestAccepted.read build data
  let response := NewIncomingConnection.new remoteAddr pk.pongTime now
  .ok [.sendMessage response.write, .markConnected]

/-- `DialerConnectionHandler::handle`, with what it does to the connection. -/
def react : Bytes → Result (Bool × List Effect)
  | [] => .ok (false, [])
  | id :: data =>
      if id = Id.connectionRequest then err (.unexpectedPacket "CONNECTION_REQUEST")
      else if id = Id.connectionRequestAccepted then do
        let effects ← handleConnectionRequestAccepted build remoteAddr now data
        .ok (true, effects)
      else if id = Id.newIncomingConnection then err (.unexpectedPacket "NEW_INCOMING_CONNECTION")
      else if id = Id.connectedPing then do
        let effects ← handleConnectedPing now data
        .ok (true, effects)
      else if id = Id.connectedPong then do
        let effects ← handleConnectedPong now data
        .ok (true, effects)
      else if id = Id.disconnectNotification then .ok (true, [.closeImmediately])
      else if id = Id.detectLostConnections then
        .ok (true, [.sendMessage (ConnectedPing.write ⟨now⟩)])
      else .ok (false, [])

end DialerConnectionHandler

end Handlers

/-! ## The ends of a connection -/

inductive Side where
  | dialer
  | listener
deriving DecidableEq, Repr

namespace Side

def other : Side → Side
  | dialer => listener
  | listener => dialer

@[simp] theorem other_other (side : Side) : side.other.other = side := by cases side <;> rfl

@[simp] theorem other_ne (side : Side) : side.other ≠ side := by cases side <;> decide

theorem eq_or_eq_other (side source : Side) : side = source ∨ side = source.other := by
  cases side <;> cases source <;> decide

/-- `limits_enabled` of its handler. -/
def limitsEnabled : Side → Bool
  | dialer => false
  | listener => true

/-- `handle` of its handler. -/
def react (build : Build) (remoteAddr : SocketAddr) (now : Int64) :
    Side → Bytes → Result (Bool × List Effect)
  | dialer => DialerConnectionHandler.react build remoteAddr now
  | listener => ListenerConnectionHandler.react remoteAddr now

/-- Its handler, as a connection sees it.  The time depends on the contents that were handled
before. -/
def handler (build : Build) (remoteAddr : SocketAddr) (timestamp : List Bytes → Int64)
    (side : Side) : ConnectionHandler where
  limitsEnabled := side.limitsEnabled
  handle handled content := Prod.fst <$> side.react build remoteAddr (timestamp handled) content

end Side

/-! ## What a handler leaves to the application -/

/-- The messages that the handlers handle. -/
def Id.handled : List UInt8 :=
  [connectionRequest, connectionRequestAccepted, newIncomingConnection, connectedPing,
    connectedPong, disconnectNotification, detectLostConnections]

/-- The message is not one of the protocol. -/
def External : Bytes → Prop
  | [] => False
  | id :: _ => id ∉ Id.handled

instance : DecidablePred External := fun content ↦ match content with
  | [] => inferInstanceAs (Decidable False)
  | _ :: _ => inferInstanceAs (Decidable (_ ∉ _))

section React

variable {build : Build} {remoteAddr : SocketAddr} {now : Int64} {content : Bytes} {side : Side}
  {timestamp : List Bytes → Int64} {handled : List Bytes}

/-- The handler of a listener, without what it does. -/
theorem ListenerConnectionHandler.handle_eq :
    ListenerConnectionHandler.handle timestamp handled content =
      Prod.fst <$> ListenerConnectionHandler.react remoteAddr (timestamp handled) content := by
  cases content with
  | nil => rfl
  | cons id data =>
      rw [handle, react, handleConnectionRequest, handleConnectedPing, handleConnectedPong]
      split
      · cases ConnectionRequest.read data <;> rfl
      split
      · rfl
      split
      · rfl
      split
      · cases ConnectedPing.read data <;> rfl
      split
      · cases ConnectedPong.read data with
        | error e => rfl
        | ok pk =>
            rw [Checked.ok_bind, Checked.ok_bind]
            split <;> rfl
      split
      · rfl
      split <;> rfl

theorem Side.handler_listener :
    Side.listener.handler build remoteAddr timestamp =
      ListenerConnectionHandler.handler timestamp := by
  rw [handler, ListenerConnectionHandler.handler]
  congr 1
  funext handled content
  exact ListenerConnectionHandler.handle_eq.symm

/-- What it does to the fields that a listener keeps of a connection. -/
def Effect.apply (i : Nat) (self : Listener) : Effect → Listener
  | .sendMessage _ => self
  | .markConnected => self.markConnected i
  | .closeImmediately => self.closeImmediately i

/-- Nothing is done but sending. -/
def OnlySends (effects : List Effect) : Prop := ∀ e ∈ effects, ∃ data, e = .sendMessage data

/-- The listener sees nothing of what is sent. -/
theorem OnlySends.foldl_apply {effects : List Effect} (h : OnlySends effects) (i : Nat)
    (self : Listener) : effects.foldl (Effect.apply i) self = self := by
  induction effects with
  | nil => rfl
  | cons e effects ih =>
      obtain ⟨data, rfl⟩ := h e List.mem_cons_self
      exact ih fun e he ↦ h e (List.mem_cons_of_mem _ he)

/-- A handler that reads a message and answers it. -/
theorem onlySends_of_reply {α : Type} {r : Result α} {reply : α → Bytes} {effects : List Effect}
    (h : (r >>= fun pk ↦ .ok [.sendMessage (reply pk)]) = .ok effects) : OnlySends effects := by
  cases r with
  | error e => cases h
  | ok pk =>
      obtain rfl := Except.ok.inj h
      exact fun e he ↦ ⟨reply pk, List.mem_singleton.mp he⟩

theorem handleConnectedPong_nil {data : Bytes} {effects : List Effect}
    (h : handleConnectedPong now data = .ok effects) : effects = [] := by
  rw [handleConnectedPong] at h
  cases hread : ConnectedPong.read data with
  | error e =>
      rw [hread] at h
      cases h
  | ok pk =>
      rw [hread, Checked.ok_bind] at h
      split at h
      · cases h
      · exact (Except.ok.inj h).symm

/-- What a listener does to its fields when it handles a message is what the handler does. -/
theorem Listener.handleMessage_eq {i : Nat} {self : Listener} {b : Bool} {effects : List Effect}
    (h : ListenerConnectionHandler.react remoteAddr now content = .ok (b, effects)) :
    self.handleMessage i content = effects.foldl (Effect.apply i) self := by
  have hquiet {r : Result (List Effect)} (hr : (r >>= fun es ↦ .ok (true, es)) = .ok (b, effects))
      (hsends : ∀ es, r = .ok es → OnlySends es) : self = effects.foldl (Effect.apply i) self := by
    cases r with
    | error e => cases hr
    | ok es =>
        obtain rfl := (Prod.mk.inj (Except.ok.inj hr)).2
        exact ((hsends es rfl).foldl_apply i self).symm
  have hdone {es : List Effect} (hr : (.ok (true, es) : Result (Bool × List Effect)) =
      .ok (b, effects)) : es = effects := (Prod.mk.inj (Except.ok.inj hr)).2
  cases content with
  | nil =>
      obtain rfl := (Prod.mk.inj (Except.ok.inj h)).2
      rfl
  | cons id data =>
      rw [ListenerConnectionHandler.react] at h
      rw [Listener.handleMessage]
      by_cases hincoming : id = Id.newIncomingConnection
      · subst hincoming
        exact hdone h ▸ rfl
      by_cases hdisconnect : id = Id.disconnectNotification
      · subst hdisconnect
        exact hdone h ▸ rfl
      rw [if_neg hincoming, if_neg hdisconnect] at h ⊢
      split at h
      · exact hquiet h fun es hes ↦ onlySends_of_reply hes
      split at h
      · cases h
      split at h
      · exact hquiet h fun es hes ↦ onlySends_of_reply hes
      split at h
      · refine hquiet h fun es hes ↦ ?_
        rw [handleConnectedPong_nil hes]
        exact fun e he ↦ absurd he List.not_mem_nil
      split at h
      · exact hdone h ▸ rfl
      · obtain rfl := (Prod.mk.inj (Except.ok.inj h)).2
        rfl

/-- A message that is not one of the protocol is left to the application. -/
theorem react_external (h : External content) (side : Side) :
    side.react build remoteAddr now content = .ok (false, []) := by
  cases content with
  | nil => exact h.elim
  | cons id data =>
      simp only [External, Id.handled, List.mem_cons, List.not_mem_nil, or_false, not_or] at h
      obtain ⟨hrequest, haccepted, hincoming, hping, hpong, hdisconnect, hdetect⟩ := h
      cases side with
      | dialer =>
          rw [Side.react, DialerConnectionHandler.react, if_neg hrequest, if_neg haccepted,
            if_neg hincoming, if_neg hping, if_neg hpong, if_neg hdisconnect, if_neg hdetect]
      | listener =>
          rw [Side.react, ListenerConnectionHandler.react, if_neg hrequest, if_neg haccepted,
            if_neg hincoming, if_neg hping, if_neg hpong, if_neg hdisconnect, if_neg hdetect]

/-- Any other is not. -/
theorem react_internal {effects : List Effect} (hne : content ≠ [])
    (h : side.react build remoteAddr now content = .ok (false, effects)) : External content := by
  have hbind {r : Result (List Effect)} (hr : (r >>= fun es ↦ .ok (true, es)) =
      (.ok (false, effects) : Result (Bool × List Effect))) : False := by
    cases r <;> cases hr
  cases content with
  | nil => exact absurd rfl hne
  | cons id data =>
      simp only [External, Id.handled, List.mem_cons, List.not_mem_nil, or_false, not_or]
      cases side with
      | dialer =>
          rw [Side.react, DialerConnectionHandler.react] at h
          split_ifs at h with h₁ h₂ h₃ h₄ h₅ h₆ h₇
          all_goals first | exact (hbind h).elim | cases h
          exact ⟨h₁, h₂, h₃, h₄, h₅, h₆, h₇⟩
      | listener =>
          rw [Side.react, ListenerConnectionHandler.react] at h
          split_ifs at h with h₁ h₂ h₃ h₄ h₅ h₆ h₇
          all_goals first | exact (hbind h).elim | cases h
          exact ⟨h₁, h₂, h₃, h₄, h₅, h₆, h₇⟩

theorem Side.handle_apply (build : Build) (remoteAddr : SocketAddr)
    (timestamp : List Bytes → Int64) (side : Side) (handled : List Bytes) (content : Bytes) :
    (side.handler build remoteAddr timestamp).handle handled content =
      Prod.fst <$> side.react build remoteAddr (timestamp handled) content := rfl

/-- What goes on to the application is what is not of the protocol. -/
theorem Side.handle_eq_false_iff (hne : content ≠ []) :
    (side.handler build remoteAddr timestamp).handle handled content = .ok false ↔
      External content := by
  constructor
  · intro h
    cases hreact : side.react build remoteAddr (timestamp handled) content with
    | error e =>
        rw [handle_apply, hreact] at h
        cases h
    | ok r =>
        rw [handle_apply, hreact] at h
        obtain ⟨b, effects⟩ := r
        obtain rfl : b = false := Except.ok.inj h
        exact react_internal hne hreact
  · intro h
    rw [handle_apply, react_external h]
    rfl

/-! ## How the messages of a peer are handled -/

/-- A ping is answered with its time. -/
theorem react_connectedPing (m : ConnectedPing) :
    side.react build remoteAddr now m.write =
      .ok (true, [.sendMessage (ConnectedPong.write ⟨m.pingTime, now⟩)]) := by
  have hwrite : m.write = Id.connectedPing :: m.write.tail := rfl
  have hping : handleConnectedPing now m.write.tail =
      .ok [.sendMessage (ConnectedPong.write ⟨m.pingTime, now⟩)] := by
    rw [handleConnectedPing, ConnectedPing.read_write, Checked.ok_bind]
  rw [hwrite]
  cases side with
  | dialer =>
      rw [Side.react, DialerConnectionHandler.react, if_neg (by decide), if_neg (by decide),
        if_neg (by decide), if_pos rfl, hping, Checked.ok_bind]
  | listener =>
      rw [Side.react, ListenerConnectionHandler.react, if_neg (by decide), if_neg (by decide),
        if_neg (by decide), if_pos rfl, hping, Checked.ok_bind]

/-- A pong that answers an earlier ping is taken. -/
theorem react_connectedPong {m : ConnectedPong} (hm : ¬ m.pingTime > now) :
    side.react build remoteAddr now m.write = .ok (true, []) := by
  have hwrite : m.write = Id.connectedPong :: m.write.tail := rfl
  have hpong : handleConnectedPong now m.write.tail = .ok [] := by
    rw [handleConnectedPong, ConnectedPong.read_write, Checked.ok_bind, if_neg hm]
  rw [hwrite]
  cases side with
  | dialer =>
      rw [Side.react, DialerConnectionHandler.react, if_neg (by decide), if_neg (by decide),
        if_neg (by decide), if_neg (by decide), if_pos rfl, hpong, Checked.ok_bind]
  | listener =>
      rw [Side.react, ListenerConnectionHandler.react, if_neg (by decide), if_neg (by decide),
        if_neg (by decide), if_neg (by decide), if_pos rfl, hpong, Checked.ok_bind]

theorem react_disconnectNotification :
    side.react build remoteAddr now [Id.disconnectNotification] =
      .ok (true, [.closeImmediately]) := by
  cases side <;> rfl

/-- A listener answers a connection request with its time. -/
theorem react_connectionRequest (m : ConnectionRequest) :
    Side.listener.react build remoteAddr now m.write = .ok (true,
      [.sendMessage (ConnectionRequestAccepted.new remoteAddr m.requestTime now).write]) := by
  have hwrite : m.write = Id.connectionRequest :: m.write.tail := rfl
  rw [hwrite, Side.react, ListenerConnectionHandler.react, if_pos rfl,
    ListenerConnectionHandler.handleConnectionRequest, ConnectionRequest.read_write,
    Checked.ok_bind]
  rfl

/-- A dialer answers the acceptance with its time, and is connected. -/
theorem react_connectionRequestAccepted (m : ConnectionRequestAccepted) :
    Side.dialer.react build remoteAddr now m.write = .ok (true,
      [.sendMessage (NewIncomingConnection.new remoteAddr m.pongTime now).write,
        .markConnected]) := by
  have hwrite : m.write = Id.connectionRequestAccepted :: m.write.tail := rfl
  rw [hwrite, Side.react, DialerConnectionHandler.react, if_neg (by decide), if_pos rfl,
    DialerConnectionHandler.handleConnectionRequestAccepted,
    ConnectionRequestAccepted.read_write, Checked.ok_bind]
  rfl

theorem react_newIncomingConnection (m : NewIncomingConnection) :
    Side.listener.react build remoteAddr now m.write = .ok (true, [.markConnected]) := by
  have hwrite : m.write = Id.newIncomingConnection :: m.write.tail := rfl
  rw [hwrite, Side.react, ListenerConnectionHandler.react, if_neg (by decide), if_neg (by decide),
    if_pos rfl, ListenerConnectionHandler.handleNewIncomingConnection]

end React

end Ragnet

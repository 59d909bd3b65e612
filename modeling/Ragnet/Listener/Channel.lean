import Ragnet.Conn.Forwarding
import Ragnet.Conn.Stream
import Ragnet.Listener.Service
import Ragnet.Listener.Survival

/-!
# The channel to the application

The one loop that receives the datagrams of all connections sends their contents to the
application through a bounded channel for each connection, and waits while that is full.  So the
loop goes on exactly as long as the channel has room when a datagram with contents for the
application comes in, and again when the loop takes up another content of it.
-/

namespace Ragnet

open Conn Proc Wire

namespace Listener

variable {build : Build} {hash : Bytes → UInt32} {env : ListenEnv} {self : Listener}
  {data : Bytes} {addr : SocketAddr} {i : Nat} {peer : Peer}

/-! ## What leaves the channels alone -/

/-- Changing a connection changes its channel. -/
theorem sentTo_modifyPeer_update (h : self.peers[i]? = some peer) (f : Peer → Peer) :
    (self.modifyPeer i f).sentTo = Function.update self.sentTo i (f peer).conn.packetTx := by
  funext j
  rw [sentTo, modifyPeer, List.getElem?_modify, Function.update_apply]
  by_cases hj : j = i
  · subst hj
    rw [h, if_pos rfl]
    change (if j = j then f peer else peer).conn.packetTx = _
    rw [if_pos rfl]
  · rw [if_neg hj, sentTo]
    cases self.peers[j]? with
    | none => rfl
    | some other =>
        change (if i = j then f other else other).conn.packetTx = _
        rw [if_neg (Ne.symm hj)]

theorem sentTo_modifyPeer (i : Nat) (self : Listener) {f : Peer → Peer}
    (hf : ∀ peer, (f peer).conn.packetTx = peer.conn.packetTx) :
    (self.modifyPeer i f).sentTo = self.sentTo := by
  cases h : self.peers[i]? with
  | none =>
      rw [modifyPeer, List.modify_eq_self (List.getElem?_eq_none_iff.mp h)]
  | some peer =>
      rw [sentTo_modifyPeer_update h, hf, ← Function.update_eq_self i self.sentTo,
        Function.update_idem, sentTo, h]

theorem sentTo_closeImmediately (i : Nat) (self : Listener) :
    (self.closeImmediately i).sentTo = self.sentTo := by
  rw [closeImmediately]
  split
  · rfl
  split
  · rfl
  · change (self.modifyPeer i fun peer ↦ { peer with conn.closed := true }).sentTo = _
    exact sentTo_modifyPeer i self fun _ ↦ rfl

theorem sentTo_removeEntry (i : Nat) (self : Listener) :
    (self.removeEntry i).sentTo = self.sentTo := by
  rw [removeEntry]
  split
  · rfl
  split
  · rfl
  · change (self.modifyPeer i fun peer ↦ { peer with removals := peer.removals - 1 }).sentTo = _
    exact sentTo_modifyPeer i self fun _ ↦ rfl

theorem sentTo_handleMessage (i : Nat) (self : Listener) (content : Bytes) :
    (self.handleMessage i content).sentTo = self.sentTo := by
  cases content with
  | nil => rfl
  | cons id _ =>
      rw [handleMessage]
      split
      · rw [markConnected]
        exact sentTo_modifyPeer i self fun _ ↦ rfl
      split
      · exact sentTo_closeImmediately i self
      · rfl

theorem sentTo_foldl_handleMessage (i : Nat) (contents : List Bytes) (self : Listener) :
    (contents.foldl (handleMessage i) self).sentTo = self.sentTo := by
  induction contents generalizing self with
  | nil => rfl
  | cons content contents ih => exact (ih _).trans (sentTo_handleMessage i self content)

/-- No task but the loop touches a channel. -/
theorem sentTo_run (task : Task) (self : Listener) :
    (task.run build self).sentTo = self.sentTo := by
  cases task with
  | call i sendCall =>
      rw [Task.run]
      exact sentTo_modifyPeer i self fun peer ↦
        congrArg Receiving.packetTx (sendCall.run_receiving build peer.conn)
  | flushAcks i env =>
      rw [Task.run]
      refine sentTo_modifyPeer i self fun peer ↦ ?_
      obtain ⟨datagrams, hflush⟩ := flushAcks_eq build env peer.conn
      rw [hflush]
  | close i now =>
      rw [Task.run]
      exact sentTo_modifyPeer i self fun _ ↦ rfl
  | closeImmediately i =>
      refine sentTo_modifyPeer i self fun peer ↦ ?_
      rw [Peer.closeImmediately]
      split
      · rfl
      · rfl
  | established i =>
      rw [Task.run, established]
      exact sentTo_modifyPeer i self fun _ ↦ rfl
  | timeOut i =>
      refine sentTo_modifyPeer i self fun peer ↦ ?_
      rw [Peer.timeOut, Peer.closeImmediately]
      split
      · split
        · rfl
        · rfl
      · rfl
  | removeEntry i => exact sentTo_removeEntry i self
  | gcBlocks now =>
      change (self.gcBlocks now).sentTo = _
      rw [gcBlocks]
      split
      · rfl
      · rfl
  | setPongData data => rfl

/-- A new connection has sent nothing. -/
theorem sentTo_openConnection (addr : SocketAddr) (mtu : UInt16) (self : Listener) :
    (self.openConnection addr mtu).sentTo = self.sentTo := by
  funext j
  rw [sentTo, sentTo, openConnection]
  dsimp only
  rcases Nat.lt_trichotomy j self.peers.length with hj | rfl | hj
  · rw [List.getElem?_append_left hj]
  · rw [List.getElem?_append_right le_rfl, Nat.sub_self,
      List.getElem?_eq_none (le_refl self.peers.length)]
    rfl
  · rw [List.getElem?_append_right hj.le, List.getElem?_eq_none hj.le,
      List.getElem?_eq_none (by rw [List.length_singleton]; omega)]

theorem handleUnconnected_keeps_sentTo (data : Bytes) (addr : SocketAddr) :
    Keeps sentTo (handleUnconnected hash env data addr) := by
  intro self
  obtain ⟨sent, hsame | ⟨mtu, hopened⟩⟩ := handleUnconnected_cases hash env data addr self
  · rw [hsame]
    rfl
  · rw [hopened]
    exact sentTo_openConnection addr mtu { self with sent := sent }

/-! ## A round of the loop -/

/-- The connection that is given a datagram: the loop does not skip it, and its address has an
entry in the map. -/
def target (self : Listener) (data : Bytes) (addr : SocketAddr) : Option (Nat × Peer) :=
  if data = [] ∨ self.isBlocked addr then none
  else
    match self.connections.lookup addr with
    | none => none
    | some i =>
        match self.peers[i]? with
        | none => none
        | some peer => some (i, peer)

theorem target_eq_some (h : self.target data addr = some (i, peer)) :
    ¬ (data = [] ∨ self.isBlocked addr = true) ∧ self.connections.lookup addr = some i ∧
      self.peers[i]? = some peer := by
  rw [target] at h
  split at h
  · cases h
  next hskip =>
  split at h
  · cases h
  next j hl =>
  split at h
  · cases h
  next p hp =>
  obtain ⟨rfl, rfl⟩ := Prod.mk.inj (Option.some.inj h)
  exact ⟨hskip, hl, hp⟩

theorem sentTo_of_peer (h : self.peers[i]? = some peer) : self.sentTo i = peer.conn.packetTx := by
  rw [sentTo, h]

variable (build) in
/-- A datagram is given to a connection and has something for its application. -/
def Releases (self : Listener) (env : ListenEnv) (data : Bytes) (addr : SocketAddr) (i : Nat) :
    Prop :=
  ∃ peer, self.target data addr = some (i, peer) ∧ ∃ body, datagramBody data = some body ∧
    DatagramForwards build (ListenerConnectionHandler.handler env.timestamp) env.conn.clock
      peer.conn body

theorem sentTo_block (now : Instant) (self : Listener) :
    (self.block addr now).sentTo = self.sentTo := by
  rw [block]
  split
  · rfl
  · rfl

/-- What a round does to the channels is what handling its datagram does. -/
theorem sentTo_listenRound (h : ¬ (data = [] ∨ self.isBlocked addr = true)) :
    (self.listenRound build hash env data addr).1.sentTo =
      (handle build hash env data addr self).1.sentTo := by
  rw [listenRound, if_neg h]
  rcases handle build hash env data addr self with ⟨self', (e | _) | _⟩
  · exact sentTo_block env.now self'
  · rfl
  · rfl

/-- A datagram that is not for a connection releases nothing. -/
theorem sentTo_of_no_target (h : self.target data addr = none) :
    (self.listenRound build hash env data addr).1.sentTo = self.sentTo := by
  by_cases hskip : data = [] ∨ self.isBlocked addr = true
  · rw [listenRound, if_pos hskip]
  rw [sentTo_listenRound hskip, handle, get_bind]
  rw [target, if_neg hskip] at h
  cases hl : self.connections.lookup addr with
  | none => exact handleUnconnected_keeps_sentTo data addr self
  | some i =>
      rw [hl] at h
      dsimp only at h
      cases hp : self.peers[i]? with
      | none =>
          dsimp only
          rw [receive, get_bind, hp]
          rfl
      | some peer =>
          rw [hp] at h
          cases h

/-- A datagram for a connection goes through its `receive`. -/
theorem sentTo_of_target (h : self.target data addr = some (i, peer)) :
    (self.listenRound build hash env data addr).1.sentTo = Function.update self.sentTo i
      (Conn.receive build (ListenerConnectionHandler.handler env.timestamp) env.conn data
        peer.conn).1.packetTx := by
  obtain ⟨hskip, hl, hp⟩ := target_eq_some h
  rw [sentTo_listenRound hskip, handle, get_bind, hl]
  dsimp only
  rw [receive, get_bind, hp]
  dsimp only
  rw [modify_bind, modify_bind, ofExcept_apply]
  exact (sentTo_foldl_handleMessage i _ _).trans (sentTo_modifyPeer_update hp _)

/-- A round releases contents of exactly the connection to which it gives a datagram that has
something for the application. -/
theorem releases_iff :
    0 < self.released (self.listenRound build hash env data addr).1 i ↔
      self.Releases build env data addr i := by
  rw [released]
  cases ht : self.target data addr with
  | none =>
      rw [sentTo_of_no_target ht, Nat.sub_self]
      refine iff_of_false (Nat.lt_irrefl 0) ?_
      rintro ⟨peer, h, -⟩
      rw [ht] at h
      cases h
  | some target =>
      obtain ⟨j, peer⟩ := target
      obtain ⟨-, -, hpeer⟩ := target_eq_some ht
      rw [sentTo_of_target ht, Function.update_apply]
      by_cases hij : i = j
      · subst hij
        have hgrow := receive_packetTx build (ListenerConnectionHandler.handler env.timestamp)
          env.conn data peer.conn
        have hsends := @receive_sends_iff build (ListenerConnectionHandler.handler env.timestamp)
          peer.conn data env.conn
        rw [if_pos rfl, sentTo_of_peer hpeer, Nat.sub_pos_iff_lt]
        have hlt : peer.conn.packetTx.length < (Conn.receive build
            (ListenerConnectionHandler.handler env.timestamp) env.conn data
              peer.conn).1.packetTx.length ↔
            Sends (Conn.receive build (ListenerConnectionHandler.handler env.timestamp) env.conn
              data) peer.conn := by
          constructor
          · exact fun hlt heq ↦ hlt.ne' (congrArg List.length heq)
          · exact fun hne ↦ hgrow.length_le.lt_of_ne fun hlen ↦ hne (hgrow.eq_of_length hlen).symm
        rw [hlt, hsends]
        constructor
        · exact fun h ↦ ⟨peer, ht, h⟩
        · rintro ⟨peer', ht', h⟩
          obtain ⟨-, rfl⟩ := Prod.mk.inj (Option.some.inj (ht.symm.trans ht'))
          exact h
      · rw [if_neg hij, Nat.sub_self]
        refine iff_of_false (Nat.lt_irrefl 0) ?_
        rintro ⟨peer', ht', -⟩
        obtain ⟨rfl, -⟩ := Prod.mk.inj (Option.some.inj (ht.symm.trans ht'))
        exact hij rfl

/-- Only one connection has something for its application. -/
theorem Releases.unique {j : Nat} (hi : self.Releases build env data addr i)
    (hj : self.Releases build env data addr j) : i = j := by
  obtain ⟨_, hti, -⟩ := hi
  obtain ⟨_, htj, -⟩ := hj
  exact (Prod.mk.inj (Option.some.inj (hti.symm.trans htj))).1

/-- A connection that has sent something is there. -/
theorem lt_of_released {before after : Listener} (h : 0 < before.released after i) :
    i < after.peers.length := by
  by_contra hle
  rw [released, sentTo, List.getElem?_eq_none (Nat.le_of_not_lt hle)] at h
  exact absurd h (by rw [List.length_nil, Nat.zero_sub]; exact Nat.lt_irrefl 0)

end Listener

namespace Service

variable {build : Build} {hash : Bytes → UInt32} {s s' : Service} {e : Event}

/-! ## Room for what is released -/

/-- The loop is not parked. -/
def Free (s : Service) : Prop := ∀ i, ¬ s.ParkedIn i

variable (build) in
/-- The channel of a connection has room when the loop is given a datagram that has something for
the application of this connection, and when it takes up another content of the datagram. -/
def Roomy (s : Service) : Event → Prop
  | .datagram env data addr =>
      ∀ i, s.listener.Releases build env data addr i → s.channel i < packetCapacity
  | .take i => s.channel i < packetCapacity
  | _ => True

/-- After a round the loop sends a content of the connection that has something for its
application. -/
theorem received_sending_iff {env : ListenEnv} {data : Bytes} {addr : SocketAddr} {i : Nat} :
    (s.received build hash env data addr).sending = some i ↔
      s.listener.Releases build env data addr i := by
  let after := (s.listener.listenRound build hash env data addr).1
  let released : Nat → Bool := fun j ↦ 0 < s.listener.released after j
  have hiff (j : Nat) : released j = true ↔ s.listener.Releases build env data addr j :=
    decide_eq_true_iff.trans Listener.releases_iff
  change (List.range after.peers.length).find? released = some i ↔ _
  constructor
  · exact fun h ↦ (hiff i).mp (List.find?_some h)
  · intro h
    have hreleased := (hiff i).mpr h
    have hlt : i < after.peers.length := Listener.lt_of_released (of_decide_eq_true hreleased)
    have hsome := List.find?_isSome.mpr ⟨i, List.mem_range.mpr hlt, hreleased⟩
    obtain ⟨j, hj⟩ := Option.isSome_iff_exists.mp hsome
    have hreleases := (hiff j).mp (List.find?_some hj)
    rw [hj, hreleases.unique h]

/-- The loop is free after a step exactly when there was room. -/
theorem free_step_iff (h : s.Free) (hs : Step build hash s e s') :
    s'.Free ↔ Roomy build s e := by
  cases hs with
  | @datagram env data addr _ _ =>
      refine forall_congr' fun i ↦ ?_
      rw [← @received_sending_iff build hash]
      exact not_and.trans (imp_congr_right fun _ ↦ Nat.not_le)
  | send _ _ =>
      refine iff_of_true ?_ trivial
      rintro j ⟨hj, -⟩
      cases hj
  | @take i _ _ _ =>
      constructor
      · exact fun hfree ↦ Nat.lt_of_not_le fun hfull ↦ hfree i ⟨rfl, hfull⟩
      · rintro hroom j ⟨hj, hfull⟩
        obtain rfl := Option.some.inj hj
        exact absurd hroom (Nat.not_lt_of_le hfull)
  | skip _ _ _ => exact iff_of_true (fun j hj ↦ h j hj) trivial
  | @read i hpos =>
      refine iff_of_true (fun j ⟨hj, hfull⟩ ↦ h j ⟨hj, hfull.trans ?_⟩) trivial
      dsimp only
      rw [Function.update_apply]
      split
      · next hji => exact hji ▸ Nat.sub_le ..
      · exact le_rfl
  | task => exact iff_of_true h trivial

/-- A release build goes on. -/
theorem running_step (h : s.running = true) (hs : Step .release hash s e s') :
    s'.running = true := by
  cases hs with
  | @datagram env data addr _ _ =>
      refine decide_eq_true fun hpanic ↦ ?_
      rw [Listener.listenRound_release] at hpanic
      cases hpanic
  | _ => exact h

/-- **The loop receives while there is room.**  In every run in which the channel of a connection
has room whenever the loop is given a datagram that has something for the application of this
connection, and whenever it takes up another content of the datagram, the loop is never parked: what
it is sending can be sent at once, the next content is taken up or skipped, and then it receives the
datagram of any address.  In a release build nothing ends it.  The first step without room parks
it. -/
theorem receiving_while_roomy
    (h : ((services build hash).restrict (Roomy build)).Reachable s) :
    s.Free ∧ (build = .release → s.running = true) ∧
      (∀ i, s.sending = some i → ∃ s', (services build hash).step s (.send i) s') ∧
      (s.sending = none → ∀ i, 0 < s.line i →
        ∃ s', (services build hash).step s (.take i) s' ∨
          (services build hash).step s (.skip i) s') ∧
      (s.sending = none → (∀ i, s.line i = 0) → s.running = true →
        ∀ env data addr, data.length ≤ 1500 →
          ∃ s', (services build hash).step s (.datagram env data addr) s') ∧
      ∀ e s', (services build hash).step s e s' → (s'.Free ↔ Roomy build s e) := by
  have hfree : s.Free := by
    refine h.invariant ?_ ?_
    · rintro _ ⟨config, id, cookieSalt, rfl⟩ i ⟨hsending, -⟩
      cases hsending
    · exact fun s e s' _ hi hstep ↦ (free_step_iff hi hstep.2).mpr hstep.1
  refine ⟨hfree, ?_, fun i hsending ↦ ?_, fun hidle i hline ↦ ?_,
    fun hidle hline hrunning env data addr hlen ↦ ?_, ?_⟩
  · rintro rfl
    refine h.invariant (I := fun s ↦ s.running = true) ?_ ?_
    · rintro _ ⟨config, id, cookieSalt, rfl⟩
      rfl
    · exact fun s e s' _ hi hstep ↦ running_step hi hstep.2
  · exact ⟨_, .send hsending (Nat.lt_of_not_le fun hfull ↦ hfree i ⟨hsending, hfull⟩)⟩
  · by_cases hclosing : s.Closing i
    · exact ⟨_, Or.inr (.skip hidle hline hclosing)⟩
    · exact ⟨_, Or.inl (.take hidle hline hclosing)⟩
  · exact ⟨_, .datagram ⟨hrunning, hidle, hline⟩ hlen⟩
  · exact fun e s' hstep ↦ free_step_iff hfree hstep

/-! ## An application that does not read -/

/-- A content for the application. -/
def floodContent : Bytes := [0xfe]

/-- A service whose only connection has `n` contents in its channel, none of which was taken, while
the loop is sending `m` more. -/
structure Flooded (n m : Nat) (s : Service) : Prop where
  running : s.running = true
  sending : s.sending = if m = 0 then none else some 0
  line : ∀ i, s.line i = 0
  channel : ∀ i, s.channel i = if i = 0 then n else 0
  peers : ∃ conn, s.listener.peers = [⟨clientAddr, conn, false, true, 0⟩] ∧
    Conn.Expecting (n + m) conn ∧ conn.closing = 0 ∧ conn.packetTx.length = n + m
  connections : s.listener.connections.lookup clientAddr = some 0
  not_blocked : s.listener.isBlocked clientAddr = false

theorem Flooded.receiving {n : Nat} (h : s.Flooded n 0) : s.Receiving :=
  ⟨h.running, h.sending, h.line⟩

/-- What the connection makes of the next datagram of the flood. -/
theorem receive_flood (build : Build) {n : Nat} {conn : Conn} (hn : n + 1 < 2 ^ 24)
    (h : Conn.Expecting n conn) (hclosing : conn.closing = 0) :
    ∃ conn', Conn.receive build (ListenerConnectionHandler.handler ListenEnv.calm.timestamp)
        ListenEnv.calm.conn (Conn.streamDatagram n floodContent) conn = (conn', .ok ()) ∧
      Conn.Expecting (n + 1) conn' ∧ conn'.closing = 0 ∧
      conn'.packetTx = conn.packetTx ++ [floodContent] ∧
      conn'.handled = conn.handled ++ [floodContent] := by
  obtain ⟨c, hc, hhandled, htx, hclose, hrecv⟩ :=
    @Conn.Expecting.receive build (ListenerConnectionHandler.handler ListenEnv.calm.timestamp)
      ListenEnv.calm.conn n conn floodContent h hn (by decide)
  rw [hclosing] at hclose
  have hforward (handled : List Bytes) : (ListenerConnectionHandler.handler
      ListenEnv.calm.timestamp).handle handled floodContent = .ok false := rfl
  have htaken : Conn.ContentTaken (ListenerConnectionHandler.handler ListenEnv.calm.timestamp)
      c.closing c.handled floodContent := ⟨List.cons_ne_nil _ _, Or.inr ⟨false, hforward _⟩⟩
  refine ⟨{ c with
    handled := c.handled ++ [floodContent], packetTx := c.packetTx ++ [floodContent] },
    ?_, ⟨hc.pk, hc.win, hc.packetQueue⟩, hclose, ?_, ?_⟩
  · rw [hrecv, Conn.handleAll, bind_ok (Conn.handlePacket_taken htaken),
      Conn.forwarded, if_pos ⟨hclose, hforward _⟩]
    rfl
  · change c.packetTx ++ _ = _
    rw [htx]
  · change c.handled ++ _ = _
    rw [hhandled]

/-- The loop hands every datagram of the flood to the connection. -/
theorem not_skipped_flood {n : Nat} (hblocked : s.listener.isBlocked clientAddr = false) :
    ¬ (Conn.streamDatagram n floodContent = [] ∨ s.listener.isBlocked clientAddr = true) := by
  rw [hblocked]
  exact fun h ↦ h.elim (List.cons_ne_nil _ _) Bool.false_ne_true

/-- The round of the loop in which the next datagram of the flood comes in. -/
theorem listenRound_flood {n : Nat} {conn conn' : Conn}
    (hblocked : s.listener.isBlocked clientAddr = false)
    (hconnections : s.listener.connections.lookup clientAddr = some 0)
    (hpeers : s.listener.peers = [⟨clientAddr, conn, false, true, 0⟩])
    (hreceive : Conn.receive build (ListenerConnectionHandler.handler ListenEnv.calm.timestamp)
      ListenEnv.calm.conn (Conn.streamDatagram n floodContent) conn = (conn', .ok ()))
    (hclosing : conn.closing = 0) (hhandled : conn'.handled = conn.handled ++ [floodContent]) :
    s.listener.listenRound build hash .calm (Conn.streamDatagram n floodContent) clientAddr =
      ({ s.listener with peers := [⟨clientAddr, conn', false, true, 0⟩] }, .ok ()) := by
  have hmessages : Listener.messages conn conn' = [floodContent] := by
    rw [Listener.messages, if_pos hclosing, hhandled, List.drop_left]
  have hpeer : Listener.receive build .calm 0 (Conn.streamDatagram n floodContent)
      s.listener =
        ({ s.listener with peers := [⟨clientAddr, conn', false, true, 0⟩] }, .ok ()) := by
    rw [Listener.receive, get_bind, hpeers]
    dsimp only [List.getElem?_cons_zero]
    rw [hreceive]
    dsimp only
    rw [hmessages, modify_bind, modify_bind, Listener.modifyPeer, hpeers]
    rfl
  rw [Listener.listenRound, if_neg (not_skipped_flood hblocked), Listener.handle, get_bind,
    hconnections]
  dsimp only
  rw [hpeer]

/-- A datagram of the flood fits the buffer that it is read into. -/
theorem length_flood (n : Nat) : (Conn.streamDatagram n floodContent).length ≤ 1500 := by
  rw [Conn.streamDatagram, Conn.datagram, List.length_cons, List.length_append,
    length_writeUint24]
  exact (by decide : 3 + (Conn.streamPacket 0 floodContent).write.length + 1 ≤ 1500)

/-- With the next datagram of the flood the loop sends a content. -/
theorem Flooded.given {n : Nat} (h : s.Flooded n 0) (hn : n ≤ packetCapacity) :
    ∃ s', Step build hash s
        (.datagram .calm (Conn.streamDatagram n floodContent) clientAddr) s' ∧
      s'.Flooded n 1 := by
  obtain ⟨conn, hpeers, hexp, hclosing, hlen⟩ := h.peers
  have hlt : n + 1 < 2 ^ 24 := by
    rw [packetCapacity] at hn
    omega
  obtain ⟨conn', hreceive, hexp', hclosing', htx, hhandled⟩ :=
    receive_flood build hlt hexp hclosing
  have hround := @listenRound_flood build hash s n conn conn' h.not_blocked h.connections hpeers
    hreceive hclosing hhandled
  have hlen' : conn'.packetTx.length = n + 1 := by
    rw [htx, List.length_append, hlen, List.length_singleton, Nat.add_zero]
  have hreleased (i : Nat) : s.listener.released
      { s.listener with peers := [⟨clientAddr, conn', false, true, 0⟩] } i =
        if i = 0 then 1 else 0 := by
    rw [Listener.released, Listener.sentTo, Listener.sentTo, hpeers]
    cases i with
    | zero =>
        change conn'.packetTx.length - conn.packetTx.length = 1
        rw [hlen, hlen']
        omega
    | succ i => rfl
  refine ⟨_, .datagram h.receiving (length_flood n), ?_⟩
  rw [received, hround]
  refine
    { running := rfl
      sending := ?_
      line := fun i ↦ ?_
      channel := h.channel
      peers := ⟨conn', rfl, hexp', hclosing', hlen'⟩
      connections := h.connections
      not_blocked := h.not_blocked }
  · dsimp only
    rw [List.length_singleton, List.range_one, List.find?_singleton, hreleased]
    rfl
  · dsimp only
    rw [hreleased]
    split
    · rfl
    · rfl

/-- The content gets into the channel while there is room. -/
theorem Flooded.send {n : Nat} (h : s.Flooded n 1) (hn : n < packetCapacity) :
    ∃ s', Step build hash s (.send 0) s' ∧ s'.Flooded (n + 1) 0 := by
  have hchannel : s.channel 0 = n := by rw [h.channel, if_pos rfl]
  refine ⟨_, .send (i := 0) h.sending (by rwa [hchannel]), ?_⟩
  refine
    { running := h.running
      sending := rfl
      line := h.line
      channel := fun i ↦ ?_
      peers := h.peers
      connections := h.connections
      not_blocked := h.not_blocked }
  dsimp only
  rw [Function.update_apply, hchannel, h.channel]
  split
  · rfl
  · rfl

def opened : Service := start.given openRequest

theorem opened_flooded : opened.Flooded 0 0 := by
  have hreceiving : opened.Receiving :=
    receiving_of_quiet (by decide +kernel) (by decide +kernel)
  exact
    { running := hreceiving.running
      sending := hreceiving.sending
      line := hreceiving.line
      channel := fun _ ↦ (ite_self 0).symm
      peers := ⟨Conn.new 1492, rfl, Conn.expecting_new 1492, rfl, rfl⟩
      connections := by decide +kernel
      not_blocked := rfl }

theorem opened_reachable :
    ((services .release fun _ ↦ 0).restrict (Roomy .release)).Reachable opened :=
  .step (a := .datagram .calm openRequest clientAddr) (.init ⟨_, _, _, rfl⟩)
    ⟨fun _ _ ↦ (by decide : 0 < packetCapacity), .datagram receiving_start (by decide)⟩

/-- Up to the capacity of the channel there is room for the flood. -/
theorem flooded_reachable {n : Nat} (hn : n ≤ packetCapacity) :
    ∃ s, ((services .release fun _ ↦ 0).restrict (Roomy .release)).Reachable s ∧
      s.Flooded n 0 := by
  induction n with
  | zero => exact ⟨opened, opened_reachable, opened_flooded⟩
  | succ n ih =>
      obtain ⟨s, hr, hs⟩ := ih (Nat.le_of_succ_le hn)
      obtain ⟨s₁, hstep₁, hs₁⟩ := @Flooded.given .release (fun _ ↦ 0) s n hs (Nat.le_of_succ_le hn)
      obtain ⟨s₂, hstep₂, hs₂⟩ := @Flooded.send .release (fun _ ↦ 0) s₁ n hs₁ hn
      have hroom : Roomy .release s
          (.datagram .calm (Conn.streamDatagram n floodContent) clientAddr) := by
        intro i _
        rw [hs.channel]
        split
        · exact hn
        · exact Nat.zero_lt_of_lt hn
      have hany : Roomy .release s₁ (.send 0) := trivial
      exact ⟨s₂, (hr.step ⟨hroom, hstep₁⟩).step ⟨hany, hstep₂⟩, hs₂⟩

/-- A datagram with two contents for the application. -/
def twoContents : Bytes :=
  Conn.streamDatagram 0 floodContent ++ (Conn.streamPacket 1 floodContent).write

theorem twoContents_line : (opened.given twoContents).line 0 = 1 := by decide +kernel

theorem twoContents_open : ¬ (opened.given twoContents).Closing 0 := by
  rintro ⟨peer, hi, hne⟩
  have hclosing : ((opened.given twoContents).listener.peers[0]?.map
      fun peer ↦ peer.conn.closing) = some 0 := by decide +kernel
  rw [hi] at hclosing
  exact hne (Option.some.inj hclosing)

/-- The application reads the first of two contents before the loop takes up the second. -/
theorem read_between {hash : Bytes → UInt32}
    (h : ((services .release hash).restrict (Roomy .release)).Reachable s)
    (hsending : s.sending = some 0) (hline : s.line 0 = 1) (hchannel : s.channel 0 = 0)
    (hopen : ¬ s.Closing 0) :
    ∃ s', ((services .release hash).restrict (Roomy .release)).Reachable s' ∧
      s'.sending = some 0 ∧ s'.line 0 = 0 := by
  have hroom : s.channel 0 < packetCapacity := by
    rw [hchannel]
    decide
  let sent := { s with sending := none, channel := Function.update s.channel 0 (s.channel 0 + 1) }
  have hone : sent.channel 0 = s.channel 0 + 1 := Function.update_self 0 _ s.channel
  let read := { sent with channel := Function.update sent.channel 0 (sent.channel 0 - 1) }
  have hempty : read.channel 0 = s.channel 0 := by
    rw [show read.channel 0 = sent.channel 0 - 1 from Function.update_self 0 _ sent.channel, hone,
      Nat.add_sub_cancel]
  let taken := { read with sending := some 0, line := Function.update s.line 0 (s.line 0 - 1) }
  have hsend : Step .release hash s (.send 0) sent := .send hsending hroom
  have hread : Step .release hash sent (.read 0) read := .read (by rw [hone]; exact Nat.succ_pos _)
  have htake : Step .release hash read (.take 0) taken :=
    .take rfl (by rw [show read.line 0 = 1 from hline]; exact Nat.one_pos) hopen
  have hfirst : Roomy .release s (.send 0) := trivial
  have hsecond : Roomy .release sent (.read 0) := trivial
  have hthird : Roomy .release read (.take 0) := hempty.trans_lt hroom
  refine ⟨taken, ((h.step ⟨hfirst, hsend⟩).step ⟨hsecond, hread⟩).step ⟨hthird, htake⟩, rfl, ?_⟩
  rw [show taken.line 0 = s.line 0 - 1 from Function.update_self 0 _ s.line, hline]

/-- With a full channel the loop still receives, and it takes up the second content of a datagram
while the channel has room. -/
theorem receiving_while_roomy_full :
    (∃ s, ((services .release fun _ ↦ 0).restrict (Roomy .release)).Reachable s ∧
      s.channel 0 = 4096 ∧ s.Free ∧ s.Receiving) ∧
    ∃ s s', ((services .release fun _ ↦ 0).restrict (Roomy .release)).Reachable s ∧
      s.sending = some 0 ∧ (services .release fun _ ↦ 0).step s (.send 0) s' := by
  obtain ⟨s, hr, hs⟩ := flooded_reachable (le_refl packetCapacity)
  obtain ⟨hfree, hrunning, -⟩ := receiving_while_roomy hr
  have hgiven : ((services .release fun _ ↦ 0).restrict (Roomy .release)).Reachable
      (opened.given twoContents) :=
    opened_reachable.step (a := .datagram .calm twoContents clientAddr)
      ⟨fun _ _ ↦ (by decide : 0 < packetCapacity),
        .datagram opened_flooded.receiving (by decide +kernel)⟩
  obtain ⟨t, ht, hsending, -⟩ := read_between hgiven (by decide +kernel) twoContents_line rfl
    twoContents_open
  obtain ⟨-, -, hsend, -⟩ := receiving_while_roomy ht
  obtain ⟨t', hstep⟩ := hsend 0 hsending
  exact ⟨⟨s, hr, by rw [hs.channel]; rfl, hfree, hrunning rfl, hs.sending, hs.line⟩,
    t, t', ht, hsending, hstep⟩

/-- One more datagram with a content parks it. -/
theorem loop_parked :
    ∃ s, (services .release fun _ ↦ 0).Reachable s ∧ s.running = true ∧ s.ParkedIn 0 := by
  obtain ⟨s, hr, hs⟩ := flooded_reachable (le_refl packetCapacity)
  obtain ⟨s', hstep, hs'⟩ := @Flooded.given .release (fun _ ↦ 0) s packetCapacity hs le_rfl
  refine ⟨s', hr.of_restrict.step hstep, hs'.running, hs'.sending, ?_⟩
  rw [hs'.channel]
  exact le_rfl

end Service

end Ragnet

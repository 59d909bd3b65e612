import Ragnet.Lib.Coupling
import Ragnet.Lib.Ranks
import Ragnet.Listener.Serving

/-!
# Clients do not disturb each other

One loop and a few maps serve the clients of all addresses.  What becomes of the clients of one IP
is still what would have become of them if the listener had served this IP alone: their connections,
the replies to them, and whether they are blocked.  Blocks go by IP, so a client may be blocked for
what another one with its IP has sent.

This is so up to the first panic, which ends the loop for all.
-/

namespace Ragnet

open Conn Proc Wire

namespace Listener

/-! ## The share of an IP -/

/-- The connection belongs to a client of the IP. -/
def From (ip : Octets 16) (peer : Peer) : Bool := decide (blockKey peer.remoteAddr = ip)

/-- Which of the connections of an IP a connection is. -/
def seat (ip : Octets 16) (self : Listener) (i : Nat) : Nat := self.peers.rank (From ip) i

/-- What a listener has to do with the clients of an IP is all that another one has to do. -/
structure Share (ip : Octets 16) (l own : Listener) : Prop where
  config : own.config = l.config
  guid : own.id = l.id
  cookieSalt : own.cookieSalt = l.cookieSalt
  pongData : own.pongData = l.pongData
  peers : own.peers = l.peers.filter (From ip)
  entries : ∀ addr, blockKey addr = ip →
    own.connections.lookup addr = (l.connections.lookup addr).map (l.seat ip)
  block : own.blocks.lookup ip = l.blocks.lookup ip
  sent : own.sent = l.sent.filter fun d ↦ decide (blockKey d.1 = ip)

section Share

variable {build : Build} {hash : Bytes → UInt32} {ip : Octets 16} {self own : Listener}
  {rounds i : Nat} {env : ListenEnv} {data : Bytes} {addr : SocketAddr} {peer : Peer}
  {f : Peer → Peer}

theorem share_new (ip : Octets 16) (config : ListenConfig) (id : Int64) (cookieSalt : UInt32) :
    Share ip (new config id cookieSalt) (new config id cookieSalt) :=
  ⟨rfl, rfl, rfl, rfl, rfl, fun _ _ ↦ by rw [new, Finmap.lookup_empty]; rfl, rfl, rfl⟩

/-! ### Connections of the IP -/

theorem Share.getElem?_seat (h : Share ip self own) (hi : self.peers[i]? = some peer)
    (hp : From ip peer = true) : own.peers[self.seat ip i]? = some peer := by
  rw [h.peers]
  exact List.getElem?_filter_rank hi hp

theorem from_of_remoteAddr (hf : ∀ peer, (f peer).remoteAddr = peer.remoteAddr) (peer : Peer) :
    From ip (f peer) = From ip peer := by rw [From, From, hf]

theorem seat_modifyPeer (hf : ∀ peer, (f peer).remoteAddr = peer.remoteAddr) (i : Nat)
    (self : Listener) : (self.modifyPeer i f).seat ip = self.seat ip :=
  funext fun j ↦ List.rank_modify (from_of_remoteAddr hf) i self.peers j

/-- Both change it. -/
theorem Share.modifyPeer (h : Share ip self own)
    (hf : ∀ peer, (f peer).remoteAddr = peer.remoteAddr) (hi : self.peers[i]? = some peer)
    (hp : From ip peer = true) :
    Share ip (self.modifyPeer i f) (own.modifyPeer (self.seat ip i) f) where
  config := h.config
  guid := h.guid
  cookieSalt := h.cookieSalt
  pongData := h.pongData
  peers := by
    rw [Listener.modifyPeer, Listener.modifyPeer, h.peers]
    exact (List.filter_modify_of_pos (from_of_remoteAddr hf) hi hp).symm
  entries := by
    rw [seat_modifyPeer hf]
    exact h.entries
  block := h.block
  sent := h.sent

/-- Only one has it. -/
theorem Share.modifyPeer_other (h : Share ip self own)
    (hf : ∀ peer, (f peer).remoteAddr = peer.remoteAddr)
    (hi : ∀ peer, self.peers[i]? = some peer → From ip peer = false) :
    Share ip (self.modifyPeer i f) own where
  config := h.config
  guid := h.guid
  cookieSalt := h.cookieSalt
  pongData := h.pongData
  peers := by
    rw [Listener.modifyPeer]
    exact h.peers.trans (List.filter_modify_of_neg (from_of_remoteAddr hf) hi).symm
  entries := by
    rw [seat_modifyPeer hf]
    exact h.entries
  block := h.block
  sent := h.sent

theorem Share.erase (h : Share ip self own) (addr : SocketAddr) :
    Share ip { self with connections := self.connections.erase addr }
      { own with connections := own.connections.erase addr } where
  config := h.config
  guid := h.guid
  cookieSalt := h.cookieSalt
  pongData := h.pongData
  peers := h.peers
  entries addr' haddr' := by
    rw [HashMap.lookup_erase_eq, HashMap.lookup_erase_eq, h.entries addr' haddr']
    split <;> rfl
  block := h.block
  sent := h.sent

theorem Share.erase_other (h : Share ip self own) (haddr : blockKey addr ≠ ip) :
    Share ip { self with connections := self.connections.erase addr } own where
  config := h.config
  guid := h.guid
  cookieSalt := h.cookieSalt
  pongData := h.pongData
  peers := h.peers
  entries addr' haddr' := by
    rw [HashMap.lookup_erase_eq, if_neg fun heq : addr' = addr ↦ haddr (heq ▸ haddr'),
      h.entries addr' haddr']
    rfl
  block := h.block
  sent := h.sent

theorem Share.closeImmediately (h : Share ip self own) (hi : self.peers[i]? = some peer)
    (hp : From ip peer = true) :
    Share ip (self.closeImmediately i) (own.closeImmediately (self.seat ip i)) := by
  rw [Listener.closeImmediately, Listener.closeImmediately, hi, h.getElem?_seat hi hp]
  dsimp only
  split
  · exact h
  · refine Share.erase ?_ peer.remoteAddr
    exact h.modifyPeer (fun _ ↦ by rfl) hi hp

theorem Share.closeImmediately_other (h : Share ip self own)
    (hi : ∀ peer, self.peers[i]? = some peer → From ip peer = false) :
    Share ip (self.closeImmediately i) own := by
  rw [Listener.closeImmediately]
  split
  · exact h
  · next peer hpeer =>
    split
    · exact h
    · refine Share.erase_other ?_ (of_decide_eq_false (hi peer hpeer))
      exact h.modifyPeer_other (fun _ ↦ by rfl) hi

/-- What a listener does with a message keeps the address of the connection. -/
theorem exists_of_addrs {self' : Listener} (h : self'.addrs = self.addrs)
    (hi : self.peers[i]? = some peer) :
    ∃ peer', self'.peers[i]? = some peer' ∧ peer'.remoteAddr = peer.remoteAddr := by
  have hget := congrArg (fun l ↦ l[i]?) h
  rw [addrs, addrs, List.getElem?_map, List.getElem?_map, hi] at hget
  exact Option.map_eq_some_iff.mp hget

theorem seat_of_addrs {self' : Listener} (h : self'.addrs = self.addrs) :
    self'.seat ip = self.seat ip := by
  refine funext fun i ↦ List.rank_congr ?_ i
  have hmap (l : Listener) : l.peers.map (From ip) =
      l.addrs.map fun addr ↦ decide (blockKey addr = ip) := by
    rw [addrs, List.map_map]
    rfl
  rw [hmap, hmap, h]

theorem Share.handleMessage (h : Share ip self own) (hi : self.peers[i]? = some peer)
    (hp : From ip peer = true) (content : Bytes) :
    Share ip (self.handleMessage i content) (own.handleMessage (self.seat ip i) content) := by
  cases content with
  | nil => exact h
  | cons id _ =>
      rw [Listener.handleMessage, Listener.handleMessage]
      split
      · rw [markConnected, markConnected]
        exact h.modifyPeer (fun _ ↦ by rfl) hi hp
      split
      · exact h.closeImmediately hi hp
      · exact h

theorem Share.handleMessages (h : Share ip self own) (hi : self.peers[i]? = some peer)
    (hp : From ip peer = true) (contents : List Bytes) :
    Share ip (contents.foldl (Listener.handleMessage i) self)
      (contents.foldl (Listener.handleMessage (self.seat ip i)) own) := by
  induction contents generalizing self own peer with
  | nil => exact h
  | cons content contents ih =>
      have haddrs := (dwindles_handleMessage i self content).addrs
      obtain ⟨peer', hi', haddr⟩ := exists_of_addrs haddrs hi
      have hp' : From ip peer' = true := by rwa [From, haddr]
      have hrest := ih (h.handleMessage hi hp content) hi' hp'
      rwa [seat_of_addrs haddrs] at hrest

theorem Share.handleMessages_other (h : Share ip self own)
    (hi : ∀ peer, self.peers[i]? = some peer → From ip peer = false) (contents : List Bytes) :
    Share ip (contents.foldl (Listener.handleMessage i) self) own := by
  induction contents generalizing self with
  | nil => exact h
  | cons content contents ih =>
      have haddrs := (dwindles_handleMessage i self content).addrs
      refine ih ?_ fun peer' hi' ↦ ?_
      · cases content with
        | nil => exact h
        | cons id _ =>
            rw [Listener.handleMessage]
            split
            · rw [markConnected]
              exact h.modifyPeer_other (fun _ ↦ by rfl) hi
            split
            · exact h.closeImmediately_other hi
            · exact h
      · obtain ⟨peer, hpeer, haddr⟩ := exists_of_addrs haddrs.symm hi'
        have hother := hi peer hpeer
        rwa [From, haddr] at hother

/-- Both receive what is for a connection of the IP, with the same result. -/
theorem Share.receive (h : Share ip self own) (hi : self.peers[i]? = some peer)
    (hp : From ip peer = true) (data : Bytes) :
    (Listener.receive build env (self.seat ip i) data own).2 =
        (Listener.receive build env i data self).2 ∧
      Share ip (Listener.receive build env i data self).1
        (Listener.receive build env (self.seat ip i) data own).1 := by
  rw [Listener.receive, Listener.receive, get_bind, get_bind, hi, h.getElem?_seat hi hp]
  dsimp only
  rw [modify_bind, modify_bind, modify_bind, modify_bind, ofExcept_apply, ofExcept_apply]
  let received := Conn.receive build (ListenerConnectionHandler.handler env.timestamp) env.conn data
    peer.conn
  refine ⟨rfl, ?_⟩
  have hshare := h.modifyPeer (f := fun peer ↦ { peer with conn := received.1 })
    (fun _ ↦ rfl) hi hp
  have haddrs := addrs_modifyPeer (f := fun peer ↦ { peer with conn := received.1 })
    (fun _ ↦ rfl) i self
  obtain ⟨peer', hi', haddr⟩ := exists_of_addrs haddrs hi
  have hp' : From ip peer' = true := by rwa [From, haddr]
  have hall := hshare.handleMessages hi' hp' (messages peer.conn received.1)
  rwa [seat_of_addrs haddrs] at hall

theorem Share.receive_other (h : Share ip self own)
    (hi : ∀ peer, self.peers[i]? = some peer → From ip peer = false) (data : Bytes) :
    Share ip (Listener.receive build env i data self).1 own := by
  rw [Listener.receive, get_bind]
  cases hpeer : self.peers[i]? with
  | none => exact h
  | some peer =>
      dsimp only
      rw [modify_bind, modify_bind, ofExcept_apply]
      let received := Conn.receive build (ListenerConnectionHandler.handler env.timestamp) env.conn
        data peer.conn
      have hshare := h.modifyPeer_other (f := fun peer ↦ { peer with conn := received.1 })
        (fun _ ↦ rfl) hi
      have haddrs := addrs_modifyPeer (f := fun peer ↦ { peer with conn := received.1 })
        (fun _ ↦ rfl) i self
      refine hshare.handleMessages_other (fun peer' hi' ↦ ?_) (messages peer.conn received.1)
      obtain ⟨peer, hpeer, haddr⟩ := exists_of_addrs haddrs.symm hi'
      have hother := hi peer hpeer
      rwa [From, haddr] at hother

/-! ### Addresses without a connection -/

theorem Share.cookie (h : Share ip self own) (hash : Bytes → UInt32) (addr : SocketAddr) :
    own.cookie hash addr = self.cookie hash addr := by
  rw [Listener.cookie, Listener.cookie, cookieData, cookieData, h.config, h.cookieSalt]

theorem Share.send (h : Share ip self own) (haddr : blockKey addr = ip) (data : Bytes) :
    Share ip { self with sent := self.sent ++ [(addr, data)] }
      { own with sent := own.sent ++ [(addr, data)] } where
  config := h.config
  guid := h.guid
  cookieSalt := h.cookieSalt
  pongData := h.pongData
  peers := h.peers
  entries := h.entries
  block := h.block
  sent := by
    rw [h.sent, List.filter_append, List.filter_singleton, decide_eq_true haddr]
    rfl

theorem Share.send_other (h : Share ip self own) (haddr : blockKey addr ≠ ip) (data : Bytes) :
    Share ip { self with sent := self.sent ++ [(addr, data)] } own where
  config := h.config
  guid := h.guid
  cookieSalt := h.cookieSalt
  pongData := h.pongData
  peers := h.peers
  entries := h.entries
  block := h.block
  sent := by
    rw [h.sent, List.filter_append, List.filter_singleton, decide_eq_false haddr]
    exact (List.append_nil _).symm

/-- The seats of the connections stay when another one comes. -/
theorem seat_openConnection (hi : i ≤ self.peers.length) (addr : SocketAddr) (mtu : UInt16) :
    (self.openConnection addr mtu).seat ip i = self.seat ip i :=
  List.rank_append (From ip) hi

theorem Tidy.lt_length (ht : Tidy rounds self) (hi : self.connections.lookup addr = some i) :
    i < self.peers.length := by
  have hlt := (List.getElem?_eq_some_iff.mp (ht.entry addr i hi)).1
  rwa [addrs, List.length_map] at hlt

theorem Share.openConnection (h : Share ip self own) (ht : Tidy rounds self)
    (haddr : blockKey addr = ip) (mtu : UInt16) :
    Share ip (self.openConnection addr mtu) (own.openConnection addr mtu) where
  config := h.config
  guid := h.guid
  cookieSalt := h.cookieSalt
  pongData := h.pongData
  peers := by
    have hnew : From ip ⟨addr, Conn.new mtu.toNat, false, true, 0⟩ = true := decide_eq_true haddr
    rw [Listener.openConnection, Listener.openConnection, h.peers, List.filter_append,
      List.filter_singleton, hnew]
    rfl
  entries addr' haddr' := by
    have hlen : own.peers.length = (self.openConnection addr mtu).seat ip self.peers.length := by
      rw [seat_openConnection (Nat.le_refl _), seat, List.rank_length, h.peers]
    change (own.connections.insert addr own.peers.length).lookup addr' =
      ((self.connections.insert addr self.peers.length).lookup addr').map _
    rw [HashMap.lookup_insert_eq, HashMap.lookup_insert_eq]
    split
    · rw [hlen]
      rfl
    · rw [h.entries addr' haddr']
      cases hi : self.connections.lookup addr' with
      | none => rfl
      | some i => exact congrArg some (seat_openConnection (ht.lt_length hi).le addr mtu).symm
  block := h.block
  sent := h.sent

theorem Share.openConnection_other (h : Share ip self own) (ht : Tidy rounds self)
    (haddr : blockKey addr ≠ ip) (mtu : UInt16) :
    Share ip (self.openConnection addr mtu) own where
  config := h.config
  guid := h.guid
  cookieSalt := h.cookieSalt
  pongData := h.pongData
  peers := by
    have hnew : From ip ⟨addr, Conn.new mtu.toNat, false, true, 0⟩ = false := decide_eq_false haddr
    rw [Listener.openConnection, List.filter_append, List.filter_singleton, hnew]
    exact h.peers.trans (List.append_nil _).symm
  entries addr' haddr' := by
    change own.connections.lookup addr' =
      ((self.connections.insert addr self.peers.length).lookup addr').map _
    rw [HashMap.lookup_insert_eq, if_neg fun heq : addr' = addr ↦ haddr (heq ▸ haddr'),
      h.entries addr' haddr']
    cases hi : self.connections.lookup addr' with
    | none => rfl
    | some i => exact congrArg some (seat_openConnection (ht.lt_length hi).le addr mtu).symm
  block := h.block
  sent := h.sent

/-- What is sent to a client of the IP is sent by both. -/
theorem blind_sendTo (env : ListenEnv) (data : Bytes) (haddr : blockKey addr = ip) :
    Blind (fun self own ↦ Tidy rounds self ∧ Share ip self own) (sendTo env data addr) := by
  rw [sendTo]
  split
  · exact .fail _
  · exact .modify fun self own h ↦
      ⟨⟨h.1.entry, h.1.blocks_le, h.1.count_le⟩, h.2.send haddr data⟩

/-- Both handle a datagram from the IP, with the same result. -/
theorem blind_handleUnconnected (env : ListenEnv) (data : Bytes) (haddr : blockKey addr = ip) :
    Blind (fun self own ↦ Tidy rounds self ∧ Share ip self own)
      (handleUnconnected hash env data addr) := by
  cases data with
  | nil => exact .pure ()
  | cons id rest =>
      rw [handleUnconnected]
      refine .ite ?_ (.ite ?_ (.ite ?_ (.ite (.pure ()) (.fail _))))
      · refine .bind (.ofExcept _) fun pk ↦ fun self own h ↦ ?_
        rw [get_bind, get_bind, h.2.guid, h.2.pongData]
        exact blind_sendTo env _ haddr self own h
      · refine .bind (.ofExcept _) fun pk ↦ fun self own h ↦ ?_
        rw [get_bind, get_bind, h.2.guid, h.2.config, h.2.cookie]
        refine Blind.ite ?_ ?_ self own h
        · exact .bind (blind_sendTo env _ haddr) fun _ ↦ .fail _
        · exact blind_sendTo env _ haddr
      · intro self own h
        rw [handleOpenConnectionRequest2, get_bind, get_bind, h.2.guid, h.2.config, h.2.cookie]
        refine Blind.bind (.ofExcept _) (fun pk ↦ ?_) self own h
        refine .ite (.fail _) (.bind (blind_sendTo env _ haddr) fun _ ↦ .modify ?_)
        exact fun self own h ↦ ⟨h.1.openConnection addr _, h.2.openConnection h.1 haddr _⟩

/-- A datagram from elsewhere is not for this IP. -/
theorem Share.handleUnconnected_other (h : Share ip self own) (ht : Tidy rounds self)
    (haddr : blockKey addr ≠ ip) (env : ListenEnv) (data : Bytes) :
    Share ip (handleUnconnected hash env data addr self).1 own := by
  let I (l : Listener) : Prop := Tidy rounds l ∧ Share ip l own
  have hsend (data : Bytes) : Preserves I (sendTo env data addr) := by
    rw [sendTo]
    split
    · exact .fail _
    · exact .modify fun l hl ↦
        ⟨⟨hl.1.entry, hl.1.blocks_le, hl.1.count_le⟩, hl.2.send_other haddr data⟩
  have hall : Preserves I (handleUnconnected hash env data addr) := by
    cases data with
    | nil => exact .pure ()
    | cons id rest =>
        rw [handleUnconnected]
        refine .ite ?_ (.ite ?_ (.ite ?_ (.ite (.pure ()) (.fail _))))
        · exact .bind (.ofExcept _) fun pk ↦ .bind .get fun _ ↦ hsend _
        · exact .bind (.ofExcept _) fun pk ↦ .bind .get fun _ ↦
            .ite (.bind (hsend _) fun _ ↦ .fail _) (hsend _)
        · refine .bind .get fun _ ↦ .bind (.ofExcept _) fun pk ↦ .ite (.fail _) ?_
          refine .bind (hsend _) fun _ ↦ .modify fun l hl ↦ ?_
          exact ⟨hl.1.openConnection addr _, hl.2.openConnection_other hl.1 haddr _⟩
  exact (hall self ⟨ht, h⟩).2

/-! ### Blocks -/

/-- The fast path makes no difference. -/
theorem Tidy.isBlocked_eq (ht : Tidy rounds self) (addr : SocketAddr) :
    self.isBlocked addr =
      (decide (self.config.blockDuration ≠ 0) && (self.blocks.lookup (blockKey addr)).isSome) := by
  rw [isBlocked]
  by_cases hduration : self.config.blockDuration = 0
  · rw [if_pos (Or.inl hduration), decide_eq_false (not_not.mpr hduration), Bool.false_and]
  · rw [decide_eq_true hduration, Bool.true_and]
    by_cases hcount : self.blockCount = 0
    · have hle := ht.blocks_le
      rw [hcount] at hle
      rw [if_pos (Or.inr hcount), HashMap.eq_empty_of_len (Nat.le_zero.mp hle),
        Finmap.lookup_empty]
      rfl
    · rw [if_neg fun h ↦ h.elim hduration hcount]
      rfl

theorem Share.isBlocked (h : Share ip self own) (ht : Tidy rounds self) (ht' : Tidy rounds own)
    (haddr : blockKey addr = ip) : own.isBlocked addr = self.isBlocked addr := by
  rw [ht.isBlocked_eq, ht'.isBlocked_eq, h.config, haddr, h.block]

theorem Share.blocked (h : Share ip self own) (haddr : blockKey addr = ip) (now : Instant) :
    Share ip (self.block addr now) (own.block addr now) := by
  rw [Listener.block, Listener.block, h.config]
  split
  · exact h
  · refine ⟨rfl, h.guid, h.cookieSalt, h.pongData, h.peers, h.entries, ?_, h.sent⟩
    change (own.blocks.insert (blockKey addr) now).lookup ip =
      (self.blocks.insert (blockKey addr) now).lookup ip
    rw [haddr, Finmap.lookup_insert, Finmap.lookup_insert]

theorem Share.blocked_other (h : Share ip self own) (haddr : blockKey addr ≠ ip) (now : Instant) :
    Share ip (self.block addr now) own := by
  rw [Listener.block]
  split
  · exact h
  · refine ⟨h.config, h.guid, h.cookieSalt, h.pongData, h.peers, h.entries, ?_, h.sent⟩
    exact h.block.trans (Finmap.lookup_insert_of_ne _ (Ne.symm haddr)).symm

/-- A round of `gc_blocks` looks at each block alone. -/
theorem lookup_gcBlocks (ht : Tidy rounds self) (now : Instant) (ip : Octets 16) :
    (self.gcBlocks now).blocks.lookup ip =
      (self.blocks.lookup ip).filter fun t ↦ durationSince now t ≤ self.config.blockDuration := by
  rw [gcBlocks]
  split
  · next hcount =>
    have hle := ht.blocks_le
    rw [hcount] at hle
    rw [HashMap.eq_empty_of_len (Nat.le_zero.mp hle), Finmap.lookup_empty]
    rfl
  · exact HashMap.lookup_retain _ _ _

theorem Share.gcBlocks (h : Share ip self own) (ht : Tidy rounds self) (ht' : Tidy rounds own)
    (now : Instant) : Share ip (self.gcBlocks now) (own.gcBlocks now) := by
  have hblocks : (own.gcBlocks now).blocks.lookup ip = (self.gcBlocks now).blocks.lookup ip := by
    rw [lookup_gcBlocks ht, lookup_gcBlocks ht', h.block, h.config]
  have hrest (l : Listener) : ∃ blocks blockCount,
      l.gcBlocks now = { l with blocks := blocks, blockCount := blockCount } := by
    rw [Listener.gcBlocks]
    split
    · exact ⟨l.blocks, l.blockCount, rfl⟩
    · exact ⟨_, _, rfl⟩
  obtain ⟨blocks, count, hself⟩ := hrest self
  obtain ⟨blocks', count', hown⟩ := hrest own
  rw [hself, hown] at hblocks ⊢
  exact ⟨h.config, h.guid, h.cookieSalt, h.pongData, h.peers, h.entries, hblocks, h.sent⟩

/-! ### Rounds of the loop -/

theorem Share.handle (h : Share ip self own) (ht : Tidy rounds self)
    (haddr : blockKey addr = ip) :
    (Listener.handle build hash env data addr own).2 =
        (Listener.handle build hash env data addr self).2 ∧
      Share ip (Listener.handle build hash env data addr self).1
        (Listener.handle build hash env data addr own).1 := by
  rw [Listener.handle, get_bind, get_bind, h.entries addr haddr]
  cases hi : self.connections.lookup addr with
  | none =>
      have hresult := (@blind_handleUnconnected hash ip rounds addr env data haddr).result ⟨ht, h⟩
      exact ⟨hresult.1.symm, hresult.2.2⟩
  | some i =>
      obtain ⟨peer, hpeer, hremote⟩ := Option.map_eq_some_iff.mp
        ((List.getElem?_map ..).symm.trans (ht.entry addr i hi))
      have hp : From ip peer = true := decide_eq_true (hremote ▸ haddr)
      exact h.receive hpeer hp data

theorem Share.handle_other (h : Share ip self own) (ht : Tidy rounds self)
    (haddr : blockKey addr ≠ ip) :
    Share ip (Listener.handle build hash env data addr self).1 own := by
  rw [Listener.handle, get_bind]
  cases hi : self.connections.lookup addr with
  | none => exact h.handleUnconnected_other ht haddr env data
  | some i =>
      obtain ⟨peer, hpeer, hremote⟩ := Option.map_eq_some_iff.mp
        ((List.getElem?_map ..).symm.trans (ht.entry addr i hi))
      refine h.receive_other (fun peer' hpeer' ↦ ?_) data
      obtain rfl := Option.some.inj (hpeer.symm.trans hpeer')
      exact decide_eq_false fun heq ↦ haddr (hremote ▸ heq)

/-- Both hear a datagram from the IP, with the same result. -/
theorem Share.listenRound (h : Share ip self own) (ht : Tidy rounds self) (ht' : Tidy rounds own)
    (haddr : blockKey addr = ip) :
    (own.listenRound build hash env data addr).2 =
        (self.listenRound build hash env data addr).2 ∧
      Share ip (self.listenRound build hash env data addr).1
        (own.listenRound build hash env data addr).1 := by
  have hhandle := @Share.handle build hash ip self own rounds env data addr h ht haddr
  rw [Listener.listenRound, Listener.listenRound, h.isBlocked ht ht' haddr]
  split
  · exact ⟨rfl, h⟩
  · generalize Listener.handle build hash env data addr self = r at hhandle ⊢
    generalize Listener.handle build hash env data addr own = r' at hhandle ⊢
    obtain ⟨self', r⟩ := r
    obtain ⟨own', r'⟩ := r'
    obtain ⟨rfl, hshare⟩ : r' = r ∧ Share ip self' own' := hhandle
    rcases r' with (e | _) | _
    · exact ⟨rfl, hshare.blocked haddr env.now⟩
    · exact ⟨rfl, hshare⟩
    · exact ⟨rfl, hshare⟩

theorem Share.listenRound_other (h : Share ip self own) (ht : Tidy rounds self)
    (haddr : blockKey addr ≠ ip) :
    Share ip (self.listenRound build hash env data addr).1 own := by
  have hhandle := @Share.handle_other build hash ip self own rounds env data addr h ht haddr
  rw [Listener.listenRound]
  split
  · exact h
  · generalize Listener.handle build hash env data addr self = r at hhandle ⊢
    obtain ⟨self', (e | _) | _⟩ := r
    · exact hhandle.blocked_other haddr env.now
    · exact hhandle
    · exact hhandle

/-! ### Other tasks -/

theorem Share.removeEntry (h : Share ip self own) (hi : self.peers[i]? = some peer)
    (hp : From ip peer = true) :
    Share ip (self.removeEntry i) (own.removeEntry (self.seat ip i)) := by
  rw [Listener.removeEntry, Listener.removeEntry, hi, h.getElem?_seat hi hp]
  dsimp only
  split
  · exact h
  · refine Share.erase ?_ peer.remoteAddr
    exact h.modifyPeer (fun _ ↦ by rfl) hi hp

theorem Share.removeEntry_other (h : Share ip self own)
    (hi : ∀ peer, self.peers[i]? = some peer → From ip peer = false) :
    Share ip (self.removeEntry i) own := by
  rw [Listener.removeEntry]
  split
  · exact h
  · next peer hpeer =>
    split
    · exact h
    · refine Share.erase_other ?_ (of_decide_eq_false (hi peer hpeer))
      exact h.modifyPeer_other (fun _ ↦ by rfl) hi

/-- Both run a task of a connection of the IP, or a task of the listener. -/
theorem Share.task (h : Share ip self own) (ht : Tidy rounds self) (ht' : Tidy rounds own)
    (task : Task) :
    Share ip (task.run build self) own ∨
      ∃ task' : Task, Share ip (task.run build self) (task'.run build own) := by
  have hchange {f : Peer → Peer} (hf : ∀ peer, (f peer).remoteAddr = peer.remoteAddr) (i : Nat) :
      Share ip (self.modifyPeer i f) own ∨
        Share ip (self.modifyPeer i f) (own.modifyPeer (self.seat ip i) f) := by
    by_cases hi : ∃ peer, self.peers[i]? = some peer ∧ From ip peer = true
    · obtain ⟨peer, hi, hp⟩ := hi
      exact Or.inr (h.modifyPeer hf hi hp)
    · refine Or.inl (h.modifyPeer_other hf fun peer hpeer ↦ ?_)
      exact Bool.eq_false_iff.mpr fun hp ↦ hi ⟨peer, hpeer, hp⟩
  cases task with
  | call i sendCall =>
      exact (hchange (fun _ ↦ by rfl) i).imp_right fun hs ↦ ⟨.call (self.seat ip i) sendCall, hs⟩
  | flushAcks i env =>
      exact (hchange (fun _ ↦ by rfl) i).imp_right fun hs ↦ ⟨.flushAcks (self.seat ip i) env, hs⟩
  | close i now =>
      exact (hchange (fun _ ↦ by rfl) i).imp_right fun hs ↦ ⟨.close (self.seat ip i) now, hs⟩
  | established i =>
      exact (hchange (fun _ ↦ by rfl) i).imp_right fun hs ↦ ⟨.established (self.seat ip i), hs⟩
  | closeImmediately i =>
      have haddr (peer : Peer) : peer.closeImmediately.remoteAddr = peer.remoteAddr :=
        congrArg Prod.fst (addr_closeImmediately peer)
      exact (hchange haddr i).imp_right fun hs ↦ ⟨.closeImmediately (self.seat ip i), hs⟩
  | timeOut i =>
      have haddr (peer : Peer) : peer.timeOut.remoteAddr = peer.remoteAddr :=
        congrArg Prod.fst (addr_timeOut peer)
      exact (hchange haddr i).imp_right fun hs ↦ ⟨.timeOut (self.seat ip i), hs⟩
  | removeEntry i =>
      by_cases hi : ∃ peer, self.peers[i]? = some peer ∧ From ip peer = true
      · obtain ⟨peer, hi, hp⟩ := hi
        exact Or.inr ⟨.removeEntry (self.seat ip i), h.removeEntry hi hp⟩
      · refine Or.inl (h.removeEntry_other fun peer hpeer ↦ ?_)
        exact Bool.eq_false_iff.mpr fun hp ↦ hi ⟨peer, hpeer, hp⟩
  | gcBlocks now => exact Or.inr ⟨.gcBlocks now, h.gcBlocks ht ht' now⟩
  | setPongData data =>
      exact Or.inr ⟨.setPongData data,
        h.config, h.guid, h.cookieSalt, rfl, h.peers, h.entries, h.block, h.sent⟩

/-! ### Runs -/

/-- Every step is one of the share, or none. -/
theorem Share.step {self' : Listener} {e : Event} (h : Share ip self own) (ht : Tidy rounds self)
    (ht' : Tidy rounds own) (hs : Step build hash self e self') :
    (Share ip self' own ∧ (datagrams [e]).filter (fun d ↦ decide (blockKey d.2.2 = ip)) = []) ∨
      ∃ e' own', Step build hash own e' own' ∧ Share ip self' own' ∧
        datagrams [e'] = (datagrams [e]).filter fun d ↦ decide (blockKey d.2.2 = ip) := by
  cases hs with
  | @datagram _ env data addr hround =>
      by_cases haddr : blockKey addr = ip
      · obtain ⟨hresult, hshare⟩ := @Share.listenRound build hash ip self own rounds env data addr h
          ht ht' haddr
        rw [hround] at hresult hshare
        refine Or.inr ⟨.datagram env data addr, _, .datagram (Prod.ext rfl hresult), hshare, ?_⟩
        exact (List.filter_singleton ..).trans (by rw [decide_eq_true haddr]; rfl) |>.symm
      · have hshare :=
          @Share.listenRound_other build hash ip self own rounds env data addr h ht haddr
        rw [hround] at hshare
        refine Or.inl ⟨hshare, ?_⟩
        exact (List.filter_singleton ..).trans (by rw [decide_eq_false haddr]; rfl)
  | @task task =>
      rcases @Share.task build ip self own rounds h ht ht' task with hsame | ⟨task', hshare⟩
      · exact Or.inl ⟨hsame, rfl⟩
      · exact Or.inr ⟨.task task', _, .task, hshare, rfl⟩

theorem datagrams_append (es es' : List Event) :
    datagrams (es ++ es') = datagrams es ++ datagrams es' := by
  induction es with
  | nil => rfl
  | cons e es ih =>
      cases e with
      | datagram env data addr => exact congrArg (_ :: ·) ih
      | task task => exact ih

/-- **The clients of an IP are served as if they were alone.**  Whatever a listener receives from
all addresses and whatever its tasks do, there is a run of a new listener that receives the same
datagrams from the addresses of one IP, in the same order and surroundings, and none from elsewhere,
and ends with the same connections of this IP, the same entries for its addresses, the same block,
and the same datagrams sent to it. -/
theorem served_alone {config : ListenConfig} {id : Int64} {cookieSalt : UInt32} {es : List Event}
    (h : (servings build hash).Run (new config id cookieSalt) es self) (hlen : es.length < 2 ^ 32)
    (ip : Octets 16) :
    ∃ es' own, (servings build hash).Run (new config id cookieSalt) es' own ∧
      datagrams es' = (datagrams es).filter (fun d ↦ decide (blockKey d.2.2 = ip)) ∧
        Share ip self own := by
  suffices hrun : ∃ es' own, (servings build hash).Run (new config id cookieSalt) es' own ∧
      datagrams es' = (datagrams es).filter (fun d ↦ decide (blockKey d.2.2 = ip)) ∧
        Share ip self own ∧ Tidy es.length self ∧ Tidy es.length own by
    obtain ⟨es', own, hown, hdatagrams, hshare, -⟩ := hrun
    exact ⟨es', own, hown, hdatagrams, hshare⟩
  induction h with
  | nil => exact ⟨[], _, .nil _, rfl, share_new ip config id cookieSalt, tidy_new .., tidy_new ..⟩
  | @snoc s s' es e hrun hstep ih =>
      rw [List.length_append, List.length_singleton] at hlen
      obtain ⟨es', own, hown, hdatagrams, hshare, ht, ht'⟩ := ih (by omega)
      rw [datagrams_append, List.filter_append, ← hdatagrams, List.length_append,
        List.length_singleton]
      have htidy := ht.step hlen hstep
      rcases hshare.step ht ht' hstep with ⟨hsame, hnone⟩ | ⟨e', own', hstep', hshare', heq⟩
      · exact ⟨es', own, hown, by rw [hnone, List.append_nil], hsame, htidy, ht'.mono⟩
      · refine ⟨es' ++ [e'], own', .snoc hown hstep', ?_, hshare', htidy, ht'.step hlen hstep'⟩
        rw [datagrams_append, heq]

/-- One client is blocked, and another one connects. -/
theorem served_alone_two :
    ∃ es self, (servings .release fun _ ↦ 0).Run (new ⟨true, seconds 10⟩ 1 0) es self ∧
      self.blocks.len = 1 ∧ self.peers.length = 1 ∧
      ∃ es' own, (servings .release fun _ ↦ 0).Run (new ⟨true, seconds 10⟩ 1 0) es' own ∧
        (datagrams es').length = 1 ∧ own.blocks.lookup (mapped ⟨[10, 0, 0, 1], rfl⟩) = none ∧
          own.peers.length = 1 := by
  let env : ListenEnv := .calm
  let addr : SocketAddr := .v4 ⟨[10, 0, 0, 1], rfl⟩ 19132
  let other : SocketAddr := .v4 ⟨[10, 0, 0, 2], rfl⟩ 19132
  let request : Bytes := (OpenConnectionRequest2.new addr 1492 0).write
  let l₀ := new ⟨true, seconds 10⟩ 1 0
  let l₁ := (l₀.listenRound .release (fun _ ↦ 0) env [99] other).1
  let l₂ := (l₁.listenRound .release (fun _ ↦ 0) env request addr).1
  have hrun : (servings .release fun _ ↦ 0).Run l₀
      [.datagram env [99] other, .datagram env request addr] l₂ :=
    .snoc (.snoc (.nil l₀) (Step.datagram (Prod.ext rfl (by decide +kernel))))
      (Step.datagram (Prod.ext rfl (by decide +kernel)))
  obtain ⟨es', own, hown, hdatagrams, hshare⟩ := served_alone hrun (by decide) (blockKey addr)
  refine ⟨_, l₂, hrun, by decide +kernel, by decide +kernel, es', own, hown, ?_, ?_, ?_⟩
  · rw [hdatagrams]
    decide +kernel
  · exact hshare.block.trans (by decide +kernel)
  · rw [hshare.peers]
    decide +kernel

end Share

end Listener

end Ragnet

import Ragnet.Conn.Invariants
import Ragnet.Lib.Directory
import Ragnet.Listener.Service

/-!
# The connections map

The map from addresses to connections is a directory whose owners are the connections.  The loop
enters a connection under an address without an entry, and closes connections at a message.  Other
tasks close a connection first and remove the entry of its address later, whoever is entered by
then: the ticker and `Listener::close` once, and the connect task once more when its time is up,
even if the connection was closed long before.
-/

namespace Ragnet

open Conn Proc Wire

/-- A connection as an owner of its address. -/
def Peer.owner (self : Peer) : Owner SocketAddr :=
  ⟨self.remoteAddr, !self.conn.closed, self.removals⟩

theorem Peer.owner_closeImmediately (peer : Peer) :
    peer.closeImmediately.owner = peer.owner.close := by
  rw [Peer.closeImmediately, Owner.close]
  cases h : peer.conn.closed with
  | true => simp [Peer.owner, h]
  | false => simp [Peer.owner, h]

theorem Peer.owner_timeOut {peer : Peer} (h : peer.waiting = true) :
    peer.timeOut.owner = peer.owner.expire := by
  rw [Peer.timeOut, if_pos h, Owner.expire, ← Peer.owner_closeImmediately]
  rfl

namespace Listener

def directory (self : Listener) : Directory SocketAddr where
  owners := self.peers.map Peer.owner
  table := self.connections

/-- Every connection that is not closed is the entry of its address. -/
def Registered (self : Listener) : Prop :=
  ∀ i peer, self.peers[i]? = some peer → peer.conn.closed = false →
    self.connections.lookup peer.remoteAddr = some i

/-- No removal that is still to come takes the entry of another connection. -/
def RemovesOwn (self : Listener) : Prop :=
  ∀ i addr j, j ≠ i → self.connections.lookup addr = some j →
    (self.removeEntry i).connections.lookup addr = some j

variable {build : Build} {hash : Bytes → UInt32} {env : ListenEnv} {data : Bytes}
  {addr : SocketAddr} {self : Listener} {i : Nat} {peer : Peer}

theorem directory_owner (h : self.peers[i]? = some peer) :
    self.directory.owners[i]? = some peer.owner := by
  rw [directory, List.getElem?_map, h]
  rfl

theorem directory_owner_none (h : self.peers[i]? = none) : self.directory.owners[i]? = none := by
  rw [directory, List.getElem?_map, h]
  rfl

theorem exists_of_directory {owner : Owner SocketAddr}
    (h : self.directory.owners[i]? = some owner) :
    ∃ peer, self.peers[i]? = some peer ∧ peer.owner = owner := by
  rw [directory, List.getElem?_map] at h
  exact Option.map_eq_some_iff.mp h

theorem registered_iff : self.Registered ↔ self.directory.Entered := by
  constructor
  · intro h i owner hi ho
    obtain ⟨peer, hpeer, rfl⟩ := exists_of_directory hi
    exact h i peer hpeer (by rwa [Peer.owner, Bool.not_eq_true'] at ho)
  · intro h i peer hi hclosed
    exact h i _ (directory_owner hi) (by rw [Peer.owner, hclosed]; rfl)

/-! ## What happens to the directory -/

/-- A change of a connection changes its owner. -/
theorem directory_modifyPeer {f : Peer → Peer} {g : Owner SocketAddr → Owner SocketAddr}
    (hf : ∀ peer, self.peers[i]? = some peer → (f peer).owner = g peer.owner) :
    (self.modifyPeer i f).directory = self.directory.change i g := by
  refine congrArg₂ Directory.mk (List.ext_getElem? fun j ↦ ?_) rfl
  rw [modifyPeer, List.getElem?_map, List.getElem?_modify]
  cases hi : self.peers[i]? with
  | none =>
      have hsame := Directory.change_of_none (f := g) (directory_owner_none hi)
      rw [show self.directory.owners.modify i g = self.directory.owners from
        congrArg Directory.owners hsame, directory, List.getElem?_map]
      by_cases hj : i = j
      · rw [← hj, hi]
        rfl
      · cases self.peers[j]? with
        | none => rfl
        | some other =>
            change some (Peer.owner (if i = j then f other else other)) = _
            rw [if_neg hj]
            rfl
  | some peer =>
      have hchange := Directory.getElem?_change (directory_owner hi) g j
      rw [Directory.change] at hchange
      rw [hchange]
      by_cases hj : i = j
      · subst hj
        rw [hi, if_pos rfl, ← hf peer hi]
        change some (Peer.owner (if i = i then f peer else peer)) = _
        rw [if_pos rfl]
      · rw [if_neg (Ne.symm hj), directory, List.getElem?_map]
        cases self.peers[j]? with
        | none => rfl
        | some other =>
            change some (Peer.owner (if i = j then f other else other)) = _
            rw [if_neg hj]
            rfl

/-- A change of something else leaves the directory alone. -/
theorem directory_modifyPeer_same {f : Peer → Peer}
    (hf : ∀ peer, self.peers[i]? = some peer → (f peer).owner = peer.owner) :
    (self.modifyPeer i f).directory = self.directory := by
  rw [directory_modifyPeer (g := fun owner ↦ owner) hf]
  exact congrArg₂ Directory.mk (List.modify_id i _) rfl

/-- The loop retires a connection that it closes. -/
theorem directory_closeImmediately (i : Nat) (self : Listener) :
    (self.closeImmediately i).directory = self.directory.retire i := by
  rw [closeImmediately, Directory.retire]
  cases hi : self.peers[i]? with
  | none => rw [directory_owner_none hi]
  | some peer =>
      rw [directory_owner hi]
      dsimp only
      cases hclosed : peer.conn.closed with
      | true =>
          rw [if_pos rfl, if_neg (by rw [Peer.owner, hclosed]; exact Bool.false_ne_true)]
      | false =>
          rw [if_neg Bool.false_ne_true, if_pos (by rw [Peer.owner, hclosed]; rfl)]
          have hmodify := @directory_modifyPeer self i
            (fun peer ↦ { peer with conn.closed := true })
            (fun owner ↦ { owner with isOpen := false }) fun _ _ ↦ rfl
          exact congrArg₂ Directory.mk (congrArg Directory.owners hmodify) rfl

/-- Another task removes an entry. -/
theorem directory_removeEntry (i : Nat) (self : Listener) :
    (self.removeEntry i).directory = self.directory.remove i := by
  rw [removeEntry, Directory.remove]
  cases hi : self.peers[i]? with
  | none => rw [directory_owner_none hi]
  | some peer =>
      rw [directory_owner hi]
      dsimp only
      by_cases hdone : peer.removals = 0
      · rw [if_pos hdone, if_pos (show peer.owner.removals = 0 from hdone)]
      · rw [if_neg hdone, if_neg (show peer.owner.removals ≠ 0 from hdone)]
        have hmodify := @directory_modifyPeer self i
          (fun peer ↦ { peer with removals := peer.removals - 1 })
          (fun owner ↦ { owner with removals := owner.removals - 1 }) fun _ _ ↦ rfl
        exact congrArg₂ Directory.mk (congrArg Directory.owners hmodify) rfl

theorem removesOwn_iff : self.RemovesOwn ↔ self.directory.RemovesOwn := by
  rw [Directory.removesOwn_iff, RemovesOwn]
  refine forall_congr' fun i ↦ forall_congr' fun addr ↦ forall_congr' fun j ↦
    imp_congr_right fun _ ↦ imp_congr_right fun _ ↦ ?_
  rw [← directory_removeEntry]
  rfl

/-- A message retires the connection that it is for, or leaves the directory alone. -/
theorem directory_handleMessage (i : Nat) (self : Listener) (content : Bytes) :
    (self.handleMessage i content).directory = self.directory ∨
      (self.handleMessage i content).directory = self.directory.retire i := by
  cases content with
  | nil => exact Or.inl rfl
  | cons id _ =>
      rw [handleMessage]
      split
      · rw [markConnected]
        exact Or.inl (directory_modifyPeer_same fun _ _ ↦ rfl)
      split
      · exact Or.inr (directory_closeImmediately i self)
      · exact Or.inl rfl

/-- So do any number of messages. -/
theorem directory_foldl_handleMessage (i : Nat) (contents : List Bytes) (self : Listener) :
    (contents.foldl (handleMessage i) self).directory = self.directory ∨
      (contents.foldl (handleMessage i) self).directory = self.directory.retire i := by
  induction contents generalizing self with
  | nil => exact Or.inl rfl
  | cons content contents ih =>
      rw [List.foldl_cons]
      rcases directory_handleMessage i self content with hsame | hretired
      · rw [← hsame]
        exact ih _
      · have hrest := ih (self.handleMessage i content)
        rw [hretired, Directory.retire_of_closed (Directory.closedAt_retire _ i), or_self] at hrest
        exact Or.inr hrest

theorem directory_block (addr : SocketAddr) (now : Instant) (self : Listener) :
    (self.block addr now).directory = self.directory := by
  rw [block]
  split
  · rfl
  · rfl

/-- What a round does to the directory is what handling its datagram does. -/
theorem directory_listenRound (h : ¬ (data = [] ∨ self.isBlocked addr = true)) :
    (self.listenRound build hash env data addr).1.directory =
      (handle build hash env data addr self).1.directory := by
  rw [listenRound, if_neg h]
  split
  · next self' e he =>
    rw [he]
    exact directory_block addr env.now self'
  · next self' result _ he => rw [he]

/-- A datagram for a connection retires this connection, or leaves the directory alone. -/
theorem directory_listenRound_known (hl : self.connections.lookup addr = some i) :
    (self.listenRound build hash env data addr).1.directory = self.directory ∨
      (self.listenRound build hash env data addr).1.directory = self.directory.retire i := by
  by_cases hskip : data = [] ∨ self.isBlocked addr = true
  · rw [listenRound, if_pos hskip]
    exact Or.inl rfl
  rw [directory_listenRound hskip, handle, get_bind, hl]
  dsimp only
  rw [receive, get_bind]
  cases hp : self.peers[i]? with
  | none => exact Or.inl rfl
  | some peer =>
      dsimp only
      rw [modify_bind, modify_bind, ofExcept_apply]
      generalize messages peer.conn _ = contents
      have hsame : (self.modifyPeer i fun other ↦ { other with
          conn := (Conn.receive build (ListenerConnectionHandler.handler env.timestamp) env.conn
            data peer.conn).1 }).directory = self.directory := by
        refine directory_modifyPeer_same fun other hother ↦ ?_
        obtain rfl := Option.some.inj (hp.symm.trans hother)
        refine congrArg (fun b ↦ Owner.mk peer.remoteAddr (!b) peer.removals) ?_
        exact receive_closed build _ env.conn data peer.conn
      rw [← hsame]
      exact directory_foldl_handleMessage i contents _

/-! ## Which datagrams open a connection -/

/-- A datagram that is not skipped, from an address without a connection, with a request that can be
read and has the right cookie, whose reply is sent. -/
def Opens (hash : Bytes → UInt32) (env : ListenEnv) (data : Bytes) (addr : SocketAddr)
    (self : Listener) : Prop :=
  ¬ (data = [] ∨ self.isBlocked addr = true) ∧ self.connections.lookup addr = none ∧
    env.ioError = none ∧ ∃ rest pk, data = Id.openConnectionRequest2 :: rest ∧
      OpenConnectionRequest2.read
        { OpenConnectionRequest2.default with serverHasSecurity := !self.config.disableCookies }
        rest = .ok pk ∧ pk.cookie = self.cookie hash addr

variable {build : Build} {hash : Bytes → UInt32} {env : ListenEnv} {data : Bytes}
  {addr : SocketAddr} {self : Listener}

/-- Such a datagram opens a connection. -/
theorem Opens.listenRound (build : Build) (h : self.Opens hash env data addr) :
    ∃ sent mtu, (self.listenRound build hash env data addr).1 =
      openConnection addr mtu { self with sent := sent } := by
  obtain ⟨hskip, hlookup, hio, rest, pk, rfl, hread, hcookie⟩ := h
  have hhandle : handle build hash env (Id.openConnectionRequest2 :: rest) addr self =
      handleUnconnected hash env (Id.openConnectionRequest2 :: rest) addr self := by
    rw [handle, get_bind, hlookup]
  rw [listenRound, if_neg hskip, hhandle,
    handleUnconnected_openConnectionRequest2 hash env hread hcookie hio]
  exact ⟨_, _, rfl⟩

theorem directory_openConnection (addr : SocketAddr) (mtu : UInt16) (self : Listener) :
    (self.openConnection addr mtu).directory = self.directory.enroll addr := by
  rw [openConnection, directory, directory, Directory.enroll, List.map_append, List.length_map]
  rfl

theorem Opens.directory (build : Build) (h : self.Opens hash env data addr) :
    (self.listenRound build hash env data addr).1.directory = self.directory.enroll addr := by
  obtain ⟨sent, mtu, hround⟩ := h.listenRound build
  rw [hround]
  exact directory_openConnection addr mtu { self with sent := sent }

/-- Any other datagram from an address without a connection leaves the directory alone. -/
theorem directory_listenRound_unknown (hl : self.connections.lookup addr = none)
    (h : ¬ self.Opens hash env data addr) :
    (self.listenRound build hash env data addr).1.directory = self.directory := by
  by_cases hskip : data = [] ∨ self.isBlocked addr = true
  · rw [listenRound, if_pos hskip]
  rw [directory_listenRound hskip, handle, get_bind, hl]
  dsimp only
  rcases handleUnconnected_sent_or hash env data addr self with ⟨sent, hsent⟩ | ⟨hio, hrequest⟩
  · rw [hsent]
    rfl
  · exact absurd ⟨hskip, hl, hio, hrequest⟩ h

/-! ## Other tasks -/

/-- The connection that a task closes, or whose address it clears. -/
def Task.Ends (i : Nat) : Task → Prop
  | .closeImmediately j => j = i
  | .timeOut j => j = i
  | .removeEntry j => j = i
  | _ => False

/-- What a task does to the directory: closing, expiry and removal, each as the task does it. -/
theorem directory_run (build : Build) (task : Task) (self : Listener) :
    (task.run build self).directory = match task with
      | .closeImmediately i => self.directory.change i Owner.close
      | .timeOut i =>
          if (self.peers[i]?.map Peer.waiting) = some true then
            self.directory.change i Owner.expire
          else self.directory
      | .removeEntry i => self.directory.remove i
      | _ => self.directory := by
  cases task with
  | call i sendCall =>
      exact directory_modifyPeer_same fun peer _ ↦
        congrArg (fun b ↦ Owner.mk peer.remoteAddr (!b) peer.removals)
          (congrArg Receiving.closed (sendCall.run_receiving build peer.conn))
  | flushAcks i env =>
      refine directory_modifyPeer_same fun peer _ ↦ ?_
      obtain ⟨datagrams, hflush⟩ := flushAcks_eq build env peer.conn
      rw [hflush]
      rfl
  | close i now => exact directory_modifyPeer_same fun _ _ ↦ rfl
  | closeImmediately i => exact directory_modifyPeer fun peer _ ↦ peer.owner_closeImmediately
  | established i => exact directory_modifyPeer_same fun _ _ ↦ rfl
  | timeOut i =>
      dsimp only
      split
      · next hw =>
        refine directory_modifyPeer fun peer hi ↦ ?_
        rw [hi] at hw
        exact Peer.owner_timeOut (Option.some.inj hw)
      · next hw =>
        refine directory_modifyPeer_same fun peer hi ↦ ?_
        rw [hi] at hw
        rw [Peer.timeOut, if_neg fun h ↦ hw (congrArg some h)]
  | removeEntry i => exact directory_removeEntry i self
  | gcBlocks now =>
      change (self.gcBlocks now).directory = _
      rw [gcBlocks]
      split
      · rfl
      · rfl
  | setPongData data => rfl

/-- All of them do no more than close connections and remove entries. -/
theorem shrinks_run (build : Build) (task : Task) (self : Listener) :
    self.directory.Shrinks (task.run build self).directory := by
  rw [directory_run]
  cases task with
  | closeImmediately i => exact Directory.shrinks_change (fun _ _ ↦ Owner.isOpen_close _) _ i
  | timeOut i =>
      dsimp only
      split
      · exact Directory.shrinks_change (fun _ _ ↦ Owner.isOpen_expire _) _ i
      · exact .refl _
  | removeEntry i => exact Directory.shrinks_remove _ i
  | _ => exact .refl _

end Listener

namespace Service

variable {build : Build} {hash : Bytes → UInt32} {s s' : Service} {e : Event} {env : ListenEnv}
  {data : Bytes} {addr : SocketAddr} {i : Nat}

/-! ## The removals -/

/-- A datagram opens no connection for an address whose entry an earlier connection of this address
is about to remove, and no connect timer runs out for a connection that is closed while another one
is the entry of its address. -/
def Timely (hash : Bytes → UInt32) (s : Service) : Event → Prop
  | .datagram env data addr => s.listener.Opens hash env data addr →
      ∀ (i : Nat) peer, s.listener.peers[i]? = some peer → peer.remoteAddr = addr →
        peer.removals = 0
  | .task (.timeOut i) => ∀ peer j, s.listener.peers[i]? = some peer → peer.waiting = true →
      peer.conn.closed = true → s.listener.connections.lookup peer.remoteAddr = some j → j = i
  | _ => True

/-- The connection to which a datagram goes or which a task ends. -/
def Concerns (s : Service) (i : Nat) : Event → Prop
  | .datagram _ _ addr => s.listener.connections.lookup addr = some i
  | .task task => task.Ends i
  | _ => False

theorem unclaimed_iff : s.listener.directory.Unclaimed addr ↔
    ∀ (i : Nat) peer, s.listener.peers[i]? = some peer → peer.remoteAddr = addr →
      peer.removals = 0 := by
  constructor
  · exact fun h i peer hi haddr ↦ h i _ (Listener.directory_owner hi) haddr
  · intro h i owner hi haddr
    obtain ⟨peer, hpeer, rfl⟩ := Listener.exists_of_directory hi
    exact h i peer hpeer haddr

/-- A timer that is waited for may run out exactly when it is timely. -/
theorem mayExpire_iff (hw : (s.listener.peers[i]?.map Peer.waiting) = some true) :
    s.listener.directory.MayExpire i ↔ Timely hash s (.task (.timeOut i)) := by
  obtain ⟨peer, hi, hw⟩ := Option.map_eq_some_iff.mp hw
  have howner := Listener.directory_owner hi
  constructor
  · intro h peer' j hi' _ hclosed hj
    obtain rfl := Option.some.inj (hi.symm.trans hi')
    exact h _ j howner (by rw [Peer.owner, hclosed]; rfl) hj
  · intro h owner j ho hclosed hj
    obtain rfl := Option.some.inj (howner.symm.trans ho)
    exact h peer j hi hw (by rwa [Peer.owner, Bool.not_eq_false'] at hclosed) hj

/-- A timely step enters a connection under an address that is free, or does something to the one
connection that it is about. -/
theorem directory_step (hok : Timely hash s e) (hs : Step build hash s e s') :
    (∃ addr, s.listener.connections.lookup addr = none ∧ s.listener.directory.Unclaimed addr ∧
        s'.listener.directory = s.listener.directory.enroll addr) ∨
      s'.listener.directory = s.listener.directory ∨
      ∃ i, Concerns s i e ∧ Directory.Change i s.listener.directory s'.listener.directory := by
  cases hs with
  | @datagram env data addr _ _ =>
      cases hl : s.listener.connections.lookup addr with
      | some i =>
          refine Or.inr (Or.inr ⟨i, hl, ?_⟩)
          rcases @Listener.directory_listenRound_known build hash env data addr s.listener i hl with
            hsame | hretired
          · exact hsame ▸ .none
          · exact hretired ▸ .retire
      | none =>
          by_cases hopens : s.listener.Opens hash env data addr
          · exact Or.inl ⟨addr, hl, unclaimed_iff.mpr (hok hopens), hopens.directory build⟩
          · exact Or.inr (Or.inl (Listener.directory_listenRound_unknown hl hopens))
  | send _ _ | take _ _ _ | skip _ _ _ | read _ => exact Or.inr (Or.inl rfl)
  | @task task =>
      have hrun := Listener.directory_run build task s.listener
      cases task with
      | closeImmediately i => exact Or.inr (Or.inr ⟨i, rfl, hrun ▸ .close⟩)
      | removeEntry i => exact Or.inr (Or.inr ⟨i, rfl, hrun ▸ .remove⟩)
      | timeOut i =>
          dsimp only at hrun
          split at hrun
          · next hw => exact Or.inr (Or.inr ⟨i, rfl, hrun ▸ .expire ((mayExpire_iff hw).mpr hok)⟩)
          · exact Or.inr (Or.inl hrun)
      | _ => exact Or.inr (Or.inl hrun)

theorem sound_step (h : s.listener.directory.Sound) (hok : Timely hash s e)
    (hs : Step build hash s e s') : s'.listener.directory.Sound := by
  rcases directory_step hok hs with ⟨addr, hl, hfree, henroll⟩ | hsame | ⟨i, -, hchange⟩
  · rw [henroll]
    exact h.enroll hl hfree
  · rwa [hsame]
  · exact h.changed hchange

/-- An entry that goes in a timely step is that of the connection which the step is about, and this
is closed by then. -/
theorem entry_step (h : s.listener.directory.Sound) (hok : Timely hash s e)
    (hs : Step build hash s e s') (hl : s.listener.connections.lookup addr = some i) :
    s'.listener.connections.lookup addr = some i ∨
      Concerns s i e ∧ ∃ peer, s'.listener.peers[i]? = some peer ∧ peer.conn.closed = true := by
  rcases directory_step hok hs with ⟨addr', hfree, -, henroll⟩ | hsame | ⟨j, hj, hchange⟩
  · left
    have hentry := Directory.lookup_enroll addr' addr s.listener.directory
    rw [← henroll, if_neg fun heq ↦ ?_] at hentry
    · exact hentry.trans hl
    · rw [heq, hfree] at hl
      cases hl
  · exact Or.inl ((congrArg (fun d : Directory SocketAddr ↦ d.table.lookup addr) hsame).trans hl)
  · refine (h.entry_lasts hchange hl).imp id fun ⟨hij, owner, ho, hclosed⟩ ↦ ?_
    obtain ⟨peer, hpeer, rfl⟩ := Listener.exists_of_directory ho
    rw [Peer.owner, Bool.not_eq_false'] at hclosed
    exact ⟨hij ▸ hj, peer, hpeer, hclosed⟩

/-- After a step that is not timely, a removal is to come that takes the entry of another
connection. -/
theorem timely_of_removesOwn (h : s.listener.directory.Sound) (hs : Step build hash s e s')
    (hown : s'.listener.directory.RemovesOwn) : Timely hash s e := by
  cases hs with
  | @datagram env data addr _ _ =>
      intro hopens
      rw [received, hopens.directory build] at hown
      exact unclaimed_iff.mp ((h.enroll_iff hopens.2.1).mp hown)
  | send _ _ | take _ _ _ | skip _ _ _ | read _ => trivial
  | @task task =>
      cases task with
      | timeOut i =>
          have hrun := Listener.directory_run build (.timeOut i) s.listener
          dsimp only at hrun
          split at hrun
          · next hw =>
            rw [hrun] at hown
            exact (mayExpire_iff hw).mp (h.expire_iff.mp hown)
          · next hw => exact fun peer j hi hpeer ↦ absurd (by rw [hi, ← hpeer]; rfl) hw
      | _ => trivial

theorem sound_of_reachable (h : ((services build hash).restrict (Timely hash)).Reachable s) :
    s.listener.directory.Sound := by
  refine h.invariant (I := fun s ↦ s.listener.directory.Sound) ?_ ?_
  · rintro _ ⟨config, id, cookieSalt, rfl⟩
    exact Directory.sound_empty
  · intro s e s' _ hs hstep
    exact sound_step hs hstep.1 hstep.2

/-- **Every open connection is in the map while the removals are timely.**  In every run in which
no connection is opened for an address whose entry is about to be removed, and no connect timer runs
out for a closed connection while another one is entered, every connection that is not closed is the
entry of its address, every removal that is still to come takes the entry of its own connection or
none, and an entry only goes when its connection is given a datagram or is ended by a task, and is
closed by then.  The first step that is not timely is the end of that. -/
theorem registered_while_timely
    (h : ((services build hash).restrict (Timely hash)).Reachable s) :
    (s.listener.Registered ∧ s.listener.RemovesOwn) ∧
      ∀ e s', (services build hash).step s e s' →
        (s'.listener.Registered ∧ s'.listener.RemovesOwn ↔ Timely hash s e) ∧
        (Timely hash s e → ∀ addr i, s.listener.connections.lookup addr = some i →
          s'.listener.connections.lookup addr = some i ∨
            Concerns s i e ∧ ∃ peer, s'.listener.peers[i]? = some peer ∧
              peer.conn.closed = true) := by
  have hsound := sound_of_reachable h
  have hboth {l : Listener} (hl : l.directory.Sound) : l.Registered ∧ l.RemovesOwn :=
    ⟨Listener.registered_iff.mpr hl.entered, Listener.removesOwn_iff.mpr hl.removesOwn⟩
  refine ⟨hboth hsound,
    fun e s' hstep ↦ ⟨⟨fun ⟨_, hown⟩ ↦ ?_, fun hok ↦ ?_⟩, fun hok addr i hl ↦ ?_⟩⟩
  · exact timely_of_removesOwn hsound hstep (Listener.removesOwn_iff.mp hown)
  · exact hboth (sound_step hsound hok hstep)
  · exact entry_step hsound hok hstep hl

/-! ## A timer that is still running -/

def disconnect : Bytes :=
  Conn.datagram (Uint24.new 0) { Packet.new with content := [Id.disconnectNotification] }

/-- The client has connected, disconnected and connected again. -/
def reconnected : Service := ((start.given openRequest).given disconnect).given openRequest

theorem reconnected_reachable :
    ((services .release fun _ ↦ 0).restrict (Timely fun _ ↦ 0)).Reachable reconnected := by
  have hgive {s : Service} {data : Bytes} (hr : s.Receiving) (hlen : data.length ≤ 1500)
      (hdone : ∀ peer ∈ s.listener.peers, peer.removals = 0) :
      ((services .release fun _ ↦ 0).restrict (Timely fun _ ↦ 0)).step s
        (.datagram .calm data clientAddr) (s.given data) :=
    ⟨fun _ i peer hi _ ↦ hdone peer (List.mem_of_getElem? hi), .datagram hr hlen⟩
  refine .step (.step (.step (.init ⟨_, _, _, rfl⟩) (hgive receiving_start ?_ ?_))
    (hgive (receiving_of_quiet ?_ ?_) ?_ ?_)) (hgive (receiving_of_quiet ?_ ?_) ?_ ?_)
  all_goals decide +kernel

def after (task : Listener.Task) (s : Service) : Service :=
  { s with listener := task.run .release s.listener }

/-- The timer of the second connection runs out, and its entry is removed, twice. -/
theorem registered_while_timely_reconnected :
    ∃ s, ((services .release fun _ ↦ 0).restrict (Timely fun _ ↦ 0)).Reachable s ∧
      reconnected.listener.connections.lookup clientAddr = some 1 ∧
      s.listener.connections.lookup clientAddr = none ∧
      s.listener.Registered ∧ s.listener.RemovesOwn := by
  have htimely : Timely (fun _ ↦ 0) reconnected (.task (.timeOut 1)) := by
    intro peer j hi _ hclosed
    have hopen : (reconnected.listener.peers[1]?.map fun peer ↦ peer.conn.closed) = some false := by
      decide +kernel
    rw [hi, Option.map_some, hclosed] at hopen
    cases hopen
  have hexpired : ((services .release fun _ ↦ 0).restrict (Timely fun _ ↦ 0)).Reachable
      (reconnected.after (.timeOut 1)) :=
    reconnected_reachable.step (a := .task (.timeOut 1)) ⟨htimely, .task⟩
  have hremoved : ((services .release fun _ ↦ 0).restrict (Timely fun _ ↦ 0)).Reachable
      ((reconnected.after (.timeOut 1)).after (.removeEntry 1)) :=
    hexpired.step (a := .task (.removeEntry 1)) ⟨trivial, .task⟩
  have hagain : ((services .release fun _ ↦ 0).restrict (Timely fun _ ↦ 0)).Reachable
      (((reconnected.after (.timeOut 1)).after (.removeEntry 1)).after (.removeEntry 1)) :=
    hremoved.step (a := .task (.removeEntry 1)) ⟨trivial, .task⟩
  exact ⟨_, hagain, by decide +kernel, by decide +kernel, (registered_while_timely hagain).1⟩

/-- The timer of the first connection runs out, and its task removes the entry of the second. -/
theorem stale_timer_evicts :
    ∃ s, (services .release fun _ ↦ 0).Reachable s ∧ ¬ s.listener.Registered := by
  let evicted := (reconnected.after (.timeOut 0)).after (.removeEntry 0)
  have hexpired : (services .release fun _ ↦ 0).Reachable (reconnected.after (.timeOut 0)) :=
    reconnected_reachable.of_restrict.step (a := .task (.timeOut 0)) .task
  have hevicted : (services .release fun _ ↦ 0).Reachable evicted :=
    hexpired.step (a := .task (.removeEntry 0)) .task
  refine ⟨evicted, hevicted, fun h ↦ ?_⟩
  have hpeer : (evicted.listener.peers[1]?).map
      (fun peer ↦ (peer.remoteAddr, peer.conn.closed)) = some (clientAddr, false) := by
    decide +kernel
  obtain ⟨peer, hi, hfields⟩ := Option.map_eq_some_iff.mp hpeer
  obtain ⟨haddr, hclosed⟩ := Prod.mk.inj hfields
  have hentry := h 1 peer hi hclosed
  rw [haddr] at hentry
  have hnone : evicted.listener.connections.lookup clientAddr = none := by decide +kernel
  rw [hnone] at hentry
  cases hentry

end Service

end Ragnet

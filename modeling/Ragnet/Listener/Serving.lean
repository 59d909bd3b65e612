import Ragnet.Conn.Traffic
import Ragnet.Lib.Lts
import Ragnet.Listener

/-!
# A listener at work

The loop receives datagrams, and the other tasks of the listener and of its connections run in
between.
-/

namespace Ragnet

open Conn Proc Wire

namespace Listener

/-! ## What happens to a listener -/

inductive Event where
  /-- The loop receives a datagram. -/
  | datagram (env : ListenEnv) (data : Bytes) (addr : SocketAddr)
  /-- Another task runs. -/
  | task (task : Task)

def datagrams : List Event → List (ListenEnv × Bytes × SocketAddr)
  | [] => []
  | .datagram env data addr :: es => (env, data, addr) :: datagrams es
  | .task _ :: es => datagrams es

section System

variable (build : Build) (hash : Bytes → UInt32)

/-- What it does; a round that panics is none. -/
inductive Step : Listener → Event → Listener → Prop
  | datagram {self self' : Listener} {env : ListenEnv} {data : Bytes} {addr : SocketAddr} :
      self.listenRound build hash env data addr = (self', .ok ()) →
        Step self (.datagram env data addr) self'
  | task {self : Listener} {task : Task} : Step self (.task task) (task.run build self)

def servings : Lts Listener Event where
  init self := ∃ config id cookieSalt, self = new config id cookieSalt
  step := Step build hash

end System

/-! ## What a listener keeps in order -/

def addrs (self : Listener) : List SocketAddr := self.peers.map Peer.remoteAddr

/-- The entries of the map are connections of their addresses, and the count of blocks has not
wrapped around in so many rounds. -/
structure Tidy (rounds : Nat) (l : Listener) : Prop where
  entry : ∀ addr i, l.connections.lookup addr = some i → l.addrs[i]? = some addr
  blocks_le : l.blocks.len ≤ l.blockCount.toNat
  count_le : l.blockCount.toNat ≤ rounds

section Tidy

variable {build : Build} {hash : Bytes → UInt32} {self self' : Listener} {rounds i : Nat}
  {env : ListenEnv} {data : Bytes} {addr : SocketAddr} {e : Event}

theorem tidy_new (config : ListenConfig) (id : Int64) (cookieSalt : UInt32) :
    (new config id cookieSalt).Tidy 0 where
  entry := fun addr i h ↦ by
    rw [new, Finmap.lookup_empty] at h
    cases h
  blocks_le := Nat.le_refl 0
  count_le := Nat.le_refl 0

/-- The connections that have been granted, with their MTUs. -/
def grants (self : Listener) : List (SocketAddr × Mtu) :=
  self.peers.map fun peer ↦ (peer.remoteAddr, peer.conn.mtu)

theorem addrs_eq_map_grants (self : Listener) : self.addrs = self.grants.map Prod.fst := by
  rw [addrs, grants, List.map_map]
  rfl

theorem grants_modifyPeer {f : Peer → Peer}
    (hf : ∀ peer, self.peers[i]? = some peer →
      ((f peer).remoteAddr, (f peer).conn.mtu) = (peer.remoteAddr, peer.conn.mtu)) :
    (self.modifyPeer i f).grants = self.grants := by
  refine List.ext_getElem? fun j ↦ ?_
  rw [grants, grants, modifyPeer, List.getElem?_map, List.getElem?_map, List.getElem?_modify]
  cases hj : self.peers[j]? with
  | none => rfl
  | some peer =>
      change some ((if i = j then f peer else peer).remoteAddr,
        (if i = j then f peer else peer).conn.mtu) = some (peer.remoteAddr, peer.conn.mtu)
      split
      · next heq => exact congrArg some (hf peer (heq ▸ hj))
      · rfl

theorem addrs_modifyPeer {f : Peer → Peer} (hf : ∀ peer, (f peer).remoteAddr = peer.remoteAddr)
    (i : Nat) (self : Listener) : (self.modifyPeer i f).addrs = self.addrs := by
  refine List.ext_getElem? fun j ↦ ?_
  rw [addrs, addrs, modifyPeer, List.getElem?_map, List.getElem?_map, List.getElem?_modify]
  cases self.peers[j]? with
  | none => rfl
  | some peer =>
      change some (if i = j then f peer else peer).remoteAddr = some peer.remoteAddr
      split
      · rw [hf]
      · rfl

/-- Connections change, and entries go. -/
structure Dwindles (l l' : Listener) : Prop where
  config : l'.config = l.config
  grants : l'.grants = l.grants
  sent : l'.sent = l.sent
  entries : ∀ addr i, l'.connections.lookup addr = some i → l.connections.lookup addr = some i
  blocks : l'.blocks = l.blocks
  blockCount : l'.blockCount = l.blockCount

theorem Dwindles.refl (self : Listener) : Dwindles self self :=
  ⟨rfl, rfl, rfl, fun _ _ h ↦ h, rfl, rfl⟩

theorem Dwindles.trans {self'' : Listener} (h : Dwindles self self') (h' : Dwindles self' self'') :
    Dwindles self self'' :=
  ⟨h'.config.trans h.config, h'.grants.trans h.grants, h'.sent.trans h.sent,
    fun addr i hi ↦ h.entries addr i (h'.entries addr i hi), h'.blocks.trans h.blocks,
    h'.blockCount.trans h.blockCount⟩

theorem Dwindles.addrs (h : Dwindles self self') : self'.addrs = self.addrs := by
  rw [addrs_eq_map_grants, addrs_eq_map_grants, h.grants]

theorem Dwindles.tidy (hk : Dwindles self self') (h : Tidy rounds self) : Tidy rounds self' where
  entry := fun addr i hi ↦ by
    rw [hk.addrs]
    exact h.entry addr i (hk.entries addr i hi)
  blocks_le := by
    rw [hk.blocks, hk.blockCount]
    exact h.blocks_le
  count_le := by
    rw [hk.blockCount]
    exact h.count_le

theorem dwindles_modifyPeer {f : Peer → Peer}
    (hf : ∀ peer, self.peers[i]? = some peer →
      ((f peer).remoteAddr, (f peer).conn.mtu) = (peer.remoteAddr, peer.conn.mtu)) :
    Dwindles self (self.modifyPeer i f) :=
  ⟨rfl, grants_modifyPeer hf, rfl, fun _ _ h ↦ h, rfl, rfl⟩

theorem dwindles_erase (self : Listener) (addr : SocketAddr) :
    Dwindles self { self with connections := self.connections.erase addr } := by
  refine ⟨rfl, rfl, rfl, fun addr' i h ↦ ?_, rfl, rfl⟩
  rw [HashMap.lookup_erase_eq] at h
  split at h
  · cases h
  · exact h

theorem dwindles_closeImmediately (i : Nat) (self : Listener) :
    Dwindles self (self.closeImmediately i) := by
  rw [closeImmediately]
  split
  · exact .refl self
  split
  · exact .refl self
  · refine Dwindles.trans ?_ (dwindles_erase _ _)
    exact dwindles_modifyPeer fun _ _ ↦ by rfl

theorem dwindles_handleMessage (i : Nat) (self : Listener) (content : Bytes) :
    Dwindles self (self.handleMessage i content) := by
  cases content with
  | nil => exact .refl self
  | cons id _ =>
      rw [handleMessage]
      split
      · rw [markConnected]
        exact dwindles_modifyPeer fun _ _ ↦ by rfl
      split
      · exact dwindles_closeImmediately i self
      · exact .refl self

theorem dwindles_foldl_handleMessage (i : Nat) (contents : List Bytes) (self : Listener) :
    Dwindles self (contents.foldl (handleMessage i) self) := by
  induction contents generalizing self with
  | nil => exact .refl self
  | cons content contents ih => exact (dwindles_handleMessage i self content).trans (ih _)

theorem dwindles_receive (i : Nat) (data : Bytes) (self : Listener) :
    Dwindles self (receive build env i data self).1 := by
  rw [receive, get_bind]
  cases hi : self.peers[i]? with
  | none => exact .refl self
  | some peer =>
      dsimp only
      rw [modify_bind, modify_bind, ofExcept_apply]
      refine Dwindles.trans (dwindles_modifyPeer fun peer' hi' ↦ ?_)
        (dwindles_foldl_handleMessage i _ _)
      obtain rfl := Option.some.inj (hi.symm.trans hi')
      exact congrArg _ (receive_mtu build peer.conn _ _ data)

/-- Closing a connection and the end of its timer keep its address and its MTU. -/
theorem addr_closeImmediately (peer : Peer) :
    (peer.closeImmediately.remoteAddr, peer.closeImmediately.conn.mtu) =
      (peer.remoteAddr, peer.conn.mtu) := by
  rw [Peer.closeImmediately]
  split
  · rfl
  · rfl

theorem addr_timeOut (peer : Peer) :
    (peer.timeOut.remoteAddr, peer.timeOut.conn.mtu) = (peer.remoteAddr, peer.conn.mtu) := by
  rw [Peer.timeOut]
  split
  · exact addr_closeImmediately peer
  · rfl

theorem dwindles_removeEntry (i : Nat) (self : Listener) :
    Dwindles self (self.removeEntry i) := by
  rw [removeEntry]
  split
  · exact .refl self
  split
  · exact .refl self
  · refine Dwindles.trans ?_ (dwindles_erase _ _)
    exact dwindles_modifyPeer fun _ _ ↦ by rfl

/-- A task of a connection. -/
theorem dwindles_task {task : Task} (hgc : ∀ now, task ≠ .gcBlocks now) :
    Dwindles self (task.run build self) := by
  cases task with
  | call i sendCall =>
      exact dwindles_modifyPeer fun peer _ ↦
        congrArg _ (SendCall.run_mtu build peer.conn sendCall)
  | flushAcks i env =>
      exact dwindles_modifyPeer fun peer _ ↦ congrArg _ (flushAcks_mtu build peer.conn env)
  | close i now => exact dwindles_modifyPeer fun _ _ ↦ by rfl
  | closeImmediately i => exact dwindles_modifyPeer fun peer _ ↦ addr_closeImmediately peer
  | established i => exact dwindles_modifyPeer fun _ _ ↦ by rfl
  | timeOut i => exact dwindles_modifyPeer fun peer _ ↦ addr_timeOut peer
  | removeEntry i => exact dwindles_removeEntry i self
  | gcBlocks now => exact absurd rfl (hgc now)
  | setPongData data => exact ⟨rfl, rfl, rfl, fun _ _ h ↦ h, rfl, rfl⟩

/-- A new connection is the entry of its address. -/
theorem Tidy.openConnection (h : Tidy rounds self) (addr : SocketAddr) (mtu : UInt16) :
    (self.openConnection addr mtu).Tidy rounds where
  entry := fun addr' i hi ↦ by
    rw [Listener.openConnection, HashMap.lookup_insert_eq] at hi
    have haddrs : (self.openConnection addr mtu).addrs = self.addrs ++ [addr] := by
      rw [addrs, Listener.openConnection, List.map_append]
      rfl
    have hlen : self.addrs.length = self.peers.length := List.length_map _
    rw [haddrs]
    split at hi
    · next heq =>
      obtain rfl := Option.some.inj hi
      rw [heq, ← hlen, List.getElem?_concat_length]
    · have hold := h.entry addr' i hi
      rwa [List.getElem?_append_left (List.getElem?_eq_some_iff.mp hold).1]
  blocks_le := h.blocks_le
  count_le := h.count_le

theorem Tidy.handle (h : Tidy rounds self) :
    (Listener.handle build hash env data addr self).1.Tidy rounds := by
  rw [Listener.handle, get_bind]
  cases self.connections.lookup addr with
  | some i => exact (dwindles_receive i data self).tidy h
  | none =>
    obtain ⟨sent, hsame | ⟨mtu, hopened⟩⟩ := handleUnconnected_cases hash env data addr self
    · rw [hsame]
      exact ⟨h.entry, h.blocks_le, h.count_le⟩
    · rw [hopened]
      refine Tidy.openConnection ?_ addr mtu
      exact ⟨h.entry, h.blocks_le, h.count_le⟩

theorem Tidy.mono (h : Tidy rounds self) : self.Tidy (rounds + 1) :=
  ⟨h.entry, h.blocks_le, h.count_le.trans (Nat.le_succ rounds)⟩

theorem Tidy.block (h : Tidy rounds self) (hlt : rounds + 1 < 2 ^ 32) (now : Instant) :
    (self.block addr now).Tidy (rounds + 1) := by
  rw [Listener.block]
  split
  · exact h.mono
  · have hcount : (self.blockCount + 1).toNat = self.blockCount.toNat + 1 := by
      have hle := h.count_le
      rw [UInt32.toNat_add]
      exact Nat.mod_eq_of_lt (by change _ + 1 < _; omega)
    refine ⟨h.entry, ?_, ?_⟩
    · change HashMap.len (self.blocks.insert (blockKey addr) now) ≤ (self.blockCount + 1).toNat
      rw [hcount]
      by_cases hmem : blockKey addr ∈ self.blocks
      · rw [HashMap.len_insert_of_mem hmem]
        exact h.blocks_le.trans (Nat.le_succ _)
      · rw [HashMap.len_insert_of_notMem hmem]
        exact Nat.succ_le_succ h.blocks_le
    · change (self.blockCount + 1).toNat ≤ rounds + 1
      rw [hcount]
      exact Nat.succ_le_succ h.count_le

theorem Tidy.gcBlocks (h : Tidy rounds self) (now : Instant) :
    (self.gcBlocks now).Tidy rounds := by
  rw [Listener.gcBlocks]
  split
  · exact h
  · have hlen := HashMap.len_retain_le self.blocks
      fun _ t ↦ durationSince now t ≤ self.config.blockDuration
    have hcount : (UInt32.ofNat (self.blocks.retain
        fun _ t ↦ durationSince now t ≤ self.config.blockDuration).len).toNat =
          (self.blocks.retain fun _ t ↦ durationSince now t ≤ self.config.blockDuration).len := by
      have hlt : self.blockCount.toNat < 2 ^ 32 := self.blockCount.toNat_lt
      exact UInt32.toNat_ofNat_of_lt' ((hlen.trans h.blocks_le).trans_lt hlt)
    exact ⟨h.entry, hcount.ge, hcount.le.trans ((hlen.trans h.blocks_le).trans h.count_le)⟩

/-- Everything keeps a listener in order. -/
theorem Tidy.step (h : Tidy rounds self) (hlt : rounds + 1 < 2 ^ 32)
    (hs : Step build hash self e self') : Tidy (rounds + 1) self' := by
  cases hs with
  | @datagram _ env data addr hround =>
      have hhandle := @Tidy.handle build hash self rounds env data addr h
      have hself' : self' = (self.listenRound build hash env data addr).1 := by rw [hround]
      rw [hself', listenRound]
      split
      · exact h.mono
      split
      · next l _ heq =>
        rw [heq] at hhandle
        exact hhandle.block hlt env.now
      · next l _ _ heq =>
        rw [heq] at hhandle
        exact hhandle.mono
  | @task task =>
      by_cases hgc : ∃ now, task = .gcBlocks now
      · obtain ⟨now, rfl⟩ := hgc
        exact (h.gcBlocks now).mono
      · exact ((dwindles_task fun now heq ↦ hgc ⟨now, heq⟩).tidy h).mono

end Tidy

end Listener

end Ragnet

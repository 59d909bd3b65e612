import Ragnet.Dialer.Handshake
import Ragnet.Listener.Serving

/-!
# Dialing over a network

A dialer and a listener exchange datagrams that get lost, are repeated, and overtake one another.
What is longer than the path admits never reaches the listener.  The dialer may give up its wait at
any time, and answers that come late are taken for answers to later requests.
-/

namespace Ragnet

open Conn Proc Wire

/-! ## Other business of a listener -/

namespace Listener

/-- A listener has had nothing to do with an address in between. -/
structure Aloof (addr : SocketAddr) (l l' : Listener) : Prop where
  config : l'.config = l.config
  sent : ∀ reply, (addr, reply) ∈ l'.sent → (addr, reply) ∈ l.sent
  grants : ∀ mtu, (addr, mtu) ∈ l'.grants ↔ (addr, mtu) ∈ l.grants

section Aloof

variable {build : Build} {hash : Bytes → UInt32} {env : ListenEnv} {self self' : Listener}
  {data : Bytes} {addr addr' : SocketAddr} {e : Event}

theorem Dwindles.aloof (h : Dwindles self self') (addr : SocketAddr) : Aloof addr self self' where
  config := h.config
  sent reply hreply := h.sent ▸ hreply
  grants mtu := by rw [h.grants]

theorem Aloof.refl (addr : SocketAddr) (self : Listener) : Aloof addr self self :=
  (Dwindles.refl self).aloof addr

theorem grants_block (addr : SocketAddr) (now : Instant) (self : Listener) :
    (self.block addr now).config = self.config ∧ (self.block addr now).sent = self.sent ∧
      (self.block addr now).grants = self.grants := by
  rw [block]
  split <;> exact ⟨rfl, rfl, rfl⟩

theorem Aloof.block (h : Aloof addr self self') (addr' : SocketAddr) (now : Instant) :
    Aloof addr self (self'.block addr' now) := by
  obtain ⟨hconfig, hsent, hgrants⟩ := grants_block addr' now self'
  refine ⟨hconfig.trans h.config, fun reply hreply ↦ ?_, fun mtu ↦ ?_⟩
  · rw [hsent] at hreply
    exact h.sent reply hreply
  · rw [hgrants]
    exact h.grants mtu

theorem grants_openConnection (addr : SocketAddr) (mtu : UInt16) (self : Listener) :
    (self.openConnection addr mtu).grants = self.grants ++ [(addr, Mtu.clamp mtu.toNat)] := by
  rw [grants, openConnection, List.map_append]
  rfl

/-- What the loop does with a datagram is a matter of its address alone. -/
theorem aloof_handleUnconnected (hne : addr' ≠ addr) :
    Aloof addr self (handleUnconnected hash env data addr' self).1 := by
  have hsend (reply : Bytes) : Proc.Preserves (Aloof addr self) (sendTo env reply addr') := by
    rw [sendTo]
    split
    · exact .fail _
    · refine .modify fun l hl ↦ ⟨hl.config, fun reply' hreply ↦ ?_, hl.grants⟩
      rcases List.mem_append.mp hreply with hreply | hreply
      · exact hl.sent reply' hreply
      · exact absurd (Prod.mk.inj (List.mem_singleton.mp hreply)).1.symm hne
  have hopen (mtu : UInt16) :
      Proc.Preserves (Aloof addr self) (Proc.modify (openConnection addr' mtu) : Action Unit) := by
    refine .modify fun l hl ↦ ⟨hl.config, hl.sent, fun mtu' ↦ ?_⟩
    rw [grants_openConnection, List.mem_append]
    refine (or_iff_left fun hmem ↦ ?_).trans (hl.grants mtu')
    exact hne (Prod.mk.inj (List.mem_singleton.mp hmem)).1.symm
  suffices h : Proc.Preserves (Aloof addr self) (handleUnconnected hash env data addr') from
    h self (.refl addr self)
  cases data with
  | nil => exact .pure ()
  | cons id rest =>
      refine .ite ?_ (.ite ?_ (.ite ?_ (.ite (.pure ()) (.fail _))))
      · exact .bind (.ofExcept _) fun _ ↦ .bind .get fun _ ↦ hsend _
      · exact .bind (.ofExcept _) fun _ ↦ .bind .get fun _ ↦
          .ite (.bind (hsend _) fun _ ↦ .fail _) (hsend _)
      · exact .bind .get fun _ ↦ .bind (.ofExcept _) fun _ ↦
          .ite (.fail _) (.bind (hsend _) fun _ ↦ hopen _)

/-- A round of the loop leaves the datagram, hands it to a connection, or handles it itself; then it
may block the address. -/
theorem listenRound_induction {P : Listener → Prop} (hself : P self)
    (hblock : ∀ l, P l → P (l.block addr env.now))
    (hreceive : ∀ i, P (receive build env i data self).1)
    (hhandle : P (handleUnconnected hash env data addr self).1) :
    P (self.listenRound build hash env data addr).1 := by
  have hround : P (Listener.handle build hash env data addr self).1 := by
    rw [Listener.handle, get_bind]
    cases self.connections.lookup addr with
    | some i => exact hreceive i
    | none => exact hhandle
  rw [listenRound]
  split
  · exact hself
  split
  · next l _ heq =>
    rw [heq] at hround
    exact hblock l hround
  · next l _ _ heq =>
    rw [heq] at hround
    exact hround

theorem aloof_step (hs : Step build hash self e self')
    (he : ∀ env data, e ≠ .datagram env data addr) : Aloof addr self self' := by
  cases hs with
  | @datagram _ env data addr' hround =>
      have hself' : self' = (self.listenRound build hash env data addr').1 := by rw [hround]
      rw [hself']
      refine listenRound_induction (.refl addr self) (fun l hl ↦ hl.block addr' env.now)
        (fun i ↦ (dwindles_receive i data self).aloof addr) (aloof_handleUnconnected ?_)
      rintro rfl
      exact he env data rfl
  | @task task =>
      by_cases hgc : ∃ now, task = .gcBlocks now
      · obtain ⟨now, rfl⟩ := hgc
        rw [Task.run, gcBlocks]
        split
        · exact .refl addr self
        · exact ⟨rfl, fun _ h ↦ h, fun _ ↦ Iff.rfl⟩
      · exact (dwindles_task fun now heq ↦ hgc ⟨now, heq⟩).aloof addr

end Aloof

/-- What the loop does with a second request: it answers it and opens the connection, or
nothing. -/
theorem handleUnconnected_request_cases {hash : Bytes → UInt32} {env : ListenEnv}
    {self : Listener} {rest : Bytes} {addr : SocketAddr} {pk : OpenConnectionRequest2}
    (hread : OpenConnectionRequest2.read
      { OpenConnectionRequest2.default with serverHasSecurity := !self.config.disableCookies }
      rest = .ok pk) :
    (handleUnconnected hash env (Id.openConnectionRequest2 :: rest) addr self).1 = self ∨
      (handleUnconnected hash env (Id.openConnectionRequest2 :: rest) addr self).1 =
        self.granted addr (agreedMtu pk.mtu) := by
  by_cases hok : pk.cookie = self.cookie hash addr ∧ env.ioError = none
  · rw [handleUnconnected_openConnectionRequest2 hash env hread hok.1 hok.2]
    exact Or.inr rfl
  · left
    have hid : ¬ (Id.openConnectionRequest2 = Id.unconnectedPing ∨
        Id.openConnectionRequest2 = Id.unconnectedPingOpenConnections) := by decide
    have hid' : ¬ Id.openConnectionRequest2 = Id.openConnectionRequest1 := by decide
    rw [handleUnconnected, if_neg hid, if_neg hid', if_pos rfl, handleOpenConnectionRequest2,
      get_bind, hread, ofExcept_ok_bind]
    dsimp only
    by_cases hcookie : pk.cookie = self.cookie hash addr
    · rw [if_neg (fun hn ↦ hn hcookie), sendTo]
      cases hio : env.ioError with
      | none => exact absurd ⟨hcookie, hio⟩ hok
      | some message => rfl
    · rw [if_pos hcookie]
      rfl

end Listener

/-- A dialer, a listener, and the path between them. -/
structure Route where
  build : Build
  hash : Bytes → UInt32
  errorCount : UInt32
  clientGuid : UInt64
  /-- The address of the listener. -/
  remoteAddr : SocketAddr
  /-- The address of the dialer. -/
  clientAddr : SocketAddr
  /-- The bytes of the longest datagram that gets through. -/
  limit : Nat

/-- A listener, and a call that dials it. -/
structure Dialing where
  listener : Listener
  dial : Dial

namespace Dialing

/-! ## What happens -/

inductive Event where
  /-- A round of the dialer sends its request. -/
  | send (ioError : Option String)
  /-- A request arrives at the listener. -/
  | arrive (env : ListenEnv) (data : Bytes)
  /-- The wait of a round ends, with a datagram or without. -/
  | answer (received : Option Bytes)
  /-- The time of the call is over. -/
  | expire
  /-- The listener goes about something else. -/
  | other (e : Listener.Event)

/-- It is the dialer that does something. -/
def Event.dials : Event → Bool
  | .send _ => true
  | .answer _ => true
  | .expire => true
  | .arrive _ _ => false
  | .other _ => false

/-- A datagram that reaches the dialer: a reply of the listener, or a datagram of a connection. -/
def Incoming (r : Route) (s : Dialing) (data : Bytes) : Prop :=
  (∃ reply, (r.clientAddr, reply) ∈ s.listener.sent ∧ data = reply.take bufferSize) ∨
    ∃ flags rest, data = flags :: rest ∧ flags &&& bitFlagDatagram ≠ 0

inductive Step (r : Route) : Dialing → Event → Dialing → Prop
  | send {s : Dialing} {ioError : Option String} :
      s.dial.waiting = false → s.dial.stage.request r.build r.remoteAddr r.clientGuid ≠ none →
        Step r s (.send ioError)
          { s with dial := s.dial.send r.build r.remoteAddr r.clientGuid ioError }
  | arrive {s : Dialing} {env : ListenEnv} {data : Bytes} {self' : Listener} :
      data ∈ s.dial.sent → data.length ≤ r.limit →
        s.listener.listenRound r.build r.hash env (data.take bufferSize) r.clientAddr =
          (self', .ok ()) →
        Step r s (.arrive env data) { s with listener := self' }
  | answer {s : Dialing} {received : Option Bytes} :
      s.dial.waiting = true → (∀ data, received = some data → Incoming r s data) →
        Step r s (.answer received) { s with dial := s.dial.answer r.errorCount received }
  | expire {s : Dialing} :
      s.dial.stage.request r.build r.remoteAddr r.clientGuid ≠ none →
        Step r s .expire { s with dial := s.dial.expire }
  | other {s : Dialing} {e : Listener.Event} {self' : Listener} :
      (∀ env data, e ≠ .datagram env data r.clientAddr) →
        Listener.Step r.build r.hash s.listener e self' →
        Step r s (.other e) { s with listener := self' }

/-- Calls that begin when the listener has not had anything to do with the dialer's address. -/
def dialings (r : Route) : Lts Dialing Event where
  init s := s.dial = Dial.new ∧ (∀ reply, (r.clientAddr, reply) ∉ s.listener.sent) ∧
    ∀ mtu, (r.clientAddr, mtu) ∉ s.listener.grants
  step := Step r

/-! ## Requests and replies -/

/-- The MTU is one that is probed, and datagrams of a connection that has it get through. -/
structure Fits (r : Route) (mtu : UInt16) : Prop where
  mem : mtu ∈ Dialer.mtuSizes
  le : mtu.toNat - 28 ≤ r.limit

/-- A request of a dialer that has discovered some MTU, or none yet. -/
def Asks (r : Route) (secure : Bool) (mtu : Option UInt16) (data : Bytes) : Prop :=
  (∃ m ∈ Dialer.mtuSizes, Dialer.discoverRequest r.build m = .ok data) ∨
    ∃ m cookie, mtu = some m ∧
      data = Dialer.openRequest r.remoteAddr r.clientGuid (m, secure, cookie)

/-- A reply to such a request. -/
def Replies (r : Route) (secure : Bool) (mtu : Option UInt16) (data : Bytes) : Prop :=
  (∃ reply : OpenConnectionReply1, data = reply.write ∧ Fits r reply.mtu ∧
      reply.serverHasSecurity = secure ∧ (secure = false → reply.cookie = 0)) ∨
    ∃ reply : OpenConnectionReply2, data = reply.write ∧ mtu = some reply.mtu

/-- What a stage says about the MTU that has been discovered. -/
def Knows (mtu : Option UInt16) (secure : Bool) : Stage → Prop
  | .discovering attempts => mtu = none ∧ ∀ m ∈ attempts, m ∈ Dialer.mtuSizes
  | .opening discovery _ => mtu = some discovery.1 ∧ discovery.2.1 = secure
  | .opened m => mtu = some m
  | .failed _ => True

/-- What has been sent, granted and discovered fits together. -/
structure Sound (r : Route) (mtu : Option UInt16) (s : Dialing) : Prop where
  fits : ∀ m, mtu = some m → Fits r m
  knows : Knows mtu (!s.listener.config.disableCookies) s.dial.stage
  asks : ∀ data ∈ s.dial.sent, Asks r (!s.listener.config.disableCookies) mtu data
  replies : ∀ data, (r.clientAddr, data) ∈ s.listener.sent →
    Replies r (!s.listener.config.disableCookies) mtu data
  grants : ∀ granted, (r.clientAddr, granted) ∈ s.listener.grants →
    ∃ m, mtu = some m ∧ granted.value = m.toNat
  granted : ∀ reply : OpenConnectionReply2, (r.clientAddr, reply.write) ∈ s.listener.sent →
    ∃ granted, (r.clientAddr, granted) ∈ s.listener.grants
  opened : ∀ m, s.dial.stage = .opened m → ∃ granted, (r.clientAddr, granted) ∈ s.listener.grants

section Sound

variable {r : Route} {mtu : Option UInt16} {s s' : Dialing} {secure : Bool} {stage : Stage}
  {data : Bytes} {e : Event}

/-! ### Sizes -/

theorem le_of_mem {m : UInt16} (h : m ∈ Dialer.mtuSizes) : 46 ≤ m.toNat := by
  obtain rfl | rfl | rfl := Dialer.mem_mtuSizes.mp h <;> decide

theorem admitted_of_mem {m : UInt16} (h : m ∈ Dialer.mtuSizes) : 400 ≤ m.toNat := by
  obtain rfl | rfl | rfl := Dialer.mem_mtuSizes.mp h <;> decide

theorem agreedMtu_of_mem {m : UInt16} (h : m ∈ Dialer.mtuSizes) : Listener.agreedMtu m = m := by
  obtain rfl | rfl | rfl := Dialer.mem_mtuSizes.mp h <;> decide

theorem clamp_of_mem {m : UInt16} (h : m ∈ Dialer.mtuSizes) :
    (Mtu.clamp m.toNat).value = m.toNat := by
  obtain rfl | rfl | rfl := Dialer.mem_mtuSizes.mp h <;> decide

/-! ### What the dialer hears -/

theorem discoverReply_of_ne {id : UInt8} {rest : Bytes} (hreply : id ≠ Id.openConnectionReply1)
    (hversion : id ≠ Id.incompatibleProtocolVersion) :
    Dialer.discoverReply (id :: rest) = .ok none := by
  rw [Dialer.discoverReply, if_neg hreply, if_neg hversion]

theorem openReply_of_ne {id : UInt8} {rest : Bytes} (hreply : id ≠ Id.openConnectionReply2)
    (hversion : id ≠ Id.incompatibleProtocolVersion) :
    Dialer.openReply (id :: rest) = .ok none := by
  rw [Dialer.openReply, if_neg hreply, if_neg hversion]

/-- A datagram of a connection is none of the replies. -/
theorem ne_of_flag {flags id : UInt8} (h : flags &&& bitFlagDatagram ≠ 0)
    (hid : id &&& bitFlagDatagram = 0) : flags ≠ id := by
  rintro rfl
  exact h hid

/-- Replies arrive as they were sent. -/
theorem Replies.take_eq (h : Replies r secure mtu data) : data.take bufferSize = data := by
  rcases h with ⟨reply, rfl, -⟩ | ⟨reply, rfl, -⟩
  · exact List.take_of_length_le reply.length_write_le
  · exact List.take_of_length_le reply.length_write_le

/-- A reply, or a datagram of a connection. -/
def Heard (r : Route) (secure : Bool) (mtu : Option UInt16) (data : Bytes) : Prop :=
  Replies r secure mtu data ∨ ∃ flags rest, data = flags :: rest ∧ flags &&& bitFlagDatagram ≠ 0

theorem Sound.heard (h : Sound r mtu s) (hdata : Incoming r s data) :
    Heard r (!s.listener.config.disableCookies) mtu data := by
  rcases hdata with ⟨reply, hreply, rfl⟩ | hflagged
  · have hreplies := h.replies reply hreply
    exact Or.inl (hreplies.take_eq.symm ▸ hreplies)
  · exact Or.inr hflagged

theorem Heard.discover (h : Heard r secure mtu data) :
    Dialer.discoverReply data = .ok none ∨ ∃ m cookie,
      Dialer.discoverReply data = .ok (some (m, secure, cookie)) ∧ Fits r m := by
  rcases h with (⟨reply, rfl, hfits, hsecure, hcookie⟩ | ⟨reply, rfl, -⟩) | ⟨flags, rest, rfl, h⟩
  · rw [Dialer.discoverReply_of_read (OpenConnectionReply1.read_write reply fun hno ↦
      hcookie (hsecure.symm.trans hno)), ← hsecure]
    split
    · exact Or.inl rfl
    · exact Or.inr ⟨_, _, rfl, hfits⟩
  · exact Or.inl (discoverReply_of_ne (by decide) (by decide))
  · exact Or.inl (discoverReply_of_ne (ne_of_flag h (by decide)) (ne_of_flag h (by decide)))

theorem Heard.openReply (h : Heard r secure mtu data) :
    Dialer.openReply data = .ok none ∨ ∃ reply : OpenConnectionReply2, data = reply.write ∧
      Dialer.openReply data = .ok (some reply.mtu) ∧ mtu = some reply.mtu := by
  rcases h with (⟨reply, rfl, -⟩ | ⟨reply, rfl, hmtu⟩) | ⟨flags, rest, rfl, h⟩
  · exact Or.inl (openReply_of_ne (by decide) (by decide))
  · exact Or.inr ⟨reply, rfl, Dialer.openReply_write reply, hmtu⟩
  · exact Or.inl (openReply_of_ne (ne_of_flag h (by decide)) (ne_of_flag h (by decide)))

/-! ### Rounds of the dialer -/

/-- What a round sends is a request. -/
theorem Knows.asks (h : Knows mtu secure stage) {request : Bytes}
    (hrequest : stage.request r.build r.remoteAddr r.clientGuid = some (.ok request)) :
    Asks r secure mtu request := by
  cases stage with
  | discovering attempts =>
      cases attempts with
      | nil => cases hrequest
      | cons m attempts =>
          exact Or.inl ⟨m, h.2 m List.mem_cons_self, Option.some.inj hrequest⟩
  | opening discovery errors =>
      obtain ⟨m, secure', cookie⟩ := discovery
      obtain ⟨rfl, rfl⟩ := h
      exact Or.inr ⟨m, cookie, rfl, (Except.ok.inj (Option.some.inj hrequest)).symm⟩
  | opened m => cases hrequest
  | failed fault => cases hrequest

/-- A call that has failed says nothing. -/
theorem Sound.failed (h : Sound r mtu s) (fault : Fault Error) (waiting : Bool) :
    Sound r mtu { s with dial := ⟨.failed fault, waiting, s.dial.sent⟩ } :=
  ⟨h.fits, trivial, h.asks, h.replies, h.grants, h.granted, fun _ hm ↦ by cases hm⟩

theorem Sound.send (h : Sound r mtu s) (ioError : Option String) :
    Sound r mtu { s with dial := s.dial.send r.build r.remoteAddr r.clientGuid ioError } := by
  unfold Dial.send
  split
  · exact h
  · exact h.failed _ _
  · exact h.failed _ _
  · next request hrequest =>
    refine ⟨h.fits, h.knows, fun data hdata ↦ ?_, h.replies, h.grants, h.granted, h.opened⟩
    rcases List.mem_append.mp hdata with hdata | hdata
    · exact h.asks data hdata
    · rw [List.mem_singleton.mp hdata]
      exact h.knows.asks hrequest

/-- Until an MTU has been discovered, there are only probes and replies to them. -/
theorem Sound.discovered (h : Sound r none s) {m : UInt16} (hm : Fits r m) {cookie : UInt32} :
    Sound r (some m) { s with dial :=
      ⟨.opening (m, !s.listener.config.disableCookies, cookie) 0, false, s.dial.sent⟩ } where
  fits m' heq := Option.some.inj heq ▸ hm
  knows := ⟨rfl, rfl⟩
  asks data hdata := by
    rcases h.asks data hdata with hprobe | ⟨m', _, heq, -⟩
    · exact Or.inl hprobe
    · cases heq
  replies data hdata := by
    rcases h.replies data hdata with hreply | ⟨reply, -, heq⟩
    · exact Or.inl hreply
    · cases heq
  grants granted hgranted := by
    obtain ⟨m', heq, -⟩ := h.grants granted hgranted
    cases heq
  granted := h.granted
  opened m' heq := by cases heq

/-- The dialer goes on with what it knows. -/
theorem Sound.goes (h : Sound r mtu s) {stage : Stage} {waiting : Bool}
    (hknows : Knows mtu (!s.listener.config.disableCookies) stage)
    (hopened : ∀ m, stage = .opened m → ∃ granted, (r.clientAddr, granted) ∈ s.listener.grants) :
    Sound r mtu { s with dial := ⟨stage, waiting, s.dial.sent⟩ } :=
  ⟨h.fits, hknows, h.asks, h.replies, h.grants, h.granted, hopened⟩

theorem Sound.answer (h : Sound r mtu s) {received : Option Bytes}
    (hreceived : ∀ data, received = some data → Incoming r s data) :
    ∃ mtu', Sound r mtu' { s with dial := s.dial.answer r.errorCount received } := by
  obtain ⟨listener, ⟨stage, waiting, sent⟩⟩ := s
  have hknows := h.knows
  have hheard (data : Bytes) (hdata : received = some data) := h.heard (hreceived data hdata)
  dsimp only at hknows hheard
  rw [Dial.answer]
  cases stage with
  | discovering attempts =>
      cases attempts with
      | nil => exact ⟨mtu, h.goes hknows fun m hm ↦ by cases hm⟩
      | cons m attempts =>
          obtain ⟨rfl, hattempts⟩ := hknows
          have hnext : Sound r none
              ⟨listener, ⟨Stage.discover attempts, false, sent⟩⟩ := by
            cases attempts with
            | nil => exact h.failed _ _
            | cons m' attempts =>
                refine h.goes ⟨rfl, fun m'' hm'' ↦ ?_⟩ fun m'' hm'' ↦ by cases hm''
                exact hattempts m'' (List.mem_cons_of_mem m hm'')
          cases received with
          | none => exact ⟨none, hnext⟩
          | some data =>
              rcases (hheard data rfl).discover with hnone | ⟨m', cookie, hsome, hfits⟩
              · rw [Stage.answer, Option.elim_some, hnone]
                exact ⟨none, hnext⟩
              · rw [Stage.answer, Option.elim_some, hsome]
                exact ⟨some m', h.discovered hfits⟩
  | opening discovery errors =>
      have hnext : Sound r mtu ⟨listener,
          ⟨if errors + 1 ≥ r.errorCount then .failed (.error .timeout)
            else .opening discovery (errors + 1), false, sent⟩⟩ := by
        split
        · exact h.failed _ _
        · exact h.goes hknows fun m hm ↦ by cases hm
      cases received with
      | none => exact ⟨mtu, hnext⟩
      | some data =>
          rcases (hheard data rfl).openReply with hnone | ⟨reply, rfl, hsome, hmtu⟩
          · rw [Stage.answer, Option.elim_some, hnone]
            exact ⟨mtu, hnext⟩
          · rw [Stage.answer, Option.elim_some, hsome]
            refine ⟨mtu, h.goes hmtu fun m _ ↦ ?_⟩
            rcases hreceived _ rfl with ⟨reply', hreply', heq⟩ | ⟨flags, rest, heq, hflag⟩
            · rw [(h.replies reply' hreply').take_eq] at heq
              exact h.granted reply (heq ▸ hreply')
            · refine absurd (List.cons.inj heq).1.symm (ne_of_flag hflag (by decide))
  | opened m => exact ⟨mtu, h.goes hknows h.opened⟩
  | failed fault => exact ⟨mtu, h.failed fault false⟩

/-! ### Rounds of the listener -/

theorem Sound.aloof (h : Sound r mtu s) {self' : Listener}
    (ha : Listener.Aloof r.clientAddr s.listener self') :
    Sound r mtu { s with listener := self' } where
  fits := h.fits
  knows := ha.config ▸ h.knows
  asks := ha.config ▸ h.asks
  replies data hdata := ha.config ▸ h.replies data (ha.sent data hdata)
  grants granted hgranted := h.grants granted ((ha.grants granted).mp hgranted)
  granted reply hreply := by
    obtain ⟨granted, hgranted⟩ := h.granted reply (ha.sent _ hreply)
    exact ⟨granted, (ha.grants granted).mpr hgranted⟩
  opened m hm := by
    obtain ⟨granted, hgranted⟩ := h.opened m hm
    exact ⟨granted, (ha.grants granted).mpr hgranted⟩

/-- A probe that has arrived is answered. -/
theorem Sound.answered (h : Sound r mtu s) {reply : OpenConnectionReply1}
    (hfits : Fits r reply.mtu)
    (hsecure : reply.serverHasSecurity = !s.listener.config.disableCookies)
    (hcookie : (!s.listener.config.disableCookies) = false → reply.cookie = 0) :
    Sound r mtu { s with listener := s.listener.answered r.clientAddr reply.write } where
  fits := h.fits
  knows := h.knows
  asks := h.asks
  replies data hdata := by
    rcases List.mem_append.mp hdata with hdata | hdata
    · exact h.replies data hdata
    · obtain ⟨-, rfl⟩ := Prod.mk.inj (List.mem_singleton.mp hdata)
      exact Or.inl ⟨reply, rfl, hfits, hsecure, hcookie⟩
  grants := h.grants
  granted reply' hreply' := by
    rcases List.mem_append.mp hreply' with hreply' | hreply'
    · exact h.granted reply' hreply'
    · have hheads := (Prod.mk.inj (List.mem_singleton.mp hreply')).2
      cases (List.cons.inj hheads).1
  opened := h.opened

/-- A request that has arrived is granted. -/
theorem Sound.grant (h : Sound r mtu s) {m : UInt16} (hm : mtu = some m) :
    Sound r mtu { s with listener := s.listener.granted r.clientAddr m } where
  fits := h.fits
  knows := h.knows
  asks := h.asks
  replies data hdata := by
    rcases List.mem_append.mp hdata with hdata | hdata
    · exact h.replies data hdata
    · obtain ⟨-, rfl⟩ := Prod.mk.inj (List.mem_singleton.mp hdata)
      exact Or.inr ⟨_, rfl, hm⟩
  grants granted hgranted := by
    rw [Listener.granted, Listener.grants_openConnection] at hgranted
    rcases List.mem_append.mp hgranted with hgranted | hgranted
    · exact h.grants granted hgranted
    · obtain ⟨-, rfl⟩ := Prod.mk.inj (List.mem_singleton.mp hgranted)
      exact ⟨m, hm, clamp_of_mem (h.fits m hm).mem⟩
  granted _ _ := by
    refine ⟨Mtu.clamp m.toNat, ?_⟩
    rw [Listener.granted, Listener.grants_openConnection]
    exact List.mem_append_right _ (List.mem_singleton.mpr rfl)
  opened m' _ := by
    refine ⟨Mtu.clamp m.toNat, ?_⟩
    rw [Listener.granted, Listener.grants_openConnection]
    exact List.mem_append_right _ (List.mem_singleton.mpr rfl)

/-- The length of a probe. -/
theorem length_discoverRequest {m : UInt16} (h : 46 ≤ m.toNat)
    (hdata : Dialer.discoverRequest r.build m = .ok data) : data.length = m.toNat - 28 := by
  have hwrite := OpenConnectionRequest1.write_eq r.build ⟨protocolVersion, m⟩ h
  rw [Dialer.discoverRequest, hwrite] at hdata
  obtain rfl := Except.ok.inj hdata
  simp
  omega

/-- What the listener reads in a second request. -/
theorem read_openRequest (r : Route) (secure : Bool) (m : UInt16) (cookie : UInt32) :
    ∃ rest pk, (Dialer.openRequest r.remoteAddr r.clientGuid (m, secure, cookie)).take bufferSize =
        Id.openConnectionRequest2 :: rest ∧
      OpenConnectionRequest2.read
        { OpenConnectionRequest2.default with serverHasSecurity := secure } rest = .ok pk ∧
      pk.mtu = m := by
  let request : OpenConnectionRequest2 :=
    ⟨r.remoteAddr, m, r.clientGuid, secure, if secure then cookie else 0⟩
  have hrequest : Dialer.openRequest r.remoteAddr r.clientGuid (m, secure, cookie) =
      request.write := by
    cases secure <;> rfl
  rw [hrequest, List.take_of_length_le request.length_write_le]
  exact ⟨request.write.tail, _, rfl,
    OpenConnectionRequest2.read_write request fun hno ↦ if_neg (Bool.eq_false_iff.mp hno), rfl⟩

/-- A request that arrives may be answered. -/
theorem Sound.arrive (h : Sound r mtu s) {env : ListenEnv} (hdata : data ∈ s.dial.sent)
    (hlimit : data.length ≤ r.limit) :
    Sound r mtu { s with listener := (Listener.handleUnconnected r.hash env
      (data.take bufferSize) r.clientAddr s.listener).1 } := by
  rcases h.asks data hdata with ⟨m, hm, hrequest⟩ | ⟨m, cookie, hm, rfl⟩
  · have hle := le_of_mem hm
    obtain ⟨request, hrequest', htake⟩ := Listener.discoverRequest_eq r.build hle
    obtain rfl := Except.ok.inj (hrequest.symm.trans hrequest')
    rw [htake, Listener.handleUnconnected_discoverRequest hle, Listener.sendTo]
    cases env.ioError with
    | some message => exact h
    | none =>
        refine h.answered ?_ ?_ fun hno ↦ ?_
        · rw [Listener.discoverAnswer_eq]
          dsimp only
          rw [agreedMtu_of_mem hm]
          exact ⟨hm, length_discoverRequest hle hrequest ▸ hlimit⟩
        · rw [Listener.discoverAnswer_eq]
        · rw [Listener.discoverAnswer_eq, Listener.cookie, if_pos (by simpa using hno)]
  · obtain ⟨rest, pk, htake, hread, hpk⟩ :=
      read_openRequest r (!s.listener.config.disableCookies) m cookie
    rw [htake]
    rcases @Listener.handleUnconnected_request_cases r.hash env s.listener rest r.clientAddr pk
      hread with hsame | hgranted
    · rw [hsame]
      exact h
    · rw [hgranted, hpk, agreedMtu_of_mem (h.fits m hm).mem]
      exact h.grant hm

theorem Sound.step (h : Sound r mtu s) (hs : Step r s e s') : ∃ mtu', Sound r mtu' s' := by
  cases hs with
  | @send ioError _ _ => exact ⟨mtu, h.send ioError⟩
  | @arrive env data self' hdata hlimit hround =>
      have hself' : self' = (s.listener.listenRound r.build r.hash env (data.take bufferSize)
        r.clientAddr).1 := by rw [hround]
      rw [hself']
      refine ⟨mtu, Listener.listenRound_induction
        (P := fun l ↦ Sound r mtu { s with listener := l }) h (fun l hl ↦ ?_) (fun i ↦ ?_)
        (h.arrive hdata hlimit)⟩
      · exact hl.aloof ((Listener.Aloof.refl r.clientAddr l).block _ _)
      · exact h.aloof ((Listener.dwindles_receive i _ s.listener).aloof r.clientAddr)
  | answer _ hreceived => exact h.answer hreceived
  | expire _ => exact ⟨mtu, h.failed _ _⟩
  | other he hstep => exact ⟨mtu, h.aloof (Listener.aloof_step hstep he)⟩

theorem sound_of_reachable (h : (dialings r).Reachable s) : ∃ mtu, Sound r mtu s := by
  refine h.invariant (I := fun s ↦ ∃ mtu, Sound r mtu s) ?_ ?_
  · rintro ⟨listener, dial⟩ ⟨rfl, hsent, hgrants⟩
    refine ⟨none, ?_, ⟨rfl, fun _ ↦ Dialer.mem_mtuSizes_of_mem_attempts⟩, ?_, ?_, ?_, ?_, ?_⟩
    · intro m hm
      cases hm
    · exact fun data hdata ↦ absurd hdata List.not_mem_nil
    · exact fun data hdata ↦ absurd hdata (hsent data)
    · exact fun granted hgranted ↦ absurd hgranted (hgrants granted)
    · exact fun reply hreply ↦ absurd hreply (hsent _)
    · intro m hm
      cases hm
  · rintro s e s' - ⟨mtu, hsound⟩ hstep
    exact hsound.step hstep

end Sound

end Dialing

end Ragnet

import Ragnet.Session

/-!
# What the ends of a session agree on

What each end sends is bound to what the other has told it: pongs carry the times of pings, the
listener accepts the request of the dialer after it has received it, and the dialer confirms the
acceptance after it has received that.  So no handler fails on what the other end sends, and an end
that is established knows that the other has gone as far as it should.
-/

namespace Ragnet

open Conn Proc Wire

/-! ## What an end sends -/

namespace Endpoint

/-- The end has started a message with these contents, or is about to. -/
def Spoken (p : Endpoint) (data : Bytes) : Prop :=
  data ∈ p.sender.messages.map Message.payload ∨ data ∈ p.spawned

section Receive

variable {build : Build} {side : Side} {remoteAddr : SocketAddr} {timestamp : List Bytes → Int64}
  {handled contents : List Bytes} {effect : Effect} {p : Endpoint} {data : Bytes}

/-- What is done is done about one of the contents, and with everything else that is done about
it. -/
theorem mem_effects (h : effect ∈ effects build side remoteAddr timestamp handled contents) :
    ∃ content ∈ contents, ∃ before b es,
      side.react build remoteAddr (timestamp before) content = .ok (b, es) ∧ effect ∈ es ∧
        es ⊆ effects build side remoteAddr timestamp handled contents := by
  induction contents generalizing handled with
  | nil => exact absurd h List.not_mem_nil
  | cons content contents ih =>
      rw [effects] at h
      rcases List.mem_append.mp h with h | h
      · cases hreact : side.react build remoteAddr (timestamp handled) content with
        | error e =>
            rw [hreact] at h
            exact absurd h List.not_mem_nil
        | ok r =>
            rw [hreact] at h
            refine ⟨content, List.mem_cons_self, handled, r.1, r.2, hreact, h, fun e he ↦ ?_⟩
            rw [effects, hreact]
            exact List.mem_append_left _ he
      · obtain ⟨content', hcontent', before, b, es, hreact, hmem, hsub⟩ := ih h
        refine ⟨content', List.mem_cons_of_mem _ hcontent', before, b, es, hreact, hmem, ?_⟩
        exact fun e he ↦ List.mem_append_right _ (hsub he)

theorem mem_spawned_closeImmediately (h : data ∈ p.closeImmediately.spawned) :
    data ∈ p.spawned ∨ data = [Id.disconnectNotification] := by
  rw [closeImmediately] at h
  split at h
  · exact Or.inl h
  · exact (List.mem_append.mp h).imp_right List.mem_singleton.mp

/-- What is about to be sent once all is done. -/
theorem mem_spawned_foldl {effects : List Effect} (h : data ∈ (effects.foldl perform p).spawned) :
    data ∈ p.spawned ∨ .sendMessage data ∈ effects ∨ data = [Id.disconnectNotification] := by
  induction effects generalizing p with
  | nil => exact Or.inl h
  | cons effect effects ih =>
      rcases ih h with h | h | h
      · cases effect with
        | sendMessage data' =>
            rcases List.mem_append.mp h with h | h
            · exact Or.inl h
            · rw [List.mem_singleton.mp h]
              exact Or.inr (Or.inl List.mem_cons_self)
        | markConnected => exact Or.inl h
        | closeImmediately => exact (mem_spawned_closeImmediately h).imp_right Or.inr
      · exact Or.inr (Or.inl (List.mem_cons_of_mem _ h))
      · exact Or.inr (Or.inr h)

theorem closeImmediately_connected (p : Endpoint) :
    p.closeImmediately.connected = p.connected := by
  rw [closeImmediately]
  split <;> rfl

theorem connected_foldl {effects : List Effect} :
    (effects.foldl perform p).connected = true ↔
      p.connected = true ∨ .markConnected ∈ effects := by
  induction effects generalizing p with
  | nil => simp
  | cons effect effects ih =>
      rw [List.foldl_cons, ih, List.mem_cons]
      cases effect with
      | sendMessage data => simp [perform, Endpoint.sendMessage]
      | markConnected => simp [perform]
      | closeImmediately => simp [perform, closeImmediately_connected]

end Receive

/-- What an end does without hearing from the other. -/
structure Goes (p p' : Endpoint) : Prop where
  connected : p'.connected = p.connected
  handled : p'.conn.handled = p.conn.handled
  now : p.now ≤ p'.now
  spoken : ∀ data, p'.Spoken data → p.Spoken data ∨ External data ∨
    (∃ time ≤ p'.now, data = ConnectedPing.write ⟨time⟩) ∨ data = [Id.disconnectNotification]

section Goes

variable {build : Build} {side : Side} {network : List Bytes} {p p' : Endpoint} {move : Move}

theorem goes_refl (p : Endpoint) : Goes p p :=
  ⟨rfl, rfl, Int64.le_refl _, fun _ h ↦ Or.inl h⟩

theorem goes_closeImmediately (p : Endpoint) : Goes p p.closeImmediately := by
  obtain ⟨closed, hsender⟩ := p.closeImmediately_sender
  have hnow : p.closeImmediately.now = p.now := by
    rw [closeImmediately]
    split <;> rfl
  refine ⟨p.closeImmediately_connected, ?_, hnow ▸ Int64.le_refl _, fun data h ↦ ?_⟩
  · rw [conn, hsender]
  · rcases h with h | h
    · rw [hsender] at h
      exact Or.inl (Or.inl h)
    · rcases mem_spawned_closeImmediately h with h | h
      · exact Or.inl (Or.inr h)
      · exact Or.inr (Or.inr (Or.inr h))

/-- A call starts what it is given. -/
theorem payload_of_calls {s s' : Sender} {call : SendCall} (h : s.Calls build call s')
    {data : Bytes} (hd : data ∈ s'.messages.map Message.payload) :
    data ∈ s.messages.map Message.payload ∨ (∃ env, call = .writeLocked env data) ∨
      ∃ env, call = .sendMessage env data := by
  obtain ⟨ms, hstarts, rfl⟩ := h
  rw [List.map_append] at hd
  refine (List.mem_append.mp hd).imp_right fun hd ↦ ?_
  obtain ⟨m, hm, rfl⟩ := List.mem_map.mp hd
  cases hstarts with
  | @writeLocked env _ _ _ _ =>
      obtain rfl := List.mem_singleton.mp hm
      exact Or.inl ⟨env, rfl⟩
  | @sendMessage env _ _ _ _ =>
      obtain rfl := List.mem_singleton.mp hm
      exact Or.inr ⟨env, rfl⟩
  | handleAck => cases hm
  | handleNack => cases hm
  | checkResend => cases hm

/-- And it handles nothing. -/
theorem handled_of_calls {s s' : Sender} {call : SendCall} (h : s.Calls build call s') :
    s'.conn.handled = s.conn.handled := by
  obtain ⟨ms, -, rfl⟩ := h
  exact congrArg Receiving.handled (SendCall.run_receiving build call s.conn)

/-- Every move but a receiving call. -/
theorem Moves.goes (h : Moves build side network p move p') (hok : Orderly build side p move)
    (hr : ∀ env timestamp last data, move ≠ .receive env timestamp last data) : Goes p p' := by
  cases h with
  | @write env data _ _ hcalls =>
      refine ⟨rfl, handled_of_calls hcalls, Int64.le_refl _, fun data' h ↦ ?_⟩
      rcases h with h | h
      · rcases payload_of_calls hcalls h with h | ⟨_, h⟩ | ⟨_, h⟩
        · exact Or.inl (Or.inl h)
        · obtain ⟨-, rfl⟩ := SendCall.writeLocked.inj h
          exact Or.inr (Or.inl hok.1)
        · cases h
      · exact Or.inl (Or.inr h)
  | @task env i data _ hi hcalls =>
      refine ⟨rfl, handled_of_calls hcalls, Int64.le_refl _, fun data' h ↦ Or.inl ?_⟩
      rcases h with h | h
      · rcases payload_of_calls hcalls h with h | ⟨_, h⟩ | ⟨_, h⟩
        · exact Or.inl h
        · cases h
        · obtain ⟨-, rfl⟩ := SendCall.sendMessage.inj h
          exact Or.inr (List.mem_of_getElem? hi)
      · exact Or.inr (List.mem_of_mem_eraseIdx h)
  | @receive env timestamp last data _ => exact absurd rfl (hr env timestamp last data)
  | @flush env =>
      refine ⟨rfl, ?_, Int64.le_refl _, fun _ h ↦ Or.inl h⟩
      exact congrArg Delivery.handled (flushAcks_delivery build env p.conn)
  | @checkResend env now iter =>
      refine ⟨rfl, ?_, Int64.le_refl _, fun _ h ↦ Or.inl h⟩
      exact congrArg Receiving.handled
        (SendCall.run_receiving build (.checkResend env now iter) p.conn)
  | @ping now =>
      refine ⟨rfl, rfl, hok, fun data h ↦ ?_⟩
      rcases h with h | h
      · exact Or.inl (Or.inl h)
      · rcases List.mem_append.mp h with h | h
        · exact Or.inl (Or.inr h)
        · exact Or.inr (Or.inr (Or.inl ⟨now, Int64.le_refl _, List.mem_singleton.mp h⟩))
  | inspect =>
      rw [Endpoint.inspect]
      split
      · exact goes_refl p
      · exact ⟨rfl, rfl, Int64.le_refl _, fun _ h ↦ Or.inl h⟩
  | @decide now =>
      rw [Endpoint.decide]
      split
      · exact goes_refl p
      · have hgoes := goes_closeImmediately { p with inspection := none }
        dsimp only
        split
        · exact ⟨hgoes.connected, hgoes.handled, hgoes.now, hgoes.spoken⟩
        split
        · exact ⟨hgoes.connected, hgoes.handled, hgoes.now, hgoes.spoken⟩
        · exact ⟨rfl, rfl, Int64.le_refl _, fun _ h ↦ Or.inl h⟩
  | close => exact ⟨rfl, rfl, Int64.le_refl _, fun _ h ↦ Or.inl h⟩
  | closeImmediately => exact goes_closeImmediately p

end Goes

end Endpoint

namespace Session

open Endpoint

/-- What an end may have sent by now. -/
inductive MaySend (request : ConnectionRequest) (s : Session) : Side → Bytes → Prop
  | external {side : Side} {data : Bytes} : External data → MaySend request s side data
  | ping {side : Side} {time : Int64} :
      time ≤ (s side).now → MaySend request s side (ConnectedPing.write ⟨time⟩)
  /-- It answers a ping of the other end. -/
  | pong {side : Side} {time now : Int64} :
      time ≤ (s side.other).now → MaySend request s side (ConnectedPong.write ⟨time, now⟩)
  | disconnect {side : Side} : MaySend request s side [Id.disconnectNotification]
  | request : MaySend request s .dialer request.write
  /-- It answers the request. -/
  | accepted {addr : SocketAddr} {now : Int64} :
      request.write ∈ (s .listener).conn.handled →
        MaySend request s .listener
          (ConnectionRequestAccepted.new addr request.requestTime now).write
  /-- It confirms the acceptance. -/
  | incoming {addr addr' : SocketAddr} {time now : Int64} :
      (ConnectionRequestAccepted.new addr' request.requestTime time).write ∈
          (s .dialer).conn.handled →
        (s .dialer).connected = true →
          MaySend request s .dialer (NewIncomingConnection.new addr time now).write

/-- The contents establish the connection at an end. -/
def Establishes (request : ConnectionRequest) (data : Bytes) : Side → Prop
  | .dialer => ∃ addr now,
      data = (ConnectionRequestAccepted.new addr request.requestTime now).write
  | .listener => ∃ addr time now, data = (NewIncomingConnection.new addr time now).write

/-- What the ends of a session agree on. -/
structure Agrees (request : ConnectionRequest) (s : Session) : Prop where
  spoken : ∀ side data, (s side).Spoken data → MaySend request s side data
  /-- A dialer that is established has received the acceptance, and a listener the confirmation. -/
  established : ∀ side, (s side).connected = true →
    ∃ data ∈ (s side).conn.handled, Establishes request data side

structure Later (s s' : Session) : Prop where
  now : ∀ side, (s side).now ≤ (s' side).now
  handled : ∀ side, (s side).conn.handled ⊆ (s' side).conn.handled
  connected : ∀ side, (s side).connected = true → (s' side).connected = true

section MaySend

variable {build : Build} {request : ConnectionRequest} {s s' : Session} {side : Side} {data : Bytes}

theorem MaySend.mono (h : MaySend request s side data) (hl : Later s s') :
    MaySend request s' side data := by
  cases h with
  | external h => exact .external h
  | ping h => exact .ping (Int64.le_trans h (hl.now _))
  | pong h => exact .pong (Int64.le_trans h (hl.now _))
  | disconnect => exact .disconnect
  | request => exact .request
  | accepted h => exact .accepted (hl.handled _ h)
  | incoming h hc => exact .incoming (hl.handled _ h) (hl.connected _ hc)

/-- **A handler takes whatever the other end says**, if the clock has not gone back, and what it
does is in order. -/
theorem MaySend.react (h : MaySend request s side.other data) {remoteAddr : SocketAddr}
    {now : Int64}
    (hnow : (s side).now ≤ now) :
    ∃ b es, side.react build remoteAddr now data = .ok (b, es) ∧
      (∀ {s' : Session}, Later s s' → data ∈ (s' side).conn.handled →
        (.markConnected ∈ es → (s' side).connected = true) →
          ∀ reply, .sendMessage reply ∈ es → now ≤ (s' side).now → MaySend request s' side reply) ∧
      (.markConnected ∈ es → Establishes request data side) := by
  generalize hother : side.other = other at h
  cases h with
  | external h =>
      exact ⟨_, _, react_external h side, fun _ _ _ _ hr ↦ absurd hr List.not_mem_nil,
        fun hm ↦ absurd hm List.not_mem_nil⟩
  | @ping _ time h =>
      refine ⟨_, _, react_connectedPing ⟨time⟩, fun hl _ _ reply hr _ ↦ ?_, fun hm ↦ ?_⟩
      · obtain rfl := Effect.sendMessage.inj (List.mem_singleton.mp hr)
        refine .pong ?_
        rw [hother]
        exact Int64.le_trans h (hl.now _)
      · cases List.mem_singleton.mp hm
  | @pong _ time now' h =>
      rw [← hother, Side.other_other] at h
      exact ⟨_, _, react_connectedPong (Int64.not_lt.mpr (Int64.le_trans h hnow)),
        fun _ _ _ _ hr ↦ absurd hr List.not_mem_nil, fun hm ↦ absurd hm List.not_mem_nil⟩
  | disconnect =>
      refine ⟨_, _, react_disconnectNotification, fun _ _ _ _ hr ↦ ?_, fun hm ↦ ?_⟩
      · cases List.mem_singleton.mp hr
      · cases List.mem_singleton.mp hm
  | request =>
      obtain rfl : side = .listener := by cases side <;> first | rfl | cases hother
      refine ⟨_, _, react_connectionRequest request, fun _ hmem _ reply hr _ ↦ ?_, fun hm ↦ ?_⟩
      · obtain rfl := Effect.sendMessage.inj (List.mem_singleton.mp hr)
        exact .accepted hmem
      · cases List.mem_singleton.mp hm
  | @accepted addr now' h =>
      obtain rfl : side = .dialer := by cases side <;> first | rfl | cases hother
      refine ⟨_, _, react_connectionRequestAccepted _, fun _ hmem hc reply hr _ ↦ ?_,
        fun _ ↦ ⟨addr, now', rfl⟩⟩
      rcases List.mem_cons.mp hr with hr | hr
      · obtain rfl := Effect.sendMessage.inj hr
        exact .incoming hmem (hc (List.mem_cons_of_mem _ (List.mem_singleton.mpr rfl)))
      · cases List.mem_singleton.mp hr
  | @incoming addr _ time now' _ _ =>
      obtain rfl : side = .listener := by cases side <;> first | rfl | cases hother
      refine ⟨_, _, react_newIncomingConnection _, fun _ _ _ _ hr ↦ ?_,
        fun _ ↦ ⟨addr, time, now', rfl⟩⟩
      cases List.mem_singleton.mp hr

/-- One end has gone on. -/
theorem Later.update {p : Endpoint} (hnow : (s side).now ≤ p.now)
    (hhandled : (s side).conn.handled ⊆ p.conn.handled)
    (hconnected : (s side).connected = true → p.connected = true) :
    Later s (Function.update s side p) := by
  refine ⟨fun other ↦ ?_, fun other ↦ ?_, fun other ↦ ?_⟩ <;>
    by_cases hother : other = side
  · subst hother
    rwa [Function.update_self]
  · rw [Function.update_of_ne hother]
    exact Int64.le_refl _
  · subst hother
    rwa [Function.update_self]
  · rw [Function.update_of_ne hother]
    exact List.Subset.refl _
  · subst hother
    rwa [Function.update_self]
  · rw [Function.update_of_ne hother]
    exact id

/-- It is enough to look at the end that has gone on. -/
theorem Agrees.update {p : Endpoint} (h : Agrees request s)
    (hlater : Later s (Function.update s side p))
    (hspoken : ∀ data, p.Spoken data → (s side).Spoken data ∨
      MaySend request (Function.update s side p) side data)
    (hestablished : p.connected = true → (s side).connected = true ∨
      ∃ data ∈ p.conn.handled, Establishes request data side) :
    Agrees request (Function.update s side p) := by
  have hkeep (other : Side) (hconnected : (s other).connected = true) :
      ∃ data ∈ (Function.update s side p other).conn.handled, Establishes request data other := by
    obtain ⟨data, hdata, hest⟩ := h.established other hconnected
    exact ⟨data, hlater.handled other hdata, hest⟩
  refine ⟨fun other data hs ↦ ?_, fun other hconnected ↦ ?_⟩ <;> by_cases hother : other = side
  · subst hother
    rw [Function.update_self] at hs
    exact (hspoken data hs).elim (fun hold ↦ (h.spoken _ _ hold).mono hlater) id
  · rw [Function.update_of_ne hother] at hs
    exact (h.spoken _ _ hs).mono hlater
  · subst hother
    rw [Function.update_self] at hconnected
    rcases hestablished hconnected with hold | ⟨data, hdata, hest⟩
    · exact hkeep other hold
    · exact ⟨data, by rwa [Function.update_self], hest⟩
  · rw [Function.update_of_ne hother] at hconnected
    exact hkeep other hconnected

/-- What an end does without hearing from the other. -/
theorem Agrees.goes {p : Endpoint} (h : Agrees request s) (hgoes : Goes (s side) p) :
    Agrees request (Function.update s side p) := by
  have hhandled : (s side).conn.handled ⊆ p.conn.handled := by
    rw [hgoes.handled]
    exact List.Subset.refl _
  refine h.update (.update hgoes.now hhandled (hgoes.connected ▸ id)) (fun data hs ↦ ?_)
    fun hconnected ↦ Or.inl (hgoes.connected ▸ hconnected)
  refine (hgoes.spoken data hs).imp_right ?_
  rintro (hexternal | ⟨time, htime, rfl⟩ | rfl)
  · exact .external hexternal
  · refine .ping ?_
    rwa [Function.update_self]
  · exact .disconnect

/-- Once the contents that are new are what the other end has sent, the handler acts on them in
order. -/
theorem Agrees.receive {env : Env} {timestamp : List Bytes → Int64} {last : Int64} {data : Bytes}
    {p : Endpoint} (h : Agrees request s)
    (hp : p = { ((s side).receive build side env timestamp data).1 with now := last })
    (htimes : ∀ handled, (s side).now ≤ timestamp handled ∧ timestamp handled ≤ last)
    (hsent : p.conn.handled ⊆ (s side.other).sender.messages.map Message.payload) :
    Agrees request (Function.update s side p) := by
  let received := (Conn.receive build (side.handler build (s side).remoteAddr timestamp) env data
    (s side).conn).1
  let es := effects build side (s side).remoteAddr timestamp (s side).conn.handled
    (Listener.messages (s side).conn received)
  have hsender : p.conn.handled = received.handled ∧
      p.sender.messages = (s side).sender.messages := by
    obtain ⟨closed, hclosed⟩ := @receive_sender build side (s side) env timestamp data
    have hpsender : p.sender =
        { (s side).sender with conn := { received with closed := closed } } := by
      rw [hp]
      exact hclosed
    rw [conn, hpsender]
    exact ⟨rfl, rfl⟩
  have hconnected : p.connected = true ↔ (s side).connected = true ∨ .markConnected ∈ es := by
    rw [hp]
    exact connected_foldl
  have hhandled : (s side).conn.handled ⊆ p.conn.handled := by
    rw [hsender.1]
    exact (receive_handled build _ env data (s side).conn).subset
  have hnow : p.now = last := by rw [hp]
  have hlater : Later s (Function.update s side p) :=
    .update (hnow ▸ Int64.le_trans (htimes []).1 (htimes []).2) hhandled
      fun hc ↦ hconnected.mpr (Or.inl hc)
  -- what is done is done about a content of the other end
  have hreact {effect : Effect} (he : effect ∈ es) :
      ∃ content ∈ p.conn.handled, ∃ before b es',
        MaySend request s side.other content ∧
        side.react build (s side).remoteAddr (timestamp before) content = .ok (b, es') ∧
        effect ∈ es' ∧ es' ⊆ es := by
    obtain ⟨content, hcontent, before, b, es', hreact, hmem, hsub⟩ := mem_effects he
    have hhandled : content ∈ p.conn.handled := by
      rw [hsender.1]
      rw [Listener.messages] at hcontent
      split at hcontent
      · exact List.mem_of_mem_drop hcontent
      · exact absurd hcontent List.not_mem_nil
    exact ⟨content, hhandled, before, b, es', h.spoken _ _ (Or.inl (hsent hhandled)), hreact, hmem,
      hsub⟩
  refine h.update hlater (fun reply hs ↦ ?_) fun hc ↦ ?_
  · rcases hs with hs | hs
    · rw [hsender.2] at hs
      exact Or.inl (Or.inl hs)
    · rw [hp] at hs
      rcases mem_spawned_foldl hs with hs | hs | rfl
      · exact Or.inl (Or.inr hs)
      · obtain ⟨content, hcontent, before, b, es', hmay, hok, hmem, hsub⟩ := hreact hs
        obtain ⟨b', es'', hok', hreplies, -⟩ :=
          @MaySend.react build _ _ _ _ hmay (s side).remoteAddr _ (htimes before).1
        obtain ⟨rfl, rfl⟩ := Prod.mk.inj (Except.ok.inj (hok.symm.trans hok'))
        refine Or.inr (hreplies hlater ?_ (fun hmark ↦ ?_) reply hmem ?_)
        · rwa [Function.update_self]
        · rw [Function.update_self]
          exact hconnected.mpr (Or.inr (hsub hmark))
        · rw [Function.update_self, hnow]
          exact (htimes before).2
      · exact Or.inr .disconnect
  · refine (hconnected.mp hc).imp_right fun hmark ↦ ?_
    obtain ⟨content, hcontent, before, b, es', hmay, hok, hmem, -⟩ := hreact hmark
    obtain ⟨b', es'', hok', -, hest⟩ :=
      @MaySend.react build _ _ _ _ hmay (s side).remoteAddr _ (htimes before).1
    obtain ⟨rfl, rfl⟩ := Prod.mk.inj (Except.ok.inj (hok.symm.trans hok'))
    exact ⟨content, hcontent, hest hmem⟩

theorem agrees_init (h : (sessions build request).init s) : Agrees request s := by
  obtain ⟨mtu, addr, now, hdialer, hlistener⟩ := h
  refine ⟨fun side data hs ↦ ?_, fun side hc ↦ ?_⟩
  · cases side with
    | dialer =>
        rw [hdialer] at hs
        rcases hs with hs | hs
        · exact absurd hs List.not_mem_nil
        · rw [List.mem_singleton.mp hs]
          exact .request
    | listener =>
        rw [hlistener] at hs
        rcases hs with hs | hs <;> exact absurd hs List.not_mem_nil
  · cases side with
    | dialer =>
        rw [hdialer] at hc
        cases hc
    | listener =>
        rw [hlistener] at hc
        cases hc

/-- The ends agree, as long as no counter has come round. -/
theorem agrees_of_reachable (h : ((sessions build request).restrict (Orderly build)).Reachable s)
    (hf : ∀ side, (s side).sender.Fresh) : Agrees request s := by
  revert hf
  refine h.invariant (I := fun s ↦ (∀ side, (s side).sender.Fresh) → Agrees request s)
    ?_ ?_
  · exact fun s hs _ ↦ @agrees_init build request s hs
  rintro s ⟨side, move⟩ s' hs ih ⟨hok, p, hmoves, rfl⟩ hf
  have hfresh (other : Side) : (s other).sender.Fresh := by
    have hother := hf other
    by_cases heq : other = side
    · subst heq
      rw [Function.update_self] at hother
      exact hother.of_extends (hmoves.steps hok).extends
    · rwa [Function.update_of_ne heq] at hother
  have hagrees := ih hfresh
  by_cases hr : ∃ env timestamp last data, move = .receive env timestamp last data
  · obtain ⟨env, timestamp, last, data, rfl⟩ := hr
    have hconnected := @connected_of_reachable build request side.other _
      (.step (a := (side, .receive env timestamp last data)) hs ⟨hok, p, hmoves, rfl⟩)
      (hf side.other)
    rw [Side.other_other, Function.update_self, Function.update_of_ne side.other_ne]
      at hconnected
    cases hmoves
    exact hagrees.receive rfl hok.2 hconnected.isPrefix.subset
  · refine hagrees.goes (hmoves.goes hok fun env timestamp last data heq ↦ ?_)
    exact hr ⟨env, timestamp, last, data, heq⟩

/-! ## The handshake -/

/-- A whole handshake. -/
theorem handshake : ∃ s, ((sessions .debug (ConnectionRequest.new 0 0)).restrict
    (Orderly .debug)).Reachable s ∧ (∀ side, (s side).sender.Fresh) ∧
      (s .listener).connected = true ∧ (s .dialer).conn.sendTx ≠ [] := by
  let env : Env := .calm
  let addr : SocketAddr := .v4 ⟨[127, 0, 0, 1], rfl⟩ 1
  let request := ConnectionRequest.new 0 0
  let accepted := (ConnectionRequestAccepted.new addr 0 0).write
  let incoming := (NewIncomingConnection.new addr 0 0).write
  let m₁ : Message := ⟨request.write, [request.write], Uint24.new 0, 0, rfl, by decide, by decide⟩
  let m₂ : Message := ⟨accepted, [accepted], Uint24.new 0, 0, rfl, by decide +kernel, by decide⟩
  let m₃ : Message := ⟨incoming, [incoming], Uint24.new 1, 0, rfl, by decide +kernel, by decide⟩
  let d (n : Nat) (m : Message) := datagram (Uint24.new n) (m.packet (Uint24.new n) 0 m.payload)
  let s₀ : Session := Function.update (fun _ ↦ Endpoint.new 1492 addr 0) .dialer
    ((Endpoint.new 1492 addr 0).sendMessage request.write)
  have h₀ : ((sessions .debug request).restrict (Orderly .debug)).Reachable s₀ :=
    .init ⟨fun _ ↦ 1492, fun _ ↦ addr, 0, rfl, rfl⟩
  have h₁ := reachable_task h₀ .dialer env (i := 0) (m := m₁) rfl (.sendMessage rfl rfl rfl)
  have h₂ := @reachable_receive _ _ _ h₁ .listener env (d 0 m₁) (by decide +kernel)
    (by decide +kernel)
  have h₃ := reachable_task h₂ .listener env (i := 0) (m := m₂) (by decide +kernel)
    (.sendMessage (by decide +kernel) (by decide +kernel) (by decide +kernel))
  have h₄ := @reachable_receive _ _ _ h₃ .dialer env (d 0 m₂) (by decide +kernel)
    (by decide +kernel)
  have h₅ := reachable_task h₄ .dialer env (i := 0) (m := m₃) (by decide +kernel)
    (.sendMessage (by decide +kernel) (by decide +kernel) (by decide +kernel))
  have h₆ := @reachable_receive _ _ _ h₅ .listener env (d 1 m₃) (by decide +kernel)
    (by decide +kernel)
  refine ⟨_, h₆, fun side ↦ ?_, by decide +kernel, by decide +kernel⟩
  cases side with
  | dialer => exact ⟨by decide +kernel, by decide +kernel, by decide +kernel⟩
  | listener => exact ⟨by decide +kernel, by decide +kernel, by decide +kernel⟩

/-- The handler of an end takes what the other end has sent. -/
theorem handles_of_reachable (h : ((sessions build request).restrict (Orderly build)).Reachable s)
    (hf : ∀ side, (s side).sender.Fresh) {timestamp : List Bytes → Int64}
    (htimes : ∀ handled, (s side).now ≤ timestamp handled) (remoteAddr : SocketAddr) :
    Handles (side.handler build remoteAddr timestamp) (s side.other).sender.messages := by
  intro m hm handled
  have hmay := (agrees_of_reachable h hf).spoken side.other m.payload
    (Or.inl (List.mem_map_of_mem hm))
  obtain ⟨b, es, hreact, -⟩ := @MaySend.react build _ _ _ _ hmay remoteAddr _ (htimes handled)
  exact ⟨b, by rw [Side.handle_apply, hreact]; rfl⟩

/-- **An honest peer is refused only by limits.**  While no counter has come round, whatever the
other end has sent is received, in whatever order it arrives, unless it acknowledges too many
numbers or a listener runs into one of its limits.  No handler fails. -/
theorem received_or_limited (h : ((sessions build request).restrict (Orderly build)).Reachable s)
    (hf : ∀ side, (s side).sender.Fresh) (env : Env) {timestamp : List Bytes → Int64}
    (htimes : ∀ handled, (s side).now ≤ timestamp handled)
    (hd : data ∈ (s side.other).conn.sendTx) :
    let r := ((s side).receive build side env timestamp data).2
    r = .ok () ∨ r = err .maxAcknowledgement ∨ side = .listener ∧ ∃ e, IsLimit e ∧ r = err e := by
  have hconnected := @connected_of_reachable build request side.other s h (hf side.other)
  rw [Side.other_other] at hconnected
  rcases hconnected.receives (hf side.other)
    (handles_of_reachable h hf htimes (s side).remoteAddr) hd with (hok | ⟨hlimits, hlimit⟩) | hmax
  · exact Or.inl hok
  · refine Or.inr (Or.inr ⟨?_, hlimit⟩)
    cases side with
    | dialer => cases hlimits
    | listener => rfl
  · exact Or.inr (Or.inl hmax)

/-- The confirmation may arrive again. -/
theorem received_or_limited_handshake :
    ∃ s, ((sessions .debug (ConnectionRequest.new 0 0)).restrict (Orderly .debug)).Reachable s ∧
      ∃ data ∈ (s .dialer).conn.sendTx,
        let r := ((s .listener).receive .debug .listener .calm
          (fun _ ↦ (s .listener).now) data).2
        r = .ok () ∨ r = err .maxAcknowledgement ∨
          Side.listener = .listener ∧ ∃ e, IsLimit e ∧ r = err e := by
  obtain ⟨s, h, hf, -, hsent⟩ := handshake
  obtain ⟨data, hdata⟩ := List.exists_mem_of_ne_nil _ hsent
  exact ⟨s, h, data, hdata, received_or_limited h hf _ (fun _ ↦ Int64.le_refl _) hdata⟩

end MaySend

end Session

end Ragnet

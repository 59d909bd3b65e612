import Ragnet.Session.Agreement

/-!
# What the applications exchange

The handlers take the messages of the protocol out of what a connection delivers, and the rest goes
on to the application.  So an application reads what the application at the other end has written,
in order and each message once.  An end that closes because nothing was left to send has lost
nothing.
-/

namespace Ragnet

open Conn Proc Wire

/-! ## The messages of handlers -/

section Handlers

variable {build : Build} {remoteAddr : SocketAddr} {now : Int64} {content reply : Bytes}
  {side : Side}

theorem not_external_of_head {id : UInt8} (hid : id ∈ Id.handled) (data : Bytes) :
    ¬ External (id :: data) := fun h ↦ h hid

/-- A ping is answered with a message of the protocol. -/
theorem handleConnectedPing_reply {data : Bytes} {es : List Effect}
    (h : handleConnectedPing now data = .ok es) (hr : .sendMessage reply ∈ es) :
    ¬ External reply := by
  rw [handleConnectedPing] at h
  cases hread : ConnectedPing.read data with
  | error e =>
      rw [hread] at h
      cases h
  | ok pk =>
      rw [hread] at h
      obtain rfl := Except.ok.inj h
      obtain rfl := Effect.sendMessage.inj (List.mem_singleton.mp hr)
      exact not_external_of_head (by decide) _

/-- Handlers send nothing but messages of the protocol. -/
theorem not_external_of_react {b : Bool} {es : List Effect}
    (h : side.react build remoteAddr now content = .ok (b, es)) (hr : .sendMessage reply ∈ es) :
    ¬ External reply := by
  have hbind {r : Result (List Effect)} (hb : (r >>= fun es ↦ .ok (true, es)) = .ok (b, es)) :
      r = .ok es := by
    cases r with
    | error e => cases hb
    | ok es' => exact congrArg _ (Prod.mk.inj (Except.ok.inj hb)).2
  have hdone {es' : List Effect} {b' : Bool}
      (hd : (.ok (b', es') : Result (Bool × List Effect)) = .ok (b, es)) : es' = es :=
    (Prod.mk.inj (Except.ok.inj hd)).2
  have hpong {data : Bytes} (hp : handleConnectedPong now data = .ok es) : ¬ External reply := by
    rw [handleConnectedPong_nil hp] at hr
    exact absurd hr List.not_mem_nil
  have hdetect (hd : [.sendMessage (ConnectedPing.write ⟨now⟩)] = es) : ¬ External reply := by
    subst hd
    obtain rfl := Effect.sendMessage.inj (List.mem_singleton.mp hr)
    exact not_external_of_head (by decide) _
  cases content with
  | nil =>
      obtain rfl : [] = es := by cases side <;> exact hdone h
      exact absurd hr List.not_mem_nil
  | cons id data =>
      cases side with
      | dialer =>
          rw [Side.react, DialerConnectionHandler.react] at h
          split_ifs at h
          · have h := hbind h
            rw [DialerConnectionHandler.handleConnectionRequestAccepted] at h
            cases hread : ConnectionRequestAccepted.read build data with
            | error e =>
                rw [hread] at h
                cases h
            | ok pk =>
                rw [hread] at h
                obtain rfl := Except.ok.inj h
                rcases List.mem_cons.mp hr with hr | hr
                · obtain rfl := Effect.sendMessage.inj hr
                  exact not_external_of_head (by decide) _
                · cases List.mem_singleton.mp hr
          · exact handleConnectedPing_reply (hbind h) hr
          · exact hpong (hbind h)
          · obtain rfl := hdone h
            cases List.mem_singleton.mp hr
          · exact hdetect (hdone h)
          · obtain rfl := hdone h
            exact absurd hr List.not_mem_nil
      | listener =>
          rw [Side.react, ListenerConnectionHandler.react] at h
          split_ifs at h
          · have h := hbind h
            rw [ListenerConnectionHandler.handleConnectionRequest] at h
            cases hread : ConnectionRequest.read data with
            | error e =>
                rw [hread] at h
                cases h
            | ok pk =>
                rw [hread] at h
                obtain rfl := Except.ok.inj h
                obtain rfl := Effect.sendMessage.inj (List.mem_singleton.mp hr)
                exact not_external_of_head (by decide) _
          · obtain rfl := hdone h
            have hmark : .sendMessage reply = Effect.markConnected := List.mem_singleton.mp hr
            cases hmark
          · exact handleConnectedPing_reply (hbind h) hr
          · exact hpong (hbind h)
          · obtain rfl := hdone h
            cases List.mem_singleton.mp hr
          · exact hdetect (hdone h)
          · obtain rfl := hdone h
            exact absurd hr List.not_mem_nil

end Handlers

/-! ## What goes on to the application -/

/-- The application has been given what is not of the protocol, up to the time when closing
began. -/
def Forwards (c : Conn) : Prop :=
  c.packetTx <+: c.handled.filter External ∧
    (c.closing = 0 → c.packetTx = c.handled.filter External)

theorem filter_append_of_not {content : Bytes} (h : ¬ External content) (log : List Bytes) :
    (log ++ [content]).filter External = log.filter External := by
  rw [List.filter_append, List.filter_singleton, decide_eq_false h]
  exact List.append_nil _

theorem filter_append_of_external {content : Bytes} (h : External content) (log : List Bytes) :
    (log ++ [content]).filter External = log.filter External ++ [content] := by
  rw [List.filter_append, List.filter_singleton, decide_eq_true h]
  rfl

/-- Whatever a handler does with a content, what goes on is what is not of the protocol. -/
theorem Forwards.handlePacket {handler : ConnectionHandler}
    (hhandler : ∀ handled content, content ≠ [] →
      (handler.handle handled content = .ok false ↔ External content)) (content : Bytes) :
    Preserves Forwards (handlePacket handler content) := by
  intro c h
  have hquiet (hn : ¬ External content ∨ c.closing ≠ 0) :
      Forwards { c with handled := c.handled ++ [content] } := by
    refine ⟨h.1.trans ?_, fun hclosing ↦ ?_⟩
    · change _ <+: (c.handled ++ [content]).filter External
      rw [List.filter_append]
      exact List.prefix_append _ _
    · change c.packetTx = (c.handled ++ [content]).filter External
      rw [filter_append_of_not (hn.resolve_right fun hne ↦ hne hclosing)]
      exact h.2 hclosing
  rw [Conn.handlePacket, get_bind, modify_bind]
  by_cases hempty : content = []
  · rw [if_pos hempty]
    exact hquiet (Or.inl fun hexternal ↦ by subst hempty; exact hexternal)
  by_cases hclosing : c.closing = 0
  · rw [if_neg hempty, if_neg (not_not.mpr hclosing)]
    cases hhandle : handler.handle c.handled content with
    | error e =>
        refine hquiet (Or.inl fun hexternal ↦ ?_)
        cases hhandle.symm.trans ((hhandler c.handled content hempty).mpr hexternal)
    | ok b =>
        rw [ofExcept_ok_bind]
        cases b with
        | true =>
            refine hquiet (Or.inl fun hexternal ↦ ?_)
            cases hhandle.symm.trans ((hhandler c.handled content hempty).mpr hexternal)
        | false =>
            have hsame : c.packetTx ++ [content] = (c.handled ++ [content]).filter External := by
              rw [filter_append_of_external ((hhandler c.handled content hempty).mp hhandle),
                h.2 hclosing]
            exact ⟨hsame ▸ List.prefix_refl _, fun _ ↦ hsame⟩
  · rw [if_neg hempty, if_pos hclosing]
    exact hquiet (Or.inr hclosing)

theorem Forwards.congr {c c' : Conn} (h : Forwards c)
    (hc : (c'.packetTx, c'.handled, c'.closing) = (c.packetTx, c.handled, c.closing)) :
    Forwards c' := by
  obtain ⟨htx, hhandled, hclosing⟩ := Prod.mk.inj hc |>.imp_right Prod.mk.inj
  rw [Forwards, htx, hhandled, hclosing]
  exact h

/-- So a receiving call keeps it. -/
theorem kept_forwards (build : Build) {handler : ConnectionHandler}
    (hhandler : ∀ handled content, content ≠ [] →
      (handler.handle handled content = .ok false ↔ External content)) :
    Kept build handler Forwards where
  congr c c' hc hclosing h := by
    have hdelivery : (c'.packetTx, c'.handled) = (c.packetTx, c.handled) :=
      congrArg (fun d : Delivery ↦ (d.packetTx, d.handled)) hc
    obtain ⟨htx, hhandled⟩ := Prod.mk.inj hdelivery
    refine h.congr ?_
    rw [htx, hhandled, (Prod.mk.inj hclosing).1]
  readPacket data := ((readPacket_frame build data).comp
    fun c ↦ (c.packetTx, c.handled, c.closing)).preserves fun _ _ hc h ↦ h.congr hc
  orderPacket pk := ((orderPacket_frame build handler pk).comp
    fun c ↦ (c.packetTx, c.handled, c.closing)).preserves fun _ _ hc h ↦ h.congr hc
  reassemble pk := ((reassemble_frame build handler pk).comp
    fun c ↦ (c.packetTx, c.handled, c.closing)).preserves fun _ _ hc h ↦ h.congr hc
  handlePacket content := Forwards.handlePacket hhandler content

/-! ## One end -/

namespace Endpoint

/-- What handlers leave alone. -/
def history (p : Endpoint) : List Bytes × Option Inspection × Option Nat :=
  (p.written, p.inspection, p.released)

/-- What an end sends and what it gives to its application are kept apart. -/
structure Passes (p : Endpoint) : Prop where
  spawned : ∀ data ∈ p.spawned, ¬ External data
  written : (p.sender.messages.map Message.payload).filter External = p.written
  forwards : Forwards p.conn

section Moves

variable {build : Build} {side : Side} {network : List Bytes} {p p' : Endpoint} {move : Move}
  {remoteAddr : SocketAddr} {timestamp : List Bytes → Int64} {handled contents : List Bytes}

theorem closeImmediately_history (p : Endpoint) : p.closeImmediately.history = p.history := by
  rw [closeImmediately]
  split <;> rfl

theorem foldl_perform_history (es : List Effect) (p : Endpoint) :
    (es.foldl perform p).history = p.history := by
  induction es generalizing p with
  | nil => rfl
  | cons effect es ih =>
      rw [List.foldl_cons, ih]
      cases effect with
      | sendMessage data => rfl
      | markConnected => rfl
      | closeImmediately => exact p.closeImmediately_history

/-- What is about to be sent after a receiving call is of the protocol. -/
theorem not_external_of_foldl (hspawned : ∀ data ∈ p.spawned, ¬ External data) {data : Bytes}
    (h : data ∈
      ((effects build side remoteAddr timestamp handled contents).foldl perform p).spawned) :
    ¬ External data := by
  rcases mem_spawned_foldl h with h | h | rfl
  · exact hspawned data h
  · obtain ⟨content, -, before, b, es, hreact, hmem, -⟩ := mem_effects h
    exact not_external_of_react hreact hmem
  · exact not_external_of_head (by decide) []

/-- Closing a connection changes nothing here. -/
theorem Passes.closeImmediately (h : Passes p) : Passes p.closeImmediately := by
  obtain ⟨closed, hsender⟩ := p.closeImmediately_sender
  refine ⟨fun data hd ↦ ?_, ?_, ?_⟩
  · rcases mem_spawned_closeImmediately hd with hd | rfl
    · exact h.spawned data hd
    · exact not_external_of_head (by decide) []
  · have hwritten : p.closeImmediately.written = p.written :=
      congrArg Prod.fst p.closeImmediately_history
    rw [hsender, hwritten]
    exact h.written
  · rw [conn, hsender]
    exact h.forwards.congr rfl

/-- The messages of a call that is not a write of the application. -/
theorem filter_of_calls {s s' : Sender} {call : SendCall} (h : s.Calls build call s')
    (hw : ∀ env data, call ≠ .writeLocked env data)
    (hs : ∀ env data, call = .sendMessage env data → ¬ External data) :
    (s'.messages.map Message.payload).filter External =
      (s.messages.map Message.payload).filter External := by
  obtain ⟨ms, hstarts, rfl⟩ := h
  cases hstarts with
  | @writeLocked env m _ _ _ => exact absurd rfl (hw env m.payload)
  | @sendMessage env m _ _ _ =>
      rw [List.map_append]
      exact filter_append_of_not (hs env m.payload rfl) _
  | handleAck => rw [List.append_nil]
  | handleNack => rw [List.append_nil]
  | checkResend => rw [List.append_nil]

/-- Calls that send do not touch what is received. -/
theorem Forwards.calls {s s' : Sender} {call : SendCall} (h : Forwards s.conn)
    (hcalls : s.Calls build call s') : Forwards s'.conn := by
  obtain ⟨ms, -, rfl⟩ := hcalls
  exact h.congr (congrArg (fun r : Receiving ↦ (r.packetTx, r.handled, r.closing))
    (SendCall.run_receiving build call s.conn))

theorem Passes.receive (h : Passes p) (env : Env) (timestamp : List Bytes → Int64) (data : Bytes) :
    Passes (p.receive build side env timestamp data).1 := by
  let received := Conn.receive build (side.handler build p.remoteAddr timestamp) env data p.conn
  let es := effects build side p.remoteAddr timestamp p.conn.handled
    (Listener.messages p.conn received.1)
  obtain ⟨closed, hsender⟩ := @receive_sender build side p env timestamp data
  refine ⟨fun reply hr ↦ ?_, ?_, ?_⟩
  · exact not_external_of_foldl (p := { p with sender.conn := received.1 }) h.spawned hr
  · have hwritten : (p.receive build side env timestamp data).1.written = p.written :=
      congrArg Prod.fst (foldl_perform_history es { p with sender.conn := received.1 })
    rw [hwritten, hsender]
    exact h.written
  · rw [conn, hsender]
    have hkept : Forwards received.1 :=
      (kept_forwards build fun _ _ hne ↦ Side.handle_eq_false_iff hne).receive env data p.conn
        h.forwards
    exact hkept.congr rfl

/-- **Every move keeps them apart**, also one that fails. -/
theorem Passes.moves (h : Passes p) (hmoves : Moves build side network p move p')
    (hexternal : ∀ env data, move = .write env data → External data) : Passes p' := by
  cases hmoves with
  | @write env data _ _ hcalls =>
      refine ⟨h.spawned, ?_, Forwards.calls h.forwards hcalls⟩
      obtain ⟨ms, hstarts, rfl⟩ := hcalls
      cases hstarts with
      | @writeLocked _ m _ _ _ =>
          rw [List.map_append]
          exact (filter_append_of_external (hexternal env m.payload rfl) _).trans
            (congrArg (· ++ [m.payload]) h.written)
  | @task env i data _ hi hcalls =>
      refine ⟨fun data' hd ↦ h.spawned data' (List.mem_of_mem_eraseIdx hd), ?_,
        Forwards.calls h.forwards hcalls⟩
      refine (filter_of_calls hcalls (fun _ _ heq ↦ by cases heq) fun _ _ heq ↦ ?_).trans h.written
      obtain ⟨-, rfl⟩ := SendCall.sendMessage.inj heq
      exact h.spawned data (List.mem_of_getElem? hi)
  | @receive env timestamp last data _ =>
      have hreceived := @Passes.receive build side p h env timestamp data
      exact ⟨hreceived.spawned, hreceived.written, hreceived.forwards⟩
  | @flush env =>
      refine ⟨h.spawned, h.written, ?_⟩
      obtain ⟨datagrams, hflush⟩ := flushAcks_eq build env p.conn
      change Forwards (flushAcks build env p.conn)
      rw [hflush]
      exact h.forwards.congr rfl
  | @checkResend env now iter =>
      refine ⟨h.spawned, h.written, ?_⟩
      exact h.forwards.congr (congrArg (fun r : Receiving ↦ (r.packetTx, r.handled, r.closing))
        (SendCall.run_receiving build (.checkResend env now iter) p.conn))
  | @ping now =>
      refine ⟨fun data hd ↦ ?_, h.written, h.forwards⟩
      rcases List.mem_append.mp hd with hd | hd
      · exact h.spawned data hd
      · rw [List.mem_singleton.mp hd]
        exact not_external_of_head (by decide) _
  | inspect =>
      rw [Endpoint.inspect]
      split
      · exact h
      · exact ⟨h.spawned, h.written, h.forwards⟩
  | @decide now =>
      rw [Endpoint.decide]
      split
      · exact h
      · have hquiet : Passes { p with inspection := none } := ⟨h.spawned, h.written, h.forwards⟩
        dsimp only
        split
        · have hclosed := hquiet.closeImmediately
          exact ⟨hclosed.spawned, hclosed.written, hclosed.forwards⟩
        split
        · exact hquiet.closeImmediately
        · exact hquiet
  | @close now =>
      refine ⟨h.spawned, h.written, h.forwards.1, fun hclosing ↦ h.forwards.2 ?_⟩
      by_contra hne
      refine hne ?_
      change (if p.conn.closing = 0 then now else p.conn.closing) = 0 at hclosing
      rwa [if_neg hne] at hclosing
  | closeImmediately => exact h.closeImmediately

end Moves

/-! ### Looking whether anything is left -/

section Moves

variable {build : Build} {side : Side} {network : List Bytes} {p p' : Endpoint} {move : Move}

/-- What has been handled stays handled. -/
theorem Moves.handled (h : Moves build side network p move p') (hok : Orderly build side p move) :
    p.conn.handled <+: p'.conn.handled := by
  by_cases hr : ∃ env timestamp last data, move = .receive env timestamp last data
  · obtain ⟨env, timestamp, last, data, rfl⟩ := hr
    cases h
    obtain ⟨closed, hsender⟩ := @receive_sender build side p env timestamp data
    change p.conn.handled <+: (p.receive build side env timestamp data).1.sender.conn.handled
    rw [hsender]
    exact receive_handled build _ env data p.conn
  · rw [(h.goes hok fun env timestamp last data heq ↦
      hr ⟨env, timestamp, last, data, heq⟩).handled]

/-- Only the ticker looks whether anything is left. -/
theorem Moves.inspection (h : Moves build side network p move p') :
    p'.inspection = p.inspection ∨ p'.inspection = none ∨
      p'.inspection =
        some ⟨p.conn.state.retransmission.unacknowledged.len, p.sender.messages.length⟩ := by
  cases h with
  | write => exact Or.inl rfl
  | task => exact Or.inl rfl
  | receive =>
      exact Or.inl (congrArg (fun q : List Bytes × Option Inspection × Option Nat ↦ q.2.1)
        (foldl_perform_history _ _))
  | flush => exact Or.inl rfl
  | checkResend => exact Or.inl rfl
  | ping => exact Or.inl rfl
  | inspect =>
      rw [Endpoint.inspect]
      split
      · exact Or.inl rfl
      · exact Or.inr (Or.inr rfl)
  | decide =>
      have hnone (q : Endpoint) (hq : q.inspection = none) : q.closeImmediately.inspection = none :=
        (congrArg (fun q : List Bytes × Option Inspection × Option Nat ↦ q.2.1)
          q.closeImmediately_history).trans hq
      rw [Endpoint.decide]
      split
      · exact Or.inl rfl
      · refine Or.inr (Or.inl ?_)
        dsimp only
        split
        · exact hnone _ rfl
        split
        · exact hnone _ rfl
        · rfl
  | close => exact Or.inl rfl
  | closeImmediately =>
      exact Or.inl (congrArg (fun q : List Bytes × Option Inspection × Option Nat ↦ q.2.1)
        p.closeImmediately_history)

/-- And it releases the connection when nothing was. -/
theorem Moves.released (h : Moves build side network p move p') :
    p'.released = p.released ∨ ∃ n, p.inspection = some ⟨0, n⟩ ∧ p'.released = some n := by
  have hsame {q q' : Endpoint} (hq : q'.history = q.history) : q'.released = q.released :=
    congrArg (fun q : List Bytes × Option Inspection × Option Nat ↦ q.2.2) hq
  cases h with
  | write => exact Or.inl rfl
  | task => exact Or.inl rfl
  | receive => exact Or.inl (hsame (foldl_perform_history _ _))
  | flush => exact Or.inl rfl
  | checkResend => exact Or.inl rfl
  | ping => exact Or.inl rfl
  | inspect =>
      rw [Endpoint.inspect]
      split <;> exact Or.inl rfl
  | decide =>
      rw [Endpoint.decide]
      split
      · exact Or.inl rfl
      · rename_i inspection hinspection
        obtain ⟨acksLeft, started⟩ := inspection
        dsimp only
        split
        · rename_i hzero
          obtain ⟨rfl, -⟩ := hzero
          exact Or.inr ⟨started, hinspection, rfl⟩
        split
        · exact Or.inl (hsame (q := { p with inspection := none }) (closeImmediately_history _))
        · exact Or.inl rfl
  | close => exact Or.inl rfl
  | closeImmediately => exact Or.inl (hsame p.closeImmediately_history)

end Moves

end Endpoint

/-! ## Both ends -/

namespace Session

open Endpoint

/-- The other end has handled the first messages. -/
structure Flushed (s : Session) (side : Side) (n : Nat) : Prop where
  le : n ≤ (s side).sender.messages.length
  isPrefix : ((s side).sender.messages.take n).map Message.payload <+: (s side.other).conn.handled

section Runs

variable {build : Build} {request : ConnectionRequest} {s s' : Session} {side : Side}

/-- An empty table tracks nothing. -/
theorem untracked_of_len {s : Sender} (hlen : s.conn.state.retransmission.unacknowledged.len = 0)
    (m : Message) : Duplex.Untracked s m := by
  intro n i content messageIndex htracked
  rw [Conn.tracked, ResendMap.tracked, HashMap.eq_empty_of_len hlen, Finmap.lookup_empty]
    at htracked
  cases htracked

/-- A message of the application that arrives and is acknowledged, before the dialer closes. -/
theorem release : ∃ s, ((sessions .debug (ConnectionRequest.new 0 0)).restrict
    (Orderly .debug)).Reachable s ∧ (s .dialer).sender.Fresh ∧ (s .dialer).written = [[254]] ∧
      (s .dialer).released = some 2 ∧ (s .listener).conn.closing = 0 ∧
        ∀ m ∈ (s .dialer).sender.messages, Duplex.Untracked (s .dialer).sender m := by
  let env : Env := .calm
  let addr : SocketAddr := .v4 ⟨[127, 0, 0, 1], rfl⟩ 1
  let request := ConnectionRequest.new 0 0
  let m₁ : Message := ⟨request.write, [request.write], Uint24.new 0, 0, rfl, by decide, by decide⟩
  let m₂ : Message := ⟨[254], [[254]], Uint24.new 1, 0, rfl, by decide, by decide⟩
  let d (n : Nat) (m : Message) := datagram (Uint24.new n) (m.packet (Uint24.new n) 0 m.payload)
  let ack (n : UInt8) : Bytes := [192, 0, 1, 1, n, 0, 0]
  let s₀ : Session := Function.update (fun _ ↦ Endpoint.new 1492 addr 0) .dialer
    ((Endpoint.new 1492 addr 0).sendMessage request.write)
  have h₀ : ((sessions .debug request).restrict (Orderly .debug)).Reachable s₀ :=
    .init ⟨fun _ ↦ 1492, fun _ ↦ addr, 0, rfl, rfl⟩
  have h₁ := reachable_task h₀ .dialer env (i := 0) (m := m₁) rfl (.sendMessage rfl rfl rfl)
  have h₂ := @reachable_receive _ _ _ h₁ .listener env (d 0 m₁) (by decide +kernel)
    (by decide +kernel)
  have h₃ := reachable_flush h₂ .listener env
    (@flushAcks_round _ _ _ (ack 0) (by decide +kernel) (by decide +kernel))
  have h₄ := @reachable_receive _ _ _ h₃ .dialer env (ack 0) (by decide +kernel)
    (by decide +kernel)
  have h₅ := reachable_write h₄ .dialer env (m := m₂) (by decide +kernel) (by decide)
    ⟨⟨1, by decide +kernel⟩, fun fragments hf ↦ by
      obtain rfl : [[254]] = fragments := Except.ok.inj (Eq.trans (by decide +kernel) hf)
      decide⟩
    (.writeLocked (by decide +kernel) (by decide +kernel) (by decide +kernel))
  have h₆ := @reachable_receive _ _ _ h₅ .listener env (d 1 m₂) (by decide +kernel)
    (by decide +kernel)
  have h₇ := reachable_flush h₆ .listener env
    (@flushAcks_round _ _ _ (ack 1) (by decide +kernel) (by decide +kernel))
  have h₈ := @reachable_receive _ _ _ h₇ .dialer env (ack 1) (by decide +kernel)
    (by decide +kernel)
  have h₉ := reachable_move .dialer (.close 1) h₈ trivial .close
  have h₁₀ := reachable_move .dialer .inspect h₉ trivial .inspect
  have h₁₁ := reachable_move .dialer (.decide 3) h₁₀ trivial .decide
  refine ⟨_, h₁₁, ⟨by decide +kernel, by decide +kernel, by decide +kernel⟩, by decide +kernel,
    by decide +kernel, by decide +kernel, fun m _ ↦ untracked_of_len (by decide +kernel) m⟩

/-- What has been flushed stays so. -/
theorem Flushed.mono {n : Nat} (h : Flushed s side n)
    (hmessages : (s side).sender.messages <+: (s' side).sender.messages)
    (hhandled : (s side.other).conn.handled <+: (s' side.other).conn.handled) :
    Flushed s' side n := by
  obtain ⟨ms, hms⟩ := hmessages
  refine ⟨?_, ?_⟩
  · rw [← hms, List.length_append]
    exact h.le.trans (Nat.le_add_right _ _)
  · rw [← hms, List.take_append_of_le_length h.le]
    exact h.isPrefix.trans hhandled

end Runs

end Session

end Ragnet

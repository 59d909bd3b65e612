import Ragnet.Conn.Resending
import Ragnet.Session.Application

/-!
# Recovering from losses

A session may lose every datagram that is on its way.  As long as nobody closes, what the listener
has sent still gets to the dialer: the ticker of the listener sends everything that it tracks again,
the dialer takes it in and acknowledges it, and nothing remains to be sent.

The dialer does not have limits, so it takes in everything.
-/

namespace Ragnet

open Conn Proc Wire

/-! ## What has been heard -/

namespace Duplex

variable {build : Build} {source : Side} {s : Duplex}

theorem issued_le_of_extends {s s' : Sender} (h : s.Extends s') :
    s.conn.issued ≤ s'.conn.issued := by
  obtain ⟨es, hes⟩ := h.sends
  rw [issued, issued, ← hes, Ledger.numbers_append, List.length_append]
  exact Nat.le_add_right _ _

/-- A receiver has heard only of numbers that have been issued. -/
theorem heard_of_reachable (h : ((duplexes build).restrict (Intact build source)).Reachable s)
    (hf : (s source).Fresh) :
    (s source.other).conn.state.win.highest.value ≤ (s source).conn.issued := by
  revert hf
  refine h.invariant (I := fun s ↦ (s source).Fresh →
    (s source.other).conn.state.win.highest.value ≤ (s source).conn.issued) ?_ ?_
  · rintro _ ⟨mtu, rfl⟩ -
    exact Nat.zero_le _
  rintro s ⟨side, move⟩ s' hr ih ⟨hok, sender, hmoves, rfl⟩ hf
  rcases side.eq_or_eq_other source with rfl | rfl
  · rw [Function.update_self] at hf ⊢
    rw [Function.update_of_ne side.other_ne]
    exact (ih (hf.of_extends hmoves.extends)).trans (issued_le_of_extends hmoves.extends)
  · rw [Function.update_of_ne source.other_ne.symm] at hf ⊢
    rw [Function.update_self]
    have hconnected := sound_of_reachable hr hf
    dsimp only at hmoves
    rw [Side.other_other] at hmoves
    cases hmoves with
    | @call call _ _ hcalls =>
        obtain ⟨ms, -, rfl⟩ := hcalls
        have hwin := congrArg Receiving.win
          (SendCall.run_receiving build call (s source.other).conn)
        exact (congrArg (fun w ↦ w.highest.value) hwin).trans_le (ih hf)
    | @receive handler env data hdata =>
        rcases @receive_arrivals build handler env data (s source.other).conn with
          hsame | ⟨body, seq, hbody, hl, hseen, hnew⟩
        · exact (congrArg (fun a : Arrivals ↦ a.win.highest.value) hsame).trans_le (ih hf)
        -- only the datagram of a numbered packet has a body
        rcases hconnected.hands data hdata with ⟨seq', pk, hemit, rfl⟩ | hack | hnack
        · obtain rfl : body = writeUint24 seq' ++ pk.write := (Option.some.inj hbody).symm
          obtain rfl : seq' = seq := Except.ok.inj ((loadUint24_number seq' _).symm.trans hl)
          have hlt := hconnected.sound.numbers_lt _ (Ledger.mem_numbers.mpr ⟨pk, hemit⟩)
          refine (congrArg (fun a : Arrivals ↦ a.win.highest.value) hnew).trans_le ?_
          dsimp only
          rw [DatagramWindow.enter_highest, DatagramWindow.add_of_not_seen hseen]
          dsimp only
          rw [value_bound (hconnected.sound.ne_lastIndex hf.issued_lt hemit)]
          split
          · exact hlt
          · exact ih hf
        · obtain ⟨_, ⟨_, rfl, -⟩, -⟩ := hack
          cases hbody
        · obtain ⟨_, ⟨_, rfl, -⟩, -⟩ := hnack
          cases hbody
    | @flush env =>
        obtain ⟨datagrams, hflush, -⟩ := flushAcks_names build env (s source.other).conn
        rw [hflush]
        exact ih hf
    | close => exact ih hf

end Duplex

/-! ## Who stays open -/

namespace Endpoint

variable {build : Build} {side : Side} {remoteAddr : SocketAddr} {now : Int64} {b : Bool}
  {es : List Effect} {content data : Bytes} {p : Endpoint} {env : Env}
  {timestamp : List Bytes → Int64}

/-- A handler closes its connection only when it is told to. -/
theorem head_of_closeImmediately (h : side.react build remoteAddr now content = .ok (b, es))
    (hclose : .closeImmediately ∈ es) : content.head? = some Id.disconnectNotification := by
  have hbind {r : Result (List Effect)} (hr : (r >>= fun es ↦ .ok (true, es)) = .ok (b, es)) :
      r = .ok es := by
    cases r with
    | error e => cases hr
    | ok es' => exact congrArg _ (Prod.mk.inj (Except.ok.inj hr)).2
  have hdone {es' : List Effect} {b' : Bool}
      (hd : (.ok (b', es') : Result (Bool × List Effect)) = .ok (b, es)) : es' = es :=
    (Prod.mk.inj (Except.ok.inj hd)).2
  have hsends (hs : OnlySends es) : content.head? = some Id.disconnectNotification := by
    obtain ⟨reply, hreply⟩ := hs _ hclose
    cases hreply
  have hpong {data : Bytes} (hp : handleConnectedPong now data = .ok es) : OnlySends es := by
    rw [handleConnectedPong_nil hp]
    exact fun e he ↦ absurd he List.not_mem_nil
  cases content with
  | nil =>
      obtain rfl : [] = es := by cases side <;> exact hdone h
      exact absurd hclose List.not_mem_nil
  | cons id data =>
      cases side with
      | dialer =>
          rw [Side.react, DialerConnectionHandler.react] at h
          split_ifs at h with _ _ _ _ _ hid
          · have h := hbind h
            rw [DialerConnectionHandler.handleConnectionRequestAccepted] at h
            cases hread : ConnectionRequestAccepted.read build data with
            | error e =>
                rw [hread] at h
                cases h
            | ok pk =>
                rw [hread] at h
                obtain rfl := Except.ok.inj h
                rcases List.mem_cons.mp hclose with hclose | hclose
                · cases hclose
                · cases List.mem_singleton.mp hclose
          · exact hsends (onlySends_of_reply (hbind h))
          · exact hsends (hpong (hbind h))
          · rw [hid, List.head?_cons]
          · obtain rfl := hdone h
            cases List.mem_singleton.mp hclose
          · obtain rfl := hdone h
            exact absurd hclose List.not_mem_nil
      | listener =>
          rw [Side.react, ListenerConnectionHandler.react] at h
          split_ifs at h with _ _ _ _ _ hid
          · exact hsends (onlySends_of_reply (hbind h))
          · obtain rfl := hdone h
            cases List.mem_singleton.mp hclose
          · exact hsends (onlySends_of_reply (hbind h))
          · exact hsends (hpong (hbind h))
          · rw [hid, List.head?_cons]
          · obtain rfl := hdone h
            cases List.mem_singleton.mp hclose
          · obtain rfl := hdone h
            exact absurd hclose List.not_mem_nil

theorem foldl_perform_closed {effects : List Effect} (h : .closeImmediately ∉ effects)
    (p : Endpoint) : (effects.foldl perform p).conn.closed = p.conn.closed := by
  induction effects generalizing p with
  | nil => rfl
  | cons effect effects ih =>
      obtain ⟨hne, h⟩ := not_or.mp (fun hmem ↦ h (List.mem_cons.mpr hmem))
      rw [List.foldl_cons, ih h]
      cases effect with
      | sendMessage data => rfl
      | markConnected => rfl
      | closeImmediately => exact absurd rfl hne

/-- An end stays open if it is not told to close. -/
theorem receive_open
    (h : ∀ content ∈ (Conn.receive build (side.handler build p.remoteAddr timestamp) env data
      p.conn).1.handled, content.head? ≠ some Id.disconnectNotification) :
    (p.receive build side env timestamp data).1.conn.closed = p.conn.closed := by
  rw [Endpoint.receive]
  dsimp only
  rw [foldl_perform_closed]
  · exact Conn.receive_closed build _ env data p.conn
  · intro hclose
    obtain ⟨content, hcontent, before, b, es, hreact, hmem, -⟩ := mem_effects hclose
    refine h content ?_ (head_of_closeImmediately hreact hmem)
    rw [Listener.messages] at hcontent
    split at hcontent
    · exact List.mem_of_mem_drop hcontent
    · exact absurd hcontent List.not_mem_nil

end Endpoint

namespace Session

open Endpoint

/-- The steps of a recovery from `s₀`: the ends are open, datagrams arrive that have been sent
since, acknowledgements are flushed, and everything tracked is checked. -/
def Recovering (s₀ s : Session) (e : Side × Move) : Prop :=
  (s e.1).conn.closed = false ∧
    match e.2 with
    | .receive _ _ _ data =>
        data ∈ (s e.1.other).conn.sendTx.drop (s₀ e.1.other).conn.sendTx.length
    | .flush _ => True
    | .checkResend _ _ iter =>
        iter.Nodup ∧ ∀ seq, seq ∈ iter ↔ (s e.1).conn.tracked seq.value ≠ none
    | _ => False

/-- A recovery is under way, and has kept what it needs to go on. -/
structure Recovery (build : Build) (request : ConnectionRequest) (s₀ s : Session) : Prop where
  reachable : ((sessions build request).restrict (Orderly build)).Reachable s
  run : ∃ es, ((sessions build request).restrict
    fun s e ↦ Orderly build s e ∧ Recovering s₀ s e).Run s₀ es s
  grows : ∀ side, (s₀ side).conn.sendTx <+: (s side).conn.sendTx
  fresh : ∀ side, (s side).sender.Fresh
  opened : ∀ side, (s side).conn.closed = false
  messages : ∀ side, (s side).sender.messages = (s₀ side).sender.messages

/-- Nothing that the listener sends closes the dialer. -/
def Stays (s : Session) : Prop :=
  ∀ m ∈ (s .listener).sender.messages, m.payload.head? ≠ some Id.disconnectNotification

instance (s : Session) : Decidable (Stays s) := inferInstanceAs (Decidable (∀ m ∈ _, _))

section Recovery

variable {build : Build} {request : ConnectionRequest} {s₀ s : Session} {side : Side}
  {move : Move} {p : Endpoint} {seq : Uint24} {pk : Packet} {d : Bytes}

theorem Recovery.refl (h : ((sessions build request).restrict (Orderly build)).Reachable s)
    (hf : ∀ side, (s side).sender.Fresh) (hopen : ∀ side, (s side).conn.closed = false) :
    Recovery build request s s :=
  ⟨h, ⟨[], .nil s⟩, fun _ ↦ List.prefix_refl _, hf, hopen, fun _ ↦ rfl⟩

/-- One more step of a recovery. -/
theorem Recovery.step (h : Recovery build request s₀ s)
    (hok : Endpoint.Orderly build side (s side) move) (hrec : Recovering s₀ s (side, move))
    (hm : Moves build side (s side.other).conn.sendTx (s side) move p)
    (hsendTx : (s side).conn.sendTx <+: p.conn.sendTx) (hissued : p.conn.issued < 2 ^ 24)
    (hopen : p.conn.closed = false) (hmessages : p.sender.messages = (s side).sender.messages) :
    Recovery build request s₀ (Function.update s side p) := by
  obtain ⟨es, hrun⟩ := h.run
  refine ⟨reachable_move side move h.reachable hok hm,
    ⟨_, .snoc (a := (side, move)) hrun ⟨⟨hok, hrec⟩, p, hm, rfl⟩⟩, ?_, ?_, ?_, ?_⟩
  · exact (Function.forall_update_iff s fun side p ↦ (s₀ side).conn.sendTx <+: p.conn.sendTx).mpr
      ⟨(h.grows side).trans hsendTx, fun other _ ↦ h.grows other⟩
  · have hfresh := h.fresh side
    refine (Function.forall_update_iff s fun _ p ↦ p.sender.Fresh).mpr
      ⟨⟨hissued, ?_, ?_⟩, fun other _ ↦ h.fresh other⟩
    · rw [hmessages]
      exact hfresh.messages_lt
    · rw [hmessages]
      exact hfresh.splits_lt
  · exact (Function.forall_update_iff s fun _ p ↦ p.conn.closed = false).mpr
      ⟨hopen, fun other _ ↦ h.opened other⟩
  · exact (Function.forall_update_iff s fun side p ↦
      p.sender.messages = (s₀ side).sender.messages).mpr
      ⟨hmessages.trans (h.messages side), fun other _ ↦ h.messages other⟩

/-- What comes behind has been sent since. -/
theorem Recovery.mem_drop (h : Recovery build request s₀ s) {p : Endpoint} {ds : List Bytes}
    (hp : p.conn.sendTx = (s side).conn.sendTx ++ ds) (hd : d ∈ ds) :
    d ∈ p.conn.sendTx.drop (s₀ side).conn.sendTx.length := by
  rw [hp, List.drop_append_of_le_length (h.grows side).length_le]
  exact List.mem_append_right _ hd

/-- An end flushes its acknowledgements. -/
theorem Recovery.flush (h : Recovery build request s₀ s) (side : Side) (env : Env) :
    Recovery build request s₀ (Function.update s side
      { s side with sender.conn := flushAcks build env (s side).conn }) := by
  obtain ⟨datagrams, hflush, -⟩ := flushAcks_names build env (s side).conn
  refine @Recovery.step build request s₀ s side (.flush env) _ h trivial ⟨h.opened side, trivial⟩
    .flush ?_ ?_ ?_ rfl
  · dsimp only [conn]
    rw [hflush]
    exact List.prefix_append _ _
  · dsimp only [conn]
    rw [hflush]
    exact (h.fresh side).issued_lt
  · dsimp only [conn]
    rw [hflush]
    exact h.opened side

/-- The listener sends everything that it tracks again. -/
theorem Recovery.checkResend (h : Recovery build request s₀ s)
    (hroom : (s .listener).conn.issued +
      (s .listener).conn.state.retransmission.unacknowledged.len < 2 ^ 24) :
    ∃ p : Endpoint, Recovery build request s₀ (Function.update s .listener p) ∧
      p.conn.Resent (s₀ .listener).conn.sendTx.length (s .listener).conn.issued := by
  obtain ⟨now, hlate⟩ := (s .listener).conn.state.retransmission.exists_late
  let env : Env := ⟨fun _ ↦ now, fun _ ↦ true⟩
  have hconnected := connected_of_reachable h.reachable (h.fresh .listener)
  -- the numbers tracked have been issued, so they fit
  have hlt (n : Nat) (hn : (s .listener).conn.tracked n ≠ none) : n < 2 ^ 24 := by
    obtain ⟨pk, hpk⟩ := Option.ne_none_iff_exists'.mp hn
    have hmem := ((hconnected.sound.tracks.tracked_iff n pk).mp hpk).mem
    exact (hconnected.sound.numbers_lt n (Ledger.mem_numbers.mpr ⟨pk, hmem⟩)).trans
      (h.fresh .listener).issued_lt
  obtain ⟨iter, hnodup, hiter, hlength⟩ := exists_iter hlt
  have hsteps (new : Packet → Prop) := @checkResend_steps new env now iter (s .listener).conn
  have hsendTx := SendSteps.sendTx_prefix (hsteps fun _ ↦ True)
  have hissued : (Conn.checkResend env now iter (s .listener).conn).issued < 2 ^ 24 := by
    rw [Conn.checkResend]
    refine (issued_resendAll_le 0 _ _).trans_lt (lt_of_le_of_lt ?_ hroom)
    rw [← hlength]
    exact Nat.add_le_add_left (List.length_filter_le _ _) _
  refine ⟨{ s .listener with sender.conn := Conn.checkResend env now iter (s .listener).conn },
    @Recovery.step build request s₀ s .listener (.checkResend env now iter) _ h trivial
      ⟨h.opened _, hnodup, hiter⟩ .checkResend hsendTx hissued ?_ rfl, ?_⟩
  · exact (congrArg Receiving.closed (hsteps fun _ ↦ True).receiving_eq).trans (h.opened _)
  · have hresent := @checkResend_resent env (s .listener).conn (fun _ ↦ rfl) now iter hlate
      (fun n hn ↦ List.mem_map.mpr ⟨Uint24.new n,
        (hiter _).mpr ((Uint24.value_new_of_lt (hlt n hn)).symm ▸ hn),
        Uint24.value_new_of_lt (hlt n hn)⟩)
      hconnected.sound (hlength ▸ hroom)
    intro n pk ht
    obtain ⟨hle, seq, hseq, hmem⟩ := hresent n pk ht
    exact ⟨hle, seq, hseq,
      (List.drop_sublist_drop_left _ (h.grows .listener).length_le).subset hmem⟩

/-- What the listener has sent again arrives at the dialer. -/
theorem Recovery.arrive (h : Recovery build request s₀ s) (hstays : Stays s)
    (ht : (s .listener).conn.tracked seq.value = some pk)
    (hmem : datagram seq pk ∈
      (s .listener).conn.sendTx.drop (s₀ .listener).conn.sendTx.length)
    (habove : (s .dialer).conn.state.win.highest.value ≤ seq.value) :
    ∃ p : Endpoint, Recovery build request s₀ (Function.update s .dialer p) ∧
      p.conn.state.ackSlice = (s .dialer).conn.state.ackSlice ++ [seq] ∧
      p.conn.state.win.highest.value = seq.value + 1 := by
  let env : Env := .calm
  let timestamp : List Bytes → Int64 := fun _ ↦ (s .dialer).now
  let handler := Side.dialer.handler build (s .dialer).remoteAddr timestamp
  have hf := h.fresh .listener
  have hconnected : Connected (s .listener).sender (s .dialer).sender :=
    connected_of_reachable h.reachable hf
  have hemit := ((hconnected.sound.tracks.tracked_iff _ _).mp ht).mem
  have hseq := hconnected.sound.ne_lastIndex hf.issued_lt hemit
  obtain ⟨m, hm, i, content, messageIndex, hi, rfl⟩ := hconnected.counted.carries.emitted _ pk hemit
  have hhandles : Handles handler (s .listener).sender.messages :=
    @handles_of_reachable build request s .dialer h.reachable h.fresh timestamp
      (fun _ ↦ Int64.le_refl _) _
  -- the dialer has no limits, so it takes in everything
  have hok : (Conn.receive build handler env (datagram seq (m.packet messageIndex i content))
      (s .dialer).conn).2 = .ok () := by
    rcases hconnected.settled.receive_limits hhandles (hconnected.counted.fresh_numbered hf)
      hconnected.count_lt env hm hi (hconnected.counted.ne_lastIndex hf hm) hconnected.window hseq
      with hok | ⟨hlimits, -⟩
    · exact hok
    · cases hlimits
  obtain ⟨hslice, hhighest⟩ := @receive_above build handler env (s .dialer).conn seq
    (m.packet messageIndex i content) hconnected.window habove hseq
  obtain ⟨closed, hsender⟩ := @receive_sender build .dialer (s .dialer) env timestamp
    (datagram seq (m.packet messageIndex i content))
  have hreachable := @reachable_receive _ _ _ h.reachable .dialer env _ (List.mem_of_mem_drop hmem)
    hok
  have hprefix := (@connected_of_reachable build request .listener _ hreachable hf).isPrefix
  have hissuing := receiveDatagram_issuing build handler env
    (writeUint24 seq ++ (m.packet messageIndex i content).write) (s .dialer).conn
  refine ⟨_, @Recovery.step build request s₀ s .dialer
    (.receive env timestamp (s .dialer).now _) _ h
    ⟨hok, fun _ ↦ ⟨Int64.le_refl _, Int64.le_refl _⟩⟩ ⟨h.opened _, hmem⟩
    (.receive (List.mem_of_mem_drop hmem)) ?_ ?_ ?_ ?_, ?_, ?_⟩
  · dsimp only [conn]
    rw [hsender]
    exact sendTx_receive _
  · dsimp only [conn]
    rw [hsender]
    refine lt_of_eq_of_lt ?_ (h.fresh .dialer).issued_lt
    exact congrArg (fun issuing : Issuing ↦ (Ledger.numbers issuing.sends).length) hissuing
  · refine (receive_open fun content hcontent ↦ ?_).trans (h.opened .dialer)
    have hhandled := hprefix.subset
    rw [Side.other, Function.update_self, Function.update_of_ne (by decide)] at hhandled
    obtain ⟨m', hm', rfl⟩ := List.mem_map.mp (hhandled (by
      dsimp only
      rw [hsender]
      exact hcontent))
    exact hstays m' hm'
  · rw [hsender]
  · dsimp only [conn]
    rw [hsender]
    exact hslice
  · dsimp only [conn]
    rw [hsender]
    exact hhighest

/-- The acknowledgement of a number arrives at the listener. -/
theorem Recovery.acknowledge (h : Recovery build request s₀ s) (hd : IsDatagram bitFlagAck d [seq])
    (hmem : d ∈ (s .dialer).conn.sendTx.drop (s₀ .dialer).conn.sendTx.length) :
    Recovery build request s₀ (Function.update s .listener
      { s .listener with
        sender.conn := acknowledgeAll (fun _ ↦ 0) 0 [seq] (s .listener).conn }) := by
  let env : Env := .calm
  let timestamp : List Bytes → Int64 := fun _ ↦ (s .listener).now
  have hreceive := @receive_single build
    (Side.listener.handler build (s .listener).remoteAddr timestamp) env (s .listener).conn seq d hd
  have hp : (s .listener).receive build .listener env timestamp d =
      ({ s .listener with
        sender.conn := acknowledgeAll env.clock 0 [seq] (s .listener).conn }, .ok ()) := by
    rw [Endpoint.receive, hreceive]
    dsimp only
    have hnone : Listener.messages (s .listener).conn
        (acknowledgeAll env.clock 0 [seq] (s .listener).conn) = [] := by
      rw [Listener.messages]
      split
      · exact List.drop_length
      · rfl
    rw [hnone]
    rfl
  have hstep := @Recovery.step build request s₀ s .listener
    (.receive env timestamp (s .listener).now d) _ h
    ⟨congrArg Prod.snd hp, fun _ ↦ ⟨Int64.le_refl _, Int64.le_refl _⟩⟩ ⟨h.opened _, hmem⟩
    (.receive (List.mem_of_mem_drop hmem))
  rw [hp] at hstep
  refine hstep (List.prefix_refl _) ?_ (h.opened .listener) rfl
  refine lt_of_eq_of_lt ?_ (h.fresh .listener).issued_lt
  exact congrArg List.length (numbers_acked _ _)

/-! ## One number after the other -/

/-- Everything tracked has been sent again, and the dialer takes it for new. -/
structure Resending (build : Build) (request : ConnectionRequest) (s₀ s : Session) : Prop
    extends Recovery build request s₀ s where
  stays : Stays s
  acknowledged : (s .dialer).conn.state.ackSlice = []
  resent : (s .listener).conn.Resent (s₀ .listener).conn.sendTx.length
    (s .dialer).conn.state.win.highest.value

/-- The lowest number tracked arrives and is acknowledged. -/
theorem Resending.round (h : Resending build request s₀ s)
    (hne : (s .listener).conn.state.retransmission.unacknowledged.len ≠ 0) :
    ∃ s', Resending build request s₀ s' ∧
      (s' .listener).conn.state.retransmission.unacknowledged.len <
        (s .listener).conn.state.retransmission.unacknowledged.len := by
  obtain ⟨lowest, pk, ht, hlowest⟩ := exists_lowest hne
  obtain ⟨habove, seq, rfl, hmem⟩ := h.resent lowest pk ht
  obtain ⟨p₁, h₁, hslice, hhighest⟩ := h.arrive h.stays ht hmem habove
  -- the dialer acknowledges the number
  rw [h.acknowledged, List.nil_append] at hslice
  let env : Env := .calm
  obtain ⟨d, hflush, hd⟩ := @flushAcks_single build env p₁.conn seq rfl hslice
  let p₂ : Endpoint := { p₁ with sender.conn := flushAcks build env p₁.conn }
  have h₂ : Recovery build request s₀ (Function.update s .dialer p₂) := by
    have hstep := h₁.flush .dialer env
    rwa [Function.update_idem, Function.update_self] at hstep
  have hmem₂ : d ∈ (Function.update s .dialer p₂ .dialer).conn.sendTx.drop
      (s₀ .dialer).conn.sendTx.length := by
    rw [Function.update_self]
    refine @Recovery.mem_drop build request s₀ _ .dialer d h₁ _ [d] ?_ (List.mem_singleton.mpr rfl)
    rw [Function.update_self]
    exact congrArg Conn.sendTx hflush
  have h₃ := h₂.acknowledge hd hmem₂
  rw [Function.update_of_ne (by decide : Side.listener ≠ .dialer)] at h₃
  refine ⟨_, ⟨h₃, ?_, ?_, ?_⟩, ?_⟩
  · intro m hm
    rw [Function.update_self] at hm
    exact h.stays m hm
  · rw [Function.update_of_ne (by decide), Function.update_self]
    exact congrArg (fun c : Conn ↦ c.state.ackSlice) hflush
  · rw [Function.update_self, Function.update_of_ne (by decide), Function.update_self]
    intro n pk' hn
    replace hn := (tracked_acknowledgeAll_single (fun _ ↦ 0) n).symm.trans hn
    split at hn
    · cases hn
    · next hother =>
      have hwin : p₂.conn.state.win.highest.value = seq.value + 1 :=
        (congrArg (fun c : Conn ↦ c.state.win.highest.value) hflush).trans hhighest
      rw [hwin]
      exact ⟨Nat.lt_of_le_of_ne (hlowest n pk' hn) (Ne.symm hother), (h.resent n pk' hn).2⟩
  · rw [Function.update_self]
    exact len_acknowledge_lt ht 0

/-- So nothing remains. -/
theorem Resending.finish (h : Resending build request s₀ s) :
    ∃ s', Resending build request s₀ s' ∧
      (s' .listener).conn.state.retransmission.unacknowledged.len = 0 := by
  induction hn : (s .listener).conn.state.retransmission.unacknowledged.len
    using Nat.strong_induction_on generalizing s with
  | _ n ih =>
    subst hn
    by_cases hne : (s .listener).conn.state.retransmission.unacknowledged.len = 0
    · exact ⟨s, h, hne⟩
    · obtain ⟨s', h', hlt⟩ := h.round hne
      exact ih _ hlt h' rfl

/-- **Whatever has been lost, the dialer can still get everything.**  From every state of an orderly
session whose ends are open, and whose counters have room for what is to be sent again, the session
can go on without anybody writing, and without anything that was sent before, so that the listener
has nothing left to send and the dialer has handled all its messages. -/
theorem recovers (h : ((sessions build request).restrict (Orderly build)).Reachable s₀)
    (hf : ∀ side, (s₀ side).sender.Fresh) (hopen : ∀ side, (s₀ side).conn.closed = false)
    (hroom : (s₀ .listener).conn.issued +
      (s₀ .listener).conn.state.retransmission.unacknowledged.len < 2 ^ 24)
    (hstays : Stays s₀) :
    ∃ es s, ((sessions build request).restrict
        fun s e ↦ Orderly build s e ∧ Recovering s₀ s e).Run s₀ es s ∧
      (s .listener).conn.state.retransmission.unacknowledged.len = 0 ∧
      (∀ side, (s side).conn.closed = false ∧
        (s side).sender.messages = (s₀ side).sender.messages) ∧
      (s .dialer).conn.handled = (s₀ .listener).sender.messages.map Message.payload := by
  let env : Env := .calm
  have h₁ := (Recovery.refl h hf hopen).flush .dialer env
  generalize hs₁ : Function.update s₀ .dialer
    { s₀ .dialer with sender.conn := flushAcks build env (s₀ .dialer).conn } = s₁ at h₁
  have hlistener : s₁ .listener = s₀ .listener := by
    rw [← hs₁]
    exact Function.update_of_ne (by decide) _ _
  obtain ⟨datagrams, hflush, -⟩ := flushAcks_names build env (s₀ .dialer).conn
  have hdialer : (s₁ .dialer).conn.state.ackSlice = [] := by
    rw [← hs₁, Function.update_self]
    exact congrArg (fun c : Conn ↦ c.state.ackSlice) hflush
  obtain ⟨p, h₂, hresent⟩ := h₁.checkResend (by rwa [hlistener])
  have hheard : (s₁ .dialer).conn.state.win.highest.value ≤ (s₁ .listener).conn.issued :=
    Duplex.heard_of_reachable (duplex_reachable h₁.reachable .listener) (h₁.fresh .listener)
  have hresending : Resending build request s₀ (Function.update s₁ .listener p) := by
    refine ⟨h₂, fun m hm ↦ hstays m (h₂.messages .listener ▸ hm), ?_, ?_⟩
    · rwa [Function.update_of_ne (by decide)]
    · rw [Function.update_self, Function.update_of_ne (by decide)]
      intro n pk hn
      obtain ⟨hle, hmem⟩ := hresent n pk hn
      exact ⟨hheard.trans hle, hmem⟩
  obtain ⟨s, hs, hlen⟩ := hresending.finish
  obtain ⟨es, hrun⟩ := hs.run
  refine ⟨es, s, hrun, hlen, fun side ↦ ⟨hs.opened side, hs.messages side⟩, ?_⟩
  have hconnected : Connected (s .listener).sender (s .dialer).sender :=
    connected_of_reachable hs.reachable (hs.fresh .listener)
  have hall := hconnected.handled_of_untracked (hs.fresh .listener)
    (k := (s .listener).sender.messages.length) fun m _ ↦ untracked_of_len hlen m
  rw [List.take_length] at hall
  rw [← hs.messages .listener, hall.eq_of_length_le hconnected.isPrefix.length_le]

/-- The acceptance of the listener is lost. -/
theorem recovers_acceptance :
    let request := ConnectionRequest.new 0 0
    let addr : SocketAddr := .v4 ⟨[127, 0, 0, 1], rfl⟩ 1
    ∃ s₀ es s, ((sessions .debug request).restrict (Orderly .debug)).Reachable s₀ ∧
      (s₀ .dialer).conn.handled = [] ∧
      ((sessions .debug request).restrict
        fun s e ↦ Orderly .debug s e ∧ Recovering s₀ s e).Run s₀ es s ∧
      (s .dialer).conn.handled = [(ConnectionRequestAccepted.new addr 0 0).write] := by
  intro request addr
  let env : Env := .calm
  let accepted := (ConnectionRequestAccepted.new addr 0 0).write
  let m₁ : Message := ⟨request.write, [request.write], Uint24.new 0, 0, rfl, by decide, by decide⟩
  let m₂ : Message := ⟨accepted, [accepted], Uint24.new 0, 0, rfl, by decide +kernel, by decide⟩
  let d := datagram (Uint24.new 0) (m₁.packet (Uint24.new 0) 0 m₁.payload)
  let s₀ : Session := Function.update (fun _ ↦ Endpoint.new 1492 addr 0) .dialer
    ((Endpoint.new 1492 addr 0).sendMessage request.write)
  have h₀ : ((sessions .debug request).restrict (Orderly .debug)).Reachable s₀ :=
    .init ⟨fun _ ↦ 1492, fun _ ↦ addr, 0, rfl, rfl⟩
  have h₁ := reachable_task h₀ .dialer env (i := 0) (m := m₁) rfl (.sendMessage rfl rfl rfl)
  have h₂ := @reachable_receive _ _ _ h₁ .listener env d (by decide +kernel) (by decide +kernel)
  have h₃ := reachable_task h₂ .listener env (i := 0) (m := m₂) (by decide +kernel)
    (.sendMessage (by decide +kernel) (by decide +kernel) (by decide +kernel))
  obtain ⟨es, s, hrun, -, -, hhandled⟩ := recovers h₃
    (fun side ↦ by cases side <;> exact ⟨by decide +kernel, by decide +kernel, by decide +kernel⟩)
    (fun side ↦ by cases side <;> decide +kernel) (by decide +kernel) (by decide +kernel)
  exact ⟨_, es, s, h₃, by decide +kernel, hrun, hhandled.trans (by decide +kernel)⟩

end Recovery

end Session

end Ragnet

import Ragnet.Conn.Custody
import Ragnet.Conn.Traffic

/-!
# One direction of a connection

What holds between a sender and the peer that receives its packets, and acknowledges them, as long
as the peer refuses none of them: the peer delivers the messages of the sender, and it acknowledges
a number only when it has the fragment that went out under this number.  So a fragment that the
sender no longer tracks has arrived.

It holds until a counter of the sender comes round.
-/

namespace Ragnet.Conn

open Ledger Proc Wire

/-! ## The sender -/

/-- No counter of the sender has come round. -/
structure Sender.Fresh (s : Sender) : Prop where
  issued_lt : s.conn.issued < 2 ^ 24
  messages_lt : s.messages.length < 2 ^ 24
  splits_lt : (Sender.splits s.messages).length < 2 ^ 16

structure Sender.Extends (s s' : Sender) : Prop where
  messages : s.messages <+: s'.messages
  sends : s.conn.sends <+: s'.conn.sends

/-- Every fragment of the messages has been emitted. -/
def Sender.Emitted (s : Sender) : Prop :=
  ∀ m ∈ s.messages, ∀ i content, m.fragments[i]? = some content →
    ∃ number messageIndex, .emit number (m.packet messageIndex i content) ∈ s.conn.sends

/-- What the sender task gets are packets that have been numbered, and datagrams that name
numbers. -/
def Hands (P : Uint24 → Prop) (c : Conn) : Prop :=
  ∀ d ∈ c.sendTx, IsEmission c d ∨ Names bitFlagAck P d ∨ Names bitFlagNack (fun _ ↦ True) d

section Sender

variable {build : Build} {s s' : Sender} {c c' : Conn} {P Q : Uint24 → Prop} {m m' : Message}

theorem Sender.Fresh.of_extends (h : s'.Fresh) (he : s.Extends s') : s.Fresh := by
  obtain ⟨ms, hms⟩ := he.messages
  obtain ⟨es, hes⟩ := he.sends
  have hissued := h.issued_lt
  have hmessages := h.messages_lt
  have hsplits := h.splits_lt
  rw [issued, ← hes, numbers_append, List.length_append] at hissued
  rw [← hms, List.length_append] at hmessages
  rw [← hms, Sender.splits, List.filter_append, List.length_append] at hsplits
  exact ⟨by rw [issued]; omega, by omega, by rw [Sender.splits]; omega⟩

theorem Sender.Counted.fresh_numbered (h : s.Counted) (hf : s.Fresh) : Numbered s.messages :=
  h.numbered hf.messages_lt hf.splits_lt

/-- The order index of a message is its position. -/
theorem Sender.Counted.orderIndex_value (h : s.Counted) (hf : s.Fresh) {i : Nat}
    (hi : s.messages[i]? = some m) : m.orderIndex.value = i := by
  have hlt := (List.getElem?_eq_some_iff.mp hi).1
  rw [h.orderIndex_at i m hi, Uint24.value_new_of_lt (hlt.trans hf.messages_lt)]

theorem Sender.Counted.orderIndex_inj (h : s.Counted) (hf : s.Fresh) (hm : m ∈ s.messages)
    (hm' : m' ∈ s.messages) (heq : m.orderIndex = m'.orderIndex) : m = m' := by
  obtain ⟨i, hi⟩ := List.mem_iff_getElem?.mp hm
  obtain ⟨j, hj⟩ := List.mem_iff_getElem?.mp hm'
  have hij : i = j := by rw [← h.orderIndex_value hf hi, ← h.orderIndex_value hf hj, heq]
  subst hij
  exact Option.some.inj (hi.symm.trans hj)

/-- No message has the last order index. -/
theorem Sender.Counted.ne_lastIndex (h : s.Counted) (hf : s.Fresh) (hm : m ∈ s.messages) :
    m.orderIndex ≠ lastIndex := by
  obtain ⟨i, hi⟩ := List.mem_iff_getElem?.mp hm
  have hlt := (List.getElem?_eq_some_iff.mp hi).1
  have hlen := hf.messages_lt
  have hlast : lastIndex.value = 2 ^ 24 - 1 := rfl
  intro heq
  have hvalue := h.orderIndex_value hf hi
  rw [heq] at hvalue
  omega

/-- Its packets tell the fragments of a message apart. -/
theorem packet_index_inj {i j : Nat} {content content' : Bytes}
    {messageIndex messageIndex' : Uint24}
    (hcount : m.fragments.length ≤ 2 ^ 32) (hi : m.fragments[i]? = some content)
    (hj : m.fragments[j]? = some content')
    (heq : m.packet messageIndex i content = m.packet messageIndex' j content') : i = j := by
  have hilt := (List.getElem?_eq_some_iff.mp hi).1
  have hjlt := (List.getElem?_eq_some_iff.mp hj).1
  by_cases hsplit : m.IsSplit
  · rw [Message.packet_split hsplit, Message.packet_split hsplit] at heq
    have hindex := congrArg (fun pk : Packet ↦ pk.splitIndex.toNat) heq
    dsimp only at hindex
    rwa [UInt32.toNat_ofNat_of_lt' (hilt.trans_le hcount),
      UInt32.toNat_ofNat_of_lt' (hjlt.trans_le hcount)] at hindex
  · rw [Message.IsSplit] at hsplit
    omega

theorem Hands.mono (h : Hands P c) (hPQ : ∀ n, P n → Q n) : Hands Q c :=
  fun d hd ↦ (h d hd).imp_right (Or.imp_left fun hn ↦ hn.mono hPQ)

/-- What is added must be in order. -/
theorem Hands.adds (h : Hands P c) (ha : Adds c c') (hpending : ∀ n ∈ c.state.ackSlice, P n) :
    Hands P c' := by
  intro d hd
  rcases ha.sendTx d hd with hd | hd | hd | hd
  · exact (h d hd).imp_left fun he ↦ he.mono ha.sends.subset
  · exact Or.inl hd
  · exact Or.inr (Or.inl (hd.mono hpending))
  · exact Or.inr (Or.inr hd)

/-- Fragments that have been emitted stay so. -/
theorem Sender.Emitted.mono (h : s.Emitted) (hs : s.conn.sends ⊆ c'.sends) :
    (⟨c', s.messages⟩ : Sender).Emitted := by
  intro m hm i content hi
  obtain ⟨number, messageIndex, hmem⟩ := h m hm i content hi
  exact ⟨number, messageIndex, hs hmem⟩

/-- What receiving packets does not touch. -/
theorem Sender.Counted.congr (h : s.Counted) (hc : c'.issuing = s.conn.issuing) :
    (⟨c', s.messages⟩ : Sender).Counted where
  carries := carries_congr h.carries
    (congrArg (fun i : Issuing ↦ i.retransmission.tracked) hc) (congrArg Issuing.sends hc)
  orderIndex_eq := (congrArg Issuing.orderIndex hc).trans h.orderIndex_eq
  orderIndex_at := h.orderIndex_at
  splitId_eq := (congrArg Issuing.splitId hc).trans h.splitId_eq
  splitId_at := h.splitId_at

theorem Sound.congr (h : c.Sound) (hc : c'.issuing = c.issuing) : c'.Sound := by
  have hsends : c'.sends = c.sends := congrArg Issuing.sends hc
  have htracked : c'.tracked = c.tracked :=
    congrArg (fun i : Issuing ↦ i.retransmission.tracked) hc
  have hseq : c'.state.seq = c.state.seq := congrArg Issuing.seq hc
  have hindex : c'.state.messageIndex = c.state.messageIndex := congrArg Issuing.messageIndex hc
  refine ⟨?_, ?_, ?_, ?_, ?_⟩
  · rw [htracked, hsends]
    exact h.tracks
  · rw [hseq, issued, hsends]
    exact h.seq_eq
  · rw [issued, hsends]
    exact h.numbers_lt
  · rw [hindex, issued, hsends]
    exact h.messageIndex_le
  · rw [hindex, hsends]
    exact h.messageIndex_lt

/-- Steps that start no message keep the count. -/
theorem Sender.Counted.steps (h : s.Counted)
    (hsteps : ∀ new, SendSteps new s.conn c') : (⟨c', s.messages⟩ : Sender).Counted := by
  obtain ⟨horder, hid⟩ := (hsteps (Genuine s.messages)).counters_eq
  exact ⟨carries_of_steps (hsteps (Genuine s.messages)) h.carries, horder.trans h.orderIndex_eq,
    h.orderIndex_at, hid.trans h.splitId_eq, h.splitId_at⟩

/-- While the numbers last, the last one is not used. -/
theorem Sound.ne_lastIndex (h : c.Sound) (hlt : c.issued < 2 ^ 24) {seq : Uint24} {pk : Packet}
    (hemit : .emit seq.value pk ∈ c.sends) : seq ≠ lastIndex := by
  have hseq := h.numbers_lt seq.value (mem_numbers.mpr ⟨pk, hemit⟩)
  have hlast : lastIndex.value = 2 ^ 24 - 1 := rfl
  intro heq
  rw [heq] at hseq
  omega

/-- While the numbers last, steps keep the connection sound. -/
theorem Sound.steps {new : Packet → Prop} (h : c.Sound) (hsteps : SendSteps new c c')
    (hlt : c'.issued < 2 ^ 24) : c'.Sound :=
  hsteps.invariant (I := SoundBelowWrap) (fun _ _ hs hi ↦ hi.step hs) (fun _ ↦ h) hlt

/-- So does a call. -/
theorem Sound.call (h : c.Sound) (call : SendCall) (hlt : (call.run build c).issued < 2 ^ 24) :
    (call.run build c).Sound := by
  obtain ⟨orderIndex, splitId, hsteps⟩ := call.run_steps build c
  have hc : (c.renumber orderIndex splitId).Sound :=
    ⟨h.tracks, h.seq_eq, h.numbers_lt, h.messageIndex_le, h.messageIndex_lt⟩
  exact hc.steps hsteps hlt

end Sender

/-! ## The sender and its receiver -/

/-- The packet belongs to a fragment that the receiver has. -/
def Arrived (messages : List Message) (d : Delivery) (pk : Packet) : Prop :=
  ∃ m ∈ messages, ∃ (i : Nat) (content : Bytes) (messageIndex : Uint24),
    m.fragments[i]? = some content ∧ pk = m.packet messageIndex i content ∧ Has d m i

/-- The receiver may acknowledge the number. -/
def Receipt (s r : Sender) (n : Uint24) : Prop :=
  Good s.conn.sends (Arrived s.messages r.conn.delivery) n.value

/-- The receiver has delivered the messages of the sender, and it acknowledges what it has. -/
structure Connected (s r : Sender) : Prop where
  counted : s.Counted
  sound : s.conn.Sound
  count_lt : ∀ m ∈ s.messages, m.fragments.length < 2 ^ 32
  emitted : s.Emitted
  hands : Hands (fun _ ↦ True) s.conn
  window : r.conn.state.win.Bounded
  settled : Settled s.messages r.conn.delivery
  honest : Honest s.conn.sends (Arrived s.messages r.conn.delivery)
  pending : ∀ n ∈ r.conn.state.ackSlice, Receipt s r n
  replies : Hands (Receipt s r) r.conn

theorem connected_new (mtu mtu' : Nat) : Connected ⟨new mtu, []⟩ ⟨new mtu', []⟩ where
  counted := (Sender.sound_new mtu).counted
  sound := sound_new mtu
  count_lt := fun _ hm ↦ absurd hm List.not_mem_nil
  emitted := fun _ hm ↦ absurd hm List.not_mem_nil
  hands := fun _ hd ↦ absurd hd List.not_mem_nil
  window := HashMap.Within.empty _
  settled := settled_new mtu'
  honest := fun _ hn ↦ absurd hn List.not_mem_nil
  pending := fun _ hn ↦ absurd hn List.not_mem_nil
  replies := fun _ hd ↦ absurd hd List.not_mem_nil

section Connected

variable {build : Build} {handler : ConnectionHandler} {env : Env} {s s' r r' : Sender} {c' : Conn}
  {data : Bytes} {messages : List Message} {d d' : Delivery}

theorem Arrived.mono {pk : Packet} (h : Arrived messages d pk) (ms : List Message)
    (hkeep : ∀ m ∈ messages, ∀ i, Has d m i → Has d' m i) : Arrived (messages ++ ms) d' pk := by
  obtain ⟨m, hm, i, content, messageIndex, hi, hpk, hhas⟩ := h
  exact ⟨m, List.mem_append_left _ hm, i, content, messageIndex, hi, hpk, hkeep m hm i hhas⟩

/-- A receipt stays good while the sender goes on. -/
theorem Receipt.advance {n : Uint24} (h : Receipt s r n) {ms : List Message}
    (hms : s'.messages = s.messages ++ ms) (hs : s.conn.sends <+: s'.conn.sends)
    (hsound : s'.conn.Sound) : Receipt s' r n := by
  refine (h.mono fun pk hpk ↦ ?_).extend hs hsound.tracks.nodup
  rw [hms]
  exact hpk.mono ms fun _ _ _ hhas ↦ hhas

/-- And while the receiver keeps what it has. -/
theorem Receipt.keep {n : Uint24} (h : Receipt s r n)
    (hkeep : ∀ m ∈ s.messages, ∀ i, Has r.conn.delivery m i → Has r'.conn.delivery m i) :
    Receipt s r' n := by
  refine h.mono fun pk hpk ↦ ?_
  rw [← List.append_nil s.messages]
  exact hpk.mono [] hkeep

/-! ### Steps of the sender -/

/-- The sender goes on, and acknowledges only what it may. -/
theorem Connected.advance (h : Connected s r) {ms : List Message}
    (hms : s'.messages = s.messages ++ ms) (ha : Adds s.conn s'.conn) (hcounted : s'.Counted)
    (hsound : s'.conn.Sound) (hcount : ∀ m ∈ ms, m.fragments.length < 2 ^ 32)
    (hemitted : s'.Emitted)
    (hacked : ∀ n, .acked n ∈ s'.conn.sends → .acked n ∈ s.conn.sends ∨
      Good s.conn.sends (Arrived s.messages r.conn.delivery) n) : Connected s' r := by
  have hmono (pk : Packet) (hpk : Arrived s.messages r.conn.delivery pk) :
      Arrived s'.messages r.conn.delivery pk := by
    rw [hms]
    exact hpk.mono ms fun _ _ _ hhas ↦ hhas
  exact
    { counted := hcounted
      sound := hsound
      count_lt := fun m hm ↦ by
        rw [hms] at hm
        exact (List.mem_append.mp hm).elim (h.count_lt m) (hcount m)
      emitted := hemitted
      hands := h.hands.adds ha fun _ _ ↦ trivial
      window := h.window
      settled := hms ▸ h.settled.mono ms
      honest := h.honest.extend ha.sends hsound.tracks.nodup hmono
        fun n hn ↦ (hacked n hn).imp_right fun hgood ↦ hgood.mono hmono
      pending := fun n hn ↦ (h.pending n hn).advance hms ha.sends hsound
      replies := h.replies.mono fun n hn ↦ hn.advance hms ha.sends hsound }

/-- Nothing happens to the packets of the sender. -/
theorem Connected.sender_quiet (h : Connected s r) (hc : c'.issuing = s.conn.issuing)
    (ha : Adds s.conn c') : Connected ⟨c', s.messages⟩ r := by
  have hsends : c'.sends = s.conn.sends := congrArg Issuing.sends hc
  refine h.advance (List.append_nil _).symm ha (h.counted.congr hc) (h.sound.congr hc)
    (fun _ hm ↦ absurd hm List.not_mem_nil) (h.emitted.mono ?_) fun n hn ↦ Or.inl ?_
  · rw [hsends]
    exact List.Subset.refl _
  · exact hsends ▸ hn

/-- The sender takes steps that start no message. -/
theorem Connected.sender_steps (h : Connected s r) (hsteps : ∀ new, SendSteps new s.conn c')
    (hlt : c'.issued < 2 ^ 24)
    (hacked : ∀ n, .acked n ∈ c'.sends → .acked n ∈ s.conn.sends ∨
      Good s.conn.sends (Arrived s.messages r.conn.delivery) n) : Connected ⟨c', s.messages⟩ r :=
  h.advance (List.append_nil _).symm (.of_steps (hsteps fun _ ↦ True)) (h.counted.steps hsteps)
    (h.sound.steps (hsteps fun _ ↦ True) hlt) (fun _ hm ↦ absurd hm List.not_mem_nil)
    (h.emitted.mono (hsteps fun _ ↦ True).sends_subset) hacked

/-- Resending acknowledges nothing. -/
theorem acksWithin_resendAll (i : Nat) (seqs : List Uint24) (c : Conn) :
    AcksWithin c (resendAll env i seqs c) := AcksWithin.resendAll (fun _ hn ↦ hn) env i seqs

/-- The sender receives something from the receiver. -/
theorem Connected.sender_receive (h : Connected s r) (hd : data ∈ r.conn.sendTx)
    (hlt : (receive build handler env data s.conn).1.issued < 2 ^ 24) :
    Connected ⟨(receive build handler env data s.conn).1, s.messages⟩ r := by
  rcases h.replies data hd with ⟨seq, pk, -, rfl⟩ | hack | hnack
  · refine h.sender_quiet ?_ (adds_receive _)
    rw [receive_datagram]
    exact receiveDatagram_issuing build handler env _ s.conn
  · rcases receive_names_ack hack build handler env s.conn with hsame | ⟨taken, htaken, hrecv⟩
    · rw [hsame]
      exact h
    · rw [hrecv] at hlt ⊢
      refine h.sender_steps (fun _ ↦ acknowledgeAll_steps _ _ taken s.conn) hlt fun n hn ↦ ?_
      rcases acknowledgeAll_acks env.clock 0 taken s.conn hn with hold | ⟨seq, hseq, rfl⟩
      · exact Or.inl hold
      · exact Or.inr (htaken seq hseq)
  · obtain ⟨taken, hrecv⟩ := receive_names_nack hnack build handler env s.conn
    rw [hrecv] at hlt ⊢
    exact h.sender_steps (fun _ ↦ resendAll_steps env 0 taken s.conn) hlt
      fun n hn ↦ Or.inl (acksWithin_resendAll 0 taken s.conn n hn)

/-! ### Steps of the receiver -/

/-- The receiver goes on, keeps what it has, and promises only what it may. -/
theorem Connected.keep (h : Connected s r) (ha : Adds r.conn r'.conn)
    (hwindow : r'.conn.state.win.Bounded) (hsettled : Settled s.messages r'.conn.delivery)
    (hkeep : ∀ m ∈ s.messages, ∀ i, Has r.conn.delivery m i → Has r'.conn.delivery m i)
    (hpending : ∀ n ∈ r'.conn.state.ackSlice, n ∈ r.conn.state.ackSlice ∨ Receipt s r' n) :
    Connected s r' where
  counted := h.counted
  sound := h.sound
  count_lt := h.count_lt
  emitted := h.emitted
  hands := h.hands
  window := hwindow
  settled := hsettled
  honest := fun n hn ↦ (h.honest n hn).mono fun pk hpk ↦ by
    rw [← List.append_nil s.messages]
    exact hpk.mono [] hkeep
  pending := fun n hn ↦ (hpending n hn).elim (fun hold ↦ (h.pending n hold).keep hkeep) id
  replies := (h.replies.mono fun _ hn ↦ hn.keep hkeep).adds ha
    fun n hn ↦ (h.pending n hn).keep hkeep

/-- What the receiver has stays the same, and it has no new promises to make. -/
theorem Connected.receiver_quiet (h : Connected s r)
    (hdelivery : r'.conn.delivery = r.conn.delivery) (hwin : r'.conn.state.win = r.conn.state.win)
    (hslice : r'.conn.state.ackSlice ⊆ r.conn.state.ackSlice) (ha : Adds r.conn r'.conn) :
    Connected s r' :=
  h.keep ha (hwin ▸ h.window) (hdelivery ▸ h.settled) (fun _ _ _ hhas ↦ hdelivery ▸ hhas)
    fun _ hn ↦ Or.inl (hslice hn)

/-- The receiver works on its send side. -/
theorem Connected.receiver_sends (h : Connected s r) (hc : r'.conn.receiving = r.conn.receiving)
    (ha : Adds r.conn r'.conn) : Connected s r' := by
  have hslice : r'.conn.state.ackSlice = r.conn.state.ackSlice := congrArg Receiving.ackSlice hc
  refine h.receiver_quiet (delivery_of_receiving hc) (congrArg Receiving.win hc) ?_ ha
  rw [hslice]
  exact List.Subset.refl _

/-- The receiver receives something from the sender, without an error. -/
theorem Connected.receiver_receive (h : Connected s r) (hf : s.Fresh) (hd : data ∈ s.conn.sendTx)
    (hok : (receive build handler env data r.conn).2 = .ok ()) :
    Connected s ⟨(receive build handler env data r.conn).1, r.messages⟩ := by
  rcases h.hands data hd with ⟨seq, pk, hemit, rfl⟩ | hack | hnack
  · obtain ⟨m, hm, i, content, messageIndex, hi, rfl⟩ := h.counted.carries.emitted _ pk hemit
    obtain ⟨c', hrecv, hsettled, hkeep, harrivals⟩ := h.settled.receive
      (h.counted.fresh_numbered hf) h.count_lt env hm hi (h.counted.ne_lastIndex hf hm) hok
    rw [hrecv]
    have ha : Adds r.conn c' := hrecv ▸ adds_receive _
    rcases harrivals with hsame | ⟨hnew, hhas⟩
    · have hwin : c'.state.win = r.conn.state.win := congrArg Arrivals.win hsame
      have hslice : c'.state.ackSlice = r.conn.state.ackSlice := congrArg Arrivals.ackSlice hsame
      exact h.keep ha (hwin ▸ h.window) hsettled hkeep fun n hn ↦ Or.inl (hslice ▸ hn)
    · have hwin : c'.state.win = (r.conn.state.win.enter r.conn.rtt env.clock seq).1 :=
        congrArg Arrivals.win hnew
      have hslice : c'.state.ackSlice = r.conn.state.ackSlice ++ [seq] :=
        congrArg Arrivals.ackSlice hnew
      refine h.keep ha (hwin ▸ h.window.enter (h.sound.ne_lastIndex hf.issued_lt hemit)) hsettled
        hkeep fun n hn ↦ ?_
      dsimp only at hn
      rw [hslice] at hn
      refine (List.mem_append.mp hn).imp_right fun hn ↦ ?_
      rw [List.mem_singleton.mp hn]
      exact .of_emit h.sound.tracks.nodup hemit ⟨m, hm, i, content, messageIndex, hi, rfl, hhas⟩
  · refine h.receiver_sends ?_ (adds_receive _)
    rcases receive_names_ack hack build handler env r.conn with hsame | ⟨taken, -, hrecv⟩
    · rw [hsame]
    · rw [hrecv]
      exact (@acknowledgeAll_steps (fun _ ↦ True) _ _ taken r.conn).receiving_eq
  · refine h.receiver_sends ?_ (adds_receive _)
    obtain ⟨taken, hrecv⟩ := receive_names_nack hnack build handler env r.conn
    rw [hrecv]
    exact (@resendAll_steps (fun _ ↦ True) env 0 taken r.conn).receiving_eq

/-- A receiver whose handler takes the messages receives what the sender has sent, within its
limits, except for acknowledgements that name too many numbers. -/
theorem Connected.receives (h : Connected s r) (hf : s.Fresh)
    (hhandles : Handles handler s.messages) (hd : data ∈ s.conn.sendTx) :
    WithinLimits handler (receive build handler env data r.conn).2 ∨
      (receive build handler env data r.conn).2 = err .maxAcknowledgement := by
  rcases h.hands data hd with ⟨seq, pk, hemit, rfl⟩ | hack | hnack
  · obtain ⟨m, hm, i, content, messageIndex, hi, rfl⟩ := h.counted.carries.emitted _ pk hemit
    exact Or.inl (h.settled.receive_limits hhandles (h.counted.fresh_numbered hf) h.count_lt env
      hm hi (h.counted.ne_lastIndex hf hm) h.window (h.sound.ne_lastIndex hf.issued_lt hemit))
  · exact (receive_names_returns (Or.inl hack) build handler env r.conn).imp_left Or.inl
  · exact (receive_names_returns (Or.inr hnack) build handler env r.conn).imp_left Or.inl

/-! ### What it means -/

/-- What the receiver has handled is a prefix of what has been sent. -/
theorem Connected.isPrefix (h : Connected s r) :
    r.conn.handled <+: s.messages.map Message.payload := h.settled.delivering.isPrefix

/-- A fragment that is not tracked has arrived. -/
theorem Connected.has_of_untracked (h : Connected s r) (hf : s.Fresh) {m : Message}
    (hm : m ∈ s.messages) (hu : ∀ n i content messageIndex,
      s.conn.tracked n ≠ some (m.packet messageIndex i content)) {i : Nat}
    (hi : i < m.fragments.length) : Has r.conn.delivery m i := by
  have hget := List.getElem?_eq_getElem hi
  obtain ⟨number, messageIndex, hemit⟩ := h.emitted m hm i _ hget
  obtain ⟨m', hm', j, content, messageIndex', hj, heq, hhas⟩ :=
    h.sound.tracks.arrived h.honest hemit fun n ↦ hu n i _ messageIndex
  -- the packet determines its message and the fragment
  have horder : m.orderIndex = m'.orderIndex := by
    have hfields (m : Message) (messageIndex : Uint24) (i : Nat) (content : Bytes) :
        (m.packet messageIndex i content).orderIndex = m.orderIndex := by
      rw [Message.packet, fragmentPacket]
      split <;> rfl
    rw [← hfields m messageIndex i, heq, hfields]
  obtain rfl := h.counted.orderIndex_inj hf hm hm' horder
  rwa [packet_index_inj (h.count_lt m hm).le hget hj heq]

/-- **What is not tracked has been handled.**  If none of the first `k` messages is tracked any
more, the receiver has handled them all. -/
theorem Connected.handled_of_untracked (h : Connected s r) (hf : s.Fresh) {k : Nat}
    (hu : ∀ m ∈ s.messages.take k, ∀ n i content messageIndex,
      s.conn.tracked n ≠ some (m.packet messageIndex i content)) :
    (s.messages.take k).map Message.payload <+: r.conn.handled := by
  have hlen : (s.messages.take k).length ≤ r.conn.handled.length := by
    have hcount : r.conn.handled.length = r.conn.state.packetQueue.lowest.value :=
      h.settled.delivering.ordered.length_eq
    rw [hcount]
    refine h.settled.waits.le_lowest fun i hi ↦ ?_
    have hget := List.getElem?_eq_getElem hi
    have hm := List.getElem_mem hi
    have htaken := h.settled.taken_of_has (h.counted.fresh_numbered hf) (List.mem_of_mem_take hm)
      fun j hj ↦ h.has_of_untracked hf (List.mem_of_mem_take hm) (hu _ hm) hj
    rwa [h.counted.orderIndex_value hf ((List.getElem?_take_of_lt ?_).symm.trans hget)] at htaken
    exact lt_of_lt_of_le hi (List.length_take_le _ _)
  refine List.prefix_of_prefix_length_le ?_ h.isPrefix (by rwa [List.length_map])
  rw [List.map_take]
  exact List.take_prefix _ _

end Connected

end Ragnet.Conn

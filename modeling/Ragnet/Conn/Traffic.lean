import Ragnet.Conn.AcknowledgementRounds
import Ragnet.Conn.Invariants
import Ragnet.Lib.Receipts

/-!
# What goes over the wire

A connection hands three kinds of datagrams to its sender task: those of numbered packets, those
that name numbers as received, and those that name numbers as missing.  This is what each of them
does to the send side of the connection that receives it, and what it may name.
-/

namespace Ragnet.Conn

open Acknowledgement Ledger Proc Wire

/-! ## The send side -/

/-- The part of a connection that its send side works on, the datagrams handed over aside. -/
structure Issuing where
  mtu : Mtu
  seq : Uint24
  orderIndex : Uint24
  messageIndex : Uint24
  splitId : UInt32
  retransmission : ResendMap
  sends : List SendEvent

/-- The send side of a connection. -/
def issuing (c : Conn) : Issuing where
  mtu := c.mtu
  seq := c.state.seq
  orderIndex := c.state.orderIndex
  messageIndex := c.state.messageIndex
  splitId := c.state.splitId
  retransmission := c.state.retransmission
  sends := c.sends

section Receive

variable (build : Build) (handler : ConnectionHandler) (env : Env)

theorem enterDatagram_issuing (clock : Clock) (seq : Uint24) :
    Keeps (fun c ↦ (c.issuing, c.sendTx)) (enterDatagram build handler clock seq) := by
  refine .bind (.update fun _ ↦ rfl) fun added ↦ .ite (.pure none) ?_
  refine .bind (.modify fun _ ↦ rfl) fun _ ↦ .bind (.update fun _ ↦ rfl) fun shifted ↦ ?_
  refine .bind (.ite (.update fun _ ↦ rfl) (.pure [])) fun missing ↦ ?_
  refine .bind (.bind .get fun c ↦ .bind (.ofExcept _) fun size ↦ ?_) fun _ ↦ .pure _
  exact .ite (.pure _) (.pure none)

theorem handleDatagram_issuing (data : Bytes) :
    Keeps (fun c ↦ (c.issuing, c.sendTx)) (handleDatagram build handler data) := by
  suffices hloop : ∀ rounds data,
      Keeps (fun c ↦ (c.issuing, c.sendTx)) (handleLoop build handler rounds data) from
    hloop data.length data
  intro rounds
  induction rounds with
  | zero => exact fun _ ↦ .pure ()
  | succ rounds ih =>
      intro data
      refine .ite (.pure ()) (.bind ?_ fun read ↦ .bind (.ofExcept _) fun rest ↦
        .bind ?_ fun _ ↦ ih rest)
      · exact (readPacket_frame build data).comp fun c ↦ (c.issuing, c.sendTx)
      · exact (takePacket_frame build handler read.1).comp fun c ↦ (c.issuing, c.sendTx)

/-- Receiving packets does not touch the send side. -/
theorem receiveDatagram_issuing (data : Bytes) :
    Keeps issuing (receiveDatagram build handler env data) := by
  refine .ite (.fail _) (.bind (.ofExcept _) fun seq ↦
    .bind ((enterDatagram_issuing build handler env.clock seq).comp Prod.fst) fun arrival ↦ ?_)
  rcases arrival with _ | ⟨missing, windowError⟩
  · exact .pure ()
  refine .bind (fun c ↦ ?_) fun _ ↦ ?_
  · obtain ⟨datagrams, hreport⟩ := reportMissing_ok build env missing c
    rw [hreport]
    rfl
  · rcases windowError with _ | ⟨lowest, highest⟩
    · exact .bind (.ofExcept _) fun contents ↦
        (handleDatagram_issuing build handler contents).comp Prod.fst
    · exact .fail _

end Receive

/-! ## Datagrams that name numbers -/

/-- The datagram names numbers, and only such as satisfy `P`. -/
def Names (bitflag : UInt8) (P : Uint24 → Prop) (d : Bytes) : Prop :=
  ∃ taken, IsDatagram bitflag d taken ∧ ∀ n ∈ taken, P n

theorem Names.mono {bitflag : UInt8} {P Q : Uint24 → Prop} {d : Bytes} (h : Names bitflag P d)
    (hPQ : ∀ n, P n → Q n) : Names bitflag Q d := by
  obtain ⟨taken, hd, htaken⟩ := h
  exact ⟨taken, hd, fun n hn ↦ hPQ n (htaken n hn)⟩

section Names

variable {build : Build} {handler : ConnectionHandler} {env : Env} {bitflag : UInt8} {c : Conn}
  {P : Uint24 → Prop} {d : Bytes}

/-- An acknowledgement names numbers of its list. -/
theorem sendAcknowledgement_names (packets : List Uint24) (c : Conn) :
    ∃ datagrams, sendAcknowledgement build env packets bitflag c =
        ({ c with sendTx := c.sendTx ++ datagrams }, .ok ()) ∧
      ∀ d ∈ datagrams, Names bitflag (· ∈ packets) d := by
  have hmtu := c.mtu.effective_bounds
  obtain ⟨datagrams, out, hloop, hemits, hdatagrams⟩ :=
    @acknowledgementLoop_builds build c.mtu.effective bitflag (by omega) (by omega) packets
  refine ⟨takenFrom env 0 datagrams, hloop env 0 c, fun d hd ↦ ?_⟩
  obtain ⟨k, hk, -⟩ := mem_takenFrom.mp hd
  obtain ⟨hlen, hget⟩ := List.forall₂_iff_get.mp hdatagrams
  obtain ⟨hkds, rfl⟩ := List.getElem?_eq_some_iff.mp hk
  have hkout : k < out.length := hlen ▸ hkds
  refine ⟨out[k], hget k hkds hkout, fun n hn ↦ hemits.subset ?_⟩
  exact List.mem_flatten.mpr ⟨out[k], List.getElem_mem hkout, hn⟩

/-- Flushing names numbers that are pending. -/
theorem flushAcks_names (build : Build) (env : Env) (c : Conn) :
    ∃ datagrams, flushAcks build env c =
        { c with state.ackSlice := [], sendTx := c.sendTx ++ datagrams } ∧
      ∀ d ∈ datagrams, Names bitFlagAck (· ∈ c.state.ackSlice) d := by
  rw [flushAcks]
  split
  · next hnil =>
    refine ⟨[], ?_, fun _ hd ↦ absurd hd List.not_mem_nil⟩
    rw [List.append_nil, ← hnil]
  · obtain ⟨datagrams, hsend, hnames⟩ := @sendAcknowledgement_names build env bitFlagAck
      c.state.ackSlice { c with state.ackSlice := [] }
    exact ⟨datagrams, congrArg Prod.fst hsend, hnames⟩

/-- What receiving packets hands to the sender task names numbers as missing. -/
theorem receiveDatagram_nacks (build : Build) (handler : ConnectionHandler) (env : Env)
    (data : Bytes) (c : Conn) :
    ∀ d ∈ (receiveDatagram build handler env data c).1.sendTx,
      d ∈ c.sendTx ∨ Names bitFlagNack (fun _ ↦ True) d := by
  let I (c' : Conn) : Prop := ∀ d ∈ c'.sendTx, d ∈ c.sendTx ∨ Names bitFlagNack (fun _ ↦ True) d
  have hsame {α : Type} {x : Action α} (hx : Keeps (fun c ↦ (c.issuing, c.sendTx)) x) :
      Preserves I x :=
    hx.preserves fun s s' heq hs d hd ↦ hs d ((Prod.mk.inj heq).2 ▸ hd)
  suffices h : Preserves I (receiveDatagram build handler env data) from h c fun _ ↦ Or.inl
  refine .ite (.fail _) (.bind (.ofExcept _) fun seq ↦
    .bind (hsame (enterDatagram_issuing build handler env.clock seq)) fun arrival ↦ ?_)
  rcases arrival with _ | ⟨missing, windowError⟩
  · exact .pure ()
  refine .bind (fun c' hc ↦ ?_) fun _ ↦ ?_
  · rw [reportMissing]
    split
    · exact hc
    · obtain ⟨datagrams, hsend, hnames⟩ :=
        @sendAcknowledgement_names build env bitFlagNack missing c'
      rw [sendNack, hsend]
      intro d hd
      rcases List.mem_append.mp hd with hd | hd
      · exact hc d hd
      · exact Or.inr ((hnames d hd).mono fun _ _ ↦ trivial)
  · rcases windowError with _ | ⟨lowest, highest⟩
    · exact .bind (.ofExcept _) fun contents ↦ hsame (handleDatagram_issuing build handler contents)
    · exact .fail _

/-- An ACK makes the connection acknowledge numbers that it names, or nothing. -/
theorem receive_names_ack (h : Names bitFlagAck P d) (build : Build) (handler : ConnectionHandler)
    (env : Env) (c : Conn) :
    (receive build handler env d c).1 = c ∨
      ∃ taken, (∀ n ∈ taken, P n) ∧
        (receive build handler env d c).1 = acknowledgeAll env.clock 0 taken c := by
  obtain ⟨taken, ⟨body, rfl, hbody⟩, htaken⟩ := h
  have hreceive : receive build handler env ([bitFlagAck ||| bitFlagDatagram] ++ body) =
      handleAck build env.clock body := by
    rw [List.singleton_append, receive, if_pos (by decide)]
  rw [hreceive, handleAck]
  rcases hbody.reads build with ⟨hread, -⟩ | ⟨hread, -⟩
  · rw [hread, ofExcept_ok_bind]
    exact Or.inr ⟨taken, htaken, rfl⟩
  · rw [hread]
    exact Or.inl rfl

/-- A NACK makes it send packets again. -/
theorem receive_names_nack (h : Names bitFlagNack P d) (build : Build)
    (handler : ConnectionHandler) (env : Env) (c : Conn) :
    ∃ taken, (receive build handler env d c).1 = resendAll env 0 taken c := by
  obtain ⟨taken, ⟨body, rfl, hbody⟩, -⟩ := h
  have hreceive : receive build handler env ([bitFlagNack ||| bitFlagDatagram] ++ body) =
      handleNack build env body := by
    rw [List.singleton_append, receive, if_neg (by decide), if_pos (by decide)]
  rw [hreceive, handleNack]
  rcases hbody.reads build with ⟨hread, -⟩ | ⟨hread, -⟩
  · rw [hread, ofExcept_ok_bind]
    exact ⟨taken, rfl⟩
  · rw [hread]
    exact ⟨[], rfl⟩

/-- Reading a datagram that names numbers goes wrong only when they are too many. -/
theorem receive_names_returns (h : Names bitFlagAck P d ∨ Names bitFlagNack P d) (build : Build)
    (handler : ConnectionHandler) (env : Env) (c : Conn) :
    (receive build handler env d c).2 = .ok () ∨
      (receive build handler env d c).2 = err .maxAcknowledgement := by
  rcases h with ⟨taken, ⟨body, rfl, hbody⟩, -⟩ | ⟨taken, ⟨body, rfl, hbody⟩, -⟩
  · rw [List.singleton_append, receive, if_pos (by decide), handleAck]
    rcases hbody.reads build with ⟨hread, -⟩ | ⟨hread, -⟩
    · rw [hread]
      exact Or.inl rfl
    · rw [hread]
      exact Or.inr rfl
  · rw [List.singleton_append, receive, if_neg (by decide), if_pos (by decide), handleNack]
    rcases hbody.reads build with ⟨hread, -⟩ | ⟨hread, -⟩
    · rw [hread]
      exact Or.inl rfl
    · rw [hread]
      exact Or.inr rfl

end Names

/-! ## The MTU -/

section Mtu

variable (build : Build) (c : Conn)

theorem receive_mtu (handler : ConnectionHandler) (env : Env) (data : Bytes) :
    (receive build handler env data c).1.mtu = c.mtu := by
  cases data with
  | nil => rfl
  | cons flags rest =>
      rw [receive]
      split
      · exact congrArg Receiving.mtu (handleAck_receiving build env.clock rest c)
      split
      · exact congrArg Receiving.mtu (handleNack_receiving build env rest c)
      split
      · exact congrArg Issuing.mtu (receiveDatagram_issuing build handler env rest c)
      · rfl

theorem SendCall.run_mtu (call : SendCall) : (call.run build c).mtu = c.mtu :=
  congrArg Receiving.mtu (call.run_receiving build c)

theorem flushAcks_mtu (env : Env) : (flushAcks build env c).mtu = c.mtu := by
  obtain ⟨datagrams, hflush, -⟩ := flushAcks_names build env c
  rw [hflush]

end Mtu

/-! ## The steps of the send side -/

section Steps

variable {new : Packet → Prop} {c c' : Conn}

/-- What happens to the tracked packets comes behind what happened. -/
theorem SendSteps.sends_prefix (h : SendSteps new c c') : c.sends <+: c'.sends := by
  refine h.invariant (I := fun d ↦ c.sends <+: d.sends) ?_ (List.prefix_refl _)
  intro a b hs ha
  cases hs with
  | measure now => exact ha
  | issue now _ _ => exact ha.trans (List.prefix_append _ _)
  | reissue removed added _ => exact ha.trans (List.prefix_append _ _)
  | acknowledge seq now => exact ha.trans (List.prefix_append _ _)
  | send _ => exact ha

/-- A datagram of a packet that the connection has numbered. -/
def IsEmission (c : Conn) (d : Bytes) : Prop :=
  ∃ seq pk, .emit (Uint24.value seq) pk ∈ c.sends ∧ d = datagram seq pk

theorem IsEmission.mono {d : Bytes} (h : IsEmission c d) (hs : c.sends ⊆ c'.sends) :
    IsEmission c' d := by
  obtain ⟨seq, pk, hm, rfl⟩ := h
  exact ⟨seq, pk, hs hm, rfl⟩

/-- What the send side hands to the sender task are datagrams of packets that it has numbered. -/
theorem SendSteps.sendTx_new (h : SendSteps new c c') :
    ∀ d ∈ c'.sendTx, d ∈ c.sendTx ∨ IsEmission c' d := by
  refine h.invariant (I := fun b ↦ ∀ d ∈ b.sendTx, d ∈ c.sendTx ∨ IsEmission b d) ?_
    fun _ hd ↦ Or.inl hd
  intro a b hs ha
  have hgrow (e : SendEvent) (d : Bytes) (hd : d ∈ a.sendTx) :
      d ∈ c.sendTx ∨ ∃ seq pk, .emit (Uint24.value seq) pk ∈ a.sends ++ [e] ∧ d = datagram seq pk :=
    (ha d hd).imp_right fun ⟨seq, pk, hm, hpk⟩ ↦ ⟨seq, pk, List.mem_append_left _ hm, hpk⟩
  cases hs with
  | measure now => exact ha
  | issue now _ _ => exact hgrow _
  | reissue removed added _ => exact hgrow _
  | acknowledge seq now => exact hgrow _
  | @send seq pk hm =>
      intro d hd
      rcases List.mem_append.mp hd with hd | hd
      · exact ha d hd
      · exact Or.inr ⟨seq, pk, hm, List.mem_singleton.mp hd⟩

end Steps

/-! ## Which numbers are acknowledged -/

/-- No number has been acknowledged that was not before. -/
def AcksWithin (c₀ c : Conn) : Prop := ∀ n, .acked n ∈ c.sends → .acked n ∈ c₀.sends

section Acks

variable {c₀ c : Conn}

theorem AcksWithin.emit (h : AcksWithin c₀ c) (pk : Packet) (now : Instant) :
    AcksWithin c₀ (Conn.emit pk now c).1 := by
  intro n hn
  rcases List.mem_append.mp hn with hn | hn
  · exact h n hn
  · cases List.mem_singleton.mp hn

theorem AcksWithin.trySend (h : AcksWithin c₀ c) (accepted : Bool) (data : Bytes) :
    AcksWithin c₀ (c.trySend accepted data) := by
  cases accepted with
  | false => exact h
  | true => exact h

theorem AcksWithin.resendAll (h : AcksWithin c₀ c) (env : Env) (i : Nat) (seqs : List Uint24) :
    AcksWithin c₀ (Conn.resendAll env i seqs c) := by
  induction seqs generalizing i c with
  | nil => exact h
  | cons seq seqs ih =>
      refine ih ?_ (i + 1)
      rw [resend]
      split
      · exact h
      · exact (AcksWithin.emit (c := { c with
          state.retransmission := (c.state.retransmission.retransmit seq _).1 }) h _ _).trySend _ _

theorem writeLoop_acks (env : Env) (count : Nat) (splitId : UInt16) (orderIndex : Uint24) (i : Nat)
    (fragments : List Bytes) (n : Nat) :
    Preserves (AcksWithin c₀) (writeLoop env count splitId orderIndex i fragments n) := by
  induction fragments generalizing i n with
  | nil => exact .pure n
  | cons content rest ih =>
      refine .bind (.update fun c hc ↦ hc) fun messageIndex ↦
        .bind (.bind (.update fun c hc ↦ hc.emit _ _) fun data ↦ ?_) fun _ ↦ ih (i + 1) _
      rw [send]
      exact .ite (.modify fun c hc ↦ hc.trySend true data) (.fail _)

theorem writeLocked_acks (build : Build) (env : Env) (data : Bytes) :
    Preserves (AcksWithin c₀) (writeLocked build env data) := by
  refine .bind .get fun c ↦ .bind (.ofExcept _) fun fragments ↦
    .bind (.update fun c hc ↦ hc) fun orderIndex ↦ ?_
  exact .ite (.bind (.modify fun c hc ↦ hc) fun _ ↦ writeLoop_acks _ _ _ _ _ _ _)
    (writeLoop_acks _ _ _ _ _ _ _)

theorem sendMessage_acks (env : Env) (data : Bytes) (c : Conn) :
    AcksWithin c (sendMessage env data c) :=
  (AcksWithin.emit (c := { c with
    state.orderIndex := c.state.orderIndex.inc.1
    state.messageIndex := c.state.messageIndex.inc.1 }) (fun _ hn ↦ hn) _ _).trySend _ _

/-- Only the numbers named are acknowledged. -/
theorem acknowledgeAll_acks (clock : Clock) (i : Nat) (seqs : List Uint24) (c : Conn) {n : Nat}
    (hn : .acked n ∈ (acknowledgeAll clock i seqs c).sends) :
    .acked n ∈ c.sends ∨ ∃ seq ∈ seqs, seq.value = n := by
  induction seqs generalizing i c with
  | nil => exact Or.inl hn
  | cons seq seqs ih =>
      rcases ih (i + 1) _ hn with hn | ⟨seq', hseq', rfl⟩
      · rcases List.mem_append.mp hn with hn | hn
        · exact Or.inl hn
        · refine Or.inr ⟨seq, List.mem_cons_self, ?_⟩
          exact (Event.acked.inj (List.mem_singleton.mp hn)).symm
      · exact Or.inr ⟨seq', List.mem_cons_of_mem _ hseq', rfl⟩

/-- The calls that a connection makes on its own account. -/
def SendCall.Own : SendCall → Prop
  | .writeLocked _ _ => True
  | .sendMessage _ _ => True
  | .handleAck _ _ => False
  | .handleNack _ _ => False
  | .checkResend _ _ _ => True

/-- They acknowledge nothing. -/
theorem SendCall.Own.acks {call : SendCall} (h : call.Own) (build : Build) (c : Conn) :
    AcksWithin c (call.run build c) := by
  have hself : AcksWithin c c := fun _ hn ↦ hn
  cases call with
  | writeLocked env data => exact writeLocked_acks build env data c hself
  | sendMessage env data => exact sendMessage_acks env data c
  | handleAck clock data => exact h.elim
  | handleNack env data => exact h.elim
  | checkResend env now iter =>
      exact AcksWithin.resendAll (c := { c with
        state.retransmission := (c.state.retransmission.rtt now).1
        rtt := (c.state.retransmission.rtt now).2 }) hself _ _ _

end Acks

/-! ## What any event adds -/

/-- What happens to a connection adds to the history of its packets, and what it hands to the sender
task are packets numbered by then, pending acknowledgements, and numbers reported as missing. -/
structure Adds (c c' : Conn) : Prop where
  sends : c.sends <+: c'.sends
  sendTx : ∀ d ∈ c'.sendTx, d ∈ c.sendTx ∨ IsEmission c' d ∨
    Names bitFlagAck (· ∈ c.state.ackSlice) d ∨ Names bitFlagNack (fun _ ↦ True) d

section Adds

variable {build : Build} {handler : ConnectionHandler} {env : Env} {c c' : Conn}

theorem Adds.of_steps {new : Packet → Prop} (h : SendSteps new c c') : Adds c c' where
  sends := h.sends_prefix
  sendTx d hd := (h.sendTx_new d hd).imp_right Or.inl

theorem adds_call (call : SendCall) : Adds c (call.run build c) := by
  obtain ⟨orderIndex, splitId, hsteps⟩ := call.run_steps build c
  have hadds := Adds.of_steps hsteps
  exact ⟨hadds.sends, hadds.sendTx⟩

theorem adds_flushAcks : Adds c (flushAcks build env c) := by
  obtain ⟨datagrams, hflush, hnames⟩ := flushAcks_names build env c
  rw [hflush]
  refine ⟨List.prefix_refl _, fun d hd ↦ ?_⟩
  rcases List.mem_append.mp hd with hd | hd
  · exact Or.inl hd
  · exact Or.inr (Or.inr (Or.inl (hnames d hd)))

theorem adds_receiveDatagram (data : Bytes) :
    Adds c (receiveDatagram build handler env data c).1 where
  sends := by
    have hsends : (receiveDatagram build handler env data c).1.sends = c.sends :=
      congrArg Issuing.sends (receiveDatagram_issuing build handler env data c)
    rw [hsends]
  sendTx d hd := (receiveDatagram_nacks build handler env data c d hd).imp_right
    fun h ↦ Or.inr (Or.inr h)

/-- Whatever it receives. -/
theorem adds_receive (data : Bytes) : Adds c (receive build handler env data c).1 := by
  have hnone : Adds c c := ⟨List.prefix_refl _, fun _ hd ↦ Or.inl hd⟩
  cases data with
  | nil => exact hnone
  | cons flags rest =>
      rw [receive]
      split
      · exact .of_steps (@handleAck_steps (fun _ ↦ True) build env.clock rest c)
      split
      · exact .of_steps (@handleNack_steps (fun _ ↦ True) build env rest c)
      split
      · exact adds_receiveDatagram rest
      · exact hnone

/-- A write that returns has emitted every fragment. -/
theorem writeLoop_returns {count : Nat} {splitId : UInt16} {orderIndex : Uint24} {i n k : Nat}
    {fragments : List Bytes}
    (h : (writeLoop env count splitId orderIndex i fragments n c).2 = .ok k) {j : Nat}
    {content : Bytes} (hj : fragments[j]? = some content) :
    ∃ number messageIndex,
      .emit number (fragmentPacket count splitId orderIndex messageIndex (i + j) content) ∈
        (writeLoop env count splitId orderIndex i fragments n c).1.sends := by
  induction fragments generalizing i j n c with
  | nil => cases hj
  | cons first rest ih =>
      cases haccepts : env.accepts i with
      | false =>
          rw [writeLoop, Proc.update_bind, sendDatagram, haccepts] at h
          cases h
      | true =>
          rw [writeLoop_cons haccepts] at h ⊢
          cases j with
          | zero =>
              obtain rfl := Option.some.inj hj
              refine ⟨c.state.seq.value, c.state.messageIndex, ?_⟩
              have hsteps := @writeLoop_steps (fun _ ↦ True) env count splitId orderIndex (i + 1)
                rest (n + first.length) (c.sentFragment env count splitId orderIndex i first)
                fun _ _ _ _ ↦ trivial
              exact hsteps.sends_subset (List.mem_append_right _ (List.mem_singleton.mpr rfl))
          | succ j =>
              rw [Nat.add_comm j 1, ← Nat.add_assoc]
              exact ih h hj

theorem writeLocked_returns {data : Bytes} {k : Nat} {fragments : List Bytes}
    (hf : split build data c.mtu.effective = .ok fragments)
    (h : (writeLocked build env data c).2 = .ok k) {j : Nat} {content : Bytes}
    (hj : fragments[j]? = some content) :
    ∃ number messageIndex,
      .emit number (fragmentPacket fragments.length c.state.splitId.toUInt16 c.state.orderIndex
        messageIndex j content) ∈ (writeLocked build env data c).1.sends := by
  rw [writeLocked_of_ok env hf] at h ⊢
  have hemits := writeLoop_returns h hj
  rwa [Nat.zero_add] at hemits

end Adds

end Ragnet.Conn

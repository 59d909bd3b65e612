import Ragnet.Conn.Intake
import Ragnet.Conn.Invariants
import Ragnet.Packet.Announced

/-!
# The scratch packet

`handle_datagram` reads every packet into the same packet of the connection, and a read that fails
midway leaves fields of the malformed packet in it.  They have no influence on what comes later: a
packet is looked at only where its header announces something, and what the header announces is
read together with it.

A packet put together from fragments takes its order index over from the last fragment, announced
or not.  Nothing looks at it unless the packet is ordered, so two histories are compared by what
their packets announce.
-/

namespace Ragnet.Conn

open Proc Wire

def withPk (self : Conn) (pk : Packet) : Conn := { self with state.pk := pk }

/-- A connection without its scratch packet, its history reduced to what the packets announce. -/
def withoutPk (self : Conn) : Conn :=
  { self with
    state.pk := Packet.new
    reassembled := self.reassembled.map Packet.announced }

/-- Two connections are the same except for the scratch packet. -/
def SameButPk (c d : Conn) : Prop := c.withoutPk = d.withoutPk

theorem sameButPk_withPk (c : Conn) (pk : Packet) : SameButPk (c.withPk pk) c := rfl

theorem SameButPk.handled {c d : Conn} (h : SameButPk c d) : c.handled = d.handled :=
  (congrArg Conn.handled h : c.withoutPk.handled = _)

theorem SameButPk.splits {c d : Conn} (h : SameButPk c d) : c.state.splits = d.state.splits :=
  (congrArg (fun c ↦ c.state.splits) h : c.withoutPk.state.splits = _)

/-- A change that the scratch packet has nothing to do with. -/
theorem SameButPk.map {c d : Conn} (h : SameButPk c d) {f : Conn → Conn}
    (hf : ∀ c, (f c).withoutPk = f c.withoutPk) : SameButPk (f c) (f d) := by
  rw [SameButPk, hf, hf, show c.withoutPk = d.withoutPk from h]

variable (build : Build) (handler : ConnectionHandler)

/-! ## Whole packets -/

theorem aside_withoutPk : Aside withoutPk :=
  ⟨fun _ ↦ rfl, fun _ _ ↦ rfl, fun _ _ ↦ rfl, fun _ _ ↦ rfl⟩

theorem receivePacket_blind (pk : Packet) : Blind SameButPk (receivePacket build handler pk) :=
  (receivePacket_commutes build handler aside_withoutPk pk).blind

/-- Only what a packet announces is looked at. -/
theorem receivePacket_congr {pk pk' : Packet} (h : pk.announced = pk'.announced) :
    receivePacket build handler pk = receivePacket build handler pk' := by
  rw [receivePacket, receivePacket, Packet.content_of_announced h,
    Packet.reliability_of_announced h]
  split
  · rfl
  · next hr =>
    have ho : pk.isSequencedOrOrdered = true := by
      rw [Packet.isSequencedOrOrdered, Packet.reliability_of_announced h, not_not.mp hr]
      rfl
    rw [orderPacket, orderPacket, Packet.content_of_announced h,
      Packet.orderIndex_of_announced h ho]

/-! ## Fragments -/

theorem SameButPk.setSplits {c d : Conn} (h : SameButPk c d)
    (splits : HashMap UInt16 (List Bytes)) :
    SameButPk { c with state.splits := splits } { d with state.splits := splits } :=
  h.map (f := fun c ↦ { c with state.splits := splits }) fun _ ↦ rfl

/-- Packets put together that announce the same. -/
theorem SameButPk.combine {c d : Conn} (h : SameButPk c d)
    (splits : HashMap UInt16 (List Bytes)) {pk pk' : Packet}
    (hpk : pk.announced = pk'.announced) :
    SameButPk { c with state.splits := splits, reassembled := c.reassembled ++ [pk] }
      { d with state.splits := splits, reassembled := d.reassembled ++ [pk'] } := by
  have hr : c.reassembled.map Packet.announced = d.reassembled.map Packet.announced :=
    congrArg Conn.reassembled h
  have hmap : (c.reassembled ++ [pk]).map Packet.announced =
      (d.reassembled ++ [pk']).map Packet.announced := by
    rw [List.map_append, List.map_append, hr, List.map_singleton, List.map_singleton, hpk]
  have hset (c : Conn) (pks : List Packet) :
      withoutPk { c with state.splits := splits, reassembled := pks } =
        { c.withoutPk with
          state.splits := splits, reassembled := pks.map Packet.announced } := rfl
  refine (hset c _).trans (Eq.trans ?_ (hset d _).symm)
  rw [hmap, show c.withoutPk = d.withoutPk from h]

/-- Of an order index that may be stale, a packet put together announces what the fragments did. -/
theorem combinedPacket_announced {pk pk' : Packet} (h : pk.announced = pk'.announced)
    (fragments : List Bytes) :
    (combinedPacket pk fragments).announced = (combinedPacket pk' fragments).announced := by
  have hreliability := Packet.reliability_of_announced h
  have horder := Packet.orderIndex_of_announced h
  exact Packet.announced_eq ⟨hreliability, rfl⟩ (fun _ ↦ rfl) (fun _ ↦ rfl) horder (fun _ ↦ rfl) rfl

/-- Fragments that announce the same go into the same slot, and what they complete announces the
same. -/
theorem reassemble_coupled {pk pk' : Packet} (h : pk.announced = pk'.announced)
    (hs : pk.split = true) :
    Coupled SameButPk SameButPk
      (fun a b c d ↦ a.map Packet.announced = b.map Packet.announced ∧ SameButPk c d)
      (reassemble build handler pk) (reassemble build handler pk') := by
  obtain ⟨hcount, hindex, hid⟩ := Packet.splitFields_of_announced h hs
  have hfragments (splits : HashMap UInt16 (List Bytes)) :
      fragmentsOf splits pk' = fragmentsOf splits pk := by
    rw [fragmentsOf, fragmentsOf, hcount, hid]
  intro c d hcd
  rw [reassemble, reassemble, ← hcount, ← hindex, ← hid, ← Packet.content_of_announced h]
  split
  · exact .error hcd
  rw [get_bind, get_bind, hfragments, hcd.splits]
  split
  · exact .error hcd
  rw [modify_bind, modify_bind, hcd.splits]
  split
  · exact .ofExcept_bind (hcd.setSplits _) fun text ↦ .error (hcd.setSplits _)
  rw [modify_bind, modify_bind]
  split
  · exact .ok ⟨rfl, hcd.setSplits _⟩
  · have hcombined := combinedPacket_announced h (filled d.state.splits pk)
    exact .ok ⟨congrArg some hcombined, hcd.combine _ hcombined⟩

theorem takePacket_coupled {pk pk' : Packet} (h : pk.announced = pk'.announced) :
    Coupled SameButPk SameButPk (fun a b c d ↦ a = b ∧ SameButPk c d)
      (takePacket build handler pk) (takePacket build handler pk') := by
  rw [takePacket, takePacket, ← Packet.split_of_announced h]
  cases hs : pk.split with
  | false =>
      rw [if_neg Bool.false_ne_true, if_neg Bool.false_ne_true,
        ← receivePacket_congr build handler h]
      exact receivePacket_blind build handler pk
  | true =>
      rw [if_pos rfl, if_pos rfl]
      refine (reassemble_coupled build handler h hs).after fun a b hab ↦ ?_
      cases a with
      | none =>
          cases b with
          | none => exact Blind.pure ()
          | some combined' => cases hab
      | some combined =>
          cases b with
          | none => cases hab
          | some combined' =>
              have hcombined := receivePacket_congr build handler (Option.some.inj hab)
              dsimp only
              rw [← hcombined]
              exact receivePacket_blind build handler combined

/-! ## Datagrams -/

/-- The next packet announces the same, and takes up as many bytes. -/
theorem readPacket_coupled (data : Bytes) :
    Coupled SameButPk SameButPk
      (fun p q c d ↦ (p.1.announced = q.1.announced ∧ p.2 = q.2) ∧ SameButPk c d)
      (readPacket build data) (readPacket build data) := by
  have hread : Coupled SameButPk SameButPk
      (fun n m c d ↦ n = m ∧ SameButPk c d ∧ c.state.pk.announced = d.state.pk.announced)
      (zoom (fun c : Conn ↦ c.state.pk) (fun c pk ↦ { c with state.pk := pk })
        (Packet.read build data))
      (zoom (fun c : Conn ↦ c.state.pk) (fun c pk ↦ { c with state.pk := pk })
        (Packet.read build data)) :=
    .zoom (Packet.read_coupled build data) (fun _ _ _ ↦ trivial) (fun _ _ _ _ h _ ↦ h)
      fun _ _ _ _ _ _ h hr ↦ ⟨hr.1, h, hr.2⟩
  exact hread.bind_eq fun n c d h ↦ .ok ⟨⟨h.2, rfl⟩, h.1⟩

theorem handleLoop_blind (rounds : Nat) (data : Bytes) :
    Blind SameButPk (handleLoop build handler rounds data) := by
  induction rounds generalizing data with
  | zero => exact .pure ()
  | succ rounds ih =>
      refine .ite (.pure ()) ((readPacket_coupled build data).after fun p q hpq ↦ ?_)
      rw [← hpq.2]
      refine Coupled.bind_eq (Blind.ofExcept _) fun rest ↦ ?_
      exact (takePacket_coupled build handler hpq.1).bind_eq fun _ ↦ ih rest

theorem handleDatagram_blind (data : Bytes) : Blind SameButPk (handleDatagram build handler data) :=
  handleLoop_blind build handler data.length data

/-! ## The other calls

No other call looks at the scratch packet at all. -/

theorem trySend_withoutPk (accepted : Bool) (data : Bytes) (c : Conn) :
    trySend accepted data c.withoutPk = (trySend accepted data c).withoutPk := by
  cases accepted with
  | false => rfl
  | true => rfl

theorem acknowledgementLoop_commutes (env : Env) (mtu : Nat) (bitflag : UInt8) (i : Nat)
    (packets : List Uint24) :
    Commutes withoutPk (acknowledgementLoop build env mtu bitflag i packets) := by
  induction hn : packets.length using Nat.strong_induction_on generalizing i packets with
  | _ n ih =>
    subst hn
    rw [acknowledgementLoop]
    split
    · exact .pure ()
    · next hne =>
      split
      · exact .fail _
      · next buf n hw =>
        refine .ite (.bind (.modify (trySend_withoutPk _ _)) fun _ ↦ ih _ ?_ _ _ rfl) (.fail _)
        rw [List.length_drop]
        exact Nat.sub_lt (List.length_pos_iff.mpr hne) (Acknowledgement.writeToBuf_pos hne hw)

theorem sendAcknowledgement_commutes (env : Env) (packets : List Uint24) (bitflag : UInt8) :
    Commutes withoutPk (sendAcknowledgement build env packets bitflag) :=
  .get_bind (fun _ ↦ rfl) fun c ↦
    acknowledgementLoop_commutes build env c.mtu.effective bitflag 0 packets

theorem flushAcks_withoutPk (env : Env) (c : Conn) :
    flushAcks build env c.withoutPk = (flushAcks build env c).withoutPk := by
  by_cases hnil : c.state.ackSlice = []
  · exact (if_pos hnil).trans (congrArg withoutPk (if_pos hnil)).symm
  · refine (if_neg hnil).trans (Eq.trans ?_ (congrArg withoutPk (if_neg hnil)).symm)
    exact congrArg Prod.fst (sendAcknowledgement_commutes build env c.state.ackSlice bitFlagAck
      { c with state.ackSlice := [] })

theorem resend_withoutPk (removed added : Instant) (accepted : Bool) (seq : Uint24) (c : Conn) :
    resend removed added accepted seq c.withoutPk =
      (resend removed added accepted seq c).withoutPk := by
  rw [resend, resend, show c.withoutPk.state.retransmission = c.state.retransmission from rfl]
  cases (c.state.retransmission.retransmit seq removed).2 with
  | none => rfl
  | some pk =>
      cases accepted with
      | false => rfl
      | true => rfl

theorem resendAll_withoutPk (env : Env) (i : Nat) (seqs : List Uint24) (c : Conn) :
    resendAll env i seqs c.withoutPk = (resendAll env i seqs c).withoutPk := by
  induction seqs generalizing i c with
  | nil => rfl
  | cons seq seqs ih => rw [resendAll, resendAll, resend_withoutPk, ih]

theorem acknowledgeAll_withoutPk (clock : Clock) (i : Nat) (seqs : List Uint24) (c : Conn) :
    acknowledgeAll clock i seqs c.withoutPk = (acknowledgeAll clock i seqs c).withoutPk := by
  induction seqs generalizing i c with
  | nil => rfl
  | cons seq seqs ih =>
      rw [acknowledgeAll, acknowledgeAll]
      exact ih (i + 1) { c with
        state.retransmission := (c.state.retransmission.acknowledge seq (clock i)).1
        sends := c.sends ++ [.acked seq.value] }

theorem handleAck_commutes (clock : Clock) (data : Bytes) :
    Commutes withoutPk (handleAck build clock data) :=
  .bind (.ofExcept _) fun _ ↦ .modify (acknowledgeAll_withoutPk clock 0 _)

theorem handleNack_commutes (env : Env) (data : Bytes) :
    Commutes withoutPk (handleNack build env data) :=
  .bind (.ofExcept _) fun _ ↦ .modify (resendAll_withoutPk env 0 _)

theorem writeLoop_commutes (env : Env) (count : Nat) (splitId : UInt16) (orderIndex : Uint24)
    (i : Nat) (fragments : List Bytes) (n : Nat) :
    Commutes withoutPk (writeLoop env count splitId orderIndex i fragments n) := by
  induction fragments generalizing i n with
  | nil => exact .pure n
  | cons content rest ih =>
      refine .bind (.update fun _ ↦ rfl) fun messageIndex ↦ .bind ?_ fun _ ↦ ih _ _
      exact .bind (.update fun _ ↦ rfl) fun data ↦ .ite (.modify fun _ ↦ rfl) (.fail _)

theorem writeLocked_commutes (env : Env) (data : Bytes) :
    Commutes withoutPk (writeLocked build env data) := by
  refine .get_bind (fun _ ↦ rfl) fun c ↦ .bind (.ofExcept _) fun fragments ↦ ?_
  refine .bind (.update fun _ ↦ rfl) fun orderIndex ↦
    .ite (.bind (.modify fun _ ↦ rfl) fun _ ↦ ?_) ?_
  · exact writeLoop_commutes env _ _ _ _ _ _
  · exact writeLoop_commutes env _ _ _ _ _ _

theorem sendMessage_withoutPk (env : Env) (data : Bytes) (c : Conn) :
    sendMessage env data c.withoutPk = (sendMessage env data c).withoutPk := by
  rw [sendMessage, sendMessage]
  cases env.accepts 0 with
  | false => rfl
  | true => rfl

theorem SendCall.run_withoutPk (call : SendCall) (c : Conn) :
    call.run build c.withoutPk = (call.run build c).withoutPk := by
  cases call with
  | writeLocked env data => exact congrArg Prod.fst (writeLocked_commutes build env data c)
  | sendMessage env data => exact sendMessage_withoutPk env data c
  | handleAck clock data => exact congrArg Prod.fst (handleAck_commutes build clock data c)
  | handleNack env data => exact congrArg Prod.fst (handleNack_commutes build env data c)
  | checkResend env now iter =>
      exact resendAll_withoutPk env 0 _ { c with
        state.retransmission := (c.state.retransmission.rtt now).1
        rtt := (c.state.retransmission.rtt now).2 }

theorem enterDatagram_commutes (clock : Clock) (seq : Uint24) :
    Commutes withoutPk (enterDatagram build handler clock seq) := by
  refine .bind (.update fun _ ↦ rfl) fun added ↦ .ite (.pure none) ?_
  refine .bind (.modify fun _ ↦ rfl) fun _ ↦ .bind (.update fun _ ↦ rfl) fun shifted ↦ ?_
  refine .bind (.ite (.update fun _ ↦ rfl) (.pure [])) fun missing ↦ .bind ?_ fun _ ↦ .pure _
  exact .get_bind (fun _ ↦ rfl) fun c ↦ .bind (.ofExcept _) fun size ↦ .ite (.pure _) (.pure none)

theorem receiveDatagram_blind (env : Env) (data : Bytes) :
    Blind SameButPk (receiveDatagram build handler env data) := by
  refine .ite (.fail _) (.bind (.ofExcept _) fun seq ↦ ?_)
  refine .bind (enterDatagram_commutes build handler env.clock seq).blind fun arrival ↦ ?_
  cases arrival with
  | none => exact .pure ()
  | some arrival =>
      obtain ⟨missing, windowError⟩ := arrival
      refine .bind (.ite (.pure ()) ?_) fun _ ↦ ?_
      · exact (sendAcknowledgement_commutes build env missing bitFlagNack).blind
      · cases windowError with
        | none =>
            exact .bind (.ofExcept _) fun contents ↦ handleDatagram_blind build handler contents
        | some bounds => exact .fail _

theorem receive_blind (env : Env) (data : Bytes) :
    Blind SameButPk (receive build handler env data) := by
  cases data with
  | nil => exact .pure ()
  | cons flags rest =>
      refine .ite (handleAck_commutes build env.clock rest).blind
        (.ite (handleNack_commutes build env rest).blind (.ite ?_ (.pure ())))
      exact receiveDatagram_blind build handler env rest

/-- Whatever is called, connections that are the same except for the scratch packet stay so. -/
theorem SameButPk.call {c d : Conn} (h : SameButPk c d) (call : Call) :
    SameButPk (call.run build handler c) (call.run build handler d) := by
  cases call with
  | receive env data => exact ((receive_blind build handler env data).result h).2
  | send call => exact h.map fun c ↦ (call.run_withoutPk build c).symm
  | flushAcks env => exact h.map fun c ↦ (flushAcks_withoutPk build env c).symm
  | close closing closed =>
      exact h.map (f := fun c ↦ { c with closing := closing, closed := closed }) fun _ ↦ rfl

theorem SameButPk.calls {c d : Conn} (h : SameButPk c d) (calls : List Call) :
    SameButPk (calls.foldl (Call.run build handler) c)
      (calls.foldl (Call.run build handler) d) := by
  induction calls generalizing c d with
  | nil => exact h
  | cons call calls ih => exact ih (h.call build handler call)

/-- **Malformed packets do not matter.**  Two connections that are equal except for the scratch
packet handle every datagram alike: the results are the same, the same contents go to
`handle_packet`, and the states that are left are the same except for the scratch packet.  So they
stay alike whatever is called, and every later datagram is received alike. -/
theorem scratch_unseen (c : Conn) (pk : Packet) :
    (∀ data, (handleDatagram build handler data (c.withPk pk)).2 =
        (handleDatagram build handler data c).2 ∧
      (handleDatagram build handler data (c.withPk pk)).1.handled =
        (handleDatagram build handler data c).1.handled ∧
      SameButPk (handleDatagram build handler data (c.withPk pk)).1
        (handleDatagram build handler data c).1) ∧
    ∀ (calls : List Call) (env : Env) (data : Bytes),
      (receive build handler env data (calls.foldl (Call.run build handler) (c.withPk pk))).2 =
        (receive build handler env data (calls.foldl (Call.run build handler) c)).2 ∧
      SameButPk (calls.foldl (Call.run build handler) (c.withPk pk))
        (calls.foldl (Call.run build handler) c) := by
  have hsame := sameButPk_withPk c pk
  refine ⟨fun data ↦ ?_, fun calls env data ↦ ?_⟩
  · obtain ⟨hresult, hstate⟩ := (handleDatagram_blind build handler data).result hsame
    exact ⟨hresult, hstate.handled, hstate⟩
  · have hcalls := hsame.calls build handler calls
    exact ⟨((receive_blind build handler env data).result hcalls).1, hcalls⟩

/-- A fragment that ends behind its header leaves its flags behind. -/
example : (handleDatagram .debug .forwarding [0x70, 0, 8] (new 1492)).1.state.pk =
    { Packet.new with split := true } := by decide

end Ragnet.Conn

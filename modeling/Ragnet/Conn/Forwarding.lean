import Ragnet.Conn.Invariants
import Ragnet.Conn.Refusal
import Ragnet.Packet.Reads

/-!
# When a datagram has something for the application

A content goes to the application when the connection is not closing and the handler has no use for
it.  `DatagramForwards` says of a datagram, on the state before the call, that one of its packets is
read, is not stopped by a limit, completes a message or its turn in the order if it is a fragment or
ordered, and so brings such a content to the handler.
-/

namespace Ragnet.Conn

open Proc Wire

variable (build : Build) (handler : ConnectionHandler)

/-! ## Contents and packets -/

/-- A content is sent to the application. -/
def ContentForwarded (closing : Int) (handled : List Bytes) (content : Bytes) : Prop :=
  content ≠ [] ∧ closing = 0 ∧ handler.handle handled content = .ok false

/-- A content of a batch is sent to the application, and those before it are taken. -/
def BatchForwarded (closing : Int) : List Bytes → List Bytes → Prop
  | _, [] => False
  | handled, content :: contents =>
      ContentForwarded handler closing handled content ∨
        (ContentTaken handler closing handled content ∧
          BatchForwarded closing (handled ++ [content]) contents)

/-- A whole packet has something for the application: its content, or, if it is ordered and new and
the queue does not get too big, one of the contents that are now in order. -/
def OrderForwards (c : Conn) (pk : Packet) : Prop :=
  if pk.reliability ≠ reliabilityReliableOrdered then
    ContentForwarded handler c.closing c.handled pk.content
  else
    ¬ c.state.packetQueue.Taken pk.orderIndex.value ∧
      ∃ size, (c.queued pk).windowSize build = .ok size ∧ ¬ Exceeds handler size ∧
        BatchForwarded handler c.closing c.handled (c.queued pk).fetch.2

/-- So has a packet, if it is whole or the last fragment of one. -/
def PacketForwards (c : Conn) (pk : Packet) : Prop :=
  if pk.split then
    ¬ SplitLimited handler c.state.splits pk ∧ ¬ IndexOutOfRange c.state.splits pk ∧
      (filled c.state.splits pk).any List.isEmpty = false ∧
      OrderForwards build handler c (combinedPacket pk (filled c.state.splits pk))
  else OrderForwards build handler c pk

/-- So has a packet of a datagram, and those before it are taken in. -/
inductive Forwards : Conn → Bytes → Prop
  | packet {c : Conn} {data : Bytes} {pk : Packet} {n : Nat} :
      data ≠ [] → Packet.read build data c.state.pk = (pk, .ok n) →
        PacketForwards build handler c pk → Forwards c data
  | later {c c' : Conn} {data : Bytes} {pk : Packet} {n : Nat} :
      data ≠ [] → Packet.read build data c.state.pk = (pk, .ok n) →
        takePacket build handler pk { c with state.pk := Packet.new } = (c', .ok ()) →
          Forwards c' (data.drop n) → Forwards c data

/-- A new datagram whose window is not too big has something for the application. -/
def DatagramForwards (clock : Clock) (c : Conn) (data : Bytes) : Prop :=
  ∃ seq, loadUint24 data = .ok seq ∧ ¬ c.state.win.Seen seq.value ∧
    ∃ size, (c.state.win.enter c.rtt clock seq).1.size build = .ok size ∧
      ¬ Exceeds handler size ∧ Forwards build handler c (data.drop 3)

/-! ## What a call sends -/

/-- The computation sends something to the application. -/
def Sends {α : Type} (x : Action α) (c : Conn) : Prop := (x c).1.packetTx ≠ c.packetTx

variable {build} {handler} {α β : Type} {c c' : Conn} {pk : Packet} {data : Bytes}

/-- A first stage that sends nothing. -/
theorem sends_bind_of_keeps {x : Action α} {f : α → Action β} (hx : Keeps packetTx x) :
    Sends (x >>= f) c ↔ ∃ c' a, x c = (c', .ok a) ∧ Sends (f a) c' := by
  have hkeep := hx c
  rw [Sends]
  rcases hxc : x c with ⟨c', e | a⟩
  · rw [hxc] at hkeep
    rw [bind_error hxc]
    constructor
    · exact fun h ↦ absurd hkeep h
    · rintro ⟨c₁, a, h, -⟩
      cases (Prod.mk.inj h).2
  · rw [hxc] at hkeep
    rw [bind_ok hxc]
    constructor
    · exact fun h ↦ ⟨c', a, rfl, fun hsame ↦ h (hsame.trans hkeep)⟩
    · rintro ⟨c₁, a₁, h, hsends⟩
      obtain ⟨rfl, ha⟩ := Prod.mk.inj h
      obtain rfl := Except.ok.inj ha
      exact fun hsame ↦ hsends (hsame.trans hkeep.symm)

/-- What was sent stays sent, so two stages send something exactly when one of them does. -/
theorem sends_bind {x : Action α} {f : α → Action β} (hx : c.packetTx <+: (x c).1.packetTx)
    (hf : ∀ c' a, x c = (c', .ok a) → c'.packetTx <+: (f a c').1.packetTx) :
    Sends (x >>= f) c ↔ Sends x c ∨ ∃ c' a, x c = (c', .ok a) ∧ Sends (f a) c' := by
  rw [Sends, Sends]
  rcases hxc : x c with ⟨c', e | a⟩
  · rw [bind_error hxc]
    refine (or_iff_left ?_).symm
    rintro ⟨c₁, a, h, -⟩
    cases (Prod.mk.inj h).2
  · rw [hxc] at hx
    have hgrow := hf c' a hxc
    rw [bind_ok hxc]
    constructor
    · intro h
      by_cases hsame : c'.packetTx = c.packetTx
      · exact Or.inr ⟨c', a, rfl, fun heq ↦ h (heq.trans hsame)⟩
      · exact Or.inl hsame
    · rintro (h | ⟨c₁, a₁, h, hsends⟩) heq
      · exact h (hx.eq_of_length_le (hgrow.length_le.trans_eq (congrArg List.length heq))).symm
      · obtain ⟨rfl, ha⟩ := Prod.mk.inj h
        obtain rfl := Except.ok.inj ha
        refine hsends (hgrow.eq_of_length_le ?_).symm
        exact (congrArg List.length heq).trans_le hx.length_le

theorem handlePacket_sends_iff {content : Bytes} :
    Sends (handlePacket handler content) c ↔
      ContentForwarded handler c.closing c.handled content := by
  rw [Sends, handlePacket, get_bind, modify_bind, ContentForwarded]
  by_cases hne : content = []
  · rw [if_pos hne]
    exact iff_of_false (fun h ↦ h rfl) fun h ↦ h.1 hne
  rw [if_neg hne, and_iff_right hne]
  by_cases hclosing : c.closing = 0
  · rw [if_neg (not_not.mpr hclosing), and_iff_right hclosing]
    cases hh : handler.handle c.handled content with
    | error e => exact iff_of_false (fun h ↦ h rfl) fun h ↦ by cases h
    | ok b =>
        cases b with
        | true => exact iff_of_false (fun h ↦ h rfl) fun h ↦ by cases h
        | false =>
            refine iff_of_true (fun h ↦ ?_) rfl
            change c.packetTx ++ [content] = c.packetTx at h
            cases List.append_cancel_left (h.trans (List.append_nil _).symm)
  · rw [if_pos hclosing]
    exact iff_of_false (fun h ↦ h rfl) fun h ↦ hclosing h.1

/-- What the blocks send is added to what was sent. -/
theorem handleAll_packetTx (contents : List Bytes) (c : Conn) :
    c.packetTx <+: (handleAll handler contents c).1.packetTx :=
  (kept_packetTx .release handler c.packetTx).handleAll contents c (List.prefix_refl _)

theorem handleAll_sends_iff {contents : List Bytes} :
    Sends (handleAll handler contents) c ↔
      BatchForwarded handler c.closing c.handled contents := by
  induction contents generalizing c with
  | nil => exact ⟨fun h ↦ h rfl, False.elim⟩
  | cons content contents ih =>
      have hgrow := (kept_packetTx .release handler c.packetTx).handlePacket content c
        (List.prefix_refl _)
      rw [handleAll, sends_bind hgrow fun c' _ _ ↦ handleAll_packetTx contents c',
        handlePacket_sends_iff, BatchForwarded]
      refine or_congr_right ⟨?_, ?_⟩
      · rintro ⟨c', _, hp, hrest⟩
        have ht := handlePacket_ok hp
        rw [handlePacket_taken ht] at hp
        obtain ⟨rfl, -⟩ := Prod.mk.inj hp
        exact ⟨ht, ih.mp hrest⟩
      · rintro ⟨ht, hrest⟩
        exact ⟨_, (), handlePacket_taken ht, ih.mpr hrest⟩

theorem receivePacket_sends_iff :
    Sends (receivePacket build handler pk) c ↔ OrderForwards build handler c pk := by
  rw [receivePacket, OrderForwards]
  by_cases hrel : pk.reliability ≠ reliabilityReliableOrdered
  · rw [if_pos hrel, if_pos hrel]
    exact handlePacket_sends_iff
  rw [if_neg hrel, if_neg hrel,
    sends_bind_of_keeps ((orderPacket_frame build handler pk).comp packetTx)]
  by_cases ht : c.state.packetQueue.Taken pk.orderIndex.value
  · rw [orderPacket_duplicate build ht]
    refine iff_of_false ?_ fun h ↦ h.1 ht
    rintro ⟨c', _, h, hsends⟩
    obtain ⟨-, ha⟩ := Prod.mk.inj h
    obtain rfl := Except.ok.inj ha
    exact hsends rfl
  rw [and_iff_right ht, orderPacket_new build ht]
  cases (c.queued pk).windowSize build with
  | error e =>
      refine iff_of_false ?_ ?_
      · rintro ⟨c', _, h, -⟩
        cases (Prod.mk.inj h).2
      · rintro ⟨size, hs, -⟩
        cases hs
  | ok size =>
      dsimp only
      by_cases hbig : Exceeds handler size
      · rw [if_pos hbig]
        refine iff_of_false ?_ ?_
        · rintro ⟨c', _, h, -⟩
          cases (Prod.mk.inj h).2
        · rintro ⟨size', hs, hnot, -⟩
          obtain rfl := Except.ok.inj hs
          exact hnot hbig
      · rw [if_neg hbig]
        constructor
        · rintro ⟨c', _, h, hsends⟩
          obtain ⟨rfl, ha⟩ := Prod.mk.inj h
          obtain rfl := Except.ok.inj ha
          have hbatch := handleAll_sends_iff.mp hsends
          exact ⟨size, rfl, hbig, hbatch⟩
        · rintro ⟨-, -, -, hbatch⟩
          refine ⟨_, _, rfl, ?_⟩
          rw [handleAll_sends_iff]
          exact hbatch

theorem takePacket_sends_iff :
    Sends (takePacket build handler pk) c ↔ PacketForwards build handler c pk := by
  rw [takePacket, PacketForwards]
  by_cases hsplit : pk.split = true
  · rw [if_pos hsplit, if_pos hsplit, receiveSplitPacket,
      sends_bind_of_keeps ((reassemble_frame build handler pk).comp packetTx)]
    have hnone {c₁ : Conn} {r : Result (Option Packet)} {f : Option Packet → Action Unit}
        (hf : f none = pure ()) (hr : ∀ pk, r ≠ .ok (some pk)) :
        ¬ ∃ c' combined, (c₁, r) = (c', .ok combined) ∧ Sends (f combined) c' := by
      rintro ⟨c', combined, h, hsends⟩
      cases combined with
      | none =>
          rw [hf] at hsends
          exact hsends rfl
      | some combinedPk => exact hr combinedPk (Prod.mk.inj h).2
    by_cases hlim : SplitLimited handler c.state.splits pk
    · obtain ⟨text, hr⟩ := reassemble_limited build hlim
      rw [hr]
      exact iff_of_false (hnone rfl fun _ h ↦ by cases h) fun h ↦ h.1 hlim
    rw [and_iff_right hlim, reassemble_open build hlim]
    by_cases hindex : IndexOutOfRange c.state.splits pk
    · rw [if_pos hindex]
      refine iff_of_false (hnone rfl fun _ h ↦ ?_) fun h ↦ h.1 hindex
      cases htext : splitIndexError build pk.splitIndex (fragmentsOf c.state.splits pk).length with
      | error e =>
          rw [htext] at h
          cases h
      | ok text =>
          rw [htext] at h
          cases h
    rw [if_neg hindex, and_iff_right hindex]
    by_cases hempty : (filled c.state.splits pk).any List.isEmpty = true
    · rw [if_pos hempty, hempty]
      exact iff_of_false (hnone rfl fun _ h ↦ by cases h) fun h ↦ by cases h.1
    · rw [if_neg hempty, Bool.eq_false_iff.mpr hempty]
      constructor
      · rintro ⟨c', combined, h, hsends⟩
        obtain ⟨rfl, ha⟩ := Prod.mk.inj h
        obtain rfl := Except.ok.inj ha
        have hforwards := receivePacket_sends_iff.mp hsends
        exact ⟨rfl, hforwards⟩
      · rintro ⟨-, hforwards⟩
        refine ⟨_, _, rfl, ?_⟩
        dsimp only
        rw [receivePacket_sends_iff]
        exact hforwards
  · rw [if_neg hsplit, if_neg hsplit]
    exact receivePacket_sends_iff

/-! ## One datagram -/

theorem forwards_iff :
    Forwards build handler c data ↔ data ≠ [] ∧
      ∃ pk n, Packet.read build data c.state.pk = (pk, .ok n) ∧
        (PacketForwards build handler c pk ∨ ∃ c',
          takePacket build handler pk { c with state.pk := Packet.new } = (c', .ok ()) ∧
            Forwards build handler c' (data.drop n)) := by
  constructor
  · rintro (⟨hd, h, hp⟩ | ⟨hd, h, ht, hrest⟩)
    · exact ⟨hd, _, _, h, Or.inl hp⟩
    · exact ⟨hd, _, _, h, Or.inr ⟨_, ht, hrest⟩⟩
  · rintro ⟨hd, pk, n, h, hp | ⟨c', ht, hrest⟩⟩
    · exact .packet hd h hp
    · exact .later hd h ht hrest

theorem handleDatagram_sends_iff :
    Sends (handleDatagram build handler data) c ↔ Forwards build handler c data := by
  induction hn : data.length using Nat.strong_induction_on generalizing data c with
  | _ n ih =>
    subst hn
    rw [forwards_iff]
    by_cases hd : data = []
    · subst hd
      exact iff_of_false (fun h ↦ h rfl) fun h ↦ h.1 rfl
    rw [handleDatagram_cons build handler hd, and_iff_right hd,
      sends_bind_of_keeps ((readPacket_frame build data).comp packetTx)]
    -- what is behind a packet that has been read is shorter
    have hround {pk : Packet} {n : Nat} (hread : Packet.read build data c.state.pk = (pk, .ok n)) :
        Sends (do
            let rest ← ofExcept (Checked.sliceFrom data n)
            takePacket build handler pk
            handleDatagram build handler rest) { c with state.pk := Packet.new } ↔
          PacketForwards build handler c pk ∨ ∃ c',
            takePacket build handler pk { c with state.pk := Packet.new } = (c', .ok ()) ∧
              Forwards build handler c' (data.drop n) := by
      have hle := Packet.read_le build hread
      have hshort : (data.drop n).length < data.length := by
        rw [List.length_drop]
        exact Nat.sub_lt (List.length_pos_iff.mpr hd) (Packet.read_pos hread)
      have hkept := kept_packetTx build handler
      have hbind := @sends_bind Unit Unit { c with state.pk := Packet.new }
        (takePacket build handler pk) (fun _ ↦ handleDatagram build handler (data.drop n))
        ((hkept c.packetTx).takePacket pk _ (List.prefix_refl _))
        fun c' _ _ ↦ (hkept c'.packetTx).handleDatagram _ c' (List.prefix_refl _)
      rw [Checked.sliceFrom_of_le hle]
      refine hbind.trans (or_congr takePacket_sends_iff (exists_congr fun c' ↦ ?_))
      rw [Unique.exists_iff, ih _ hshort rfl]
    constructor
    · rintro ⟨c₁, ⟨pk, n⟩, hread, hsends⟩
      obtain ⟨hpk, rfl⟩ := (readPacket_eq_ok build).mp hread
      exact ⟨pk, n, hpk, (hround hpk).mp hsends⟩
    · rintro ⟨pk, n, hread, h⟩
      exact ⟨_, (pk, n), (readPacket_eq_ok build).mpr ⟨hread, rfl⟩, (hround hread).mpr h⟩

/-- Entering the datagram first makes no difference. -/
theorem handleDatagram_entered_packetTx (clock : Clock) (seq : Uint24) (nacks : List Bytes) :
    (handleDatagram build handler data
        { c.entered clock seq with sendTx := c.sendTx ++ nacks }).1.packetTx =
      (handleDatagram build handler data c).1.packetTx := by
  have hcomm := handleDatagram_commutes build handler (c.state.win.enter c.rtt clock seq).1
    (c.state.ackSlice ++ [seq]) (c.sendTx ++ nacks) data c
  exact congrArg (fun r ↦ r.1.packetTx) hcomm

theorem receiveDatagram_sends_iff {env : Env} :
    Sends (receiveDatagram build handler env data) c ↔
      DatagramForwards build handler env.clock c data := by
  by_cases hlen : data.length < 3
  · rw [Sends, receiveDatagram_short build handler env hlen]
    refine iff_of_false (fun h ↦ h rfl) ?_
    rintro ⟨seq, hl, -⟩
    exact absurd (loadUint24_isOk.mp ⟨seq, hl⟩) (Nat.not_le_of_lt hlen)
  obtain ⟨seq, hl⟩ := loadUint24_isOk.mpr (Nat.le_of_not_lt hlen)
  by_cases hseen : c.state.win.Seen seq.value
  · rw [Sends, receiveDatagram_seen build handler env hl hseen]
    refine iff_of_false (fun h ↦ h rfl) ?_
    rintro ⟨seq', hl', hnot, -⟩
    obtain rfl := Except.ok.inj (hl.symm.trans hl')
    exact hnot hseen
  have hexists : DatagramForwards build handler env.clock c data ↔
      ∃ size, (c.state.win.enter c.rtt env.clock seq).1.size build = .ok size ∧
        ¬ Exceeds handler size ∧ Forwards build handler c (data.drop 3) := by
    constructor
    · rintro ⟨seq', hl', -, h⟩
      obtain rfl := Except.ok.inj (hl.symm.trans hl')
      exact h
    · exact fun h ↦ ⟨seq, hl, hseen, h⟩
  obtain ⟨nacks, hrecv⟩ := receiveDatagram_new build handler env hl hseen
  rw [Sends, hrecv, hexists]
  rw [show (c.entered env.clock seq).state.win = (c.state.win.enter c.rtt env.clock seq).1 from rfl]
  cases (c.state.win.enter c.rtt env.clock seq).1.size build with
  | error e =>
      refine iff_of_false (fun h ↦ h rfl) ?_
      rintro ⟨size, hs, -⟩
      cases hs
  | ok size =>
      dsimp only
      by_cases hbig : Exceeds handler size
      · rw [if_pos hbig]
        refine iff_of_false (fun h ↦ h rfl) ?_
        rintro ⟨size', hs, hnot, -⟩
        obtain rfl := Except.ok.inj hs
        exact hnot hbig
      · rw [if_neg hbig, handleDatagram_entered_packetTx]
        refine handleDatagram_sends_iff.trans ⟨fun h ↦ ⟨size, rfl, hbig, h⟩, ?_⟩
        rintro ⟨-, -, -, h⟩
        exact h

/-- `receive` sends something to the application exactly when it is given a datagram that has
something for it. -/
theorem receive_sends_iff {env : Env} :
    Sends (receive build handler env data) c ↔
      ∃ body, datagramBody data = some body ∧
        DatagramForwards build handler env.clock c body := by
  cases hbody : datagramBody data with
  | none =>
      refine iff_of_false (fun h ↦ h ?_) ?_
      · have hsame := @receive_of_no_body build handler c env data hbody
        exact congrArg Receiving.packetTx hsame
      · rintro ⟨body, h, -⟩
        cases h
  | some body =>
      rw [receive_of_body hbody, receiveDatagram_sends_iff]
      constructor
      · exact fun h ↦ ⟨body, rfl, h⟩
      · rintro ⟨body', heq, h⟩
        obtain rfl := Option.some.inj heq
        exact h

end Ragnet.Conn

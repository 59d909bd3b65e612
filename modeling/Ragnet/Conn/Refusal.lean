import Ragnet.Conn.Arrival
import Ragnet.Conn.Steps
import Ragnet.Lib.Lts

/-!
# When a datagram is refused

`receive_datagram` can return an error at four layers: the window is too big, a packet is
malformed, a limit on split packets is exceeded or an index is out of range, the ordered queue is
too big or a content is refused.  `DatagramRefused` describes these cases on the state before the
call.  By then the number of the datagram has been entered, so a refused datagram is acknowledged
all the same; this is the only way in which a datagram that is acknowledged is not taken in.
-/

namespace Ragnet.Conn

open Proc Wire

variable (build : Build) (handler : ConnectionHandler)

/-! ## One packet -/

/-- A whole packet is refused: its content is, or it is ordered and new, and the queue gets too big
or a content that is now in order is refused. -/
def OrderRefused (c : Conn) (pk : Packet) : Prop :=
  if pk.reliability ≠ reliabilityReliableOrdered then
    ContentRefused handler c.closing c.handled pk.content
  else
    ¬ c.state.packetQueue.Taken pk.orderIndex.value ∧
      ∃ size, (c.queued pk).windowSize build = .ok size ∧
        (Exceeds handler size ∨ BatchRefused handler c.closing c.handled (c.queued pk).fetch.2)

/-- A packet is refused.  An index out of range is an error unless building the text of the error
panics. -/
def PacketRefused (c : Conn) (pk : Packet) : Prop :=
  if pk.split then
    SplitLimited handler c.state.splits pk ∨
      (IndexOutOfRange c.state.splits pk ∧
        (build = .release ∨ fragmentsOf c.state.splits pk ≠ [])) ∨
      (¬ IndexOutOfRange c.state.splits pk ∧
        (filled c.state.splits pk).any List.isEmpty = false ∧
        OrderRefused build handler c (combinedPacket pk (filled c.state.splits pk)))
  else OrderRefused build handler c pk

variable {build} {handler} {c : Conn} {pk : Packet}

theorem receivePacket_refused_iff :
    (∃ e, (receivePacket build handler pk c).2 = .error (.error e)) ↔
      OrderRefused build handler c pk := by
  rw [receivePacket, OrderRefused]
  by_cases hrel : pk.reliability ≠ reliabilityReliableOrdered
  · rw [if_pos hrel, if_pos hrel]
    exact handlePacket_refused_iff
  rw [if_neg hrel, if_neg hrel]
  by_cases ht : c.state.packetQueue.Taken pk.orderIndex.value
  · rw [bind_ok (orderPacket_duplicate build ht)]
    exact ⟨fun ⟨e, he⟩ ↦ (by cases he), fun h ↦ absurd ht h.1⟩
  have hnew := @orderPacket_new build handler _ _ ht
  cases hsize : (c.queued pk).windowSize build with
  | error e =>
      rw [hsize] at hnew
      rw [bind_error hnew]
      constructor
      · rintro ⟨e', he⟩
        -- the size of the queue can only panic
        obtain rfl : e = .error e' := Except.error.inj he
        exact absurd hsize (Checked.sub_ne_error _ _ _ _ _)
      · rintro ⟨-, size, hs, -⟩
        cases hs
  | ok size =>
      rw [hsize] at hnew
      dsimp only at hnew
      by_cases hbig : Exceeds handler size
      · rw [if_pos hbig] at hnew
        rw [bind_error hnew]
        exact ⟨fun _ ↦ ⟨ht, size, rfl, Or.inl hbig⟩, fun _ ↦ ⟨_, rfl⟩⟩
      · rw [if_neg hbig] at hnew
        rw [bind_ok hnew, handleAll_refused_iff]
        constructor
        · exact fun h ↦ ⟨ht, size, rfl, Or.inr h⟩
        · rintro ⟨-, size', hs, h⟩
          obtain rfl := Except.ok.inj hs
          exact h.resolve_left hbig

/-- Building the text of the error panics exactly on an empty entry in a debug build. -/
theorem splitIndexError_cases (build : Build) (index : UInt32) (count : Nat) :
    ((build = .release ∨ count ≠ 0) ∧ ∃ text, splitIndexError build index count = .ok text) ∨
      (¬ (build = .release ∨ count ≠ 0) ∧ splitIndexError build index count = .error .panic) := by
  cases count with
  | zero =>
      cases build with
      | debug => exact Or.inr ⟨by simp, rfl⟩
      | release => exact Or.inl ⟨Or.inl rfl, _, rfl⟩
  | succ n => exact Or.inl ⟨Or.inr (Nat.succ_ne_zero n), _, rfl⟩

theorem takePacket_refused_iff :
    (∃ e, (takePacket build handler pk c).2 = .error (.error e)) ↔
      PacketRefused build handler c pk := by
  rw [takePacket, PacketRefused]
  by_cases hsplit : pk.split = true
  · rw [if_pos hsplit, if_pos hsplit, receiveSplitPacket]
    by_cases hlim : SplitLimited handler c.state.splits pk
    · obtain ⟨text, hr⟩ := reassemble_limited build hlim
      rw [bind_error hr]
      exact ⟨fun _ ↦ Or.inl hlim, fun _ ↦ ⟨_, rfl⟩⟩
    rw [or_iff_right hlim]
    have hopen := @reassemble_open build handler _ pk hlim
    by_cases hindex : IndexOutOfRange c.state.splits pk
    · rw [if_pos hindex] at hopen
      rw [or_iff_left (fun h ↦ h.1 hindex), and_iff_right hindex, ne_eq,
        ← List.length_eq_zero_iff]
      rcases splitIndexError_cases build pk.splitIndex (fragmentsOf c.state.splits pk).length with
        ⟨hc, text, htext⟩ | ⟨hc, htext⟩
      · rw [htext] at hopen
        rw [bind_error hopen]
        exact ⟨fun _ ↦ hc, fun _ ↦ ⟨_, rfl⟩⟩
      · rw [htext] at hopen
        rw [bind_error hopen]
        constructor
        · rintro ⟨e, he⟩
          cases he
        · exact fun h ↦ absurd h hc
    rw [if_neg hindex] at hopen
    rw [or_iff_right (fun h ↦ hindex h.1), and_iff_right hindex]
    by_cases hempty : (filled c.state.splits pk).any List.isEmpty = true
    · rw [if_pos hempty] at hopen
      rw [bind_ok hopen, hempty]
      constructor
      · rintro ⟨e, he⟩
        cases he
      · rintro ⟨h, -⟩
        cases h
    · rw [if_neg hempty] at hopen
      rw [bind_ok hopen, and_iff_right (Bool.eq_false_iff.mpr hempty)]
      exact receivePacket_refused_iff
  · rw [if_neg hsplit, if_neg hsplit]
    exact receivePacket_refused_iff

/-! ## One datagram -/

variable (build handler) in
/-- The contents of a datagram are refused: a packet is malformed or refused, and those before it
are taken in. -/
inductive Refused : Conn → Bytes → Prop
  | malformed {c : Conn} {data : Bytes} {pk : Packet} {e : Error} :
      data ≠ [] → Packet.read build data c.state.pk = (pk, .error (.error e)) → Refused c data
  | packet {c : Conn} {data : Bytes} {pk : Packet} {n : Nat} :
      data ≠ [] → Packet.read build data c.state.pk = (pk, .ok n) → n ≤ data.length →
        PacketRefused build handler c pk → Refused c data
  | later {c c' : Conn} {data : Bytes} {pk : Packet} {n : Nat} :
      data ≠ [] → Packet.read build data c.state.pk = (pk, .ok n) → n ≤ data.length →
        takePacket build handler pk { c with state.pk := Packet.new } = (c', .ok ()) →
          Refused c' (data.drop n) → Refused c data

/-- A refusal by what comes of reading the first packet. -/
theorem refused_iff {data : Bytes} :
    Refused build handler c data ↔ data ≠ [] ∧
      ((∃ e, (Packet.read build data c.state.pk).2 = .error (.error e)) ∨
        ∃ pk n, Packet.read build data c.state.pk = (pk, .ok n) ∧ n ≤ data.length ∧
          (PacketRefused build handler c pk ∨ ∃ c',
            takePacket build handler pk { c with state.pk := Packet.new } = (c', .ok ()) ∧
              Refused build handler c' (data.drop n))) := by
  constructor
  · rintro (⟨hd, h⟩ | ⟨hd, h, hle, hp⟩ | ⟨hd, h, hle, ht, hr⟩)
    · exact ⟨hd, Or.inl ⟨_, congrArg Prod.snd h⟩⟩
    · exact ⟨hd, Or.inr ⟨_, _, h, hle, Or.inl hp⟩⟩
    · exact ⟨hd, Or.inr ⟨_, _, h, hle, Or.inr ⟨_, ht, hr⟩⟩⟩
  · rintro ⟨hd, ⟨e, h⟩ | ⟨pk, n, h, hle, hp | ⟨c', ht, hr⟩⟩⟩
    · exact .malformed hd (Prod.ext rfl h)
    · exact .packet hd h hle hp
    · exact .later hd h hle ht hr

/-- The packet of a datagram cannot be read. -/
theorem readPacket_refused_iff {data : Bytes} :
    (∃ e, (readPacket build data c).2 = .error (.error e)) ↔
      ∃ e, (Packet.read build data c.state.pk).2 = .error (.error e) := by
  rw [readPacket, bind_apply, zoom_apply]
  rcases Packet.read build data c.state.pk with ⟨pk, e | n⟩
  · simp
  · simp

theorem handleDatagram_refused_iff {data : Bytes} :
    (∃ e, (handleDatagram build handler data c).2 = .error (.error e)) ↔
      Refused build handler c data := by
  induction hn : data.length using Nat.strong_induction_on generalizing data c with
  | _ n ih =>
    subst hn
    rw [refused_iff]
    by_cases hd : data = []
    · subst hd
      constructor
      · rintro ⟨e, he⟩
        cases he
      · rintro ⟨h, -⟩
        exact absurd rfl h
    rw [handleDatagram_cons build handler hd, bind_fails_iff, readPacket_refused_iff,
      and_iff_right hd]
    -- the bytes behind a packet that has been read
    have hrest : ∀ {pk m}, Packet.read build data c.state.pk = (pk, .ok m) →
        ((∃ e, ((do
            let rest ← ofExcept (Checked.sliceFrom data m)
            takePacket build handler pk
            handleDatagram build handler rest : Action Unit)
              { c with state.pk := Packet.new }).2 = .error (.error e)) ↔
          m ≤ data.length ∧ (PacketRefused build handler c pk ∨ ∃ c',
            takePacket build handler pk { c with state.pk := Packet.new } = (c', .ok ()) ∧
              Refused build handler c' (data.drop m))) := by
      intro pk m hread
      by_cases hle : m ≤ data.length
      · have hshort : (data.drop m).length < data.length := by
          rw [List.length_drop]
          exact Nat.sub_lt (List.length_pos_iff.mpr hd) (Packet.read_pos hread)
        rw [Checked.sliceFrom_of_le hle, ofExcept_ok_bind, bind_fails_iff, and_iff_right hle]
        refine or_congr takePacket_refused_iff (exists_congr fun c' ↦ ?_)
        rw [Unique.exists_iff, ih _ hshort rfl]
      · rw [Checked.sliceFrom, if_neg hle]
        constructor
        · rintro ⟨e, he⟩
          cases he
        · exact fun h ↦ absurd h.1 hle
    refine or_congr_right ?_
    constructor
    · rintro ⟨c₁, ⟨pk, m⟩, hread, hfail⟩
      obtain ⟨hpk, rfl⟩ := (readPacket_eq_ok build).mp hread
      exact ⟨pk, m, hpk, (hrest hpk).mp hfail⟩
    · rintro ⟨pk, m, hread, h⟩
      exact ⟨_, (pk, m), (readPacket_eq_ok build).mpr ⟨hread, rfl⟩, (hrest hread).mpr h⟩

variable (build handler) in
/-- A new datagram is refused: its window is too big, or its contents are refused. -/
def DatagramRefused (clock : Clock) (c : Conn) (data : Bytes) : Prop :=
  ∃ seq, loadUint24 data = .ok seq ∧ ¬ c.state.win.Seen seq.value ∧
    ∃ size, (c.state.win.enter c.rtt clock seq).1.size build = .ok size ∧
      (Exceeds handler size ∨ Refused build handler c (data.drop 3))

theorem datagramRefused_iff {clock : Clock} {data : Bytes} {seq : Uint24}
    (hl : loadUint24 data = .ok seq) (hseen : ¬ c.state.win.Seen seq.value) :
    DatagramRefused build handler clock c data ↔
      ∃ size, (c.state.win.enter c.rtt clock seq).1.size build = .ok size ∧
        (Exceeds handler size ∨ Refused build handler c (data.drop 3)) := by
  constructor
  · rintro ⟨seq', hl', -, h⟩
    obtain rfl := Except.ok.inj (hl.symm.trans hl')
    exact h
  · exact fun h ↦ ⟨seq, hl, hseen, h⟩

/-- Handling the contents does not depend on what entering the datagram has changed. -/
theorem handleDatagram_entered (clock : Clock) (seq : Uint24) (nacks : List Bytes) (data : Bytes) :
    (handleDatagram build handler data
        { c.entered clock seq with sendTx := c.sendTx ++ nacks }).2 =
      (handleDatagram build handler data c).2 := by
  have hcomm := congrArg Prod.snd (handleDatagram_commutes build handler
    (c.state.win.enter c.rtt clock seq).1 (c.state.ackSlice ++ [seq]) (c.sendTx ++ nacks) data c)
  exact hcomm

/-- `receive_datagram` returns an error exactly on datagrams that are too short or refused. -/
theorem receiveDatagram_refused_iff {env : Env} {data : Bytes} :
    (∃ e, (receiveDatagram build handler env data c).2 = .error (.error e)) ↔
      data.length < 3 ∨ DatagramRefused build handler env.clock c data := by
  by_cases hlen : data.length < 3
  · rw [receiveDatagram_short build handler env hlen]
    exact ⟨fun _ ↦ Or.inl hlen, fun _ ↦ ⟨_, rfl⟩⟩
  obtain ⟨seq, hl⟩ := loadUint24_isOk.mpr (Nat.le_of_not_lt hlen)
  rw [or_iff_right hlen]
  by_cases hseen : c.state.win.Seen seq.value
  · rw [receiveDatagram_seen build handler env hl hseen]
    constructor
    · rintro ⟨e, he⟩
      cases he
    · rintro ⟨seq', hl', hnot, -⟩
      obtain rfl := Except.ok.inj (hl.symm.trans hl')
      exact absurd hseen hnot
  obtain ⟨nacks, hrecv⟩ := receiveDatagram_new build handler env hl hseen
  rw [hrecv, datagramRefused_iff hl hseen]
  rw [show (c.entered env.clock seq).state.win = (c.state.win.enter c.rtt env.clock seq).1 from rfl]
  cases hsize : (c.state.win.enter c.rtt env.clock seq).1.size build with
  | error e =>
      constructor
      · rintro ⟨e', he⟩
        obtain rfl : e = .error e' := Except.error.inj he
        exact absurd hsize (Checked.sub_ne_error _ _ _ _ _)
      · rintro ⟨size, hs, -⟩
        cases hs
  | ok size =>
      dsimp only
      by_cases hbig : Exceeds handler size
      · rw [if_pos hbig]
        exact ⟨fun _ ↦ ⟨size, rfl, Or.inl hbig⟩, fun _ ↦ ⟨_, rfl⟩⟩
      · rw [if_neg hbig, handleDatagram_entered, handleDatagram_refused_iff]
        constructor
        · exact fun h ↦ ⟨size, rfl, Or.inr h⟩
        · rintro ⟨size', hs, h⟩
          obtain rfl := Except.ok.inj hs
          exact h.resolve_left hbig

/-! ## What is recorded -/

/-- After a call that is entered, the number has been seen and is waiting to be acknowledged. -/
theorem receiveDatagram_records {env : Env} {data : Bytes} {seq : Uint24}
    (hl : loadUint24 data = .ok seq) (hseen : ¬ c.state.win.Seen seq.value) :
    (receiveDatagram build handler env data c).1.arrivals =
      ⟨(c.state.win.enter c.rtt env.clock seq).1, c.state.ackSlice ++ [seq]⟩ := by
  obtain ⟨nacks, hrecv⟩ := receiveDatagram_new build handler env hl hseen
  rw [hrecv]
  cases (c.entered env.clock seq).state.win.size build with
  | error e => rfl
  | ok size =>
      dsimp only
      split
      · rfl
      · exact congrArg Prod.fst (handleDatagram_keeps build handler (data.drop 3) _)

theorem receiveDatagram_ackSlice {env : Env} {data : Bytes} {seq : Uint24}
    (hl : loadUint24 data = .ok seq) (hseen : ¬ c.state.win.Seen seq.value) :
    (receiveDatagram build handler env data c).1.state.ackSlice = c.state.ackSlice ++ [seq] :=
  congrArg Arrivals.ackSlice (receiveDatagram_records hl hseen)

variable (build handler) in
/-- A call that returns an error leaves the number of its datagram neither recorded as received nor
queued to be acknowledged. -/
def UnrecordedOnError (env : Env) (c : Conn) (data : Bytes) : Prop :=
  (∃ e, (receiveDatagram build handler env data c).2 = .error (.error e)) →
    ∀ seq, loadUint24 data = .ok seq →
      ¬ (receiveDatagram build handler env data c).1.state.win.Seen seq.value ∧
        seq ∉ (receiveDatagram build handler env data c).1.state.ackSlice

theorem unrecordedOnError_iff {env : Env} {data : Bytes} :
    UnrecordedOnError build handler env c data ↔
      ¬ DatagramRefused build handler env.clock c data := by
  constructor
  · intro h hr
    obtain ⟨seq, hl, hseen, -⟩ := id hr
    obtain ⟨-, hack⟩ := h (receiveDatagram_refused_iff.mpr (Or.inr hr)) seq hl
    rw [receiveDatagram_ackSlice hl hseen] at hack
    exact hack (by simp)
  · intro hr herr seq hl
    have hlen := loadUint24_isOk.mp ⟨seq, hl⟩
    exact absurd (receiveDatagram_refused_iff.mp herr)
      (not_or.mpr ⟨by omega, hr⟩)

/-! ## Runs -/

/-- A receiving connection, and the numbers of the datagrams it has taken in: those that were new
and were received without an error. -/
structure Receiver where
  conn : Conn
  takenIn : List Uint24

/-- The part of a byte string that `receive` passes to `receive_datagram`. -/
def datagramBody : Bytes → Option Bytes
  | [] => none
  | flags :: rest =>
      if flags &&& bitFlagAck ≠ 0 then none
      else if flags &&& bitFlagNack ≠ 0 then none
      else if flags &&& bitFlagDatagram ≠ 0 then some rest
      else none

/-- The number that a call takes in. -/
def takes (c : Conn) (data : Bytes) (result : Result Unit) : List Uint24 :=
  match (datagramBody data).map loadUint24 with
  | some (.ok seq) => if result = .ok () ∧ ¬ c.state.win.Seen seq.value then [seq] else []
  | _ => []

variable (build handler) in
/-- A new connection that receives byte strings.  A panic ends the run. -/
def receptions : Lts Receiver (Env × Bytes) where
  init r := ∃ mtu, r = ⟨new mtu, []⟩
  step r input r' := ∃ result,
    receive build handler input.1 input.2 r.conn = (r'.conn, result) ∧ result ≠ .error .panic ∧
      r'.takenIn = r.takenIn ++ takes r.conn input.2 result

variable (build handler) in
/-- The byte string is not a datagram that is refused. -/
def NotRefused (r : Receiver) (input : Env × Bytes) : Prop :=
  ∀ body, datagramBody input.2 = some body →
    ¬ DatagramRefused build handler input.1.clock r.conn body

/-- What is no datagram leaves the receive side alone. -/
theorem receive_of_no_body {env : Env} {data : Bytes} (h : datagramBody data = none) :
    (receive build handler env data c).1.receiving = c.receiving := by
  cases data with
  | nil => rfl
  | cons flags rest =>
      rw [datagramBody] at h
      rw [receive]
      by_cases hack : flags &&& bitFlagAck ≠ 0
      · rw [if_pos hack]
        exact handleAck_receiving build env.clock rest c
      rw [if_neg hack] at h ⊢
      by_cases hnack : flags &&& bitFlagNack ≠ 0
      · rw [if_pos hnack]
        exact handleNack_receiving build env rest c
      rw [if_neg hnack] at h ⊢
      by_cases hdata : flags &&& bitFlagDatagram ≠ 0
      · rw [if_pos hdata] at h
        cases h
      · rw [if_neg hdata]
        rfl

theorem receive_of_body {env : Env} {data body : Bytes} (h : datagramBody data = some body) :
    receive build handler env data = receiveDatagram build handler env body := by
  cases data with
  | nil => cases h
  | cons flags rest =>
      rw [datagramBody] at h
      rw [receive]
      by_cases hack : flags &&& bitFlagAck ≠ 0
      · rw [if_pos hack] at h
        cases h
      rw [if_neg hack] at h ⊢
      by_cases hnack : flags &&& bitFlagNack ≠ 0
      · rw [if_pos hnack] at h
        cases h
      rw [if_neg hnack] at h ⊢
      by_cases hdata : flags &&& bitFlagDatagram ≠ 0
      · rw [if_pos hdata] at h ⊢
        rw [Option.some.inj h]
      · rw [if_neg hdata] at h
        cases h

/-- A call leaves the window and the pending acknowledgements alone, or it enters the number of a
new datagram. -/
theorem receive_arrivals (env : Env) (data : Bytes) (c : Conn) :
    (receive build handler env data c).1.arrivals = c.arrivals ∨
      ∃ body seq, datagramBody data = some body ∧ loadUint24 body = .ok seq ∧
        ¬ c.state.win.Seen seq.value ∧ (receive build handler env data c).1.arrivals =
          ⟨(c.state.win.enter c.rtt env.clock seq).1, c.state.ackSlice ++ [seq]⟩ := by
  cases hbody : datagramBody data with
  | none =>
      have hsame := @receive_of_no_body build handler c env data hbody
      exact Or.inl (congrArg (fun r : Receiving ↦ (⟨r.win, r.ackSlice⟩ : Arrivals)) hsame)
  | some body =>
      rw [receive_of_body hbody]
      by_cases hlen : body.length < 3
      · rw [receiveDatagram_short build handler env hlen]
        exact Or.inl rfl
      obtain ⟨seq, hl⟩ := loadUint24_isOk.mpr (Nat.le_of_not_lt hlen)
      by_cases hseen : c.state.win.Seen seq.value
      · rw [receiveDatagram_seen build handler env hl hseen]
        exact Or.inl rfl
      · exact Or.inr ⟨body, seq, rfl, hl, hseen, receiveDatagram_records hl hseen⟩

/-- The numbers waiting to be acknowledged are those of datagrams that were taken in. -/
def AcknowledgesTakenIn (r : Receiver) : Prop := ∀ seq ∈ r.conn.state.ackSlice, seq ∈ r.takenIn

/-- A byte string that is not refused leaves only numbers taken in to be acknowledged. -/
theorem AcknowledgesTakenIn.step {r r' : Receiver} {input : Env × Bytes}
    (h : AcknowledgesTakenIn r) (hok : NotRefused build handler r input)
    (hs : (receptions build handler).step r input r') : AcknowledgesTakenIn r' := by
  obtain ⟨env, data⟩ := input
  obtain ⟨result, hrun, hpanic, htaken⟩ := hs
  intro seq hseq
  rw [htaken, List.mem_append]
  have hconn : (receive build handler env data r.conn).1 = r'.conn := congrArg Prod.fst hrun
  rcases @receive_arrivals build handler env data r.conn with
    hsame | ⟨body, num, hbody, hl, hseen, hentered⟩
  · have hack : r'.conn.state.ackSlice = r.conn.state.ackSlice :=
      congrArg Arrivals.ackSlice (hconn ▸ hsame)
    rw [hack] at hseq
    exact Or.inl (h seq hseq)
  -- a new number joins the pending acknowledgements, and the call has not failed
  have hack : r'.conn.state.ackSlice = r.conn.state.ackSlice ++ [num] :=
    congrArg Arrivals.ackSlice (hconn ▸ hentered)
  rw [hack, List.mem_append, List.mem_singleton] at hseq
  rcases hseq with hseq | rfl
  · exact Or.inl (h seq hseq)
  have hlen := loadUint24_isOk.mp ⟨seq, hl⟩
  have hresult : result = .ok () := by
    have hsnd := congrArg Prod.snd hrun
    rw [receive_of_body hbody] at hsnd
    cases result with
    | ok _ => rfl
    | error e =>
        cases e with
        | panic => exact absurd rfl hpanic
        | error e =>
            have hr := receiveDatagram_refused_iff.mp ⟨e, hsnd⟩
            exact absurd (hr.resolve_left (Nat.not_lt_of_le hlen)) (hok body hbody)
  refine Or.inr ?_
  rw [takes, hbody, Option.map_some, hl]
  dsimp only
  rw [if_pos ⟨hresult, hseen⟩]
  exact List.mem_singleton.mpr rfl

theorem acknowledgesTakenIn_of_reachable {r : Receiver}
    (h : ((receptions build handler).restrict (NotRefused build handler)).Reachable r) :
    AcknowledgesTakenIn r := by
  refine h.invariant ?_ fun r input r' _ hr hs ↦ hr.step hs.1 hs.2
  rintro _ ⟨mtu, rfl⟩ seq hseq
  exact absurd hseq List.not_mem_nil

variable (build handler) in
/-- **When errors leave a datagram unrecorded.**  A call that returns an error leaves the number of
its datagram unrecorded exactly when the datagram is not refused: when it is too short to have a
number.  In a run that meets no refused datagram, what is acknowledged has been taken in. -/
theorem unrecorded_unless_refused :
    (∀ env c data, UnrecordedOnError build handler env c data ↔
      ¬ DatagramRefused build handler env.clock c data) ∧
      ∀ r, ((receptions build handler).restrict (NotRefused build handler)).Reachable r →
        AcknowledgesTakenIn r :=
  ⟨fun _ _ _ ↦ unrecordedOnError_iff, fun _ ↦ acknowledgesTakenIn_of_reachable⟩

/-- A datagram without a number, and a run that takes in a datagram with one. -/
theorem unrecorded_unless_refused_taken :
    UnrecordedOnError .debug .forwarding .calm (new 1492) [0] ∧
      ∃ r : Receiver, r.conn.state.ackSlice = [Uint24.new 0] ∧ AcknowledgesTakenIn r := by
  obtain ⟨hiff, hrun⟩ := unrecorded_unless_refused .debug .forwarding
  refine ⟨(hiff .calm (new 1492) [0]).mpr ?_, ?_⟩
  · rintro ⟨seq, hl, -⟩
    cases hl
  let data := datagram (Uint24.new 0) { Packet.new with content := [7] }
  let result := receive .debug .forwarding .calm data (new 1492)
  let r : Receiver := ⟨result.1, takes (new 1492) data result.2⟩
  have hok : NotRefused .debug .forwarding ⟨new 1492, []⟩ (.calm, data) := by
    rintro body hbody hr
    obtain rfl := Option.some.inj hbody
    have hfails : ∃ e, (receiveDatagram .debug .forwarding .calm (data.drop 1) (new 1492)).2 =
        .error (.error e) := receiveDatagram_refused_iff.mpr (Or.inr hr)
    obtain ⟨e, he⟩ := hfails
    cases he
  have hr : ((receptions .debug .forwarding).restrict (NotRefused .debug .forwarding)).Reachable
      r := by
    refine .step (a := (.calm, data)) (.init ⟨1492, rfl⟩) ⟨hok, result.2, rfl, ?_, rfl⟩
    exact fun h ↦ by cases h
  exact ⟨r, rfl, hrun r hr⟩

/-- A malformed packet in the first datagram of a new connection: the call fails, and number zero
is recorded and will be acknowledged. -/
theorem malformed_is_acknowledged :
    ¬ UnrecordedOnError .debug .forwarding .calm (new 1492)
      [0, 0, 0, 0xff] := by
  intro h
  obtain ⟨-, hack⟩ := h ⟨.unexpectedEof, by rfl⟩ (Uint24.new 0) rfl
  exact hack (by decide)

end Ragnet.Conn

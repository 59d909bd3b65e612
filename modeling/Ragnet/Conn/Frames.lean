import Ragnet.Conn.Receive
import Ragnet.Packet.Codec

/-!
# The two halves of receiving

Receiving a datagram has two halves.  The first enters its number into the window and reports what
is missing; the second delivers its contents.  They work on different parts of the connection,
`arrivals` and `delivery`, and neither touches the part of the other, nor the send side.
-/

namespace Ragnet.Conn

open Proc Wire

/-- What the first half works on: the window and the pending acknowledgements. -/
structure Arrivals where
  win : DatagramWindow
  ackSlice : List Uint24

/-- What the second half works on. -/
structure Delivery where
  pk : Packet
  splits : HashMap UInt16 (List Bytes)
  packetQueue : PacketQueue
  packetTx : List Bytes
  handled : List Bytes
  reassembled : List Packet

/-- The part of a connection that no receiving call changes. -/
structure Standing where
  mtu : Mtu
  rtt : Duration
  closing : Int
  closed : Bool

def arrivals (c : Conn) : Arrivals := ⟨c.state.win, c.state.ackSlice⟩

def delivery (c : Conn) : Delivery :=
  ⟨c.state.pk, c.state.splits, c.state.packetQueue, c.packetTx, c.handled, c.reassembled⟩

/-- The settings of a connection. -/
def standing (c : Conn) : Standing := ⟨c.mtu, c.rtt, c.closing, c.closed⟩

variable (build : Build) (handler : ConnectionHandler) (env : Env)

/-! ## The first half -/

theorem enterDatagram_keeps (clock : Clock) (seq : Uint24) :
    Keeps (fun c ↦ (c.delivery, c.standing)) (enterDatagram build handler clock seq) := by
  refine .bind (.update fun _ ↦ rfl) fun added ↦ .ite (.pure none) ?_
  refine .bind (.modify fun _ ↦ rfl) fun _ ↦ .bind (.update fun _ ↦ rfl) fun shifted ↦ ?_
  refine .bind (.ite (.update fun _ ↦ rfl) (.pure [])) fun missing ↦ ?_
  refine .bind (.bind .get fun c ↦ .bind (.ofExcept _) fun size ↦ ?_) fun _ ↦ .pure _
  exact .ite (.pure _) (.pure none)

theorem reportMissing_ok (missing : List Uint24) (c : Conn) :
    ∃ datagrams, reportMissing build env missing c =
      ({ c with sendTx := c.sendTx ++ datagrams }, .ok ()) := by
  rw [reportMissing]
  split
  · exact ⟨[], by rw [List.append_nil]; rfl⟩
  · exact sendAcknowledgement_ok build env missing bitFlagNack c

/-! ## The second half, block by block

Each block changes a few fields, and what is left when these are cleared is as before.  Whatever
else a block leaves alone can be seen there. -/

/-- Handling a content records it, and may send it to the application. -/
theorem handlePacket_frame (content : Bytes) :
    Keeps (fun c : Conn ↦ { c with packetTx := [], handled := [] })
      (handlePacket handler content) := by
  refine .bind .get fun c ↦ .bind (.modify fun _ ↦ rfl) fun _ ↦ .ite (.fail _) ?_
  refine .ite (.pure ()) (.bind (.ofExcept _) fun handled ↦ .ite (.pure ()) ?_)
  exact .modify fun _ ↦ rfl

theorem handleAll_frame (contents : List Bytes) :
    Keeps (fun c : Conn ↦ { c with packetTx := [], handled := [] })
      (handleAll handler contents) := by
  induction contents with
  | nil => exact .pure ()
  | cons content contents ih => exact .bind (handlePacket_frame handler content) fun _ ↦ ih

/-- Ordering a packet works on the queue. -/
theorem orderPacket_frame (pk : Packet) :
    Keeps (fun c : Conn ↦ { c with state.packetQueue := PacketQueue.new })
      (orderPacket build handler pk) := by
  refine .bind (.update fun _ ↦ rfl) fun put ↦ .ite (.pure []) (.bind .get fun c ↦ ?_)
  exact .bind (.ofExcept _) fun size ↦ .ite (.fail _) (.update fun _ ↦ rfl)

theorem receivePacket_frame (pk : Packet) :
    Keeps (fun c : Conn ↦
      { c with state.packetQueue := PacketQueue.new, packetTx := [], handled := [] })
      (receivePacket build handler pk) := by
  refine .ite ?_ (.bind ?_ fun contents ↦ ?_)
  · exact (handlePacket_frame handler pk.content).comp fun c : Conn ↦
      { c with state.packetQueue := PacketQueue.new }
  · exact (orderPacket_frame build handler pk).comp fun c : Conn ↦
      { c with packetTx := [], handled := [] }
  · exact (handleAll_frame handler contents).comp fun c : Conn ↦
      { c with state.packetQueue := PacketQueue.new }

/-- Putting a fragment into its entry works on the entries, and records what is complete. -/
theorem reassemble_frame (pk : Packet) :
    Keeps (fun c : Conn ↦ { c with state.splits := ∅, reassembled := [] })
      (reassemble build handler pk) := by
  refine .ite (.fail _) (.bind .get fun c ↦ .ite (.fail _) ?_)
  refine .bind (.modify fun _ ↦ rfl) fun _ ↦
    .ite (.bind (.ofExcept _) fun text ↦ .fail _) (.bind (.modify fun _ ↦ rfl) fun _ ↦ ?_)
  exact .ite (.pure none) (.bind (.modify fun _ ↦ rfl) fun _ ↦ .pure _)

theorem takePacket_frame (pk : Packet) :
    Keeps (fun c : Conn ↦ { c with
      state.splits := ∅, state.packetQueue := PacketQueue.new
      packetTx := [], handled := [], reassembled := [] }) (takePacket build handler pk) := by
  have hwhole (pk : Packet) := (receivePacket_frame build handler pk).comp fun c : Conn ↦
    { c with state.splits := ∅, reassembled := [] }
  refine .ite (.bind ?_ fun combined ↦ ?_) (hwhole pk)
  · exact (reassemble_frame build handler pk).comp fun c : Conn ↦
      { c with state.packetQueue := PacketQueue.new, packetTx := [], handled := [] }
  · cases combined with
    | none => exact .pure ()
    | some combinedPk => exact hwhole combinedPk

/-- Reading a packet works on the packet it is read into. -/
theorem readPacket_frame (data : Bytes) :
    Keeps (fun c : Conn ↦ { c with state.pk := Packet.new }) (readPacket build data) :=
  .bind (.zoom fun _ _ ↦ rfl) fun _ ↦ .bind .get fun _ ↦
    .bind (.modify fun _ ↦ rfl) fun _ ↦ .pure _

theorem handleLoop_keeps (rounds : Nat) (data : Bytes) :
    Keeps (fun c ↦ (c.arrivals, c.standing)) (handleLoop build handler rounds data) := by
  induction rounds generalizing data with
  | zero => exact .pure ()
  | succ rounds ih =>
      refine .ite (.pure ()) (.bind ?_ fun read ↦ .bind (.ofExcept _) fun rest ↦
        .bind ?_ fun _ ↦ ih rest)
      · exact (readPacket_frame build data).comp fun c ↦ (c.arrivals, c.standing)
      · exact (takePacket_frame build handler read.1).comp fun c ↦ (c.arrivals, c.standing)

theorem handleDatagram_keeps (data : Bytes) :
    Keeps (fun c ↦ (c.arrivals, c.standing)) (handleDatagram build handler data) :=
  handleLoop_keeps build handler data.length data

/-! ## What the blocks leave alone -/

/-- Handling contents does not touch the state behind the lock. -/
theorem handlePacket_state (content : Bytes) :
    Keeps (fun c ↦ (c.state, c.closing)) (handlePacket handler content) :=
  (handlePacket_frame handler content).comp fun c ↦ (c.state, c.closing)

theorem handleAll_state (contents : List Bytes) :
    Keeps (fun c ↦ (c.state, c.closing)) (handleAll handler contents) :=
  (handleAll_frame handler contents).comp fun c ↦ (c.state, c.closing)

/-- A whole packet does not touch what is collected for other packets. -/
theorem receivePacket_keeps_splits (pk : Packet) :
    Keeps (fun c ↦ (c.state.splits, c.state.pk, c.reassembled))
      (receivePacket build handler pk) :=
  (receivePacket_frame build handler pk).comp fun c ↦ (c.state.splits, c.state.pk, c.reassembled)

/-- What a fragment does to the entries and to what has been put together is decided before the
combined packet is received. -/
theorem receiveSplitPacket_fst (pk : Packet) (c : Conn) :
    (receiveSplitPacket build handler pk c).1.state.splits =
        (reassemble build handler pk c).1.state.splits ∧
      (receiveSplitPacket build handler pk c).1.reassembled =
        (reassemble build handler pk c).1.reassembled := by
  rw [receiveSplitPacket]
  rcases hr : reassemble build handler pk c with ⟨c', e | combined⟩
  · rw [bind_error hr]
    exact ⟨rfl, rfl⟩
  · rw [bind_ok hr]
    cases combined with
    | none => exact ⟨rfl, rfl⟩
    | some combinedPk =>
        have hkeeps := receivePacket_keeps_splits build handler combinedPk c'
        exact ⟨congrArg Prod.fst hkeeps, congrArg (fun v ↦ v.2.2) hkeeps⟩

/-! ## What a whole packet has nothing to do with -/

/-- A change of the connection that has nothing to do with receiving whole packets. -/
structure Aside (f : Conn → Conn) : Prop where
  closing : ∀ c, (f c).closing = c.closing
  setHandled : ∀ c handled, f { c with handled := handled } = { f c with handled := handled }
  setPacketTx : ∀ c packetTx, f { c with packetTx := packetTx } = { f c with packetTx := packetTx }
  setPacketQueue : ∀ c packetQueue,
    f { c with state.packetQueue := packetQueue } = { f c with state.packetQueue := packetQueue }

section Aside

variable {f : Conn → Conn} (hf : Aside f)
include hf

theorem Aside.handled (c : Conn) : (f c).handled = c.handled :=
  (congrArg Conn.handled (hf.setHandled c c.handled) :)

theorem Aside.packetTx (c : Conn) : (f c).packetTx = c.packetTx :=
  (congrArg Conn.packetTx (hf.setPacketTx c c.packetTx) :)

theorem Aside.packetQueue (c : Conn) : (f c).state.packetQueue = c.state.packetQueue :=
  (congrArg (fun c ↦ c.state.packetQueue) (hf.setPacketQueue c c.state.packetQueue) :)

theorem handlePacket_commutes (content : Bytes) : Commutes f (handlePacket handler content) := by
  refine .get_bind (fun c ↦ ?_) fun c ↦ .bind (.modify fun c ↦ ?_) fun _ ↦ .ite (.fail _) ?_
  · rw [hf.handled, hf.closing]
  · rw [hf.handled]
    exact (hf.setHandled c _).symm
  · refine .ite (.pure ()) (.bind (.ofExcept _) fun handled ↦ .ite (.pure ()) ?_)
    refine .modify fun c ↦ ?_
    rw [hf.packetTx]
    exact (hf.setPacketTx c _).symm

theorem handleAll_commutes (contents : List Bytes) :
    Commutes f (handleAll handler contents) := by
  induction contents with
  | nil => exact .pure ()
  | cons content contents ih => exact .bind (handlePacket_commutes handler hf content) fun _ ↦ ih

theorem orderPacket_commutes (pk : Packet) : Commutes f (orderPacket build handler pk) := by
  refine .bind (.update fun c ↦ ?_) fun put ↦ .ite (.pure []) ?_
  · rw [hf.packetQueue]
    exact Prod.ext (hf.setPacketQueue c _).symm rfl
  · refine .get_bind (fun c ↦ ?_) fun c ↦ .bind (.ofExcept _) fun size ↦ .ite (.fail _) ?_
    · rw [hf.packetQueue]
    · refine .update fun c ↦ ?_
      rw [hf.packetQueue]
      exact Prod.ext (hf.setPacketQueue c _).symm rfl

theorem receivePacket_commutes (pk : Packet) : Commutes f (receivePacket build handler pk) :=
  .ite (handlePacket_commutes handler hf pk.content)
    (.bind (orderPacket_commutes build handler hf pk) (handleAll_commutes handler hf))

end Aside

/-! ## The second half does not look at the first -/

/-- A connection with another window, other pending acknowledgements and other datagrams sent. -/
def withArrivals (win : DatagramWindow) (ackSlice : List Uint24) (sendTx : List Bytes)
    (c : Conn) : Conn :=
  { c with state.win := win, state.ackSlice := ackSlice, sendTx := sendTx }

section Commutes

variable (win : DatagramWindow) (ackSlice : List Uint24) (sendTx : List Bytes)

theorem aside_withArrivals : Aside (withArrivals win ackSlice sendTx) :=
  ⟨fun _ ↦ rfl, fun _ _ ↦ rfl, fun _ _ ↦ rfl, fun _ _ ↦ rfl⟩

theorem reassemble_commutes (pk : Packet) :
    Commutes (withArrivals win ackSlice sendTx) (reassemble build handler pk) := by
  refine .ite (.fail _) (.get_bind (fun _ ↦ rfl) fun c ↦ .ite (.fail _) ?_)
  refine .bind (.modify fun _ ↦ rfl) fun _ ↦
    .ite (.bind (.ofExcept _) fun text ↦ .fail _) (.bind (.modify fun _ ↦ rfl) fun _ ↦ ?_)
  exact .ite (.pure none) (.bind (.modify fun _ ↦ rfl) fun _ ↦ .pure _)

theorem takePacket_commutes (pk : Packet) :
    Commutes (withArrivals win ackSlice sendTx) (takePacket build handler pk) := by
  refine .ite (.bind (reassemble_commutes build handler win ackSlice sendTx pk) fun combined ↦ ?_)
    (receivePacket_commutes build handler (aside_withArrivals win ackSlice sendTx) pk)
  cases combined with
  | none => exact .pure ()
  | some combinedPk =>
      exact receivePacket_commutes build handler (aside_withArrivals win ackSlice sendTx) combinedPk

theorem readPacket_commutes (data : Bytes) :
    Commutes (withArrivals win ackSlice sendTx) (readPacket build data) :=
  .bind (.zoom (fun _ ↦ rfl) fun _ _ ↦ rfl) fun _ ↦ .get_bind (fun _ ↦ rfl) fun _ ↦
    .bind (.modify fun _ ↦ rfl) fun _ ↦ .pure _

theorem handleLoop_commutes (rounds : Nat) (data : Bytes) :
    Commutes (withArrivals win ackSlice sendTx) (handleLoop build handler rounds data) := by
  induction rounds generalizing data with
  | zero => exact .pure ()
  | succ rounds ih =>
      refine .ite (.pure ()) (.bind (readPacket_commutes build win ackSlice sendTx data)
        fun read ↦ ?_)
      exact .bind (.ofExcept _) fun rest ↦
        .bind (takePacket_commutes build handler win ackSlice sendTx read.1) fun _ ↦ ih rest

/-- Handling the contents of a datagram does not depend on the window, on the pending
acknowledgements or on what was sent. -/
theorem handleDatagram_commutes (data : Bytes) :
    Commutes (withArrivals win ackSlice sendTx) (handleDatagram build handler data) :=
  handleLoop_commutes build handler win ackSlice sendTx data.length data

end Commutes

/-! ## The loop over the packets of a datagram -/

/-- The packet read, and the connection it is read on. -/
theorem readPacket_eq_ok {data : Bytes} {c c' : Conn} {pk : Packet} {n : Nat} :
    readPacket build data c = (c', .ok (pk, n)) ↔
      Packet.read build data c.state.pk = (pk, .ok n) ∧
        c' = { c with state.pk := Packet.new } := by
  rw [readPacket, bind_apply, zoom_apply]
  rcases Packet.read build data c.state.pk with ⟨pk', e | m⟩
  · simp
  · simp [and_comm, eq_comm]

/-- What is left behind a packet is shorter, since the packet takes up at least one byte. -/
theorem length_rest_lt {data rest : Bytes} {c c₁ c₂ : Conn} {pk : Packet} {n : Nat}
    (hd : data ≠ []) (hread : readPacket build data c = (c₁, .ok (pk, n)))
    (hslice : (ofExcept (Checked.sliceFrom data n) : Action Bytes) c₁ = (c₂, .ok rest)) :
    rest.length < data.length := by
  have hpos := Packet.read_pos ((readPacket_eq_ok build).mp hread).1
  dsimp only [ofExcept_apply, Checked.sliceFrom] at hslice
  split at hslice
  · obtain rfl := Except.ok.inj (Prod.mk.inj hslice).2
    rw [List.length_drop]
    exact Nat.sub_lt (List.length_pos_iff.mpr hd) hpos
  · cases (Prod.mk.inj hslice).2

/-- What is done behind a packet is done to shorter data. -/
theorem round_congr {data : Bytes} (hd : data ≠ []) {f g : Bytes → Action Unit}
    (h : ∀ rest, rest.length < data.length → f rest = g rest) :
    (do
      let read ← readPacket build data
      let rest ← ofExcept (Checked.sliceFrom data read.2)
      takePacket build handler read.1
      f rest) = (do
        let read ← readPacket build data
        let rest ← ofExcept (Checked.sliceFrom data read.2)
        takePacket build handler read.1
        g rest : Action Unit) := by
  funext c
  refine bind_congr fun c₁ ⟨pk, n⟩ hread ↦ bind_congr fun c₂ rest hslice ↦
    bind_congr fun c₃ _ _ ↦ ?_
  rw [h rest (length_rest_lt build hd hread hslice)]

/-- Rounds beyond one for each byte change nothing. -/
theorem handleLoop_congr {r r' : Nat} {data : Bytes} (h : data.length ≤ r)
    (h' : data.length ≤ r') :
    handleLoop build handler r data = handleLoop build handler r' data := by
  induction r generalizing r' data with
  | zero =>
      obtain rfl : data = [] := List.length_eq_zero_iff.mp (Nat.le_zero.mp h)
      cases r' with
      | zero => rfl
      | succ r' => exact (if_pos rfl).symm
  | succ r ih =>
      by_cases hd : data = []
      · subst hd
        cases r' with
        | zero => exact if_pos rfl
        | succ r' => exact (if_pos rfl).trans (if_pos rfl).symm
      obtain ⟨r', rfl⟩ : ∃ k, r' = k + 1 :=
        ⟨r' - 1, by have := List.length_pos_iff.mpr hd; omega⟩
      rw [handleLoop, handleLoop, if_neg hd, if_neg hd]
      exact round_congr build handler hd fun rest hrest ↦
        ih (by omega : rest.length ≤ r) (by omega : rest.length ≤ r')

theorem handleDatagram_nil : handleDatagram build handler [] = pure () := rfl

/-- One round of the loop of `handle_datagram`. -/
theorem handleDatagram_cons {data : Bytes} (hd : data ≠ []) :
    handleDatagram build handler data = (do
      let read ← readPacket build data
      let rest ← ofExcept (Checked.sliceFrom data read.2)
      takePacket build handler read.1
      handleDatagram build handler rest) := by
  obtain ⟨r, hr⟩ : ∃ r, data.length = r + 1 :=
    ⟨data.length - 1, by have := List.length_pos_iff.mpr hd; omega⟩
  rw [handleDatagram, hr, handleLoop, if_neg hd]
  exact round_congr build handler hd fun rest hrest ↦
    handleLoop_congr build handler (by omega : rest.length ≤ r) le_rfl

/-- A datagram that is the encoding of one packet. -/
theorem handleDatagram_write {pk : Packet} (hpk : pk.Encodable) (c : Conn) :
    handleDatagram build handler pk.write c =
      takePacket build handler (pk.overlay c.state.pk) { c with state.pk := Packet.new } := by
  have hne : pk.write ≠ [] := List.cons_ne_nil _ _
  have hread : readPacket build pk.write c =
      ({ c with state.pk := Packet.new }, .ok (pk.overlay c.state.pk, pk.write.length)) := by
    have h := Packet.read_write build hpk [] c.state.pk
    rw [List.append_nil] at h
    exact (readPacket_eq_ok build).mpr ⟨h, rfl⟩
  rw [handleDatagram_cons build handler hne, bind_ok hread, Checked.sliceFrom_of_le le_rfl,
    ofExcept_ok_bind, List.drop_length, handleDatagram_nil, bind_apply]
  rcases takePacket build handler (pk.overlay c.state.pk) { c with state.pk := Packet.new } with
    ⟨c', e | _⟩
  · rfl
  · rfl

end Ragnet.Conn

import Ragnet.Conn.Reassembly

/-!
# What a receiver has delivered

The invariant of a receiver that gets genuine packets, in any order and any number of times: each
open entry belongs to a message, what the queue holds and what has been handled are payloads, and
the payloads have been handled in the order of their order indices.

It needs that the indices of the messages are distinct, which they are until a counter wraps
around.
-/

namespace Ragnet.Conn

open HashMap Proc Wire

/-- The payload that belongs to an order index. -/
def source (messages : List Message) (i : Nat) : Option Bytes :=
  (messages.map Message.payload)[i]?

/-- The order index of a message is its position, and split messages have distinct split ids. -/
structure Numbered (messages : List Message) : Prop where
  order : ∀ m ∈ messages, source messages m.orderIndex.value = some m.payload
  splitId_inj : ∀ m ∈ messages, ∀ m' ∈ messages, m.IsSplit → m'.IsSplit →
    m.splitId = m'.splitId → m = m'

/-- Before the counters wrap around, the messages of a sender are numbered. -/
theorem Sender.Counted.numbered {s : Sender} (h : s.Counted) (hlen : s.messages.length < 2 ^ 24)
    (hsplits : (Sender.splits s.messages).length < 2 ^ 16) : Numbered s.messages where
  order m hm := by
    obtain ⟨i, hi, rfl⟩ := List.mem_iff_getElem.mp hm
    have hget := List.getElem?_eq_getElem hi
    rw [h.orderIndex_at i _ hget, Uint24.value_new_of_lt (hi.trans hlen), source,
      List.getElem?_map, hget]
    rfl
  splitId_inj m hm m' hm' hsplit hsplit' heq := by
    have hmem (n : Message) (hn : n ∈ s.messages) (hns : n.IsSplit) :
        ∃ i, (Sender.splits s.messages)[i]? = some n :=
      List.mem_iff_getElem?.mp (List.mem_filter.mpr ⟨hn, by simpa using hns⟩)
    obtain ⟨i, hi⟩ := hmem m hm hsplit
    obtain ⟨j, hj⟩ := hmem m' hm' hsplit'
    have hlt (k : Nat) (n : Message) (hk : (Sender.splits s.messages)[k]? = some n) : k < 2 ^ 16 :=
      (List.getElem?_eq_some_iff.mp hk).1.trans hsplits
    -- below `2 ^ 16` the id determines the position
    rw [h.splitId_at i m hi, h.splitId_at j m' hj] at heq
    have hij := congrArg UInt16.toNat heq
    rw [UInt16.toNat_ofNat_of_lt' (hlt i m hi), UInt16.toNat_ofNat_of_lt' (hlt j m' hj)] at hij
    subst hij
    exact Option.some.inj (hi.symm.trans hj)

theorem Sender.Sound.numbered {s : Sender} (h : s.Sound) (hlen : s.messages.length < 2 ^ 24)
    (hsplits : (Sender.splits s.messages).length < 2 ^ 16) : Numbered s.messages :=
  h.counted.numbered hlen hsplits

/-- What a receiver of genuine packets has delivered and what it keeps. -/
structure Delivering (messages : List Message) (d : Delivery) : Prop where
  pk : d.pk = Packet.new
  entries : ∀ id slots, d.splits.lookup id = some slots →
    ∃ m ∈ messages, m.IsSplit ∧ m.splitId = id ∧ Entry m slots
  ordered : PacketQueue.Delivers (source messages) d.handled d.packetQueue

variable {messages : List Message} {build : Build} {handler : ConnectionHandler} {c : Conn}
  {m : Message} {pk : Packet}

theorem delivering_new (mtu : Nat) : Delivering [] (new mtu).delivery where
  pk := rfl
  entries := fun _ _ hl ↦ by cases hl
  ordered := PacketQueue.delivers_new _

/-- What has been handled is a prefix of what has been sent. -/
theorem Delivering.isPrefix {d : Delivery} (h : Delivering messages d) :
    d.handled <+: messages.map Message.payload := h.ordered.isPrefix

/-- More messages do no harm. -/
theorem Delivering.mono {d : Delivery} (h : Delivering messages d) (ms : List Message) :
    Delivering (messages ++ ms) d where
  pk := h.pk
  entries id slots hl := by
    obtain ⟨m, hm, rest⟩ := h.entries id slots hl
    exact ⟨m, List.mem_append_left _ hm, rest⟩
  ordered := h.ordered.mono fun j x hx ↦ by
    rw [source, List.map_append, List.getElem?_append_left (List.getElem?_eq_some_iff.mp hx).1]
    exact hx

/-- A message owns its entry. -/
theorem Delivering.owns (h : Delivering messages c.delivery) (hn : Numbered messages)
    (hm : m ∈ messages) (hsplit : m.IsSplit) : Owns m c.state.splits := by
  intro slots hl
  obtain ⟨m', hm', hsplit', hid, hentry⟩ := h.entries m.splitId slots hl
  rw [hn.splitId_inj m' hm' m hm hsplit' hsplit hid] at hentry
  exact hentry

/-! ## One packet -/

/-- The handler takes every payload, whatever it has been shown before. -/
def Handles (handler : ConnectionHandler) (messages : List Message) : Prop :=
  ∀ m ∈ messages, ∀ handled, ∃ b, handler.handle handled m.payload = .ok b

/-- A handler that never fails takes them. -/
theorem handles_of_ok (hhandler : ∀ handled content, ∃ b, handler.handle handled content = .ok b)
    (messages : List Message) : Handles handler messages := fun _ _ _ ↦ hhandler _ _

/-- A queue that delivers the payloads of messages delivers nothing else. -/
theorem exists_of_delivers {log : List Bytes} {q : PacketQueue}
    (h : PacketQueue.Delivers (source messages) log q) {content : Bytes} (hc : content ∈ log) :
    ∃ m ∈ messages, m.payload = content := by
  obtain ⟨i, hi⟩ := List.mem_iff_getElem?.mp hc
  have hlt := (List.getElem?_eq_some_iff.mp hi).1
  rw [h.delivered i (h.length_eq ▸ hlt), source, List.getElem?_map] at hi
  obtain ⟨m, hm, hpayload⟩ := Option.map_eq_some_iff.mp hi
  exact ⟨m, List.mem_of_getElem? hm, hpayload⟩

/-- So contents that it delivers are taken. -/
theorem contentTaken_of_delivers {log : List Bytes} {q : PacketQueue} {closing : Int}
    (h : PacketQueue.Delivers (source messages) log q) (hhandler : Handles handler messages)
    (handled : List Bytes) {content : Bytes} (hc : content ∈ log) :
    ContentTaken handler closing handled content := by
  obtain ⟨m, hm, rfl⟩ := exists_of_delivers h hc
  exact ⟨m.payload_ne_nil, Or.inr (hhandler m hm handled)⟩

/-- A whole message is put into the queue, and what is in order is handled. -/
theorem Delivering.receivePacket (h : Delivering messages c.delivery)
    (hhandler : Handles handler messages)
    (hrel : pk.reliability = reliabilityReliableOrdered)
    (hsrc : source messages pk.orderIndex.value = some pk.content) :
    Delivering messages (Conn.receivePacket build handler pk c).1.delivery := by
  have hput := h.ordered.put hsrc
  have hqueued :
      Delivering messages ({ c with state.packetQueue := c.queued pk } : Conn).delivery :=
    ⟨h.pk, h.entries, hput⟩
  rw [Conn.receivePacket, if_neg (fun hn ↦ hn hrel)]
  by_cases ht : c.state.packetQueue.Taken pk.orderIndex.value
  · rw [bind_ok (orderPacket_duplicate build ht)]
    exact h
  have horder := @orderPacket_new build handler c pk ht
  cases hsize : (c.queued pk).windowSize build with
  | error e =>
      rw [hsize] at horder
      rw [bind_error horder]
      exact hqueued
  | ok size =>
      rw [hsize] at horder
      dsimp only at horder
      by_cases hbig : Exceeds handler size
      · rw [if_pos hbig] at horder
        rw [bind_error horder]
        exact hqueued
      · rw [if_neg hbig] at horder
        have hfetch : PacketQueue.Delivers (source messages)
            (c.handled ++ (c.queued pk).fetch.2) (c.queued pk).fetch.1 := hput.fetch
        have hall := @handleAll_taken handler
          { c with state.packetQueue := (c.queued pk).fetch.1 } (c.queued pk).fetch.2
          fun handled content hc ↦
            contentTaken_of_delivers hfetch hhandler handled (List.mem_append_right _ hc)
        rw [bind_ok horder, hall]
        exact ⟨h.pk, h.entries, hfetch⟩

/-- A genuine packet keeps the receiver delivering. -/
theorem Delivering.takePacket (h : Delivering messages c.delivery) (hn : Numbered messages)
    (hcount : ∀ m ∈ messages, m.fragments.length ≤ 2 ^ 32)
    (hhandler : Handles handler messages) (hpk : Genuine messages pk) :
    Delivering messages (Conn.takePacket build handler pk c).1.delivery := by
  obtain ⟨m, hm, i, content, messageIndex, hi, rfl⟩ := hpk
  by_cases hsplit : m.IsSplit
  · have hbit : (m.packet messageIndex i content).split = true := by
      rw [Message.packet_split hsplit]
    have hout := @reassemble_owned build handler m c i content messageIndex
      (h.owns hn hm hsplit) hsplit (hcount m hm) hi
    have hframe := (reassemble_frame build handler (m.packet messageIndex i content)).comp
      (fun c ↦ (c.state.pk, c.handled, c.state.packetQueue)) c
    rw [Conn.takePacket, if_pos hbit, receiveSplitPacket]
    rcases hr : reassemble build handler (m.packet messageIndex i content) c with ⟨c', r⟩
    rw [hr] at hout hframe
    obtain ⟨hpk', hframe⟩ := Prod.mk.inj hframe
    obtain ⟨hhandled', hqueue'⟩ := Prod.mk.inj hframe
    have hc' : Delivering messages c'.delivery := by
      refine ⟨hpk'.trans h.pk, fun id slots hl ↦ ?_, ?_⟩
      · by_cases heq : id = m.splitId
        · subst heq
          exact ⟨m, hm, hsplit, rfl, hout.owns (h.owns hn hm hsplit) slots hl⟩
        · exact h.entries id slots ((hout.lookup_of_ne heq).symm.trans hl)
      · change PacketQueue.Delivers _ c'.handled c'.state.packetQueue
        rw [hhandled', hqueue']
        exact h.ordered
    cases r with
    | error e =>
        rw [bind_error hr]
        exact hc'
    | ok combined =>
        rw [bind_ok hr]
        cases combined with
        | none => exact hc'
        | some combinedPk =>
            obtain rfl := hout.eq_combined
            exact hc'.receivePacket hhandler rfl (hn.order m hm)
  · rw [Message.packet_whole hsplit hi]
    have hwhole : ¬ ({ Packet.new with
        content := m.payload
        orderIndex := m.orderIndex
        messageIndex := messageIndex } : Packet).split = true := Bool.false_ne_true
    rw [Conn.takePacket, if_neg hwhole]
    exact h.receivePacket hhandler rfl (hn.order m hm)

/-- So does its datagram. -/
theorem Delivering.receive_genuine {seq : Uint24} (h : Delivering messages c.delivery)
    (hn : Numbered messages) (hcount : ∀ m ∈ messages, m.fragments.length ≤ 2 ^ 32)
    (hhandler : Handles handler messages) (env : Env) (hpk : Genuine messages pk) :
    Delivering messages (Conn.receive build handler env (datagram seq pk) c).1.delivery := by
  by_cases hseen : c.state.win.Seen seq.value
  · rw [receive_seen build handler env hseen]
    exact h
  obtain ⟨nacks, hrecv⟩ :=
    receive_new build handler env hpk.encodable hpk.overlay h.pk hseen
  have hawait : Delivering messages (c.awaiting env.clock seq nacks).delivery :=
    ⟨rfl, h.entries, h.ordered⟩
  rw [hrecv]
  cases (c.entered env.clock seq).state.win.size build with
  | error e => exact h
  | ok size =>
      dsimp only
      by_cases hbig : Exceeds handler size
      · rw [if_pos hbig]
        exact hawait
      · rw [if_neg hbig]
        exact hawait.takePacket hn hcount hhandler hpk

theorem Delivering.receive {seq : Uint24} (h : Delivering messages c.delivery)
    (hn : Numbered messages) (hcount : ∀ m ∈ messages, m.fragments.length ≤ 2 ^ 32)
    (hhandler : ∀ handled content, ∃ b, handler.handle handled content = .ok b) (env : Env)
    (hpk : Genuine messages pk) :
    Delivering messages (Conn.receive build handler env (datagram seq pk) c).1.delivery :=
  h.receive_genuine hn hcount (handles_of_ok hhandler messages) env hpk

end Ragnet.Conn

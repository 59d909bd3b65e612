import Ragnet.Conn.Exchange
import Ragnet.Conn.Tracking
import Ragnet.Packet.Split

/-!
# The messages of a sender

A sender together with the messages it has started.  `Message` is what a call of `write_locked` or
`send_message` makes of its data: the fragments and the indices that its packets carry.  Whatever
the sender does later, every packet it tracks or sends is the packet of a fragment of one of these
messages.
-/

namespace Ragnet.Conn

open Ledger Wire

/-! ## Messages -/

/-- A message that has been cut into fragments. -/
structure Message where
  payload : Bytes
  fragments : List Bytes
  orderIndex : Uint24
  splitId : UInt16
  /-- The fragments make up the message. -/
  flatten_eq : fragments.flatten = payload
  /-- Each fragment fits a packet. -/
  sendable : ∀ f ∈ fragments, Sendable f
  /-- There is a fragment. -/
  fragments_ne_nil : fragments ≠ []

namespace Message

/-- A message that takes more than one packet. -/
def IsSplit (m : Message) : Prop := m.fragments.length > 1

instance (m : Message) : Decidable m.IsSplit := inferInstanceAs (Decidable (_ > _))

def packet (m : Message) (messageIndex : Uint24) (i : Nat) (content : Bytes) : Packet :=
  fragmentPacket m.fragments.length m.splitId m.orderIndex messageIndex i content

/-- The packet that the receiver combines from all fragments. -/
def combined (m : Message) : Packet :=
  { Packet.new with content := m.payload, orderIndex := m.orderIndex }

theorem payload_ne_nil (m : Message) : m.payload ≠ [] := by
  intro h
  obtain ⟨f, hf⟩ := List.exists_mem_of_ne_nil _ m.fragments_ne_nil
  have hflat := m.flatten_eq
  rw [h, List.flatten_eq_nil_iff] at hflat
  exact (m.sendable f hf).1 (hflat f hf)

variable {m : Message} {messageIndex : Uint24} {i : Nat} {content : Bytes}

/-- A message that takes one packet is the content of this packet. -/
theorem fragments_eq_singleton (h : ¬ m.IsSplit) : m.fragments = [m.payload] := by
  obtain ⟨f, hf⟩ : ∃ f, m.fragments = [f] := by
    have hpos := List.length_pos_iff.mpr m.fragments_ne_nil
    have hlen : ¬ m.fragments.length > 1 := h
    exact List.length_eq_one_iff.mp (by omega)
  rw [← m.flatten_eq, hf, List.flatten_singleton]

/-- The packet of a message that takes one. -/
theorem packet_whole (h : ¬ m.IsSplit) (hc : m.fragments[i]? = some content) :
    m.packet messageIndex i content =
      { Packet.new with
        content := m.payload, orderIndex := m.orderIndex, messageIndex := messageIndex } := by
  rw [fragments_eq_singleton h] at hc
  obtain rfl := List.mem_singleton.mp (List.mem_of_getElem? hc)
  exact fragmentPacket_whole h

/-- The packet of a fragment of a longer message. -/
theorem packet_split (h : m.IsSplit) :
    m.packet messageIndex i content =
      { Packet.new with
        content := content
        orderIndex := m.orderIndex
        messageIndex := messageIndex
        split := true
        splitCount := UInt32.ofNat m.fragments.length
        splitIndex := UInt32.ofNat i
        splitId := m.splitId } := by
  rw [packet, fragmentPacket]
  exact if_pos h

end Message

/-- The packet belongs to a fragment of one of the messages. -/
def Genuine (messages : List Message) (pk : Packet) : Prop :=
  ∃ m ∈ messages, ∃ (i : Nat) (content : Bytes) (messageIndex : Uint24),
    m.fragments[i]? = some content ∧ pk = m.packet messageIndex i content

variable {messages : List Message} {pk : Packet} {m : Message}

theorem Genuine.mono (h : Genuine messages pk) (ms : List Message) :
    Genuine (messages ++ ms) pk := by
  obtain ⟨m, hm, rest⟩ := h
  exact ⟨m, List.mem_append_left _ hm, rest⟩

theorem Genuine.encodable (h : Genuine messages pk) : pk.Encodable := by
  obtain ⟨m, -, i, content, messageIndex, hi, rfl⟩ := h
  exact fragmentPacket_encodable (m.sendable content (List.mem_of_getElem? hi))

theorem genuine_packet {i : Nat} {content : Bytes} {messageIndex : Uint24} (hm : m ∈ messages)
    (hi : m.fragments[i]? = some content) : Genuine messages (m.packet messageIndex i content) :=
  ⟨m, hm, i, content, messageIndex, hi, rfl⟩

theorem Genuine.overlay (h : Genuine messages pk) : pk.overlay Packet.new = pk := by
  obtain ⟨m, -, i, content, messageIndex, -, rfl⟩ := h
  exact fragmentPacket_overlay

/-! ## The messages that a call starts -/

/-- The messages that a call starts on a connection: one if it writes, and otherwise none.  The
data of a write is not empty, and that of an internal message fits a packet. -/
inductive Starts (build : Build) (c : Conn) : SendCall → List Message → Prop
  | writeLocked {env : Env} {m : Message} :
      split build m.payload c.mtu.effective = .ok m.fragments →
        m.orderIndex = c.state.orderIndex → m.splitId = c.state.splitId.toUInt16 →
          Starts build c (.writeLocked env m.payload) [m]
  | sendMessage {env : Env} {m : Message} :
      m.fragments = [m.payload] → m.orderIndex = c.state.orderIndex → m.splitId = 0 →
        Starts build c (.sendMessage env m.payload) [m]
  | handleAck {clock : Clock} {data : Bytes} : Starts build c (.handleAck clock data) []
  | handleNack {env : Env} {data : Bytes} : Starts build c (.handleNack env data) []
  | checkResend {env : Env} {now : Instant} {iter : List Uint24} :
      Starts build c (.checkResend env now iter) []

/-- The message that a write starts. -/
theorem Starts.of_writeLocked {build : Build} {c : Conn} {env : Env} {data : Bytes}
    {ms : List Message} (h : Starts build c (.writeLocked env data) ms) :
    ∃ m, ms = [m] ∧ data = m.payload ∧ split build data c.mtu.effective = .ok m.fragments ∧
      m.orderIndex = c.state.orderIndex ∧ m.splitId = c.state.splitId.toUInt16 := by
  cases h with
  | @writeLocked _ m hf ho hs => exact ⟨m, rfl, rfl, hf, ho, hs⟩

/-- The fragments of data that is not empty fit packets. -/
theorem split_sendable (build : Build) (mtu : Mtu) {data : Bytes} (hd : data ≠ []) :
    ∃ fragments, split build data mtu.effective = .ok fragments ∧
      fragments.length = fragmentCount data.length mtu.effective ∧ fragments.flatten = data ∧
      ∀ f ∈ fragments, Sendable f := by
  obtain ⟨hlo, hhi⟩ := mtu.effective_bounds
  obtain ⟨fragments, hf, hlen, hflat, hne, hlong, hshort⟩ :=
    split_spec build (by omega : 25 ≤ mtu.effective) hd
  refine ⟨fragments, hf, hlen, hflat, fun f hm ↦ ⟨hne f hm, ?_⟩⟩
  by_cases hl : data.length > wholeSize mtu.effective
  · have hle := (hlong hl).1 f hm
    rw [fragmentSize] at hle
    omega
  · rw [hshort (Nat.le_of_not_lt hl)] at hm
    rw [List.mem_singleton.mp hm]
    rw [wholeSize] at hl
    omega

/-- Every write of data that is not empty starts a message. -/
theorem exists_starts_writeLocked (build : Build) (c : Conn) (env : Env) {data : Bytes}
    (hd : data ≠ []) :
    ∃ m : Message, m.payload = data ∧ Starts build c (.writeLocked env data) [m] := by
  obtain ⟨fragments, hf, -, hflat, hsend⟩ := split_sendable build c.mtu hd
  have hnil : fragments ≠ [] := by
    rintro rfl
    exact hd hflat.symm
  exact ⟨⟨data, fragments, c.state.orderIndex, c.state.splitId.toUInt16, hflat, hsend, hnil⟩, rfl,
    @Starts.writeLocked build c env ⟨_, _, _, _, hflat, hsend, hnil⟩ hf rfl rfl⟩

/-- Every internal message that fits a packet is a message. -/
theorem exists_starts_sendMessage (build : Build) (c : Conn) (env : Env) {data : Bytes}
    (hd : Sendable data) :
    ∃ m : Message, m.payload = data ∧ Starts build c (.sendMessage env data) [m] :=
  let m : Message := ⟨data, [data], c.state.orderIndex, 0, List.flatten_singleton,
    fun _ hf ↦ List.mem_singleton.mp hf ▸ hd, List.cons_ne_nil _ _⟩
  ⟨m, rfl, @Starts.sendMessage build c env m rfl rfl rfl⟩

/-! ## What a sender tracks and sends -/

/-- All packets that a connection tracks or has emitted satisfy `P`. -/
structure Carries (P : Packet → Prop) (c : Conn) : Prop where
  tracked : ∀ n pk, c.tracked n = some pk → P pk
  emitted : ∀ n pk, .emit n pk ∈ c.sends → P pk

theorem Carries.mono {P Q : Packet → Prop} {c : Conn} (h : c.Carries P) (hPQ : ∀ pk, P pk → Q pk) :
    c.Carries Q where
  tracked n pk hpk := hPQ pk (h.tracked n pk hpk)
  emitted n pk hpk := hPQ pk (h.emitted n pk hpk)

section Carries

variable {P : Packet → Prop} {c c' : Conn}

/-- What is new must satisfy `P`. -/
theorem Carries.of_new (h : c.Carries P)
    (htracked : ∀ n pk, c'.tracked n = some pk → c.tracked n = some pk ∨ P pk)
    (hemitted : ∀ n pk, .emit n pk ∈ c'.sends → .emit n pk ∈ c.sends ∨ P pk) : c'.Carries P where
  tracked n pk hpk := (htracked n pk hpk).elim (h.tracked n pk) id
  emitted n pk hpk := (hemitted n pk hpk).elim (h.emitted n pk) id

/-- The elementary steps carry nothing but new packets and what was tracked. -/
theorem Carries.step (hs : SendStep P c c') (h : c.Carries P) : c'.Carries P := by
  have hsame (n : Nat) (pk : Packet) (hpk : .emit n pk ∈ c.sends) :
      Event.emit n pk ∈ c.sends ∨ P pk := Or.inl hpk
  have hemit (s : Nat) (p : Packet) (hp : P p) (n : Nat) (pk : Packet)
      (hpk : .emit n pk ∈ c.sends ++ [.emit s p]) : Event.emit n pk ∈ c.sends ∨ P pk := by
    rcases List.mem_append.mp hpk with hpk | hpk
    · exact Or.inl hpk
    · obtain ⟨-, rfl⟩ := Event.emit.inj (List.mem_singleton.mp hpk)
      exact Or.inr hp
  cases hs with
  | measure now =>
      refine h.of_new (fun n pk hpk ↦ Or.inl ?_) hsame
      rwa [Conn.tracked, ResendMap.tracked_rtt] at hpk
  | @issue pk now hnew _ =>
      refine h.of_new (fun n q hq ↦ ?_) (hemit _ pk hnew)
      change (c.state.retransmission.add c.state.seq pk now).tracked n = some q at hq
      rw [ResendMap.tracked_add] at hq
      split at hq
      · exact Or.inr (Option.some.inj hq ▸ hnew)
      · exact Or.inl hq
  | @reissue seq pk removed added ht =>
      have hold := h.tracked _ _ ht
      refine h.of_new (fun n q hq ↦ ?_) (hemit _ pk hold)
      change (((c.state.retransmission.retransmit seq removed).1).add c.state.seq pk
        added).tracked n = some q at hq
      rw [ResendMap.tracked_add, ResendMap.retransmit, ResendMap.tracked_remove] at hq
      split at hq
      · exact Or.inr (Option.some.inj hq ▸ hold)
      split at hq
      · cases hq
      · exact Or.inl hq
  | acknowledge seq now =>
      refine h.of_new (fun n q hq ↦ Or.inl ?_) fun n q hq ↦ Or.inl (by simpa using hq)
      change (c.state.retransmission.acknowledge seq now).1.tracked n = some q at hq
      rw [ResendMap.acknowledge, ResendMap.tracked_remove] at hq
      split at hq
      · cases hq
      · exact hq
  | send _ => exact h.of_new (fun _ _ hpk ↦ Or.inl hpk) hsame

end Carries

/-! ## Senders -/

/-- A sending connection and the messages it has started, oldest first. -/
structure Sender where
  conn : Conn
  messages : List Message

namespace Sender

def Calls (build : Build) (s : Sender) (call : SendCall) (s' : Sender) : Prop :=
  ∃ ms, Starts build s.conn call ms ∧ s' = ⟨call.run build s.conn, s.messages ++ ms⟩

/-- The split ones among the messages. -/
def splits (messages : List Message) : List Message := messages.filter fun m ↦ m.IsSplit

theorem splits_concat_of_split {messages : List Message} {m : Message} (h : m.IsSplit) :
    splits (messages ++ [m]) = splits messages ++ [m] := by
  rw [splits, List.filter_append, List.filter_cons_of_pos (by simpa using h)]
  rfl

theorem splits_concat_of_whole {messages : List Message} {m : Message} (h : ¬ m.IsSplit) :
    splits (messages ++ [m]) = splits messages := by
  rw [splits, List.filter_append, List.filter_cons_of_neg (by simpa using h)]
  exact List.append_nil _

/-- Everything that the sender tracks or sends belongs to its messages, and the messages carry
consecutive order indices and split ids. -/
structure Sound (s : Sender) : Prop where
  carries : s.conn.Carries (Genuine s.messages)
  sends : s.conn.SendsEmitted
  orderIndex_eq : s.conn.state.orderIndex = Uint24.new s.messages.length
  orderIndex_at : ∀ i m, s.messages[i]? = some m → m.orderIndex = Uint24.new i
  splitId_eq : s.conn.state.splitId = UInt32.ofNat (splits s.messages).length
  splitId_at : ∀ i m, (splits s.messages)[i]? = some m → m.splitId = UInt16.ofNat i

theorem sound_new (mtu : Nat) : Sound ⟨new mtu, []⟩ where
  carries :=
    { tracked := fun n pk hpk ↦ by
        change ResendMap.new.tracked n = some pk at hpk
        rw [ResendMap.tracked_new] at hpk
        cases hpk
      emitted := fun _ _ hpk ↦ absurd hpk List.not_mem_nil }
  sends := fun _ hd ↦ absurd hd List.not_mem_nil
  orderIndex_eq := rfl
  orderIndex_at := fun _ _ h ↦ by cases h
  splitId_eq := rfl
  splitId_at := fun _ _ h ↦ by cases h

variable {build : Build} {s s' : Sender} {call : SendCall}

/-- A call starts no message, or it starts one, counts it, and then sends packets of this message
only. -/
theorem starts_cases {ms : List Message} (h : Starts build s.conn call ms) :
    (ms = [] ∧ ∀ new, SendSteps new s.conn (call.run build s.conn)) ∨
      ∃ m : Message, ms = [m] ∧ m.orderIndex = s.conn.state.orderIndex ∧
        (m.IsSplit → m.splitId = s.conn.state.splitId.toUInt16) ∧
        SendSteps (Genuine [m])
          (s.conn.renumber s.conn.state.orderIndex.inc.1
            (if m.IsSplit then s.conn.state.splitId + 1 else s.conn.state.splitId))
          (call.run build s.conn) := by
  cases h with
  | @writeLocked env m hf ho hs =>
      refine Or.inr ⟨m, rfl, ho, fun _ ↦ hs, writeLocked_steps env hf fun j content mi hj ↦ ?_⟩
      rw [← hs, ← ho]
      exact genuine_packet (List.mem_singleton.mpr rfl) hj
  | @sendMessage env m hf ho hs =>
      have hns : ¬ m.IsSplit := by
        rw [Message.IsSplit, hf]
        exact Nat.lt_irrefl 1
      refine Or.inr ⟨m, rfl, ho, fun hsplit ↦ absurd hsplit hns, ?_⟩
      rw [if_neg hns]
      refine sendMessage_steps env m.payload s.conn fun mi ↦ ?_
      have hg := @genuine_packet [m] m 0 m.payload mi (List.mem_singleton.mpr rfl) (by rw [hf]; rfl)
      rw [Message.packet, hf, hs, ho] at hg
      exact hg
  | @handleAck clock data => exact Or.inl ⟨rfl, fun _ ↦ handleAck_steps build clock data s.conn⟩
  | @handleNack env data => exact Or.inl ⟨rfl, fun _ ↦ handleNack_steps build env data s.conn⟩
  | @checkResend env now iter =>
      exact Or.inl ⟨rfl, fun _ ↦ checkResend_steps env now iter s.conn⟩

/-- Appending one message to consecutively numbered ones. -/
theorem at_append {α : Type} {ms : List Message} {m : Message} {num : Message → α} {f : Nat → α}
    (h : ∀ i m, ms[i]? = some m → num m = f i) (hm : num m = f ms.length) :
    ∀ i m', (ms ++ [m])[i]? = some m' → num m' = f i := by
  intro i m' hi
  rcases Nat.lt_trichotomy i ms.length with hlt | rfl | hgt
  · rw [List.getElem?_append_left hlt] at hi
    exact h i m' hi
  · rw [List.getElem?_append_right le_rfl, Nat.sub_self] at hi
    obtain rfl := Option.some.inj hi
    exact hm
  · rw [List.getElem?_eq_none (by simpa using Nat.succ_le_of_lt hgt)] at hi
    cases hi

/-- What a sender keeps track of, whatever else is handed to its sender task. -/
structure Counted (s : Sender) : Prop where
  carries : s.conn.Carries (Genuine s.messages)
  orderIndex_eq : s.conn.state.orderIndex = Uint24.new s.messages.length
  orderIndex_at : ∀ i m, s.messages[i]? = some m → m.orderIndex = Uint24.new i
  splitId_eq : s.conn.state.splitId = UInt32.ofNat (splits s.messages).length
  splitId_at : ∀ i m, (splits s.messages)[i]? = some m → m.splitId = UInt16.ofNat i

theorem Sound.counted (h : s.Sound) : s.Counted :=
  ⟨h.carries, h.orderIndex_eq, h.orderIndex_at, h.splitId_eq, h.splitId_at⟩

theorem carries_congr {P : Packet → Prop} {c c' : Conn} (h : c.Carries P)
    (htracked : c'.tracked = c.tracked) (hsends : c'.sends = c.sends) : c'.Carries P where
  tracked n pk hpk := h.tracked n pk (htracked ▸ hpk)
  emitted n pk hpk := h.emitted n pk (hsends ▸ hpk)

/-- Steps keep what is carried. -/
theorem carries_of_steps {P : Packet → Prop} {c c' : Conn} (h : SendSteps P c c')
    (hc : c.Carries P) : c'.Carries P :=
  h.invariant (fun _ _ hs hi ↦ hi.step hs) hc

/-- Every call keeps the count. -/
theorem Counted.calls (h : s.Counted) (hc : s.Calls build call s') : s'.Counted := by
  obtain ⟨ms, hms, rfl⟩ := hc
  rcases starts_cases hms with ⟨rfl, hsteps⟩ | ⟨m, rfl, ho, hsplit, hsteps⟩
  · obtain ⟨horder, hid⟩ := (hsteps (Genuine s.messages)).counters_eq
    rw [List.append_nil]
    exact ⟨carries_of_steps (hsteps (Genuine s.messages)) h.carries, horder.trans h.orderIndex_eq,
      h.orderIndex_at, hid.trans h.splitId_eq, h.splitId_at⟩
  · have hnew (pk : Packet) (hpk : Genuine [m] pk) : Genuine (s.messages ++ [m]) pk := by
      obtain ⟨m', hm', rest⟩ := hpk
      exact ⟨m', List.mem_append_right _ hm', rest⟩
    have hold := h.carries.mono fun pk hpk ↦ hpk.mono [m]
    have hcarries := carries_of_steps (hsteps.mono hnew) (carries_congr hold rfl rfl)
    obtain ⟨horder, hid⟩ := hsteps.counters_eq
    refine ⟨hcarries, ?_, at_append h.orderIndex_at (ho.trans h.orderIndex_eq), ?_, ?_⟩
    · rw [horder, List.length_append]
      change s.conn.state.orderIndex.inc.1 = _
      rw [h.orderIndex_eq, Uint24.inc_new]
      rfl
    · rw [hid]
      change (if m.IsSplit then s.conn.state.splitId + 1 else s.conn.state.splitId) =
        UInt32.ofNat (splits (s.messages ++ [m])).length
      rw [h.splitId_eq]
      by_cases hm : m.IsSplit
      · rw [if_pos hm, splits_concat_of_split hm, List.length_append]
        exact (UInt32.ofNat_add _ 1).symm
      · rw [if_neg hm, splits_concat_of_whole hm]
    · change ∀ i m', (splits (s.messages ++ [m]))[i]? = some m' → _
      by_cases hm : m.IsSplit
      · rw [splits_concat_of_split hm]
        refine at_append h.splitId_at ?_
        rw [hsplit hm, h.splitId_eq, UInt32.toUInt16_ofNat']
      · rw [splits_concat_of_whole hm]
        exact h.splitId_at

/-- Every call keeps the sender sound. -/
theorem Sound.calls (h : s.Sound) (hc : s.Calls build call s') : s'.Sound := by
  have hcounted := h.counted.calls hc
  refine ⟨hcounted.carries, ?_, hcounted.orderIndex_eq, hcounted.orderIndex_at,
    hcounted.splitId_eq, hcounted.splitId_at⟩
  obtain ⟨ms, hms, rfl⟩ := hc
  have hsends : s.conn.SendsEmitted := h.sends
  rcases starts_cases hms with ⟨rfl, hsteps⟩ | ⟨m, rfl, -, -, hsteps⟩
  · exact (hsteps fun _ ↦ True).invariant (I := SendsEmitted) (fun _ _ hs hi ↦ hi.step hs) hsends
  · exact hsteps.invariant (I := SendsEmitted) (fun _ _ hs hi ↦ hi.step hs) hsends

end Sender

/-! ## Whole messages -/

/-- A write of a whole message is an internal message. -/
theorem writeLocked_whole {build : Build} {env : Env} {data : Bytes} {c : Conn}
    (haccepts : env.accepts 0 = true) (hf : split build data c.mtu.effective = .ok [data]) :
    writeLocked build env data c = (sendMessage env data c, .ok data.length) := by
  rw [writeLocked, Proc.get_bind, hf, Proc.ofExcept_ok_bind, Proc.update_bind]
  dsimp only
  rw [List.length_singleton, if_neg (Nat.lt_irrefl 1), writeLoop, Proc.update_bind]
  dsimp only
  rw [if_neg (Nat.lt_irrefl 1), sendDatagram, haccepts, sendMessage, haccepts, Nat.zero_add,
    Nat.zero_add]
  rfl

/-- A byte is a whole message. -/
theorem split_byte {build : Build} (mtu : Mtu) : split build [7] mtu.effective = .ok [[7]] := by
  have hlo := mtu.effective_bounds.1
  refine split_short build (by omega) (by decide) ?_
  rw [wholeSize, packetAdditionalSize, List.length_singleton]
  omega

end Ragnet.Conn

import Ragnet.Conn.Delivering
import Ragnet.Conn.Invariants
import Ragnet.Conn.Stream
import Ragnet.Lib.Lts

/-!
# Two connections and a network

A sender and a receiver.  Whatever the sender has handed to its sender task may reach the receiver
at any time, any number of times, or never, so the network is the list of these datagrams.  The
sender is driven by any calls, with any bytes as acknowledgements; the receiver may send
acknowledgements and packets of its own.

The contents that the receiver passes on are a prefix of the payloads sent, as long as no message
has more fragments than its count can announce.
-/

namespace Ragnet

open Conn Proc Wire

/-- A sender and a receiver. -/
structure Link where
  sender : Sender
  receiver : Conn

namespace Link

inductive Event where
  /-- A call on the sender. -/
  | call (call : SendCall)
  /-- A datagram reaches the receiver. -/
  | deliver (env : Env) (data : Bytes)
  /-- A call on the send side of the receiver. -/
  | respond (call : SendCall)
  /-- The receiver flushes its acknowledgements. -/
  | flush (env : Env)

inductive Step (build : Build) (handler : ConnectionHandler) : Link → Event → Link → Prop
  | call {s : Link} {call : SendCall} {sender : Sender} :
      s.sender.Calls build call sender →
        Step build handler s (.call call) { s with sender := sender }
  | deliver {s : Link} {env : Env} {data : Bytes} :
      data ∈ s.sender.conn.sendTx →
        Step build handler s (.deliver env data)
          { s with receiver := (receive build handler env data s.receiver).1 }
  | respond {s : Link} {call : SendCall} :
      Step build handler s (.respond call) { s with receiver := call.run build s.receiver }
  | flush {s : Link} {env : Env} :
      Step build handler s (.flush env) { s with receiver := flushAcks build env s.receiver }

def links (build : Build) (handler : ConnectionHandler) : Lts Link Event where
  init s := ∃ mtu mtu', s = ⟨⟨new mtu, []⟩, new mtu'⟩
  step := Step build handler

/-- A write is not cut into more than `2 ^ 32` fragments. -/
def CountFits (build : Build) (s : Link) : Event → Prop
  | .call (.writeLocked _ data) => ∀ fragments,
      split build data s.sender.conn.mtu.effective = .ok fragments → fragments.length ≤ 2 ^ 32
  | _ => True

structure Sound (s : Link) : Prop where
  sender : s.sender.Sound
  count_le : ∀ m ∈ s.sender.messages, m.fragments.length ≤ 2 ^ 32
  delivering : s.sender.messages.length < 2 ^ 24 →
    (Sender.splits s.sender.messages).length < 2 ^ 16 →
      Delivering s.sender.messages s.receiver.delivery

variable {build : Build} {handler : ConnectionHandler} {s s' : Link} {e : Event}

/-- The messages of a call fit when its write does. -/
theorem count_le_of_starts {call : SendCall} {ms : List Message}
    (h : Starts build s.sender.conn call ms) (hok : CountFits build s (.call call)) :
    ∀ m ∈ ms, m.fragments.length ≤ 2 ^ 32 := by
  intro m hm
  cases h with
  | writeLocked hf _ _ =>
      obtain rfl := List.mem_singleton.mp hm
      exact hok _ hf
  | sendMessage hf _ _ =>
      obtain rfl := List.mem_singleton.mp hm
      rw [hf]
      exact Nat.one_le_two_pow
  | handleAck => cases hm
  | handleNack => cases hm
  | checkResend => cases hm

/-- Every step keeps the invariant. -/
theorem Sound.step (h : s.Sound)
    (hhandler : ∀ handled content, ∃ b, handler.handle handled content = .ok b)
    (hok : CountFits build s e) (hs : Step build handler s e s') : s'.Sound := by
  cases hs with
  | @call call sender hcalls =>
      have hsender := h.sender.calls hcalls
      obtain ⟨ms, hstarts, rfl⟩ := hcalls
      have hcount := count_le_of_starts hstarts hok
      refine ⟨hsender, fun m hm ↦ ?_, fun hlen hsplits ↦ ?_⟩
      · rcases List.mem_append.mp hm with hm | hm
        · exact h.count_le m hm
        · exact hcount m hm
      · change (s.sender.messages ++ ms).length < 2 ^ 24 at hlen
        change (Sender.splits (s.sender.messages ++ ms)).length < 2 ^ 16 at hsplits
        rw [List.length_append] at hlen
        rw [Sender.splits, List.filter_append, List.length_append] at hsplits
        exact (h.delivering (by omega) (lt_of_le_of_lt (Nat.le_add_right _ _) hsplits)).mono ms
  | @deliver env data hdata =>
      refine ⟨h.sender, h.count_le, fun hlen hsplits ↦ ?_⟩
      obtain ⟨seq, pk, hsent, rfl⟩ := h.sender.sends data hdata
      exact (h.delivering hlen hsplits).receive (h.sender.numbered hlen hsplits) h.count_le hhandler
        env (h.sender.carries.emitted _ pk hsent)
  | respond =>
      refine ⟨h.sender, h.count_le, fun hlen hsplits ↦ ?_⟩
      change Delivering _ (SendCall.run build s.receiver _).delivery
      rw [delivery_of_receiving (SendCall.run_receiving build _ s.receiver)]
      exact h.delivering hlen hsplits
  | flush =>
      refine ⟨h.sender, h.count_le, fun hlen hsplits ↦ ?_⟩
      change Delivering _ (flushAcks build _ s.receiver).delivery
      rw [flushAcks_delivery]
      exact h.delivering hlen hsplits

theorem sound_of_reachable
    (hhandler : ∀ handled content, ∃ b, handler.handle handled content = .ok b)
    (h : ((links build handler).restrict (CountFits build)).Reachable s) : s.Sound := by
  refine h.invariant ?_ fun s e s' _ hs hstep ↦ hs.step hhandler hstep.1 hstep.2
  rintro _ ⟨mtu, mtu', rfl⟩
  exact ⟨Sender.sound_new mtu, fun _ hm ↦ absurd hm List.not_mem_nil, fun _ _ ↦ delivering_new mtu'⟩

/-- **Delivery is exact.**  In every run in which no write is cut into more than `2 ^ 32` fragments,
the contents handled by the receiver are a prefix of the payloads sent, while the order indices and
the split ids have not come round. -/
theorem handled_is_prefix
    (hhandler : ∀ handled content, ∃ b, handler.handle handled content = .ok b)
    (h : ((links build handler).restrict (CountFits build)).Reachable s)
    (hlen : s.sender.messages.length < 2 ^ 24)
    (hsplits : (Sender.splits s.sender.messages).length < 2 ^ 16) :
    s.receiver.handled <+: s.sender.messages.map Message.payload :=
  ((sound_of_reachable hhandler h).delivering hlen hsplits).isPrefix

/-- Two internal messages, and a late copy of the first. -/
theorem handled_is_prefix_late :
    ∃ s, ((links .debug .forwarding).restrict (CountFits .debug)).Reachable s ∧
      s.receiver.handled = [[7], [8]] ∧
      s.receiver.handled <+: s.sender.messages.map Message.payload := by
  let env : Env := .calm
  let first : Message := ⟨[7], [[7]], Uint24.new 0, 0, rfl, by decide, by decide⟩
  let second : Message := ⟨[8], [[8]], Uint24.new 1, 0, rfl, by decide, by decide⟩
  let early := datagram (Uint24.new 0)
    { Packet.new with content := [7], orderIndex := Uint24.new 0, messageIndex := Uint24.new 0 }
  let late := datagram (Uint24.new 1)
    { Packet.new with content := [8], orderIndex := Uint24.new 1, messageIndex := Uint24.new 1 }
  let c := SendCall.run .debug (new 1492) (.sendMessage env [7])
  let c' := SendCall.run .debug c (.sendMessage env [8])
  let s₁ : Link := ⟨⟨c, [first]⟩, new 1492⟩
  let s₂ : Link := ⟨⟨c', [first, second]⟩, new 1492⟩
  let s₃ : Link := { s₂ with receiver := (receive .debug .forwarding env early s₂.receiver).1 }
  let s₄ : Link := { s₃ with receiver := (receive .debug .forwarding env late s₃.receiver).1 }
  let s₅ : Link := { s₄ with receiver := (receive .debug .forwarding env early s₄.receiver).1 }
  have hr₁ : ((links .debug .forwarding).restrict (CountFits .debug)).Reachable s₁ :=
    .step (a := .call (.sendMessage env [7])) (.init ⟨1492, 1492, rfl⟩)
      ⟨trivial, .call ⟨[first], @Starts.sendMessage .debug (new 1492) env first rfl rfl rfl, rfl⟩⟩
  have hr₂ : ((links .debug .forwarding).restrict (CountFits .debug)).Reachable s₂ :=
    .step (a := .call (.sendMessage env [8])) hr₁
      ⟨trivial, .call ⟨[second], @Starts.sendMessage .debug c env second rfl rfl rfl, rfl⟩⟩
  have hsent : s₂.sender.conn.sendTx = [early, late] := rfl
  have hr₃ : ((links .debug .forwarding).restrict (CountFits .debug)).Reachable s₃ :=
    .step (a := .deliver env early) hr₂ ⟨trivial, .deliver (hsent ▸ List.mem_cons_self)⟩
  have hr₄ : ((links .debug .forwarding).restrict (CountFits .debug)).Reachable s₄ :=
    .step (a := .deliver env late) hr₃
      ⟨trivial, .deliver (hsent ▸ List.mem_cons_of_mem _ List.mem_cons_self)⟩
  -- a copy of the first datagram
  have hr₅ : ((links .debug .forwarding).restrict (CountFits .debug)).Reachable s₅ :=
    .step (a := .deliver env early) hr₄ ⟨trivial, .deliver (hsent ▸ List.mem_cons_self)⟩
  refine ⟨s₅, hr₅, by decide, ?_⟩
  exact handled_is_prefix (fun _ _ ↦ ⟨false, rfl⟩) hr₅ (by decide) (by decide)

/-! ## A message with too many fragments -/

/-- The first fragment of a message that announces one. -/
theorem reassemble_alone {m : Message} {c : Conn} {content : Bytes} {messageIndex : Uint24}
    (hm : m.IsSplit) (hcount : UInt32.ofNat m.fragments.length = 1)
    (hne : content ≠ []) (hsplits : c.state.splits = ∅) :
    reassemble build handler (m.packet messageIndex 0 content) c =
      ({ c with
          state.splits := c.state.splits.erase m.splitId
          reassembled := c.reassembled ++
            [{ Packet.new with content := content, orderIndex := m.orderIndex }] },
        .ok (some { Packet.new with content := content, orderIndex := m.orderIndex })) := by
  have hcount' : (m.packet messageIndex 0 content).splitCount = 1 := by
    rw [Message.packet_split hm, hcount]
  have hlim : ¬ SplitLimited handler c.state.splits (m.packet messageIndex 0 content) := by
    refine not_splitLimited_of_le ?_ ?_
    · rw [hcount']
      exact (by decide : 1 ≤ 512)
    · rw [hsplits]
      exact Nat.zero_le _
  have hslots : fragmentsOf c.state.splits (m.packet messageIndex 0 content) = [[]] := by
    rw [fragmentsOf, hcount', hsplits, Finmap.lookup_empty]
    rfl
  have hindex : (m.packet messageIndex 0 content).splitIndex.toNat = 0 := by
    rw [Message.packet_split hm]
    rfl
  have hcontent : (m.packet messageIndex 0 content).content = content := by
    rw [Message.packet_split hm]
  have hcombined : combinedPacket (m.packet messageIndex 0 content) [content] =
      { Packet.new with content := content, orderIndex := m.orderIndex } := by
    rw [combinedPacket, Message.packet_split hm, List.flatten_singleton]
  rw [reassemble_slots build hlim hslots (by decide : 1 < 2 ^ 32)
    (by rw [hindex]; exact Nat.one_pos), hindex, hcontent, List.set_cons_zero,
    if_neg (by simp [hne.symm]), hcombined, Message.packet_split hm]

/-- A new connection hands it on as it is. -/
theorem receive_alone {m : Message} {content : Bytes} (hm : m.IsSplit)
    (hcount : UInt32.ofNat m.fragments.length = 1) (ho : m.orderIndex = number 0)
    (hs : Sendable content) (env : Env) (mtu : Nat) :
    (receive build handler env (datagram (number 0) (m.packet (number 0) 0 content))
      (new mtu)).1.handled = [content] := by
  obtain ⟨nacks, -, hrecv⟩ := @Expecting.enter build handler env 0 (new mtu)
    (m.packet (number 0) 0 content) (expecting_new mtu) (by decide)
    (fragmentPacket_encodable hs) fragmentPacket_overlay
  have hre := @reassemble_alone build handler m ((new mtu).awaiting env.clock (number 0) nacks)
    content (number 0) hm hcount hs.1 rfl
  have hbit : (m.packet (number 0) 0 content).split = true := by rw [Message.packet_split hm]
  have hcombined : ({ Packet.new with content := content, orderIndex := m.orderIndex } : Packet) =
      streamPacket 0 content := by
    rw [ho]
    rfl
  rw [hcombined] at hre
  rw [hrecv, takePacket, if_pos hbit, receiveSplitPacket, bind_ok hre]
  dsimp only
  rw [receivePacket_expecting rfl (by decide), handleAll_singleton, handlePacket_handled]
  rfl

/-- A message of `2 ^ 32 + 1` fragments, for the smallest MTU. -/
theorem exists_too_long (env : Env) :
    ∃ (m : Message) (content : Bytes) (rest : List Bytes),
      Starts build (new 400) (.writeLocked env m.payload) [m] ∧ m.orderIndex = number 0 ∧
        m.splitId = 0 ∧ m.fragments = content :: rest ∧ m.fragments.length = 2 ^ 32 + 1 ∧
        content ≠ m.payload := by
  obtain ⟨data, hlen⟩ : ∃ data : Bytes, data.length = 348 * 2 ^ 32 + 1 :=
    ⟨List.replicate _ 0, List.length_replicate⟩
  have hne : data ≠ [] := List.ne_nil_of_length_pos (by omega)
  obtain ⟨m, rfl, hstarts⟩ := exists_starts_writeLocked build (new 400) env hne
  obtain ⟨m', hm', -, hf, ho, hid⟩ := hstarts.of_writeLocked
  obtain rfl := (List.cons.inj hm').1
  have hmtu : (new 400).mtu.effective = 372 := rfl
  obtain ⟨fragments, hf', hcount, -, -, hlong, -⟩ :=
    split_spec build (by rw [hmtu]; decide : 25 ≤ (new 400).mtu.effective) hne
  obtain rfl := Except.ok.inj (hf.symm.trans hf')
  rw [hmtu] at hcount hlong
  have hwhole : wholeSize 372 = 358 := rfl
  have hsize : fragmentSize 372 = 348 := rfl
  have hgt : m.payload.length > wholeSize 372 := by rw [hwhole, hlen]; omega
  rw [fragmentCount, if_pos hgt, hsize, hlen] at hcount
  have hcount' : m.fragments.length = 2 ^ 32 + 1 := by omega
  obtain ⟨content, rest, hcons⟩ := List.exists_cons_of_ne_nil m.fragments_ne_nil
  refine ⟨m, content, rest, hstarts, ho, hid, hcons, hcount', fun heq ↦ ?_⟩
  have hle := (hlong hgt).1 content (by rw [hcons]; exact List.mem_cons_self)
  rw [heq, hsize, hlen] at hle
  omega

/-- A write of `2 ^ 32 + 1` fragments announces a single one, so the receiver takes the first
fragment for the message. -/
theorem handled_is_fragment :
    ∃ s, (links .debug .forwarding).Reachable s ∧
      s.sender.messages.length < 2 ^ 24 ∧ (Sender.splits s.sender.messages).length < 2 ^ 16 ∧
      ¬ s.receiver.handled <+: s.sender.messages.map Message.payload := by
  let handler : ConnectionHandler := .forwarding
  let env : Env := .calm
  obtain ⟨m, content, rest, hstarts, ho, hid, hcons, hcount, hne⟩ := @exists_too_long .debug env
  have hm : m.IsSplit := by
    rw [Message.IsSplit, hcount]
    omega
  have hsend : Sendable content := m.sendable content (by rw [hcons]; exact List.mem_cons_self)
  -- the datagram of the first fragment
  have hsplit : split .debug m.payload (new 400).mtu.effective = .ok (content :: rest) := by
    obtain ⟨m', hm', -, hf, -, -⟩ := hstarts.of_writeLocked
    obtain rfl := (List.cons.inj hm').1
    rw [← hcons]
    exact hf
  have hsent := @writeLocked_sends .debug env rfl m.payload (new 400) content rest hsplit
  have hpk : fragmentPacket (content :: rest).length (new 400).state.splitId.toUInt16
      (new 400).state.orderIndex (new 400).state.messageIndex 0 content =
        m.packet (number 0) 0 content := by
    rw [Message.packet, hcons, ho, hid]
    rfl
  rw [hpk] at hsent
  let s₁ : Link := ⟨⟨SendCall.run .debug (new 400) (.writeLocked env m.payload), [m]⟩, new 400⟩
  let d := datagram (number 0) (m.packet (number 0) 0 content)
  let s₂ : Link := { s₁ with receiver := (receive .debug handler env d s₁.receiver).1 }
  have hr : (links .debug handler).Reachable s₂ := by
    refine .step (a := .deliver env d) (.step (a := .call (.writeLocked env m.payload))
      (.init ⟨400, 400, rfl⟩) (.call ⟨[m], hstarts, rfl⟩)) (.deliver hsent)
  -- the fragment is received as the whole message
  have hhandled : s₂.receiver.handled = [content] :=
    receive_alone hm (by rw [hcount]; rfl) ho hsend env 400
  refine ⟨s₂, hr, Nat.one_lt_two_pow (by decide), ?_, ?_⟩
  · refine lt_of_le_of_lt (List.length_filter_le _ _) ?_
    exact Nat.one_lt_two_pow (by decide)
  · rw [hhandled]
    change ¬ [content] <+: [m.payload]
    rw [List.cons_prefix_cons]
    exact fun h ↦ hne h.1

end Link

end Ragnet

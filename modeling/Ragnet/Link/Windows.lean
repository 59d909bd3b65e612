import Ragnet.Link
import Ragnet.Listener
import Ragnet.Reach

/-!
# Messages behind a lost one

A sender does not bound the number of messages that it has on their way, so a receiver with limits
may get one that is too far above one it waits for.  It ends with `WindowSizeTooBig` on the first
such datagram and on none before it.
-/

namespace Ragnet

open Conn Proc Wire

/-! ## The handler of a listener -/

section Avoids

variable {lowest highest : Nat}

open Checked

theorem loadBe_avoids (n : Nat) (data : Bytes) (offset : Nat) :
    Avoids (.windowSizeTooBig lowest highest) (loadBe n data offset) := by
  refine .bind ?_ fun _ ↦ .ok _
  rw [loadOctets]
  split
  · exact .ok _
  · exact fun h ↦ by cases h

theorem ConnectionRequest.read_avoids (data : Bytes) :
    Avoids (.windowSizeTooBig lowest highest) (ConnectionRequest.read data) :=
  .ite (.error Error.noConfusion) (.bind (.bind (loadBe_avoids _ _ _) fun _ ↦ .ok _) fun _ ↦
    .bind (.bind (loadBe_avoids _ _ _) fun _ ↦ .ok _) fun _ ↦ .bind (.index _ _) fun _ ↦ .ok _)

theorem ConnectedPing.read_avoids (data : Bytes) :
    Avoids (.windowSizeTooBig lowest highest) (ConnectedPing.read data) :=
  .ite (.error Error.noConfusion) (.bind (.bind (loadBe_avoids _ _ _) fun _ ↦ .ok _) fun _ ↦ .ok _)

theorem ConnectedPong.read_avoids (data : Bytes) :
    Avoids (.windowSizeTooBig lowest highest) (ConnectedPong.read data) :=
  .ite (.error Error.noConfusion) (.bind (.bind (loadBe_avoids _ _ _) fun _ ↦ .ok _) fun _ ↦
    .bind (.bind (loadBe_avoids _ _ _) fun _ ↦ .ok _) fun _ ↦ .ok _)

/-- What the handler of a listener returns is not about a window. -/
theorem handle_avoids (timestamp : List Bytes → Int64) (handled : List Bytes) (content : Bytes) :
    Avoids (.windowSizeTooBig lowest highest)
      (ListenerConnectionHandler.handle timestamp handled content) := by
  cases content with
  | nil => exact .ok _
  | cons id data =>
      refine .ite (.bind (ConnectionRequest.read_avoids data) fun _ ↦ .ok _)
        (.ite (.error Error.noConfusion) (.ite (.ok _) (.ite ?_ (.ite ?_ (.ite (.ok _)
          (.ite (.ok _) (.ok _)))))))
      · exact .bind (ConnectedPing.read_avoids data) fun _ ↦ .ok _
      · exact .bind (ConnectedPong.read_avoids data) fun _ ↦ .ite (.error Error.noConfusion) (.ok _)

theorem handler_ne_tooBig (timestamp : List Bytes → Int64) (handled : List Bytes)
    (content : Bytes) (lowest highest : Nat) :
    (ListenerConnectionHandler.handler timestamp).handle handled content ≠
      err (.windowSizeTooBig lowest highest) :=
  handle_avoids timestamp handled content

end Avoids

/-! ## One datagram -/

namespace Conn

/-- A connection between two datagrams, as long as none was out of reach. -/
structure Compact (c : Conn) : Prop where
  pk : c.state.pk = Packet.new
  win : c.state.win.Compact
  packetQueue : c.state.packetQueue.Compact

theorem compact_new (mtu : Nat) : (new mtu).Compact :=
  ⟨rfl, DatagramWindow.compact_new, PacketQueue.compact_new⟩

/-- The datagram and the packet that it carries are in reach, if they are new. -/
def Reaches (self : Conn) (env : Env) (seq : Uint24) (pk : Packet) : Prop :=
  ¬ self.state.win.Seen seq.value →
    self.state.win.Reaches self.rtt env.clock seq ∧
      (¬ self.state.packetQueue.Taken pk.orderIndex.value →
        self.state.packetQueue.Reaches pk.orderIndex)

/-- Neither the datagram nor the packet uses the index `0xFFFFFF`, if they are new. -/
def Usable (self : Conn) (seq : Uint24) (pk : Packet) : Prop :=
  ¬ self.state.win.Seen seq.value →
    seq ≠ lastIndex ∧
      (¬ self.state.packetQueue.Taken pk.orderIndex.value → pk.orderIndex ≠ lastIndex)

def TooBig (build : Build) (handler : ConnectionHandler) (env : Env) (data : Bytes) (c : Conn) :
    Prop :=
  ∃ lowest highest,
    (receive build handler env data c).2 = err (.windowSizeTooBig lowest highest)

variable {build : Build} {handler : ConnectionHandler} {env : Env} {c c' : Conn} {seq : Uint24}
  {pk : Packet}

/-- Whether a connection is between two datagrams is a matter of the receive side. -/
theorem Compact.congr (h : c.Compact) (hpk : c'.state.pk = c.state.pk)
    (hwin : c'.state.win = c.state.win) (hqueue : c'.state.packetQueue = c.state.packetQueue) :
    c'.Compact := by
  refine ⟨hpk.trans h.pk, ?_, ?_⟩
  · rw [hwin]
    exact h.win
  · rw [hqueue]
    exact h.packetQueue

/-- Contents do not change what a connection waits for. -/
theorem Compact.handleAll (h : c.Compact) (contents : List Bytes) :
    (handleAll handler contents c).1.Compact := by
  have hstate := congrArg Prod.fst (handleAll_state handler contents c)
  dsimp only at hstate
  exact h.congr (by rw [hstate]) (by rw [hstate]) (by rw [hstate])

/-- Flushing the acknowledgements leaves the windows alone. -/
theorem Compact.flushAcks (h : c.Compact) (env : Env) : (flushAcks build env c).Compact := by
  obtain ⟨datagrams, hflush⟩ := flushAcks_eq build env c
  rw [hflush]
  exact h.congr rfl rfl rfl

section Packets

variable (hlimits : handler.limitsEnabled = true)
  (hhandler : ∀ handled content lowest highest,
    handler.handle handled content ≠ err (.windowSizeTooBig lowest highest))

include hhandler in
theorem handleAll_ne_tooBig (contents : List Bytes) (c : Conn) (lowest highest : Nat) :
    (Conn.handleAll handler contents c).2 ≠ err (.windowSizeTooBig lowest highest) :=
  handleAll_avoids (fun h ↦ by cases h)
    (fun handled content ↦ hhandler handled content lowest highest) contents c

include hlimits hhandler in
/-- An ordered packet makes the queue too big exactly when it is out of reach. -/
theorem Compact.takePacket (h : c.Compact) (hsplit : pk.split = false)
    (hrel : pk.reliability = reliabilityReliableOrdered)
    (huse : ¬ c.state.packetQueue.Taken pk.orderIndex.value → pk.orderIndex ≠ lastIndex) :
    ((∃ lowest highest, (takePacket build handler pk c).2 =
        err (.windowSizeTooBig lowest highest)) ↔
      ¬ (¬ c.state.packetQueue.Taken pk.orderIndex.value →
        c.state.packetQueue.Reaches pk.orderIndex)) ∧
    ((¬ c.state.packetQueue.Taken pk.orderIndex.value →
        c.state.packetQueue.Reaches pk.orderIndex) →
          (takePacket build handler pk c).1.Compact) := by
  rw [takePacket_ordered build handler hsplit hrel]
  by_cases ht : c.state.packetQueue.Taken pk.orderIndex.value
  · rw [bind_ok (orderPacket_duplicate build ht)]
    refine ⟨iff_of_false ?_ (not_not_intro fun hn ↦ absurd ht hn), fun _ ↦ h⟩
    rintro ⟨lowest, highest, he⟩
    cases he
  have hindex := huse ht
  have hiff := @PacketQueue.Compact.put_size_iff _ _ pk.content h.packetQueue hindex ht
  have horder := @orderPacket_new build handler c pk ht
  have hsize : (c.queued pk).windowSize build = .ok _ :=
    (h.packetQueue.bounded.put hindex pk.content).windowSize build
  rw [hsize] at horder
  dsimp only at horder
  by_cases hreach : c.state.packetQueue.Reaches pk.orderIndex
  · have hsmall := @not_exceeds handler _ (hiff.mpr hreach)
    rw [if_neg hsmall] at horder
    rw [bind_ok horder]
    refine ⟨iff_of_false ?_ (not_not_intro fun _ ↦ hreach), fun _ ↦ Compact.handleAll ?_ _⟩
    · rintro ⟨lowest, highest, he⟩
      exact handleAll_ne_tooBig hhandler _ _ lowest highest he
    · exact ⟨h.pk, h.win, h.packetQueue.fetch hindex ht hreach⟩
  · have hbig : Exceeds handler
        ((c.state.packetQueue.put pk.orderIndex pk.content).1.highest.value -
          (c.state.packetQueue.put pk.orderIndex pk.content).1.lowest.value) :=
      ⟨Nat.lt_of_not_le fun hle ↦ hreach (hiff.mp hle), hlimits⟩
    rw [if_pos hbig] at horder
    rw [bind_error horder]
    exact ⟨iff_of_true ⟨_, _, rfl⟩ fun hn ↦ hreach (hn ht), fun hn ↦ absurd (hn ht) hreach⟩

include hlimits hhandler in
/-- A datagram with one ordered packet makes a window too big exactly when it is out of reach. -/
theorem Compact.receive (h : c.Compact) (hpk : pk.Encodable) (hover : pk.overlay Packet.new = pk)
    (hsplit : pk.split = false) (hrel : pk.reliability = reliabilityReliableOrdered)
    (huse : c.Usable seq pk) :
    (TooBig build handler env (datagram seq pk) c ↔ ¬ c.Reaches env seq pk) ∧
      (c.Reaches env seq pk → (Conn.receive build handler env (datagram seq pk) c).1.Compact) := by
  by_cases hs : c.state.win.Seen seq.value
  · rw [TooBig, receive_seen build handler env hs]
    refine ⟨iff_of_false ?_ (not_not_intro fun hn ↦ absurd hs hn), fun _ ↦ h⟩
    rintro ⟨lowest, highest, he⟩
    cases he
  obtain ⟨hseq, horder⟩ := huse hs
  obtain ⟨nacks, hrecv⟩ := receive_new build handler env hpk hover h.pk hs
  have hiff := @DatagramWindow.Compact.enter_size_iff _ c.rtt env.clock seq h.win hseq hs
  have hsize : (c.entered env.clock seq).state.win.size build = .ok _ :=
    (h.win.bounded.enter hseq).size build
  rw [hsize] at hrecv
  dsimp only at hrecv
  rw [TooBig]
  by_cases hreach : c.state.win.Reaches c.rtt env.clock seq
  · rw [if_neg (not_exceeds (hiff.mpr hreach))] at hrecv
    have hawaiting : (c.awaiting env.clock seq nacks).Compact :=
      ⟨rfl, h.win.enter hseq hs hreach, h.packetQueue⟩
    obtain ⟨hbig, hcompact⟩ :=
      @Compact.takePacket build handler _ pk hlimits hhandler hawaiting hsplit hrel horder
    rw [hrecv, hbig, Reaches]
    refine ⟨not_congr ⟨fun hq _ ↦ ⟨hreach, hq⟩, fun hq ↦ (hq hs).2⟩, fun hq ↦ hcompact (hq hs).2⟩
  · have hbig : Exceeds handler ((c.state.win.enter c.rtt env.clock seq).1.highest.value -
        (c.state.win.enter c.rtt env.clock seq).1.lowest.value) :=
      ⟨Nat.lt_of_not_le fun hle ↦ hreach (hiff.mp hle), hlimits⟩
    rw [if_pos hbig] at hrecv
    rw [hrecv]
    exact ⟨iff_of_true ⟨_, _, rfl⟩ fun hq ↦ hreach (hq hs).1, fun hq ↦ absurd (hq hs).1 hreach⟩

end Packets

end Conn

/-! ## The link -/

namespace Link

/-- A datagram of the sender, with the number and the packet in it. -/
def Carries (self : Link) (data : Bytes) (seq : Uint24) (pk : Packet) : Prop :=
  .emit seq.value pk ∈ self.sender.conn.sends ∧ data = datagram seq pk

/-- Every message fits one packet. -/
def Whole (build : Build) (s : Link) : Event → Prop
  | .call call => ∀ ms, Starts build s.sender.conn call ms → ∀ m ∈ ms, ¬ m.IsSplit
  | _ => True

/-- No datagram that arrives uses the index `0xFFFFFF`. -/
def Usable (s : Link) : Event → Prop
  | .deliver _ data => ∀ seq pk, s.Carries data seq pk → s.receiver.Usable seq pk
  | _ => True

/-- Every datagram that arrives is in reach. -/
def InReach (s : Link) : Event → Prop
  | .deliver env data => ∀ seq pk, s.Carries data seq pk → s.receiver.Reaches env seq pk
  | _ => True

/-- The invariant of a link on which every datagram was in reach. -/
structure Waiting (s : Link) : Prop where
  sender : s.sender.Sound
  whole : ∀ m ∈ s.sender.messages, ¬ m.IsSplit
  receiver : s.receiver.Compact

variable {build : Build} {handler : ConnectionHandler} {s s' : Link} {e : Event} {env : Env}
  {data : Bytes} {seq : Uint24} {pk : Packet}

theorem exists_carries (h : s.sender.Sound) (hdata : data ∈ s.sender.conn.sendTx) :
    ∃ seq pk, s.Carries data seq pk := by
  obtain ⟨seq, pk, hsent, rfl⟩ := h.sends data hdata
  exact ⟨seq, pk, hsent, rfl⟩

section Steps

variable (hlimits : handler.limitsEnabled = true)
  (hhandler : ∀ handled content lowest highest,
    handler.handle handled content ≠ err (.windowSizeTooBig lowest highest))

include hlimits hhandler in
/-- The receiver ends with `WindowSizeTooBig` exactly when a datagram is out of reach. -/
theorem Waiting.receive (h : s.Waiting) (hcarries : s.Carries data seq pk)
    (huse : s.receiver.Usable seq pk) :
    (TooBig build handler env data s.receiver ↔ ¬ s.receiver.Reaches env seq pk) ∧
      (s.receiver.Reaches env seq pk →
        (Conn.receive build handler env data s.receiver).1.Compact) := by
  obtain ⟨hsent, rfl⟩ := hcarries
  have hgenuine := h.sender.carries.emitted _ pk hsent
  have hpk := hgenuine.encodable
  have hover := hgenuine.overlay
  obtain ⟨m, hm, i, content, messageIndex, hi, heq⟩ := hgenuine
  have hwhole := heq.trans (m.packet_whole (h.whole m hm) hi)
  refine h.receiver.receive hlimits hhandler hpk hover ?_ ?_ huse
  · rw [hwhole]
    rfl
  · rw [hwhole]
    rfl

include hlimits hhandler in
theorem Waiting.step (h : s.Waiting) (hwhole : Whole build s e) (huse : Usable s e)
    (hreach : InReach s e) (hs : Step build handler s e s') : s'.Waiting := by
  cases hs with
  | @call call sender hcalls =>
      have hsender := h.sender.calls hcalls
      obtain ⟨ms, hstarts, rfl⟩ := hcalls
      refine ⟨hsender, fun m hm ↦ ?_, h.receiver⟩
      rcases List.mem_append.mp hm with hm | hm
      · exact h.whole m hm
      · exact hwhole ms hstarts m hm
  | @deliver env data hdata =>
      obtain ⟨seq, pk, hcarries⟩ := exists_carries h.sender hdata
      obtain ⟨-, hcompact⟩ := @Waiting.receive build handler s env data seq pk hlimits hhandler h
        hcarries (huse seq pk hcarries)
      exact ⟨h.sender, h.whole, hcompact (hreach seq pk hcarries)⟩
  | @respond call =>
      have hkeep := call.run_receiving build s.receiver
      exact ⟨h.sender, h.whole, h.receiver.congr (congrArg Receiving.pk hkeep)
        (congrArg Receiving.win hkeep) (congrArg Receiving.packetQueue hkeep)⟩
  | @flush env =>
      exact ⟨h.sender, h.whole, h.receiver.flushAcks env⟩

end Steps

/-- The runs of whole messages between a sender and a receiver with limits in which every datagram
was in reach. -/
def reaching (build : Build) (timestamp : List Bytes → Int64) : Lts Link Event :=
  (links build (ListenerConnectionHandler.handler timestamp)).restrict fun s e ↦
    Whole build s e ∧ Usable s e ∧ InReach s e

theorem waiting_of_reachable {timestamp : List Bytes → Int64}
    (h : (reaching build timestamp).Reachable s) : s.Waiting := by
  refine h.invariant ?_ ?_
  · rintro _ ⟨mtu, mtu', rfl⟩
    exact ⟨Sender.sound_new mtu, fun _ hm ↦ absurd hm List.not_mem_nil, compact_new mtu'⟩
  · rintro s e s' - hs ⟨⟨hwhole, huse, hreach⟩, hstep⟩
    exact hs.step rfl (handler_ne_tooBig timestamp) hwhole huse hreach hstep

/-- **Windows and messages on their way.**  However the datagrams of a sender of whole messages are
lost, delayed, repeated and reordered, a receiver with limits ends with `WindowSizeTooBig` on the
first datagram that is out of reach, and on none before it. -/
theorem tooBig_iff_not_inReach {timestamp : List Bytes → Int64}
    (h : (reaching build timestamp).Reachable s) (hdata : data ∈ s.sender.conn.sendTx)
    (huse : Usable s (.deliver env data)) :
    TooBig build (ListenerConnectionHandler.handler timestamp) env data s.receiver ↔
      ¬ InReach s (.deliver env data) := by
  have hwaiting := waiting_of_reachable h
  have hiff (seq : Uint24) (pk : Packet) (hcarries : s.Carries data seq pk) :=
    (@Waiting.receive build _ s env data seq pk rfl (handler_ne_tooBig timestamp) hwaiting hcarries
      (huse seq pk hcarries)).1
  constructor
  · intro hbig hreach
    obtain ⟨seq, pk, hcarries⟩ := exists_carries hwaiting.sender hdata
    exact (hiff seq pk hcarries).mp hbig (hreach seq pk hcarries)
  · intro hnot
    by_contra hsmall
    exact hnot fun seq pk hcarries ↦ not_not.mp fun hn ↦ hsmall ((hiff seq pk hcarries).mpr hn)

/-! ## A message behind two thousand -/

/-- Any number of messages can be written before one of them arrives. -/
theorem exists_reachable_behind (timestamp : List Bytes → Int64) (n : Nat) :
    ∃ messages, (reaching .release timestamp).Reachable
      ⟨⟨streamSender (fun _ ↦ .calm) 1492 (fun _ ↦ [7]) n, messages⟩, new 1492⟩ := by
  induction n with
  | zero => exact ⟨[], .init ⟨1492, 1492, rfl⟩⟩
  | succ n ih =>
      obtain ⟨messages, hr⟩ := ih
      generalize hc : streamSender (fun _ ↦ .calm) 1492 (fun _ ↦ [7]) n = c at hr
      obtain ⟨m, -, hstarts⟩ := exists_starts_writeLocked .release c .calm
        (List.cons_ne_nil 7 [])
      refine ⟨messages ++ [m], ?_⟩
      have hnext : streamSender (fun _ ↦ .calm) 1492 (fun _ ↦ [7]) (n + 1) =
          (SendCall.writeLocked .calm [7]).run .release c := by
        rw [SendCall.run, writeLocked_whole rfl (split_byte c.mtu), ← hc]
        rfl
      rw [hnext]
      refine hr.step (a := .call (.writeLocked .calm [7]))
        ⟨⟨fun ms hms m hm ↦ ?_, trivial, trivial⟩, .call ⟨[m], hstarts, rfl⟩⟩
      obtain ⟨m', rfl, -, hf, -⟩ := hms.of_writeLocked
      obtain rfl := List.mem_singleton.mp hm
      rw [split_byte] at hf
      rw [Message.IsSplit, ← Except.ok.inj hf]
      exact Nat.lt_irrefl 1

def fourWritten (messages : List Message) (receiver : Conn) : Link :=
  ⟨⟨streamSender (fun _ ↦ .calm) 1492 (fun _ ↦ [7]) 4, messages⟩, receiver⟩

theorem mem_fourWritten (messages : List Message) (receiver : Conn) {i : Nat} (hi : i < 4) :
    streamDatagram i [7] ∈ (fourWritten messages receiver).sender.conn.sendTx := by
  change _ ∈ (streamSender (fun _ ↦ .calm) 1492 (fun _ ↦ [7]) 4).sendTx
  rw [streamSender_sendTx fun _ ↦ rfl]
  exact List.mem_map.mpr ⟨i, List.mem_range.mpr hi, rfl⟩

/-- No two of the numbers of four messages are far from each other. -/
theorem fourWritten_near (messages : List Message) (receiver : Conn) (env : Env) (data : Bytes) :
    Usable (fourWritten messages receiver) (.deliver env data) ∧
      InReach (fourWritten messages receiver) (.deliver env data) := by
  have hsmall (seq : Uint24) (pk : Packet)
      (h : (fourWritten messages receiver).Carries data seq pk) :
      seq.value < 4 ∧ pk.orderIndex.value < 4 := by
    have hmem : Ledger.Event.emit seq.value pk ∈ [.emit 0 (streamPacket 0 [7]),
        .emit 1 (streamPacket 1 [7]), .emit 2 (streamPacket 2 [7]),
        .emit 3 (streamPacket 3 [7])] := h.1
    simp only [List.mem_cons, Ledger.Event.emit.injEq, List.not_mem_nil, or_false] at hmem
    rcases hmem with ⟨hseq, rfl⟩ | ⟨hseq, rfl⟩ | ⟨hseq, rfl⟩ | ⟨hseq, rfl⟩ <;>
      exact ⟨by omega, by decide⟩
  have hlast (index : Uint24) (h : index.value < 4) : index ≠ lastIndex := by
    rintro rfl
    exact absurd h (by decide)
  have hreach (i u : Nat) (h : i < 4) : i < u + maxWindowSize := by
    rw [maxWindowSize]
    omega
  refine ⟨fun seq pk h _ ↦ ?_, fun seq pk h _ ↦ ?_⟩
  · obtain ⟨hseq, horder⟩ := hsmall seq pk h
    exact ⟨hlast seq hseq, fun _ ↦ hlast pk.orderIndex horder⟩
  · obtain ⟨hseq, horder⟩ := hsmall seq pk h
    exact ⟨fun u _ _ _ ↦ hreach _ u hseq, fun _ u _ _ ↦ hreach _ u horder⟩

/-- The second message arrives first, and the fourth is in reach. -/
theorem tooBig_iff_not_inReach_gap :
    ∃ s, (reaching .release fun _ ↦ 0).Reachable s ∧ s.receiver.handled = [] ∧
      ¬ s.receiver.state.packetQueue.Taken 0 ∧ s.receiver.state.packetQueue.Taken 1 ∧
      streamDatagram 3 [7] ∈ s.sender.conn.sendTx ∧
      ¬ TooBig .release (ListenerConnectionHandler.handler fun _ ↦ 0) .calm
        (streamDatagram 3 [7]) s.receiver := by
  obtain ⟨messages, hr⟩ := exists_reachable_behind (fun _ ↦ 0) 4
  change (reaching .release fun _ ↦ 0).Reachable (fourWritten messages (new 1492)) at hr
  have hdeliver := @Step.deliver .release (ListenerConnectionHandler.handler fun _ ↦ 0)
    (fourWritten messages (new 1492)) .calm (streamDatagram 1 [7])
    (mem_fourWritten messages _ (by decide))
  have hok : Whole .release (fourWritten messages (new 1492))
      (.deliver .calm (streamDatagram 1 [7])) := trivial
  have hlater := hr.step ⟨⟨hok, fourWritten_near messages _ .calm _⟩, hdeliver⟩
  -- the receiver waits for the first message
  obtain ⟨nacks, hrecv⟩ := @receive_new .release (ListenerConnectionHandler.handler fun _ ↦ 0)
    .calm (new 1492) (number 1) (streamPacket 1 [7]) (streamPacket_encodable (by decide)) rfl rfl
    (DatagramWindow.not_seen_new _)
  have hsize : ((new 1492).entered Env.calm.clock (number 1)).state.win.size .release = .ok 0 := rfl
  rw [hsize] at hrecv
  dsimp only at hrecv
  rw [if_neg (not_exceeds (by decide))] at hrecv
  change (reaching .release fun _ ↦ 0).Reachable (fourWritten messages (receive .release
    (ListenerConnectionHandler.handler fun _ ↦ 0) .calm
    (datagram (number 1) (streamPacket 1 [7])) (new 1492)).1) at hlater
  rw [hrecv] at hlater
  obtain ⟨husable, hreach⟩ := fourWritten_near messages _ .calm (streamDatagram 3 [7])
  have hfourth := mem_fourWritten messages (takePacket .release
    (ListenerConnectionHandler.handler fun _ ↦ 0) (streamPacket 1 [7])
    ((new 1492).awaiting Env.calm.clock (number 1) nacks)).1 (by decide : 3 < 4)
  refine ⟨_, hlater, rfl, of_decide_eq_false rfl, of_decide_eq_true rfl, hfourth, fun hbig ↦ ?_⟩
  exact (tooBig_iff_not_inReach hlater hfourth husable).mp hbig hreach

/-- The message with number 2048 arrives before the one with number 0. -/
theorem exists_tooBig :
    ∃ s data, ((links .release (ListenerConnectionHandler.handler fun _ ↦ 0)).restrict
        (Whole .release)).Reachable s ∧
      data ∈ s.sender.conn.sendTx ∧
      TooBig .release (ListenerConnectionHandler.handler fun _ ↦ 0) .calm data s.receiver := by
  obtain ⟨messages, hr⟩ := exists_reachable_behind (fun _ ↦ 0) 2049
  refine ⟨_, streamDatagram 2048 [7], hr.invariant ?_ ?_, ?_, ?_⟩
  · exact fun s hs ↦ .init hs
  · exact fun s e s' _ ih hs ↦ ih.step ⟨hs.1.1, hs.2⟩
  · rw [streamSender_sendTx fun _ ↦ rfl]
    exact List.mem_map.mpr ⟨2048, List.mem_range.mpr (Nat.lt_succ_self 2048), rfl⟩
  · have hlast : number 2048 ≠ lastIndex := by
      rw [number_eq]
      decide
    have huntaken (i : Nat) : ¬ PacketQueue.new.Taken i := by
      rintro (h | h)
      · exact absurd h (Nat.not_lt_zero i)
      · exact Finmap.notMem_empty h
    have hiff := (@Compact.receive .release (ListenerConnectionHandler.handler fun _ ↦ 0) .calm
      (new 1492) (number 2048) (streamPacket 2048 [7]) rfl (handler_ne_tooBig fun _ ↦ 0)
      (compact_new 1492) (streamPacket_encodable (by decide)) rfl rfl rfl
      fun _ ↦ ⟨hlast, fun _ ↦ hlast⟩).1
    refine hiff.mpr fun hreach ↦ ?_
    have hqueue := (hreach (DatagramWindow.not_seen_new _)).2 (huntaken _)
    have hvalue : (number 2048).value = 2048 := number_value (by decide)
    have hfar := hqueue 0 (hvalue.symm ▸ Nat.zero_lt_succ 2047) (huntaken 0)
    change (number 2048).value < 0 + 2048 at hfar
    omega

end Link

end Ragnet

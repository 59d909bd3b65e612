import Ragnet.Conn.Datagrams
import Ragnet.Conn.Invariants
import Ragnet.Conn.Stream

/-!
# Reliable packets that are sent again

A peer sends packets of reliability 2, each with its own message index, and sends any of them again
in datagrams with new numbers.  The network loses, duplicates and reorders the datagrams.  The
receive side removes duplicates by the number of the datagram alone: of a reliable packet it reads
the message index and forgets it.
-/

namespace Ragnet.Conn

open Proc Wire

/-! ## Datagrams of several packets -/

def packetsDatagram (seq : Uint24) (pks : List Packet) : Bytes :=
  (bitFlagDatagram ||| bitFlagNeedsBAndAs) :: (writeUint24 seq ++ pks.flatMap Packet.write)

/-- Whether the packets of a datagram are taken: its number is new to the window, and with it the
window is not too big. -/
def admits (build : Build) (handler : ConnectionHandler) (clock : Clock) (seq : Uint24)
    (self : Conn) : Bool :=
  if self.state.win.Seen seq.value then false
  else
    match (self.entered clock seq).state.win.size build with
    | .ok size => decide (¬ Exceeds handler size)
    | .error _ => false

section Receive

variable {build : Build} {handler : ConnectionHandler} {env : Env} {seq : Uint24}
  {pks : List Packet} {c : Conn}

theorem receive_packetsDatagram :
    receive build handler env (packetsDatagram seq pks) =
      receiveDatagram build handler env (writeUint24 seq ++ pks.flatMap Packet.write) := rfl

/-- The packets of a datagram that is taken. -/
theorem receive_taken (hpks : ∀ pk ∈ pks, pk.Encodable ∧ pk.overlay Packet.new = pk)
    (hfresh : c.state.pk = Packet.new) (h : admits build handler env.clock seq c = true) :
    ∃ nacks, receive build handler env (packetsDatagram seq pks) c =
      takeAll build handler pks (c.awaiting env.clock seq nacks) := by
  rw [admits] at h
  by_cases hseen : c.state.win.Seen seq.value
  · rw [if_pos hseen] at h
    cases h
  rw [if_neg hseen] at h
  obtain ⟨nacks, hrecv⟩ := receiveDatagram_fresh build handler env hfresh hseen
    (pks.flatMap Packet.write)
  refine ⟨nacks, ?_⟩
  have hread : Packet.readAll build (pks.flatMap Packet.write) = .ok pks := by
    rw [Packet.readAll_write build fun pk hpk ↦ (hpks pk hpk).1,
      List.map_congr_left fun pk hpk ↦ (hpks pk hpk).2, List.map_id']
  rw [receive_packetsDatagram, hrecv]
  cases hsize : (c.entered env.clock seq).state.win.size build with
  | error e =>
      rw [hsize] at h
      cases h
  | ok size =>
      rw [hsize] at h
      dsimp only
      rw [if_neg (of_decide_eq_true h)]
      exact handleDatagram_readAll build handler rfl hread

/-- Of a datagram that is not taken, nothing is handled. -/
theorem receive_not_taken (hfresh : c.state.pk = Packet.new)
    (h : admits build handler env.clock seq c = false) :
    (receive build handler env (packetsDatagram seq pks) c).1.handled = c.handled ∧
      (receive build handler env (packetsDatagram seq pks) c).1.state.pk = Packet.new := by
  rw [admits] at h
  rw [receive_packetsDatagram]
  by_cases hseen : c.state.win.Seen seq.value
  · rw [receiveDatagram_seen build handler env (loadUint24_number seq _) hseen]
    exact ⟨rfl, hfresh⟩
  rw [if_neg hseen] at h
  obtain ⟨nacks, hrecv⟩ := receiveDatagram_fresh build handler env hfresh hseen
    (pks.flatMap Packet.write)
  rw [hrecv]
  cases hsize : (c.entered env.clock seq).state.win.size build with
  | error e => exact ⟨rfl, hfresh⟩
  | ok size =>
      rw [hsize] at h
      dsimp only
      rw [if_pos (not_not.mp (of_decide_eq_false h))]
      exact ⟨rfl, rfl⟩

/-- The contents are handled one after the other, up to the first that fails. -/
theorem handleAll_handled (contents : List Bytes) (c : Conn) :
    ∃ k, (handleAll handler contents c).1.handled = c.handled ++ contents.take k := by
  induction contents generalizing c with
  | nil => exact ⟨0, (List.append_nil _).symm⟩
  | cons content contents ih =>
      have hhandled := handlePacket_handled handler content c
      rw [handleAll]
      rcases hp : handlePacket handler content c with ⟨c', e | _⟩
      · rw [hp] at hhandled
        rw [bind_error hp]
        exact ⟨1, hhandled⟩
      · rw [hp] at hhandled
        obtain ⟨k, hk⟩ := ih c'
        rw [bind_ok hp, hk, hhandled]
        exact ⟨k + 1, List.append_assoc _ _ _⟩

end Receive

/-! ## Reliable packets -/

/-- A whole packet of reliability 2, with the fields that its encoding leaves out at their
defaults. -/
structure IsReliable (pk : Packet) : Prop where
  reliability : pk.reliability = reliabilityReliable
  split : pk.split = false
  sendable : Sendable pk.content
  overlay : pk.overlay Packet.new = pk

theorem IsReliable.encodable {pk : Packet} (h : IsReliable pk) : pk.Encodable where
  reliability_lt := by
    rw [h.reliability]
    decide
  content_ne_nil := h.sendable.1
  content_length_lt := h.sendable.2

/-- A reliable packet is handled at once. -/
theorem IsReliable.takePacket {pk : Packet} (h : IsReliable pk) (build : Build)
    (handler : ConnectionHandler) :
    Conn.takePacket build handler pk = handlePacket handler pk.content := by
  have hsplit : ¬ pk.split = true := by
    rw [h.split]
    exact Bool.false_ne_true
  have hrel : pk.reliability ≠ reliabilityReliableOrdered := by
    rw [h.reliability]
    decide
  rw [Conn.takePacket, if_neg hsplit, receivePacket, if_pos hrel]

theorem takeAll_reliable {build : Build} {handler : ConnectionHandler} {pks : List Packet}
    (h : ∀ pk ∈ pks, IsReliable pk) :
    takeAll build handler pks = handleAll handler (pks.map Packet.content) := by
  induction pks with
  | nil => rfl
  | cons pk pks ih =>
      have hpk := h pk (List.mem_cons_self ..)
      rw [takeAll, hpk.takePacket, ih fun pk' hpk' ↦ h pk' (List.mem_cons_of_mem _ hpk')]
      rfl

/-! ## The runs -/

/-- A peer that sends reliable packets, the network, and the receiver. -/
structure Reliable where
  /-- The packets. -/
  packets : List Packet
  /-- The datagrams, which the network may deliver at any time and any number of times. -/
  datagrams : List (Uint24 × List Packet)
  receiver : Conn
  /-- History: the packets of the datagrams that were taken. -/
  taken : List Packet
  /-- History: the packets whose contents have been passed to `handle_packet`, as often as they
  were.  Of each datagram these are as many as contents were passed when it arrived. -/
  passed : List Packet

namespace Reliable

/-- A datagram with these packets has made the receiver `after`. -/
def delivered (pks : List Packet) (admitted : Bool) (after : Conn) (self : Reliable) :
    Reliable where
  packets := self.packets
  datagrams := self.datagrams
  receiver := after
  taken := if admitted then self.taken ++ pks else self.taken
  passed := self.passed ++ pks.take (after.handled.length - self.receiver.handled.length)

inductive Step where
  /-- The peer has a new packet to send. -/
  | send (pk : Packet)
  /-- The peer sends a datagram, with packets for the first time or again. -/
  | transmit (pks : List Packet)
  /-- A datagram arrives. -/
  | deliver (seq : Uint24) (pks : List Packet) (env : Env)
  /-- The receiver makes a call of its own. -/
  | call (call : Call)

inductive Steps (build : Build) (handler : ConnectionHandler) :
    Reliable → Step → Reliable → Prop
  | send {s : Reliable} {pk : Packet} :
      IsReliable pk → (∀ pk' ∈ s.packets, pk'.messageIndex ≠ pk.messageIndex) →
        Steps build handler s (.send pk) { s with packets := s.packets ++ [pk] }
  | transmit {s : Reliable} {pks : List Packet} :
      (∀ pk ∈ pks, pk ∈ s.packets) →
        Steps build handler s (.transmit pks)
          { s with datagrams := s.datagrams ++ [(number s.datagrams.length, pks)] }
  | deliver {s : Reliable} {seq : Uint24} {pks : List Packet} {env : Env} :
      (seq, pks) ∈ s.datagrams →
        Steps build handler s (.deliver seq pks env)
          (s.delivered pks (admits build handler env.clock seq s.receiver)
            (receive build handler env (packetsDatagram seq pks) s.receiver).1)
  | call {s : Reliable} {call : Call} :
      (∀ env data, call ≠ .receive env data) →
        Steps build handler s (.call call)
          { s with receiver := call.run build handler s.receiver }

def runs (build : Build) (handler : ConnectionHandler) : Lts Reliable Step where
  init s := ∃ mtu, s = ⟨[], [], new mtu, [], []⟩
  step := Steps build handler

/-- The content of every packet has been passed to `handle_packet` at most once, and nothing else
has been passed. -/
def HandledOnce (s : Reliable) : Prop :=
  s.passed.Nodup ∧ (∀ pk ∈ s.passed, pk ∈ s.packets) ∧
    s.receiver.handled = s.passed.map Packet.content

/-- No packet is taken out of two datagrams. -/
def TakesNew (build : Build) (handler : ConnectionHandler) (s : Reliable) : Step → Prop
  | .deliver seq pks env =>
      admits build handler env.clock seq s.receiver = true → (s.taken ++ pks).Nodup
  | _ => True

/-- While no packet is taken twice, those that have been taken are distinct packets of the peer,
and what has been handled are contents of theirs. -/
structure Sound (s : Reliable) : Prop where
  reliable : ∀ pk ∈ s.packets, IsReliable pk
  carried : ∀ d ∈ s.datagrams, ∀ pk ∈ d.2, pk ∈ s.packets
  fresh : s.receiver.state.pk = Packet.new
  taken_mem : ∀ pk ∈ s.taken, pk ∈ s.packets
  nodup : s.taken.Nodup
  passed : s.passed.Sublist s.taken
  handled : s.receiver.handled = s.passed.map Packet.content

theorem sound_new (mtu : Nat) : Sound ⟨[], [], new mtu, [], []⟩ where
  reliable _ hpk := absurd hpk List.not_mem_nil
  carried _ hd := absurd hd List.not_mem_nil
  fresh := rfl
  taken_mem _ hpk := absurd hpk List.not_mem_nil
  nodup := List.nodup_nil
  passed := List.Sublist.refl _
  handled := rfl

section Runs

variable {build : Build} {handler : ConnectionHandler} {s s' : Reliable}

/-- A datagram of which nothing is handled. -/
theorem Sound.delivered_nothing (h : Sound s) (pks : List Packet) {c : Conn}
    (hhandled : c.handled = s.receiver.handled) (hpk : c.state.pk = Packet.new) :
    Sound (s.delivered pks false c) := by
  have hpassed : (s.delivered pks false c).passed = s.passed := by
    rw [delivered, hhandled, Nat.sub_self, List.take_zero]
    exact List.append_nil _
  refine ⟨h.reliable, h.carried, hpk, h.taken_mem, h.nodup, ?_, ?_⟩
  · exact hpassed ▸ h.passed
  · exact hhandled.trans (hpassed ▸ h.handled)

/-- A datagram of which the first `k` packets are handled. -/
theorem Sound.delivered_take (h : Sound s) {pks : List Packet} {c : Conn} {k : Nat}
    (hsent : ∀ pk ∈ pks, pk ∈ s.packets) (hnew : (s.taken ++ pks).Nodup)
    (hpk : c.state.pk = Packet.new)
    (hhandled : c.handled = s.receiver.handled ++ (pks.map Packet.content).take k) :
    Sound (s.delivered pks true c) := by
  have hlen : c.handled.length - s.receiver.handled.length = min k pks.length := by
    rw [hhandled, List.length_append, Nat.add_sub_cancel_left, List.length_take, List.length_map]
  have hpassed : (s.delivered pks true c).passed = s.passed ++ pks.take k := by
    rw [delivered, hlen, List.take_eq_take_min.symm]
  refine ⟨h.reliable, h.carried, hpk, ?_, hnew, ?_, ?_⟩
  · intro pk hmem
    rcases List.mem_append.mp hmem with hmem | hmem
    · exact h.taken_mem pk hmem
    · exact hsent pk hmem
  · rw [hpassed]
    exact h.passed.append (List.take_sublist k pks)
  · rw [hpassed, List.map_append, List.map_take, ← h.handled]
    exact hhandled

/-- A datagram that arrives. -/
theorem Sound.deliver (h : Sound s) {seq : Uint24} {pks : List Packet} {env : Env}
    (hd : (seq, pks) ∈ s.datagrams)
    (hnew : admits build handler env.clock seq s.receiver = true → (s.taken ++ pks).Nodup) :
    Sound (s.delivered pks (admits build handler env.clock seq s.receiver)
      (receive build handler env (packetsDatagram seq pks) s.receiver).1) := by
  cases hadmits : admits build handler env.clock seq s.receiver with
  | false =>
      obtain ⟨hhandled, hpk⟩ :=
        @receive_not_taken build handler env seq pks s.receiver h.fresh hadmits
      exact h.delivered_nothing pks hhandled hpk
  | true =>
      have hpks : ∀ pk ∈ pks, IsReliable pk := fun pk hpk ↦ h.reliable pk (h.carried _ hd pk hpk)
      obtain ⟨nacks, hrecv⟩ := receive_taken
        (fun pk hpk ↦ ⟨(hpks pk hpk).encodable, (hpks pk hpk).overlay⟩) h.fresh hadmits
      rw [takeAll_reliable hpks] at hrecv
      obtain ⟨k, hk⟩ := @handleAll_handled handler (pks.map Packet.content)
        (s.receiver.awaiting env.clock seq nacks)
      rw [hrecv]
      refine h.delivered_take (h.carried _ hd) (hnew hadmits) ?_ hk
      have hkeep := handleAll_state handler (pks.map Packet.content)
        (s.receiver.awaiting env.clock seq nacks)
      exact congrArg (fun v ↦ v.1.pk) hkeep

/-- One step. -/
theorem Sound.step {step : Step} (h : Sound s) (hnew : TakesNew build handler s step)
    (hs : Steps build handler s step s') : Sound s' := by
  cases hs with
  | @send pk hpk _ =>
      refine ⟨?_, ?_, h.fresh, ?_, h.nodup, h.passed, h.handled⟩
      · intro pk' hmem
        rcases List.mem_append.mp hmem with hmem | hmem
        · exact h.reliable pk' hmem
        · exact List.mem_singleton.mp hmem ▸ hpk
      · exact fun d hd pk' hmem ↦ List.mem_append_left _ (h.carried d hd pk' hmem)
      · exact fun pk' hmem ↦ List.mem_append_left _ (h.taken_mem pk' hmem)
  | @transmit pks hpks =>
      refine ⟨h.reliable, ?_, h.fresh, h.taken_mem, h.nodup, h.passed, h.handled⟩
      intro d hd
      rcases List.mem_append.mp hd with hd | hd
      · exact h.carried d hd
      · obtain rfl := List.mem_singleton.mp hd
        exact hpks
  | deliver hd => exact h.deliver hd hnew
  | @call call hown =>
      have hdelivery := call.run_delivery build handler s.receiver hown
      refine ⟨h.reliable, h.carried, ?_, h.taken_mem, h.nodup, h.passed, ?_⟩
      · exact (congrArg Delivery.pk hdelivery).trans h.fresh
      · exact (congrArg Delivery.handled hdelivery).trans h.handled

/-- **Reliable packets are handled at most once while none is taken twice.**  In every run in which
every datagram that is taken carries only packets that have not been taken before, the content of
every packet is passed to `handle_packet` at most once. -/
theorem handledOnce (h : ((runs build handler).restrict (TakesNew build handler)).Reachable s) :
    HandledOnce s := by
  have hsound : Sound s := by
    refine h.invariant ?_ fun _ _ _ _ hi hs ↦ hi.step hs.1 hs.2
    rintro _ ⟨mtu, rfl⟩
    exact sound_new mtu
  refine ⟨hsound.nodup.sublist hsound.passed, fun pk hpk ↦ ?_, hsound.handled⟩
  exact hsound.taken_mem pk (hsound.passed.subset hpk)

/-- Before the wrap, a datagram with the next number is taken, whatever has been taken before. -/
theorem receive_reliable {env : Env} {i : Nat} {pk : Packet} {c : Conn} (hpk : IsReliable pk)
    (hfresh : c.state.pk = Packet.new) (hwin : c.state.win = .expecting i) (hi : i + 1 < 2 ^ 24) :
    ∃ c', (receive build handler env (packetsDatagram (number i) [pk]) c).1 = c' ∧
      c'.state.pk = Packet.new ∧ c'.state.win = .expecting (i + 1) ∧
      c'.handled = c.handled ++ [pk.content] := by
  have hsingle : packetsDatagram (number i) [pk] = datagram (number i) pk := by
    rw [packetsDatagram, datagram, List.flatMap_singleton]
  obtain ⟨nacks, hwin', hrecv⟩ :=
    @receive_next build handler env i c pk hfresh hwin hi hpk.encodable hpk.overlay
  rw [hpk.takePacket] at hrecv
  have hstate := congrArg Prod.fst
    (handlePacket_state handler pk.content (c.awaiting env.clock (number i) nacks))
  refine ⟨_, congrArg (fun d ↦ (receive build handler env d c).1) hsingle, ?_⟩
  rw [hrecv]
  refine ⟨?_, ?_, ?_⟩
  · exact congrArg ConnState.pk hstate
  · exact (congrArg ConnState.win hstate).trans hwin'
  · exact handlePacket_handled handler pk.content _

end Runs

/-! ## Packets that are sent again -/

section Again

/-- Packets that differ in their message index alone. -/
def fivePacket (i : Nat) : Packet :=
  { Packet.new with
    reliability := reliabilityReliable, messageIndex := Uint24.new i, content := [5] }

theorem isReliable_fivePacket (i : Nat) : IsReliable (fivePacket i) :=
  ⟨rfl, rfl, ⟨List.cons_ne_nil _ _, Nat.lt_of_sub_eq_succ rfl⟩, rfl⟩

/-- The first packet is in two datagrams, in the second one together with the second packet. -/
def bothSent : Reliable where
  packets := [fivePacket 0, fivePacket 1]
  datagrams := [(number 0, [fivePacket 0]), (number 1, [fivePacket 0, fivePacket 1])]
  receiver := new 400
  taken := []
  passed := []

theorem reachable_bothSent :
    ((runs .debug .forwarding).restrict (TakesNew .debug .forwarding)).Reachable bothSent := by
  have hfirst : Steps .debug .forwarding ⟨[], [], new 400, [], []⟩ (.send (fivePacket 0))
      ⟨[fivePacket 0], [], new 400, [], []⟩ :=
    .send (isReliable_fivePacket 0) fun _ h ↦ absurd h List.not_mem_nil
  have hsecond : Steps .debug .forwarding ⟨[fivePacket 0], [], new 400, [], []⟩
      (.send (fivePacket 1)) ⟨[fivePacket 0, fivePacket 1], [], new 400, [], []⟩ :=
    .send (isReliable_fivePacket 1) fun _ h ↦ List.mem_singleton.mp h ▸ by decide
  have hlost := @Steps.transmit .debug .forwarding
    ⟨[fivePacket 0, fivePacket 1], [], new 400, [], []⟩ [fivePacket 0] fun pk h ↦
      List.mem_singleton.mp h ▸ List.mem_cons_self
  have hboth := @Steps.transmit .debug .forwarding
    ⟨[fivePacket 0, fivePacket 1], [(number 0, [fivePacket 0])], new 400, [], []⟩
    [fivePacket 0, fivePacket 1] fun pk h ↦ h
  refine .step (a := .transmit [fivePacket 0, fivePacket 1]) ?_ ⟨trivial, hboth⟩
  refine .step (a := .transmit [fivePacket 0]) ?_ ⟨trivial, hlost⟩
  refine .step (a := .send (fivePacket 1)) ?_ ⟨trivial, hsecond⟩
  exact .step (a := .send (fivePacket 0)) (.init ⟨400, rfl⟩) ⟨trivial, hfirst⟩

/-- The second datagram is taken, and its number is then known. -/
theorem receive_both :
    ∃ c, (receive .debug .forwarding .calm
        (packetsDatagram (number 1) [fivePacket 0, fivePacket 1]) (new 400)).1 = c ∧
      c.handled = [[5], [5]] ∧ c.state.pk = Packet.new ∧
      c.state.win.Seen (number 1).value := by
  have hpks : ∀ pk ∈ [fivePacket 0, fivePacket 1], IsReliable pk := by
    intro pk hpk
    rcases List.mem_pair.mp hpk with rfl | rfl
    · exact isReliable_fivePacket 0
    · exact isReliable_fivePacket 1
  have hadmits : admits .debug .forwarding Env.calm.clock (number 1) (new 400) = true := by decide
  obtain ⟨nacks, hrecv⟩ := @receive_taken .debug .forwarding .calm (number 1)
    [fivePacket 0, fivePacket 1] (new 400)
    (fun pk hpk ↦ ⟨(hpks pk hpk).encodable, (hpks pk hpk).overlay⟩) rfl hadmits
  rw [takeAll_reliable hpks] at hrecv
  rw [hrecv]
  exact ⟨_, rfl, rfl, rfl, of_decide_eq_true rfl⟩

/-- The first datagram is lost, and the second one arrives twice. -/
theorem handledOnce_resent :
    ∃ s, s.packets = [fivePacket 0, fivePacket 1] ∧ s.passed = [fivePacket 0, fivePacket 1] ∧
      s.receiver.handled = [[5], [5]] ∧ HandledOnce s := by
  obtain ⟨c, hc, hhandled, hfresh, hseen⟩ := receive_both
  have hdeliver := @Steps.deliver .debug .forwarding bothSent (number 1)
    [fivePacket 0, fivePacket 1] .calm (List.mem_cons_of_mem _ (List.mem_singleton_self _))
  have hadmits : admits .debug .forwarding Env.calm.clock (number 1) bothSent.receiver = true := by
    decide
  rw [hadmits] at hdeliver
  change Steps _ _ bothSent _ (bothSent.delivered _ true (receive _ _ _ _ (new 400)).1) at hdeliver
  rw [hc] at hdeliver
  -- the copy
  have hrefused : admits .debug .forwarding Env.calm.clock (number 1) c = false := by
    rw [admits, if_pos hseen]
  have hcopy := @Steps.deliver .debug .forwarding
    (bothSent.delivered [fivePacket 0, fivePacket 1] true c) (number 1)
    [fivePacket 0, fivePacket 1] .calm (List.mem_cons_of_mem _ (List.mem_singleton_self _))
  obtain ⟨hsame, -⟩ := @receive_not_taken .debug .forwarding .calm (number 1)
    [fivePacket 0, fivePacket 1] c hfresh hrefused
  have hnew : TakesNew .debug .forwarding bothSent
      (.deliver (number 1) [fivePacket 0, fivePacket 1] .calm) := fun _ ↦ by decide
  have hold : TakesNew .debug .forwarding
      (bothSent.delivered [fivePacket 0, fivePacket 1] true c)
      (.deliver (number 1) [fivePacket 0, fivePacket 1] .calm) :=
    fun h ↦ absurd (hrefused.symm.trans h) Bool.false_ne_true
  refine ⟨_, rfl, ?_, hsame.trans hhandled,
    handledOnce ((reachable_bothSent.step ⟨hnew, hdeliver⟩).step ⟨hold, hcopy⟩)⟩
  change ([] ++ [fivePacket 0, fivePacket 1].take (c.handled.length - 0)) ++
    [fivePacket 0, fivePacket 1].take ((receive _ _ _ _ c).1.handled.length - c.handled.length) = _
  rw [hsame, Nat.sub_self, hhandled]
  rfl

/-- A packet has been sent, and the datagram is on its way. -/
def fiveSent : Reliable := ⟨[fivePacket 0], [(number 0, [fivePacket 0])], new 400, [], []⟩

theorem reachable_fiveSent : (runs .debug .forwarding).Reachable fiveSent := by
  have hsend : Steps .debug .forwarding ⟨[], [], new 400, [], []⟩ (.send (fivePacket 0))
      ⟨[fivePacket 0], [], new 400, [], []⟩ :=
    .send (isReliable_fivePacket 0) fun _ h ↦ absurd h List.not_mem_nil
  have htransmit : Steps .debug .forwarding ⟨[fivePacket 0], [], new 400, [], []⟩
      (.transmit [fivePacket 0]) fiveSent := .transmit fun _ h ↦ h
  refine .step (a := .transmit [fivePacket 0]) ?_ htransmit
  exact .step (a := .send (fivePacket 0)) (.init ⟨400, rfl⟩) hsend

/-- It arrives, and the acknowledgement is lost, so the packet is sent again under the next
number. -/
theorem handled_twice : ∃ s, (runs .debug .forwarding).Reachable s ∧ ¬ HandledOnce s := by
  obtain ⟨c, hc, hfresh, hwin, hhandled⟩ := @receive_reliable .debug .forwarding .calm 0
    (fivePacket 0) (new 400) (isReliable_fivePacket 0) rfl rfl (by decide)
  have hfirst := @Steps.deliver .debug .forwarding fiveSent (number 0) [fivePacket 0] .calm
    (List.mem_singleton_self _)
  change Steps _ _ fiveSent _ (fiveSent.delivered _ _ (receive _ _ _ _ (new 400)).1) at hfirst
  rw [hc] at hfirst
  -- the second copy
  obtain ⟨c', hc', -, -, hhandled'⟩ := @receive_reliable .debug .forwarding .calm 1
    (fivePacket 0) c (isReliable_fivePacket 0) hfresh hwin (by decide)
  obtain ⟨s, hs⟩ : ∃ s, s = fiveSent.delivered [fivePacket 0]
      (admits .debug .forwarding Env.calm.clock (number 0) fiveSent.receiver) c := ⟨_, rfl⟩
  have htransmit : Steps .debug .forwarding s (.transmit [fivePacket 0])
      { s with datagrams := [(number 0, [fivePacket 0]), (number 1, [fivePacket 0])] } := by
    rw [hs]
    exact .transmit fun _ h ↦ h
  have hsecond := @Steps.deliver .debug .forwarding
    { s with datagrams := [(number 0, [fivePacket 0]), (number 1, [fivePacket 0])] } (number 1)
    [fivePacket 0] .calm (List.mem_cons_of_mem _ (List.mem_singleton_self _))
  rw [← hs] at hfirst
  refine ⟨_, ((reachable_fiveSent.step hfirst).step htransmit).step hsecond, ?_⟩
  rintro ⟨hnodup, hmem, heq⟩
  have hpackets : s.packets = [fivePacket 0] := by
    rw [hs]
    rfl
  have hreceiver : s.receiver = c := by
    rw [hs]
    rfl
  have hlen := (hnodup.subperm hmem).length_le
  have htwo := congrArg List.length heq
  rw [List.length_map] at htwo
  rw [← htwo] at hlen
  change (receive _ _ _ _ s.receiver).1.handled.length ≤ s.packets.length at hlen
  rw [hreceiver, hc', hhandled', hhandled, hpackets] at hlen
  exact absurd hlen (by decide)

end Again

end Reliable

end Ragnet.Conn

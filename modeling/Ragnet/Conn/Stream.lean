import Ragnet.Conn.Exchange

/-!
# A stream that arrives in order

A sender that numbers one message after the other, and a receiver that gets every datagram once and
in order.  Both counters of the receiver are at the number of the next datagram and both of its
buffers are empty, which `Expecting` states, until the counter of the sender wraps around: entering
number `2 ^ 24 - 1` sets `highest` to 0, below `lowest`.
-/

namespace Ragnet

open HashMap Wire

/-! ## Counting -/

/-- The `i`-th number of a counter that starts at 0 and is incremented with `Uint24::inc`. -/
def number : Nat → Uint24
  | 0 => Uint24.new 0
  | i + 1 => (number i).inc.1

theorem number_eq (i : Nat) : number i = Uint24.new i := by
  induction i with
  | zero => rfl
  | succ i ih => rw [number, ih, Uint24.inc_new]

theorem number_value {i : Nat} (h : i < 2 ^ 24) : (number i).value = i := by
  rw [number_eq, Uint24.value_new_of_lt h]

/-- After the last number comes 0 again. -/
theorem number_wrap {i : Nat} (h : i + 1 = 2 ^ 24) : (number (i + 1)).value = 0 := by
  rw [number_eq, h, Uint24.value_new, Nat.mod_self]

/-! ## The two buffers -/

namespace DatagramWindow

/-- A window without gaps that expects number `i`. -/
def expecting (i : Nat) : DatagramWindow := ⟨number i, number i, ∅⟩

variable {i : Nat} {rtt : Duration} {clock : Clock}

theorem not_seen_expecting (i : Nat) : ¬ (expecting i).Seen (number i).value := by
  rintro (h | h)
  · exact absurd h (lt_irrefl _)
  · exact Finmap.notMem_empty h

theorem add_expecting {now : Instant} (hi : i < 2 ^ 24) :
    (expecting i).add (number i) now =
      (⟨number i, number (i + 1), (∅ : HashMap Nat Instant).insert i now⟩, true) := by
  have hgt : (number i).value + 1 > (expecting i).highest.value := Nat.lt_succ_self _
  rw [add_of_not_seen (not_seen_expecting i), if_pos hgt, number_value hi, ← number_eq]
  rfl

/-- The next number leaves no gap. -/
theorem enter_expecting (hi : i + 1 < 2 ^ 24) :
    (expecting i).enter rtt clock (number i) = (expecting (i + 1), []) := by
  have hshift : (⟨number i, number (i + 1),
      (∅ : HashMap Nat Instant).insert i (clock 0)⟩ : DatagramWindow).shift =
        (expecting (i + 1), 1) := by
    rw [shift]
    dsimp only
    rw [number_value hi, number_value (Nat.lt_of_succ_lt hi), Nat.add_sub_cancel_left,
      drain_insert_empty, expecting, number_eq (i + 1)]
    rfl
  rw [enter, add_expecting (Nat.lt_of_succ_lt hi)]
  dsimp only
  rw [hshift, if_neg Nat.one_ne_zero]

/-- After the last number, `highest` is below `lowest`. -/
theorem enter_last (hi : i + 1 = 2 ^ 24) :
    ((expecting i).enter rtt clock (number i)).1.highest.value <
      ((expecting i).enter rtt clock (number i)).1.lowest.value := by
  have hlt : i < 2 ^ 24 := hi ▸ Nat.lt_succ_self i
  have hlow := lowest_le_enter (expecting i) rtt clock (number i)
  refine Nat.lt_of_lt_of_le ?_ hlow
  rw [enter_highest, add_expecting hlt]
  change (number (i + 1)).value < (number i).value
  rw [number_wrap hi, number_value hlt]
  omega

end DatagramWindow

namespace PacketQueue

/-- A queue without gaps that expects order index `i`. -/
def expecting (i : Nat) : PacketQueue := ⟨number i, number i, ∅⟩

variable {i : Nat} {content : Bytes}

theorem not_taken_expecting (i : Nat) : ¬ (expecting i).Taken (number i).value := by
  rintro (h | h)
  · exact absurd h (lt_irrefl _)
  · exact Finmap.notMem_empty h

theorem put_expecting (hi : i < 2 ^ 24) :
    (expecting i).put (number i) content =
      (⟨number i, number (i + 1), (∅ : HashMap Nat Bytes).insert i content⟩, true) := by
  have hge : (number i).value ≥ (expecting i).highest.value := le_refl _
  rw [put_of_not_taken (not_taken_expecting i), if_pos hge, number_value hi, ← number_eq]
  rfl

/-- The next content is in order. -/
theorem fetch_expecting (hi : i + 1 < 2 ^ 24) :
    ((expecting i).put (number i) content).1.fetch = (expecting (i + 1), [content]) := by
  rw [put_expecting (Nat.lt_of_succ_lt hi), fetch]
  dsimp only
  rw [number_value hi, number_value (Nat.lt_of_succ_lt hi), Nat.add_sub_cancel_left,
    drain_insert_empty, expecting, number_eq (i + 1)]
  rfl

theorem windowSize_expecting {build : Build} (hi : i + 1 < 2 ^ 24) :
    ((expecting i).put (number i) content).1.windowSize build = .ok 1 := by
  have hlt := Nat.lt_of_succ_lt hi
  rw [put_expecting hlt, windowSize]
  dsimp only
  rw [number_value hi, number_value hlt, Checked.sub_of_le _ _ (Nat.le_add_right i 1),
    Nat.add_sub_cancel_left]

/-- The last content is not fetched. -/
theorem fetch_last (hi : i + 1 = 2 ^ 24) :
    ((expecting i).put (number i) content).1.fetch.2 = [] := by
  rw [put_expecting (hi ▸ Nat.lt_succ_self i), fetch]
  dsimp only
  rw [number_wrap hi, Nat.zero_sub]
  rfl

end PacketQueue

namespace Conn

open Proc

/-! ## The stream -/

def streamPacket (i : Nat) (content : Bytes) : Packet :=
  { Packet.new with content := content, orderIndex := number i, messageIndex := number i }

def streamDatagram (i : Nat) (content : Bytes) : Bytes :=
  datagram (number i) (streamPacket i content)

/-- A new sender that has sent the messages before the `n`-th. -/
def streamSender (env : Nat → Env) (mtu : Nat) (payload : Nat → Bytes) : Nat → Conn
  | 0 => new mtu
  | n + 1 => sendMessage (env n) (payload n) (streamSender env mtu payload n)

/-- A new receiver that has been given the datagrams before the `n`-th. -/
def streamReceiver (build : Build) (handler : ConnectionHandler) (env : Nat → Env) (mtu : Nat)
    (payload : Nat → Bytes) : Nat → Conn
  | 0 => new mtu
  | n + 1 => (receive build handler (env n) (streamDatagram n (payload n))
      (streamReceiver build handler env mtu payload n)).1

/-- A message that is handed to the sender task. -/
theorem sendMessage_sendTx {env : Env} {content : Bytes} {c : Conn}
    (haccepts : env.accepts 0 = true) :
    (sendMessage env content c).sendTx =
      c.sendTx ++ [datagram c.state.seq
        { Packet.new with
          content := content
          orderIndex := c.state.orderIndex
          messageIndex := c.state.messageIndex }] := by
  rw [sendMessage, haccepts]
  rfl

/-- The three counters of the sender go up together. -/
theorem streamSender_counters {env : Nat → Env} {mtu : Nat} {payload : Nat → Bytes} (n : Nat) :
    (streamSender env mtu payload n).state.seq = number n ∧
      (streamSender env mtu payload n).state.orderIndex = number n ∧
      (streamSender env mtu payload n).state.messageIndex = number n := by
  induction n with
  | zero => exact ⟨rfl, rfl, rfl⟩
  | succ n ih =>
      obtain ⟨hs, ho, hm⟩ := ih
      rw [streamSender, sendMessage]
      cases (env n).accepts 0 with
      | false => exact ⟨congrArg (·.inc.1) hs, congrArg (·.inc.1) ho, congrArg (·.inc.1) hm⟩
      | true => exact ⟨congrArg (·.inc.1) hs, congrArg (·.inc.1) ho, congrArg (·.inc.1) hm⟩

/-- The datagrams of the stream are those that the sender hands to its sender task. -/
theorem streamSender_sendTx {env : Nat → Env} {mtu : Nat} {payload : Nat → Bytes}
    (haccepts : ∀ i, (env i).accepts 0 = true) (n : Nat) :
    (streamSender env mtu payload n).sendTx =
      (List.range n).map fun i ↦ streamDatagram i (payload i) := by
  induction n with
  | zero => rfl
  | succ n ih =>
      obtain ⟨hs, ho, hm⟩ := @streamSender_counters env mtu payload n
      rw [List.range_succ, List.map_append, ← ih, streamSender, sendMessage_sendTx (haccepts n), hs,
        ho, hm]
      rfl

/-! ## One datagram -/

/-- A receiver without gaps that expects the `i`-th datagram. -/
structure Expecting (i : Nat) (c : Conn) : Prop where
  pk : c.state.pk = Packet.new
  win : c.state.win = .expecting i
  packetQueue : c.state.packetQueue = .expecting i

theorem expecting_new (mtu : Nat) : Expecting 0 (new mtu) := ⟨rfl, rfl, rfl⟩

section Step

variable {build : Build} {handler : ConnectionHandler} {env : Env} {i : Nat} {c : Conn}
  {content : Bytes}

theorem streamPacket_encodable (h : Sendable content) : (streamPacket i content).Encodable where
  reliability_lt := (by decide : reliabilityReliableOrdered.toNat < 8)
  content_ne_nil := h.1
  content_length_lt := h.2

theorem Expecting.not_seen (h : Expecting i c) : ¬ c.state.win.Seen (number i).value := by
  rw [h.win]
  exact DatagramWindow.not_seen_expecting i

/-- The next content is put into the queue. -/
theorem orderPacket_expecting (hq : c.state.packetQueue = .expecting i) :
    Conn.orderPacket build handler (streamPacket i content) c =
      match ((PacketQueue.expecting i).put (number i) content).1.windowSize build with
      | .error e => ({ c with
          state.packetQueue := ((PacketQueue.expecting i).put (number i) content).1 }, .error e)
      | .ok size =>
          if Exceeds handler size then
            ({ c with state.packetQueue := ((PacketQueue.expecting i).put (number i) content).1 },
              .error (.error (.windowSizeTooBig
                ((PacketQueue.expecting i).put (number i) content).1.lowest.value
                ((PacketQueue.expecting i).put (number i) content).1.highest.value)))
          else
            ({ c with
                state.packetQueue := ((PacketQueue.expecting i).put (number i) content).1.fetch.1 },
              .ok ((PacketQueue.expecting i).put (number i) content).1.fetch.2) := by
  have hqueued : c.queued (streamPacket i content) =
      ((PacketQueue.expecting i).put (number i) content).1 := by
    rw [← hq]
    rfl
  have htaken : ¬ c.state.packetQueue.Taken (streamPacket i content).orderIndex.value := by
    rw [hq]
    exact PacketQueue.not_taken_expecting i
  have horder := @orderPacket_new build handler _ _ htaken
  rw [hqueued] at horder
  exact horder

/-- Before the wrap it is in order and handed on. -/
theorem receivePacket_expecting (hq : c.state.packetQueue = .expecting i) (hi : i + 1 < 2 ^ 24) :
    receivePacket build handler (streamPacket i content) c =
      handleAll handler [content] { c with state.packetQueue := .expecting (i + 1) } := by
  have horder := @orderPacket_expecting build handler i c content hq
  rw [PacketQueue.fetch_expecting hi, PacketQueue.windowSize_expecting hi] at horder
  dsimp only at horder
  rw [if_neg (not_exceeds (by decide))] at horder
  rw [receivePacket, if_neg (fun hn ↦ hn rfl), bind_ok horder]

/-- Before the wrap the datagram of the next number is entered, whatever packet it carries. -/
theorem receive_next {pk : Packet} (hfresh : c.state.pk = Packet.new)
    (hexp : c.state.win = .expecting i) (hi : i + 1 < 2 ^ 24) (hpk : pk.Encodable)
    (hover : pk.overlay Packet.new = pk) :
    ∃ nacks, (c.awaiting env.clock (number i) nacks).state.win = .expecting (i + 1) ∧
      Conn.receive build handler env (datagram (number i) pk) c =
        takePacket build handler pk (c.awaiting env.clock (number i) nacks) := by
  have hseen : ¬ c.state.win.Seen (number i).value := by
    rw [hexp]
    exact DatagramWindow.not_seen_expecting i
  obtain ⟨nacks, hrecv⟩ := receive_new build handler env hpk hover hfresh hseen
  have hwin : (c.entered env.clock (number i)).state.win = .expecting (i + 1) := by
    change (c.state.win.enter c.rtt env.clock (number i)).1 = _
    rw [hexp, DatagramWindow.enter_expecting hi]
  have hsize : (c.entered env.clock (number i)).state.win.size build = .ok 0 := by
    rw [hwin, DatagramWindow.size]
    exact (Checked.sub_of_le build 32 le_rfl).trans (by rw [Nat.sub_self])
  rw [hsize] at hrecv
  dsimp only at hrecv
  rw [if_neg (not_exceeds (by decide))] at hrecv
  exact ⟨nacks, hwin, hrecv⟩

theorem Expecting.enter {pk : Packet} (h : Expecting i c) (hi : i + 1 < 2 ^ 24)
    (hpk : pk.Encodable) (hover : pk.overlay Packet.new = pk) :
    ∃ nacks, (c.awaiting env.clock (number i) nacks).state.win = .expecting (i + 1) ∧
      Conn.receive build handler env (datagram (number i) pk) c =
        takePacket build handler pk (c.awaiting env.clock (number i) nacks) :=
  receive_next h.pk h.win hi hpk hover

/-- The next datagram is entered and its content handed on, and the receiver expects the one
behind it. -/
theorem Expecting.receive (h : Expecting i c) (hi : i + 1 < 2 ^ 24) (hs : Sendable content) :
    ∃ c', Expecting (i + 1) c' ∧ c'.handled = c.handled ∧ c'.packetTx = c.packetTx ∧
      c'.closing = c.closing ∧
      Conn.receive build handler env (streamDatagram i content) c =
        handleAll handler [content] c' := by
  obtain ⟨nacks, hwin, hrecv⟩ :=
    @Expecting.enter build handler env i c _ h hi (streamPacket_encodable hs) rfl
  have hwhole : takePacket build handler (streamPacket i content) =
      receivePacket build handler (streamPacket i content) := if_neg Bool.false_ne_true
  have hqueue := @receivePacket_expecting build handler i (c.awaiting env.clock (number i) nacks)
    content h.packetQueue hi
  rw [hwhole] at hrecv
  exact ⟨{ c.awaiting env.clock (number i) nacks with state.packetQueue := .expecting (i + 1) },
    ⟨rfl, hwin, rfl⟩, rfl, rfl, rfl, hrecv.trans hqueue⟩

/-- The last content is not handed on when there are no limits. -/
theorem Expecting.receive_last (h : Expecting i c) (hi : i + 1 = 2 ^ 24) (hs : Sendable content)
    (hlimits : handler.limitsEnabled = false) :
    (Conn.receive build handler env (streamDatagram i content) c).1.handled = c.handled := by
  obtain ⟨nacks, hrecv⟩ := receive_new build handler env (@streamPacket_encodable i _ hs) rfl h.pk
    h.not_seen
  have hopen (size : Nat) : ¬ Exceeds handler size := by
    rintro ⟨-, hb⟩
    rw [hlimits] at hb
    cases hb
  rw [streamDatagram, hrecv]
  cases (c.entered env.clock (number i)).state.win.size build with
  | error e => rfl
  | ok size =>
      dsimp only
      rw [if_neg (hopen size), takePacket_ordered build handler rfl rfl]
      have horder := @orderPacket_expecting build handler i
        (c.awaiting env.clock (number i) nacks) content h.packetQueue
      rw [PacketQueue.fetch_last hi] at horder
      cases hsize : ((PacketQueue.expecting i).put (number i) content).1.windowSize build with
      | error e =>
          rw [hsize] at horder
          rw [bind_error horder]
          rfl
      | ok size =>
          rw [hsize] at horder
          dsimp only at horder
          rw [if_neg (hopen size)] at horder
          rw [bind_ok horder]
          rfl

theorem handleAll_singleton (content : Bytes) :
    handleAll handler [content] = handlePacket handler content := bind_pure _

/-- So the receiver goes on to expect one datagram after the other. -/
theorem Expecting.step (h : Expecting i c) (hi : i + 1 < 2 ^ 24) (hs : Sendable content) :
    Expecting (i + 1) (Conn.receive build handler env (streamDatagram i content) c).1 ∧
      (Conn.receive build handler env (streamDatagram i content) c).1.handled =
        c.handled ++ [content] := by
  obtain ⟨c', hc', hhandled, -, -, hrecv⟩ :=
    @Expecting.receive build handler env i c content h hi hs
  rw [hrecv]
  constructor
  · have hstate := congrArg Prod.fst (handleAll_state handler [content] c')
    dsimp only at hstate
    obtain ⟨hpk, hwin, hqueue⟩ := hc'
    rw [← hstate] at hpk hwin hqueue
    exact ⟨hpk, hwin, hqueue⟩
  · rw [handleAll_singleton, handlePacket_handled, hhandled]

end Step

/-! ## The whole stream -/

/-- The receiver accepts the `i`-th datagram and delivers its content, and neither of the two
subtractions `highest - lowest` underflows. -/
structure TakesIn (build : Build) (handler : ConnectionHandler) (env : Env) (i : Nat)
    (content : Bytes) (c : Conn) : Prop where
  accepted : (c.state.win.add (number i) (env.clock 0)).2 = true
  delivered :
    (receive build handler env (streamDatagram i content) c).1.handled = c.handled ++ [content]
  window : (c.entered env.clock (number i)).state.win.lowest.value ≤
    (c.entered env.clock (number i)).state.win.highest.value
  queue : (c.queued (streamPacket i content)).lowest.value ≤
    (c.queued (streamPacket i content)).highest.value

section Stream

variable {build : Build} {handler : ConnectionHandler} {env : Nat → Env} {mtu : Nat}
  {payload : Nat → Bytes}

/-- The receiver expects the next datagram until the numbers wrap around. -/
theorem streamReceiver_expecting (hs : ∀ i, Sendable (payload i)) {i : Nat} (hi : i < 2 ^ 24) :
    Expecting i (streamReceiver build handler env mtu payload i) := by
  induction i with
  | zero => exact expecting_new mtu
  | succ i ih => exact ((ih (Nat.lt_of_succ_lt hi)).step hi (hs i)).1

theorem Expecting.takesIn {env : Env} {i : Nat} {content : Bytes} {c : Conn} (h : Expecting i c)
    (hi : i + 1 < 2 ^ 24) (hs : Sendable content) : TakesIn build handler env i content c where
  accepted := DatagramWindow.add_accepts_iff.mpr h.not_seen
  delivered := (h.step hi hs).2
  window := by
    change (c.state.win.enter c.rtt env.clock (number i)).1.lowest.value ≤
      (c.state.win.enter c.rtt env.clock (number i)).1.highest.value
    rw [h.win, DatagramWindow.enter_expecting hi]
    exact le_rfl
  queue := by
    change (c.state.packetQueue.put (number i) content).1.lowest.value ≤
      (c.state.packetQueue.put (number i) content).1.highest.value
    rw [h.packetQueue, PacketQueue.put_expecting (Nat.lt_of_succ_lt hi)]
    dsimp only
    rw [number_value hi, number_value (Nat.lt_of_succ_lt hi)]
    exact Nat.le_succ i

theorem Expecting.not_takesIn {env : Env} {i : Nat} {content : Bytes} {c : Conn}
    (h : Expecting i c) (hi : i + 1 = 2 ^ 24) : ¬ TakesIn build handler env i content c := by
  rintro ⟨-, -, hwindow, -⟩
  change (c.state.win.enter c.rtt env.clock (number i)).1.lowest.value ≤
    (c.state.win.enter c.rtt env.clock (number i)).1.highest.value at hwindow
  rw [h.win] at hwindow
  exact absurd (DatagramWindow.enter_last hi) (Nat.not_lt_of_le hwindow)

/-- **A stream survives up to the wrap.**  A receiver takes in every datagram of a stream of `n`
messages exactly when the numbers of the stream do not wrap around. -/
theorem stream_survives_iff {senderEnv : Nat → Env} {senderMtu : Nat}
    (haccepts : ∀ i, (senderEnv i).accepts 0 = true) (hs : ∀ i, Sendable (payload i)) (n : Nat) :
    (streamSender senderEnv senderMtu payload n).sendTx =
        (List.range n).map (fun i ↦ streamDatagram i (payload i)) ∧
      ((∀ i < n, TakesIn build handler (env i) i (payload i)
        (streamReceiver build handler env mtu payload i)) ↔ n < 2 ^ 24) := by
  refine ⟨streamSender_sendTx haccepts n, ?_, ?_⟩
  · intro h
    by_contra hn
    -- the last number before the wrap is used
    obtain ⟨i, hi⟩ : ∃ i, i + 1 = 2 ^ 24 := ⟨2 ^ 24 - 1, by decide⟩
    have hlt : i < 2 ^ 24 := hi ▸ Nat.lt_succ_self i
    have hexp := @streamReceiver_expecting build handler env mtu payload hs i hlt
    exact hexp.not_takesIn hi (h i (by omega))
  · intro hn i hi
    have hlt : i + 1 < 2 ^ 24 := lt_of_le_of_lt hi hn
    exact (streamReceiver_expecting hs (Nat.lt_of_succ_lt hlt)).takesIn hlt (hs i)

/-- Two messages, and a receiver that has limits. -/
theorem stream_survives_two :
    TakesIn .debug .forwarding .calm 0 [7]
        (streamReceiver .debug .forwarding
          (fun _ ↦ .calm) 1492 (fun _ ↦ [7]) 0) ∧
      TakesIn .debug .forwarding .calm 1 [7]
        (streamReceiver .debug .forwarding
          (fun _ ↦ .calm) 1492 (fun _ ↦ [7]) 1) := by
  have h := (@stream_survives_iff .debug .forwarding
    (fun _ ↦ .calm) 1492 (fun _ ↦ [7])
    (fun _ ↦ .calm) 1492 (fun _ ↦ rfl) (fun _ ↦ by decide) 2).2.mpr (by decide)
  exact ⟨h 0 (by decide), h 1 (by decide)⟩

/-- Without limits, a stream of `2 ^ 24` messages loses the last one even in a release build, which
does not panic. -/
theorem stream_loses_last :
    ¬ ∀ i < 2 ^ 24, TakesIn .release ⟨false, fun _ _ ↦ .ok false⟩ .calm i [7]
      (streamReceiver .release ⟨false, fun _ _ ↦ .ok false⟩ (fun _ ↦ .calm) 1492
        (fun _ ↦ [7]) i) := by
  intro h
  obtain ⟨i, hi⟩ : ∃ i, i + 1 = 2 ^ 24 := ⟨2 ^ 24 - 1, by decide⟩
  have hlt : i < 2 ^ 24 := hi ▸ Nat.lt_succ_self i
  have hs : Sendable [7] := by decide
  have hdelivered := (h i hlt).delivered
  rw [(streamReceiver_expecting (fun _ ↦ hs) hlt).receive_last hi hs rfl] at hdelivered
  exact absurd (congrArg List.length hdelivered) (by simp)

end Stream

end Conn

end Ragnet

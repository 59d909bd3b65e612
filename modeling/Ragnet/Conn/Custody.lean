import Ragnet.Conn.Delivering
import Ragnet.Conn.Overfull

/-!
# What a receiver has of a message

A receiver has a fragment of a message when the message has been put into its queue, or when the
fragment is in the open entry of the message.  Taking in a genuine packet gives the receiver its
fragment, unless a limit refuses it, and loses nothing.

A message of which the receiver has every fragment has been put into the queue, because an entry is
removed as soon as it is full.  Only the limits refuse a genuine packet.
-/

namespace Ragnet

namespace PacketQueue

variable {q : PacketQueue}

/-- A queue between two packets: the one that it waits for is not buffered. -/
structure Waits (q : PacketQueue) : Prop where
  bounded : q.Bounded
  notMem : q.lowest.value ∉ q.queue

theorem waits_new : new.Waits := ⟨HashMap.Within.empty _, Finmap.notMem_empty⟩

/-- Fetching after one more packet leaves nothing to fetch. -/
theorem Waits.put_fetch (h : q.Waits) {index : Uint24} (hindex : index ≠ lastIndex)
    (packet : Wire.Bytes) : (q.put index packet).1.fetch.1.Waits :=
  ⟨(h.bounded.put hindex packet).fetch, (h.bounded.put hindex packet).notMem_fetch⟩

/-- What a queue has taken without a gap it has handed out. -/
theorem Waits.le_lowest (h : q.Waits) {k : Nat} (ht : ∀ i < k, q.Taken i) : k ≤ q.lowest.value := by
  refine Nat.le_of_not_lt fun hlt ↦ ?_
  exact (ht q.lowest.value hlt).elim (Nat.lt_irrefl _) h.notMem

end PacketQueue

namespace Conn

open HashMap Proc Wire

/-- The open entry of the message holds the fragment. -/
def Holds (splits : HashMap UInt16 (List Bytes)) (m : Message) (i : Nat) : Prop :=
  ∃ slots, splits.lookup m.splitId = some slots ∧ slots[i]? = m.fragments[i]?

/-- The receiver has the fragment. -/
def Has (d : Delivery) (m : Message) (i : Nat) : Prop :=
  d.packetQueue.Taken m.orderIndex.value ∨ m.IsSplit ∧ Holds d.splits m i

/-- Every open entry has an empty slot. -/
def Unfilled (splits : HashMap UInt16 (List Bytes)) : Prop :=
  ∀ id slots, splits.lookup id = some slots → [] ∈ slots

section Entries

variable {build : Build} {handler : ConnectionHandler} {c : Conn} {pk : Packet} {m : Message}
  {i : Nat} {content : Bytes} {messageIndex : Uint24}

theorem Holds.congr {splits splits' : HashMap UInt16 (List Bytes)} (h : Holds splits m i)
    (hl : splits'.lookup m.splitId = splits.lookup m.splitId) : Holds splits' m i := by
  obtain ⟨slots, hslots, hi⟩ := h
  exact ⟨slots, hl.trans hslots, hi⟩

theorem Unfilled.insert {splits : HashMap UInt16 (List Bytes)} (h : Unfilled splits) (id : UInt16)
    {slots : List Bytes} (hslots : [] ∈ slots) : Unfilled (splits.insert id slots) := by
  intro id' slots' hl
  rw [lookup_insert_eq] at hl
  split at hl
  · exact Option.some.inj hl ▸ hslots
  · exact h id' slots' hl

theorem Unfilled.fragmentsOf {splits : HashMap UInt16 (List Bytes)} (h : Unfilled splits)
    (hcount : pk.splitCount.toNat ≠ 0) : [] ∈ fragmentsOf splits pk := by
  rw [Conn.fragmentsOf]
  cases hl : splits.lookup pk.splitId with
  | some slots => exact h pk.splitId slots hl
  | none => exact List.mem_replicate.mpr ⟨hcount, rfl⟩

/-- A full entry does not stay. -/
theorem reassemble_unfilled (build : Build) (handler : ConnectionHandler)
    (hcount : pk.splitCount.toNat ≠ 0) :
    Preserves (fun c ↦ Unfilled c.state.splits) (reassemble build handler pk) := by
  intro c h
  by_cases hlim : SplitLimited handler c.state.splits pk
  · obtain ⟨text, hr⟩ := reassemble_limited build hlim
    rw [hr]
    exact h
  rw [reassemble_open build hlim]
  split
  · exact h.insert pk.splitId (h.fragmentsOf hcount)
  split
  · next hany => exact h.insert pk.splitId (any_isEmpty_iff.mp hany)
  · intro id slots hl
    change (c.state.splits.erase pk.splitId).lookup id = _ at hl
    rw [lookup_erase_eq] at hl
    split at hl
    · cases hl
    · exact h id slots hl

/-- The call never returns with an index out of range. -/
theorem splitIndexError_bind_ne_ok (build : Build) (splitIndex : UInt32) (count : Nat)
    (combined : Option Packet) :
    (splitIndexError build splitIndex count >>= fun text ↦
      (.error (.error (.splitPacket text)) : Result (Option Packet))) ≠ .ok combined := by
  cases splitIndexError build splitIndex count with
  | error e => exact fun h ↦ by cases h
  | ok text => exact fun h ↦ by cases h

/-- What a fragment of a message leads to, and what the entry holds afterwards. -/
theorem reassemble_holds (howns : Owns m c.state.splits) (hm : m.IsSplit)
    (hcount : m.fragments.length ≤ 2 ^ 32) (hi : m.fragments[i]? = some content) :
    (reassemble build handler (m.packet messageIndex i content) c).2 = .ok (some m.combined) ∨
      (∀ pk, (reassemble build handler (m.packet messageIndex i content) c).2 ≠ .ok (some pk)) ∧
      (∀ j, Holds c.state.splits m j →
        Holds (reassemble build handler (m.packet messageIndex i content) c).1.state.splits m j) ∧
      ((reassemble build handler (m.packet messageIndex i content) c).2 = .ok none →
        Holds (reassemble build handler (m.packet messageIndex i content) c).1.state.splits m
          i) := by
  have hid : (m.packet messageIndex i content).splitId = m.splitId := by
    rw [Message.packet_split hm]
  have hcontent : (m.packet messageIndex i content).content = content := by
    rw [Message.packet_split hm]
  have hlt : i < m.fragments.length := (List.getElem?_eq_some_iff.mp hi).1
  have hindex : (m.packet messageIndex i content).splitIndex.toNat = i := by
    rw [Message.packet_split hm]
    exact UInt32.toNat_ofNat_of_lt' (hlt.trans_le hcount)
  have hentry := howns.fragmentsOf hm hcount messageIndex i content
  -- the slots that the fragment goes into are those of the open entry
  have hslots : ∀ j, Holds c.state.splits m j →
      (fragmentsOf c.state.splits (m.packet messageIndex i content))[j]? = m.fragments[j]? := by
    rintro j ⟨slots, hl, hj⟩
    rw [fragmentsOf, hid, hl]
    exact hj
  by_cases hlim : SplitLimited handler c.state.splits (m.packet messageIndex i content)
  · obtain ⟨text, hr⟩ := reassemble_limited build hlim
    rw [hr]
    exact Or.inr ⟨(fun pk h ↦ by cases h), fun _ h ↦ h, (fun h ↦ by cases h)⟩
  have hcombined := @reassemble_owned build handler m c i content messageIndex howns hm hcount hi
  rw [reassemble_open build hlim] at hcombined ⊢
  by_cases hrange : IndexOutOfRange c.state.splits (m.packet messageIndex i content)
  · rw [if_pos hrange, hid]
    exact Or.inr ⟨fun pk ↦ splitIndexError_bind_ne_ok _ _ _ _,
      fun j hj ↦ ⟨_, Finmap.lookup_insert _, hslots j hj⟩,
      fun h ↦ absurd h (splitIndexError_bind_ne_ok _ _ _ _)⟩
  rw [if_neg hrange] at hcombined ⊢
  by_cases hany : (filled c.state.splits (m.packet messageIndex i content)).any List.isEmpty
  · rw [if_pos hany, hid]
    -- the index is in range, so there is a slot for the fragment
    have hfits : Fits [] m.fragments
        (fragmentsOf c.state.splits (m.packet messageIndex i content)) := by
      refine hentry.resolve_left fun hnil ↦ hrange ?_
      rw [IndexOutOfRange, hnil]
      exact UInt32.zero_le
    have hset : (filled c.state.splits (m.packet messageIndex i content))[i]? =
        m.fragments[i]? := by
      rw [filled, hindex, hcontent, hi, List.getElem?_set_self (hfits.length_eq ▸ hlt)]
    refine Or.inr ⟨(fun pk h ↦ by cases h), fun j hj ↦ ⟨_, Finmap.lookup_insert _, ?_⟩,
      fun _ ↦ ⟨_, Finmap.lookup_insert _, hset⟩⟩
    by_cases hij : i = j
    · exact hij ▸ hset
    · rw [filled, hindex, List.getElem?_set_ne hij]
      exact hslots j hj
  · rw [if_neg hany] at hcombined ⊢
    exact Or.inl (congrArg (fun pk ↦ Except.ok (some pk)) hcombined.eq_combined)

end Entries

/-! ## Between two datagrams -/

/-- What a receiver has delivered and keeps between two datagrams, as long as none was refused. -/
structure Settled (messages : List Message) (d : Delivery) : Prop where
  delivering : Delivering messages d
  unfilled : Unfilled d.splits
  waits : d.packetQueue.Waits

section Settled

variable {build : Build} {handler : ConnectionHandler} {messages : List Message} {c : Conn}
  {d : Delivery} {pk : Packet} {m : Message} {i : Nat} {content : Bytes} {messageIndex : Uint24}

theorem settled_new (mtu : Nat) : Settled [] (new mtu).delivery :=
  ⟨delivering_new mtu, fun _ _ hl ↦ (by cases hl), PacketQueue.waits_new⟩

theorem Settled.mono (h : Settled messages d) (ms : List Message) : Settled (messages ++ ms) d :=
  ⟨h.delivering.mono ms, h.unfilled, h.waits⟩

/-- An ordered packet takes its order index, and gives up none, whatever comes of it. -/
theorem receivePacket_taken (hrel : pk.reliability = reliabilityReliableOrdered) (j : Nat) :
    (receivePacket build handler pk c).1.state.packetQueue.Taken j ↔
      c.state.packetQueue.Taken j ∨ j = pk.orderIndex.value := by
  have hstate (batch : List Bytes) (c' : Conn) :
      (handleAll handler batch c').1.state.packetQueue = c'.state.packetQueue :=
    congrArg (fun view ↦ view.1.packetQueue) (handleAll_state handler batch c')
  rw [receivePacket, if_neg (not_not.mpr hrel)]
  by_cases ht : c.state.packetQueue.Taken pk.orderIndex.value
  · rw [bind_ok (orderPacket_duplicate build ht), hstate]
    exact (or_iff_left_of_imp fun hj ↦ hj ▸ ht).symm
  have hput : (c.queued pk).Taken j ↔ c.state.packetQueue.Taken j ∨ j = pk.orderIndex.value :=
    PacketQueue.taken_put j
  have horder := @orderPacket_new build handler c pk ht
  cases hsize : (c.queued pk).windowSize build with
  | error e =>
      rw [hsize] at horder
      rw [bind_error horder]
      exact hput
  | ok size =>
      rw [hsize] at horder
      dsimp only at horder
      by_cases hbig : Exceeds handler size
      · rw [if_pos hbig] at horder
        rw [bind_error horder]
        exact hput
      · rw [if_neg hbig] at horder
        rw [bind_ok horder, hstate]
        exact (PacketQueue.taken_fetch j).trans hput

/-- What the queue hands out is handled, if there is no error. -/
theorem Settled.handleAll_fetched (h : Settled messages c.delivery) {q : PacketQueue}
    {batch : List Bytes} (hdelivers : PacketQueue.Delivers (source messages) (c.handled ++ batch) q)
    (hwaits : q.Waits)
    (hok : (handleAll handler batch { c with state.packetQueue := q }).2 = .ok ()) :
    Settled messages (handleAll handler batch { c with state.packetQueue := q }).1.delivery := by
  rcases hall : handleAll handler batch { c with state.packetQueue := q } with ⟨c', r⟩
  rw [hall] at hok
  obtain rfl : r = .ok () := hok
  have hkept := handleAll_state handler batch { c with state.packetQueue := q }
  rw [hall] at hkept
  have hstate : c'.state = { c.state with packetQueue := q } := (Prod.mk.inj hkept).1
  have hhandled : c'.handled = c.handled ++ batch :=
    handleAll_ok (c := { c with state.packetQueue := q }) hall
  have hdelivery : c'.delivery = { c'.delivery with
      pk := c.state.pk, splits := c.state.splits, packetQueue := q
      handled := c.handled ++ batch } := by
    rw [← hhandled, delivery, hstate]
  rw [hdelivery]
  exact ⟨⟨h.delivering.pk, h.delivering.entries, hdelivers⟩, h.unfilled, hwaits⟩

/-- A whole message that is received without an error. -/
theorem Settled.receivePacket (h : Settled messages c.delivery)
    (hrel : pk.reliability = reliabilityReliableOrdered)
    (hsrc : source messages pk.orderIndex.value = some pk.content)
    (hlast : pk.orderIndex ≠ lastIndex)
    (hok : (Conn.receivePacket build handler pk c).2 = .ok ()) :
    Settled messages (Conn.receivePacket build handler pk c).1.delivery := by
  rw [Conn.receivePacket, if_neg (not_not.mpr hrel)] at hok ⊢
  by_cases ht : c.state.packetQueue.Taken pk.orderIndex.value
  · rw [bind_ok (orderPacket_duplicate build ht)]
    exact h
  have horder := @orderPacket_new build handler c pk ht
  cases hsize : (c.queued pk).windowSize build with
  | error e =>
      rw [hsize] at horder
      rw [bind_error horder] at hok
      cases hok
  | ok size =>
      rw [hsize] at horder
      dsimp only at horder
      by_cases hbig : Exceeds handler size
      · rw [if_pos hbig] at horder
        rw [bind_error horder] at hok
        cases hok
      · rw [if_neg hbig] at horder
        rw [bind_ok horder] at hok ⊢
        exact h.handleAll_fetched ((h.delivering.ordered.put hsrc).fetch)
          (h.waits.put_fetch hlast pk.content) hok

/-- The packets of a long message announce fragments. -/
theorem splitCount_ne_zero (hsplit : m.IsSplit) (hcount : m.fragments.length < 2 ^ 32) :
    (m.packet messageIndex i content).splitCount.toNat ≠ 0 := by
  have hpos : 1 < m.fragments.length := hsplit
  rw [Message.packet_split hsplit]
  change (UInt32.ofNat m.fragments.length).toNat ≠ 0
  rw [UInt32.toNat_ofNat_of_lt' hcount]
  omega

/-- **A genuine packet is kept.**  A receiver that takes in a genuine packet without an error has
its fragment afterwards, and everything that it had before. -/
theorem Settled.takePacket (h : Settled messages c.delivery) (hn : Numbered messages)
    (hcount : ∀ m ∈ messages, m.fragments.length < 2 ^ 32) (hm : m ∈ messages)
    (hi : m.fragments[i]? = some content) (hlast : m.orderIndex ≠ lastIndex)
    (hok : (Conn.takePacket build handler (m.packet messageIndex i content) c).2 = .ok ()) :
    Settled messages
        (Conn.takePacket build handler (m.packet messageIndex i content) c).1.delivery ∧
      Has (Conn.takePacket build handler (m.packet messageIndex i content) c).1.delivery m i ∧
      ∀ m' ∈ messages, ∀ j, Has c.delivery m' j →
        Has (Conn.takePacket build handler (m.packet messageIndex i content) c).1.delivery m'
          j := by
  by_cases hsplit : m.IsSplit
  · have hbit : (m.packet messageIndex i content).split = true := by
      rw [Message.packet_split hsplit]
    have howns := h.delivering.owns hn hm hsplit
    have hout := @reassemble_owned build handler m c i content messageIndex howns hsplit
      (hcount m hm).le hi
    have hholds := @reassemble_holds build handler c m i content messageIndex howns hsplit
      (hcount m hm).le hi
    have hunfilled := reassemble_unfilled build handler
      (@splitCount_ne_zero m i content messageIndex hsplit (hcount m hm)) c h.unfilled
    have hframe := (reassemble_frame build handler (m.packet messageIndex i content)).comp
      (fun c ↦ (c.state.pk, c.handled, c.state.packetQueue)) c
    rw [Conn.takePacket, if_pos hbit, receiveSplitPacket] at hok ⊢
    rcases hr : reassemble build handler (m.packet messageIndex i content) c with ⟨c', r⟩
    rw [hr] at hout hholds hunfilled hframe
    obtain ⟨hpk', hframe⟩ := Prod.mk.inj hframe
    obtain ⟨hhandled', hqueue'⟩ := Prod.mk.inj hframe
    have hc' : Settled messages c'.delivery := by
      refine ⟨⟨hpk'.trans h.delivering.pk, fun id slots hl ↦ ?_, ?_⟩, hunfilled, ?_⟩
      · by_cases heq : id = m.splitId
        · subst heq
          exact ⟨m, hm, hsplit, rfl, hout.owns howns slots hl⟩
        · exact h.delivering.entries id slots ((hout.lookup_of_ne heq).symm.trans hl)
      · change PacketQueue.Delivers _ c'.handled c'.state.packetQueue
        rw [hhandled', hqueue']
        exact h.delivering.ordered
      · change c'.state.packetQueue.Waits
        rw [hqueue']
        exact h.waits
    -- the messages that are not touched, and the message itself
    have hkeep (m' : Message) (hm' : m' ∈ messages) (j : Nat) (hhas : Has c.delivery m' j) :
        Has c'.delivery m' j ∨ m' = m ∧ Holds c.state.splits m j := by
      rcases hhas with ht | ⟨hsplit', hheld⟩
      · refine Or.inl (Or.inl ?_)
        change c'.state.packetQueue.Taken _
        rw [hqueue']
        exact ht
      · by_cases heq : m'.splitId = m.splitId
        · obtain rfl := hn.splitId_inj m' hm' m hm hsplit' hsplit heq
          exact Or.inr ⟨rfl, hheld⟩
        · exact Or.inl (Or.inr ⟨hsplit', hheld.congr (hout.lookup_of_ne heq)⟩)
    cases r with
    | error e =>
        rw [bind_error hr] at hok
        cases hok
    | ok combined =>
        rw [bind_ok hr] at hok ⊢
        cases combined with
        | none =>
            obtain ⟨-, hstay, hnew⟩ := hholds.resolve_left (fun he ↦ by cases he)
            refine ⟨hc', Or.inr ⟨hsplit, hnew rfl⟩, fun m' hm' j hhas ↦ ?_⟩
            rcases hkeep m' hm' j hhas with hhas' | ⟨rfl, hheld⟩
            · exact hhas'
            · exact Or.inr ⟨hsplit, hstay j hheld⟩
        | some combinedPk =>
            obtain rfl := hout.eq_combined
            have htaken (j : Nat) :=
              @receivePacket_taken build handler c' m.combined rfl j
            have hself : Has (Conn.receivePacket build handler m.combined c').1.delivery m i :=
              Or.inl ((htaken _).mpr (Or.inr rfl))
            refine ⟨hc'.receivePacket rfl (hn.order m hm) hlast hok, hself, fun m' hm' j hhas ↦ ?_⟩
            rcases hkeep m' hm' j hhas with (ht | ⟨hsplit', hheld⟩) | ⟨rfl, -⟩
            · exact Or.inl ((htaken _).mpr (Or.inl ht))
            · have hsplits := congrArg Prod.fst
                (receivePacket_keeps_splits build handler m.combined c')
              exact Or.inr ⟨hsplit', hheld.congr (congrArg (fun s ↦ s.lookup m'.splitId) hsplits)⟩
            · exact Or.inl ((htaken _).mpr (Or.inr rfl))
  · rw [Message.packet_whole hsplit hi] at hok ⊢
    have hwhole : ¬ ({ Packet.new with
        content := m.payload
        orderIndex := m.orderIndex
        messageIndex := messageIndex } : Packet).split = true := Bool.false_ne_true
    rw [Conn.takePacket, if_neg hwhole] at hok ⊢
    have htaken (j : Nat) := @receivePacket_taken build handler c
      { Packet.new with
        content := m.payload, orderIndex := m.orderIndex, messageIndex := messageIndex } rfl j
    refine ⟨h.receivePacket rfl (hn.order m hm) hlast hok,
      Or.inl ((htaken _).mpr (Or.inr rfl)), fun m' hm' j hhas ↦ ?_⟩
    rcases hhas with ht | ⟨hsplit', hheld⟩
    · exact Or.inl ((htaken _).mpr (Or.inl ht))
    · have hsplits := congrArg Prod.fst (receivePacket_keeps_splits build handler
        { Packet.new with
          content := m.payload, orderIndex := m.orderIndex, messageIndex := messageIndex } c)
      exact Or.inr ⟨hsplit', hheld.congr (congrArg (fun s ↦ s.lookup m'.splitId) hsplits)⟩

/-- So is the packet of a datagram, and its number is only recorded with it. -/
theorem Settled.receive {seq : Uint24} (h : Settled messages c.delivery) (hn : Numbered messages)
    (hcount : ∀ m ∈ messages, m.fragments.length < 2 ^ 32) (env : Env) (hm : m ∈ messages)
    (hi : m.fragments[i]? = some content) (hlast : m.orderIndex ≠ lastIndex)
    (hok : (Conn.receive build handler env
      (datagram seq (m.packet messageIndex i content)) c).2 = .ok ()) :
    ∃ c', (Conn.receive build handler env
        (datagram seq (m.packet messageIndex i content)) c).1 = c' ∧
      Settled messages c'.delivery ∧
      (∀ m' ∈ messages, ∀ j, Has c.delivery m' j → Has c'.delivery m' j) ∧
      (c'.arrivals = c.arrivals ∨
        c'.arrivals = (c.entered env.clock seq).arrivals ∧ Has c'.delivery m i) := by
  have hpk : Genuine messages (m.packet messageIndex i content) := genuine_packet hm hi
  refine ⟨_, rfl, ?_⟩
  by_cases hseen : c.state.win.Seen seq.value
  · rw [receive_seen build handler env hseen]
    exact ⟨h, fun _ _ _ hhas ↦ hhas, Or.inl rfl⟩
  obtain ⟨nacks, hrecv⟩ :=
    receive_new build handler env hpk.encodable hpk.overlay h.delivering.pk hseen
  have hawait : Settled messages (c.awaiting env.clock seq nacks).delivery :=
    ⟨⟨rfl, h.delivering.entries, h.delivering.ordered⟩, h.unfilled, h.waits⟩
  rw [hrecv] at hok ⊢
  cases hsize : (c.entered env.clock seq).state.win.size build with
  | error e =>
      rw [hsize] at hok
      cases hok
  | ok size =>
      rw [hsize] at hok
      dsimp only at hok ⊢
      by_cases hbig : Exceeds handler size
      · rw [if_pos hbig] at hok
        cases hok
      · rw [if_neg hbig] at hok ⊢
        obtain ⟨hsettled, hnew, hkeep⟩ := hawait.takePacket hn hcount hm hi hlast hok
        have harrivals := (takePacket_frame build handler (m.packet messageIndex i content)).comp
          (fun c ↦ c.arrivals) (c.awaiting env.clock seq nacks)
        exact ⟨hsettled, fun m' hm' j hhas ↦ hkeep m' hm' j hhas, Or.inr ⟨harrivals, hnew⟩⟩

/-- A message of which the receiver has every fragment is in the queue, or has been. -/
theorem Settled.taken_of_has (h : Settled messages d) (hn : Numbered messages) (hm : m ∈ messages)
    (hall : ∀ i < m.fragments.length, Has d m i) : d.packetQueue.Taken m.orderIndex.value := by
  by_contra hnot
  have hheld (i : Nat) (hi : i < m.fragments.length) : m.IsSplit ∧ Holds d.splits m i :=
    (hall i hi).resolve_left hnot
  have hpos : 0 < m.fragments.length := List.length_pos_iff.mpr m.fragments_ne_nil
  obtain ⟨hsplit, slots, hl, hzero⟩ := hheld 0 hpos
  obtain ⟨m', hm', hsplit', hid, hentry⟩ := h.delivering.entries m.splitId slots hl
  rw [hn.splitId_inj m' hm' m hm hsplit' hsplit hid] at hentry
  -- the entry holds all fragments, so it has no empty slot
  have hslots : slots = m.fragments := by
    refine List.ext_getElem? fun i ↦ ?_
    rcases Nat.lt_or_ge i m.fragments.length with hi | hi
    · obtain ⟨-, slots', hl', hget⟩ := hheld i hi
      obtain rfl := Option.some.inj (hl.symm.trans hl')
      exact hget
    · rcases hentry with rfl | hfits
      · rw [List.getElem?_eq_getElem hpos] at hzero
        cases hzero
      · rw [List.getElem?_eq_none hi, List.getElem?_eq_none (hfits.length_eq ▸ hi)]
  exact (m.sendable [] (hslots ▸ h.unfilled m.splitId slots hl)).1 rfl

/-! ### What is refused -/

/-- The errors of the limits. -/
inductive IsLimit : Error → Prop
  | window (lowest highest : Nat) : IsLimit (.windowSizeTooBig lowest highest)
  | split (text : String) : IsLimit (.splitPacket text)

/-- A call returns, or fails because of a limit. -/
def WithinLimits (handler : ConnectionHandler) (r : Result Unit) : Prop :=
  r = .ok () ∨ handler.limitsEnabled = true ∧ ∃ e, IsLimit e ∧ r = err e

section Limits

variable (hhandles : Handles handler messages)

include hhandles

/-- A whole message is received, unless the queue is too big. -/
theorem Settled.receivePacket_limits (h : Settled messages c.delivery)
    (hrel : pk.reliability = reliabilityReliableOrdered)
    (hsrc : source messages pk.orderIndex.value = some pk.content)
    (hlast : pk.orderIndex ≠ lastIndex) :
    WithinLimits handler (Conn.receivePacket build handler pk c).2 := by
  rw [Conn.receivePacket, if_neg (not_not.mpr hrel)]
  by_cases ht : c.state.packetQueue.Taken pk.orderIndex.value
  · rw [bind_ok (orderPacket_duplicate build ht)]
    exact Or.inl rfl
  have hbounded : (c.queued pk).Bounded := h.waits.bounded.put hlast pk.content
  have horder := @orderPacket_new build handler c pk ht
  rw [hbounded.windowSize build] at horder
  dsimp only at horder
  by_cases hbig : Exceeds handler ((c.queued pk).highest.value - (c.queued pk).lowest.value)
  · rw [if_pos hbig] at horder
    rw [bind_error horder]
    exact Or.inr ⟨hbig.2, _, .window _ _, rfl⟩
  rw [if_neg hbig] at horder
  have hfetch : PacketQueue.Delivers (source messages)
      (c.handled ++ (c.queued pk).fetch.2) (c.queued pk).fetch.1 :=
    (h.delivering.ordered.put hsrc).fetch
  have hall := @handleAll_taken handler
    { c with state.packetQueue := (c.queued pk).fetch.1 } (c.queued pk).fetch.2
    fun handled content hc ↦
      contentTaken_of_delivers hfetch hhandles handled (List.mem_append_right _ hc)
  rw [bind_ok horder, hall]
  exact Or.inl rfl

/-- A genuine packet is taken in, unless a limit refuses it. -/
theorem Settled.takePacket_limits (h : Settled messages c.delivery) (hn : Numbered messages)
    (hcount : ∀ m ∈ messages, m.fragments.length < 2 ^ 32) (hm : m ∈ messages)
    (hi : m.fragments[i]? = some content) (hlast : m.orderIndex ≠ lastIndex) :
    WithinLimits handler
      (Conn.takePacket build handler (m.packet messageIndex i content) c).2 := by
  by_cases hsplit : m.IsSplit
  · have hbit : (m.packet messageIndex i content).split = true := by
      rw [Message.packet_split hsplit]
    rw [Conn.takePacket, if_pos hbit, receiveSplitPacket]
    by_cases hlim : SplitLimited handler c.state.splits (m.packet messageIndex i content)
    · obtain ⟨text, hr⟩ := reassemble_limited build hlim
      rw [bind_error hr]
      exact Or.inr ⟨hlim.2, _, .split text, rfl⟩
    -- the entry has slots, so it fits the fragments
    have hmem := h.unfilled.fragmentsOf
      (@splitCount_ne_zero m i content messageIndex hsplit (hcount m hm))
    have hfits := ((h.delivering.owns hn hm hsplit).fragmentsOf hsplit (hcount m hm).le messageIndex
      i content).resolve_left fun hnil ↦ List.not_mem_nil (hnil ▸ hmem)
    rcases @reassemble_fits build _ _ _ _ _ _ hsplit hi (hcount m hm) hfits hlim with
      ⟨slots, -, hr⟩ | hr
    · rw [bind_ok hr]
      exact Or.inl rfl
    · have herase (id : UInt16) (slots : List Bytes)
          (hl : (c.state.splits.erase m.splitId).lookup id = some slots) :
          c.state.splits.lookup id = some slots := by
        rw [lookup_erase_eq] at hl
        split at hl
        · cases hl
        · exact hl
      have hc' : Settled messages ({ c with
          state.splits := c.state.splits.erase m.splitId
          reassembled := c.reassembled ++ [m.combined] } : Conn).delivery :=
        ⟨⟨h.delivering.pk, fun id slots hl ↦ h.delivering.entries id slots (herase id slots hl),
          h.delivering.ordered⟩,
          fun id slots hl ↦ h.unfilled id slots (herase id slots hl), h.waits⟩
      rw [bind_ok hr]
      exact hc'.receivePacket_limits hhandles rfl (hn.order m hm) hlast
  · rw [Message.packet_whole hsplit hi]
    have hwhole : ¬ ({ Packet.new with
        content := m.payload
        orderIndex := m.orderIndex
        messageIndex := messageIndex } : Packet).split = true := Bool.false_ne_true
    rw [Conn.takePacket, if_neg hwhole]
    exact h.receivePacket_limits hhandles rfl (hn.order m hm) hlast

/-- So is its datagram. -/
theorem Settled.receive_limits {seq : Uint24} (h : Settled messages c.delivery)
    (hn : Numbered messages) (hcount : ∀ m ∈ messages, m.fragments.length < 2 ^ 32) (env : Env)
    (hm : m ∈ messages) (hi : m.fragments[i]? = some content) (hlast : m.orderIndex ≠ lastIndex)
    (hwindow : c.state.win.Bounded) (hseq : seq ≠ lastIndex) :
    WithinLimits handler
      (Conn.receive build handler env (datagram seq (m.packet messageIndex i content)) c).2 := by
  have hpk : Genuine messages (m.packet messageIndex i content) := genuine_packet hm hi
  by_cases hseen : c.state.win.Seen seq.value
  · rw [receive_seen build handler env hseen]
    exact Or.inl rfl
  obtain ⟨nacks, hrecv⟩ :=
    receive_new build handler env hpk.encodable hpk.overlay h.delivering.pk hseen
  have hawait : Settled messages (c.awaiting env.clock seq nacks).delivery :=
    ⟨⟨rfl, h.delivering.entries, h.delivering.ordered⟩, h.unfilled, h.waits⟩
  have hentered : (c.entered env.clock seq).state.win.Bounded := hwindow.enter hseq
  rw [hrecv, hentered.size build]
  dsimp only
  split
  · next hbig => exact Or.inr ⟨hbig.2, _, .window _ _, rfl⟩
  · exact hawait.takePacket_limits hhandles hn hcount hm hi hlast

end Limits

end Settled

end Conn

end Ragnet

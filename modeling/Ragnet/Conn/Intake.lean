import Ragnet.Conn.Handling

/-!
# Taking in one packet

`receive_packet` and `receive_split_packet` as equations, one for each way through them.
-/

namespace Ragnet.Conn

open Proc Wire

variable (build : Build) (handler : ConnectionHandler)

/-! ## Ordered packets -/

/-- A window or a queue of this size is too big for a receiver that has limits. -/
def Exceeds (size : Nat) : Prop := size > maxWindowSize ∧ handler.limitsEnabled = true

instance (size : Nat) : Decidable (Exceeds handler size) := inferInstanceAs (Decidable (_ ∧ _))

theorem not_exceeds {handler : ConnectionHandler} {size : Nat} (h : size ≤ maxWindowSize) :
    ¬ Exceeds handler size :=
  fun hb ↦ absurd hb.1 (Nat.not_lt_of_le h)

/-- The queue that holds the content of a packet. -/
def queued (c : Conn) (pk : Packet) : PacketQueue :=
  (c.state.packetQueue.put pk.orderIndex pk.content).1

variable {handler} {c : Conn} {pk : Packet}

theorem orderPacket_duplicate (h : c.state.packetQueue.Taken pk.orderIndex.value) :
    orderPacket build handler pk c = (c, .ok []) := by
  rw [orderPacket, update_bind, PacketQueue.put_of_taken h]
  rfl

/-- A new packet is queued, whatever happens next. -/
theorem orderPacket_new (h : ¬ c.state.packetQueue.Taken pk.orderIndex.value) :
    orderPacket build handler pk c =
      match (c.queued pk).windowSize build with
      | .error e => ({ c with state.packetQueue := c.queued pk }, .error e)
      | .ok size =>
          if Exceeds handler size then
            ({ c with state.packetQueue := c.queued pk },
              .error (.error (.windowSizeTooBig (c.queued pk).lowest.value
                (c.queued pk).highest.value)))
          else
            ({ c with state.packetQueue := (c.queued pk).fetch.1 },
              .ok (c.queued pk).fetch.2) := by
  have hput := (@PacketQueue.put_accepts_iff _ _ pk.content).mpr h
  rw [orderPacket, update_bind, if_neg (by rw [hput]; decide), get_bind]
  change (ofExcept ((c.queued pk).windowSize build) >>= _) _ = _
  cases (c.queued pk).windowSize build with
  | error e => rfl
  | ok size =>
      rw [ofExcept_ok_bind]
      by_cases hbig : Exceeds handler size
      · exact (congrFun (if_pos hbig) _).trans (if_pos hbig).symm
      · exact (congrFun (if_neg hbig) _).trans (if_neg hbig).symm

/-- A whole packet does not lead to an error about split packets, unless the handler returns
one. -/
theorem receivePacket_avoids {text : String}
    (hhandler : ∀ handled content, handler.handle handled content ≠ err (.splitPacket text))
    (pk : Packet) : Avoids (.error (.splitPacket text)) (receivePacket build handler pk) := by
  have hzero : Fault.error (Error.splitPacket text) ≠ .error .zeroPacket := fun h ↦ by cases h
  refine .ite (handlePacket_avoids hzero hhandler pk.content)
    (.bind (.bind (.update _) fun put ↦ .ite (.pure []) (.bind .get fun c ↦ ?_))
      (handleAll_avoids hzero hhandler))
  refine .bind (.ofExcept (Checked.sub_ne_error _ _ _ _ _)) fun size ↦
    .ite (.fail fun h ↦ ?_) (.update _)
  cases h

/-! ## Split packets -/

variable (handler)

/-- One of the two limits on split packets is exceeded. -/
def SplitLimited (splits : HashMap UInt16 (List Bytes)) (pk : Packet) : Prop :=
  (pk.splitCount > maxSplitCount ∨ splits.len > maxConcurrentSplits) ∧
    handler.limitsEnabled = true

def IndexOutOfRange (splits : HashMap UInt16 (List Bytes)) (pk : Packet) : Prop :=
  pk.splitIndex ≥ UInt32.ofNat (fragmentsOf splits pk).length

instance (splits : HashMap UInt16 (List Bytes)) (pk : Packet) :
    Decidable (IndexOutOfRange splits pk) := inferInstanceAs (Decidable (_ ≤ _))

/-- The fragments once the packet is in. -/
def filled (splits : HashMap UInt16 (List Bytes)) (pk : Packet) : List Bytes :=
  (fragmentsOf splits pk).set pk.splitIndex.toNat pk.content

/-- The packet that `receive_split_packet` combines from fragments. -/
def combinedPacket (pk : Packet) (fragments : List Bytes) : Packet :=
  { Packet.new with
    content := fragments.flatten
    orderIndex := pk.orderIndex
    reliability := pk.reliability }

variable {handler}

/-- A limit that is exceeded refuses the packet and changes nothing. -/
theorem reassemble_limited (h : SplitLimited handler c.state.splits pk) :
    ∃ text, reassemble build handler pk c = (c, .error (.error (.splitPacket text))) := by
  obtain ⟨hor, hlimits⟩ := h
  rw [reassemble]
  by_cases hcount : pk.splitCount > maxSplitCount
  · rw [if_pos ⟨hcount, hlimits⟩]
    exact ⟨_, rfl⟩
  · rw [if_neg (fun hc ↦ hcount hc.1), get_bind,
      if_pos ⟨hor.resolve_left hcount, hlimits⟩]
    exact ⟨_, rfl⟩

/-- Otherwise the entry of the split id is opened before the index is looked at. -/
theorem reassemble_open (h : ¬ SplitLimited handler c.state.splits pk) :
    reassemble build handler pk c =
      if IndexOutOfRange c.state.splits pk then
        ({ c with
            state.splits := c.state.splits.insert pk.splitId (fragmentsOf c.state.splits pk) },
          splitIndexError build pk.splitIndex (fragmentsOf c.state.splits pk).length >>=
            fun text ↦ .error (.error (.splitPacket text)))
      else if (filled c.state.splits pk).any List.isEmpty then
        ({ c with state.splits := c.state.splits.insert pk.splitId (filled c.state.splits pk) },
          .ok none)
      else
        ({ c with
            state.splits := c.state.splits.erase pk.splitId
            reassembled := c.reassembled ++ [combinedPacket pk (filled c.state.splits pk)] },
          .ok (some (combinedPacket pk (filled c.state.splits pk)))) := by
  have hcount : ¬ (pk.splitCount > maxSplitCount ∧ handler.limitsEnabled = true) :=
    fun hc ↦ h ⟨Or.inl hc.1, hc.2⟩
  have hlen : ¬ (c.state.splits.len > maxConcurrentSplits ∧ handler.limitsEnabled = true) :=
    fun hc ↦ h ⟨Or.inr hc.1, hc.2⟩
  rw [reassemble, if_neg hcount, get_bind, if_neg hlen, modify_bind]
  by_cases hindex : IndexOutOfRange c.state.splits pk
  · rw [if_pos hindex]
    refine (congrFun (if_pos hindex) _).trans ?_
    rw [bind_apply, ofExcept_apply]
    cases splitIndexError build pk.splitIndex (fragmentsOf c.state.splits pk).length with
    | error e => rfl
    | ok text => rfl
  · rw [if_neg hindex]
    refine (congrFun (if_neg hindex) _).trans ?_
    rw [modify_bind]
    dsimp only
    rw [Finmap.insert_insert]
    by_cases hempty : (filled c.state.splits pk).any List.isEmpty
    · rw [if_pos hempty]
      exact congrFun (if_pos hempty) _
    · rw [if_neg hempty]
      refine (congrFun (if_neg hempty) _).trans ?_
      rw [modify_bind, pure_apply]
      dsimp only
      rw [HashMap.erase_insert]
      rfl

/-- No limit is exceeded. -/
theorem not_splitLimited_of_le {splits : HashMap UInt16 (List Bytes)}
    (hcount : pk.splitCount.toNat ≤ 512) (hlen : splits.len ≤ maxConcurrentSplits) :
    ¬ SplitLimited handler splits pk := by
  rintro ⟨hgt | hgt, -⟩
  · exact absurd (UInt32.lt_iff_toNat_lt.mp hgt) (Nat.not_lt_of_le hcount)
  · exact absurd hgt (Nat.not_lt_of_le hlen)

/-- Some slot is empty. -/
theorem any_isEmpty_iff {slots : List Bytes} : slots.any List.isEmpty = true ↔ [] ∈ slots := by
  rw [List.any_eq_true]
  constructor
  · rintro ⟨x, hx, he⟩
    rwa [List.isEmpty_iff.mp he] at hx
  · exact fun hx ↦ ⟨[], hx, rfl⟩

/-- A fragment whose slots are known goes into its own, and completes the entry when no slot is left
empty. -/
theorem reassemble_slots {slots : List Bytes} (hlim : ¬ SplitLimited handler c.state.splits pk)
    (hslots : fragmentsOf c.state.splits pk = slots) (hlen : slots.length < 2 ^ 32)
    (hlt : pk.splitIndex.toNat < slots.length) :
    reassemble build handler pk c =
      if [] ∈ slots.set pk.splitIndex.toNat pk.content then
        ({ c with state.splits :=
            c.state.splits.insert pk.splitId (slots.set pk.splitIndex.toNat pk.content) },
          .ok none)
      else
        ({ c with
            state.splits := c.state.splits.erase pk.splitId
            reassembled := c.reassembled ++
              [combinedPacket pk (slots.set pk.splitIndex.toNat pk.content)] },
          .ok (some (combinedPacket pk (slots.set pk.splitIndex.toNat pk.content)))) := by
  have hindex : ¬ IndexOutOfRange c.state.splits pk := by
    rw [IndexOutOfRange, hslots, ge_iff_le, UInt32.le_iff_toNat_le, UInt32.toNat_ofNat_of_lt' hlen]
    exact Nat.not_le_of_lt hlt
  have hfilled : filled c.state.splits pk = slots.set pk.splitIndex.toNat pk.content := by
    rw [filled, hslots]
  rw [reassemble_open build hlim, if_neg hindex, hfilled]
  exact if_congr any_isEmpty_iff rfl rfl

end Ragnet.Conn

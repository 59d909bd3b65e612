import Ragnet.Bounds
import Ragnet.Conn.OpenEntries
import Ragnet.Conn.Refusal

/-!
# Fragments with an index out of range

`receive_split_packet` opens the entry of a fragment before it looks at the index.  When the index
is out of range the entry stays, and the text of the error subtracts one from the number of slots,
which underflows when there are none.  The size of the queue can underflow as well, for a message
that has the last order index.
-/

namespace Ragnet

/-- The size of the queue underflows for a packet at the last index, once the queue has moved. -/
theorem PacketQueue.windowSize_put_panics_iff {q : PacketQueue} {index : Uint24}
    {packet : Wire.Bytes} (ht : ¬ q.Taken index.value) :
    (q.put index packet).1.windowSize .debug = panicked ↔
      index = lastIndex ∧ q.lowest.value ≠ 0 := by
  have hle : q.lowest.value ≤ index.value := Nat.le_of_not_lt fun hlt ↦ ht (Or.inl hlt)
  have hlo := q.lowest.lt
  rw [put_of_not_taken ht, windowSize, Checked.sub_panics_iff]
  dsimp only
  by_cases hlast : index = lastIndex
  · -- the bound behind the last index is masked to zero
    have hhigh : ¬ q.highest.value > index.value := by
      have hhi := q.highest.lt
      rw [hlast, show lastIndex.value = 2 ^ 24 - 1 from rfl]
      omega
    rw [if_pos (Nat.le_of_not_lt hhigh), hlast, show (Uint24.new (lastIndex.value + 1)).value = 0
      from rfl, Nat.pos_iff_ne_zero, and_iff_right rfl]
  · have hbound := @value_bound index q.highest hlast
    simp only [gt_iff_lt, Nat.lt_add_one_iff] at hbound
    rw [hbound]
    refine iff_of_false ?_ fun h ↦ hlast h.1
    split
    · omega
    · omega

namespace Conn

open Proc Wire

/-- A handler that does not panic, and leaves the errors about split packets to the connection. -/
structure Plain (handler : ConnectionHandler) : Prop where
  noPanic : ∀ handled content, handler.handle handled content ≠ panicked
  noSplit : ∀ handled content text, handler.handle handled content ≠ err (.splitPacket text)

/-- A fragment does not make the receiver underflow, and an error about it leaves the entries as
they are. -/
structure SplitSound (handler : ConnectionHandler) (c : Conn) (pk : Packet) : Prop where
  noUnderflow : (receiveSplitPacket .debug handler pk c).2 ≠ panicked
  unchanged : ∀ build text, (receiveSplitPacket build handler pk c).2 = err (.splitPacket text) →
    (receiveSplitPacket build handler pk c).1.state.splits = c.state.splits

/-- The fragment finds an open entry that has a slot, or its index lies in the entry it opens. -/
def FindsSlot (splits : HashMap UInt16 (List Bytes)) (pk : Packet) : Prop :=
  match splits.lookup pk.splitId with
  | some slots => slots ≠ []
  | none => pk.splitIndex < pk.splitCount

/-- The fragment completes an ordered message that is new and has the last order index, and the
queue waits for an index other than zero. -/
structure CompletesLast (c : Conn) (pk : Packet) : Prop where
  inRange : ¬ IndexOutOfRange c.state.splits pk
  full : [] ∉ filled c.state.splits pk
  ordered : pk.reliability = reliabilityReliableOrdered
  last : pk.orderIndex = lastIndex
  new : ¬ c.state.packetQueue.Taken pk.orderIndex.value
  moved : c.state.packetQueue.lowest.value ≠ 0

/-- A limit refuses the fragment, or it finds a slot and does not complete the last message. -/
def Guarded (handler : ConnectionHandler) (c : Conn) (pk : Packet) : Prop :=
  SplitLimited handler c.state.splits pk ∨
    (FindsSlot c.state.splits pk ∧ ¬ CompletesLast c pk)

variable {build : Build} {handler : ConnectionHandler} {c : Conn} {pk : Packet}

/-! ## The tail of the call -/

theorem orderPacket_panics_iff :
    (orderPacket .debug handler pk c).2 = panicked ↔
      ¬ c.state.packetQueue.Taken pk.orderIndex.value ∧ pk.orderIndex = lastIndex ∧
        c.state.packetQueue.lowest.value ≠ 0 := by
  by_cases ht : c.state.packetQueue.Taken pk.orderIndex.value
  · rw [orderPacket_duplicate .debug ht]
    exact iff_of_false (fun h ↦ by cases h) fun h ↦ h.1 ht
  rw [and_iff_right ht, ← PacketQueue.windowSize_put_panics_iff ht, orderPacket_new .debug ht]
  change _ ↔ (c.queued pk).windowSize .debug = panicked
  cases hsize : (c.queued pk).windowSize .debug with
  | error e => exact Checked.error_eq_iff
  | ok size =>
      refine iff_of_false (fun h ↦ ?_) fun h ↦ by cases h
      dsimp only at h
      split at h
      · cases h
      · cases h

theorem receivePacket_panics_iff (hhandler : Plain handler) :
    (receivePacket .debug handler pk c).2 = panicked ↔
      pk.reliability = reliabilityReliableOrdered ∧
        ¬ c.state.packetQueue.Taken pk.orderIndex.value ∧ pk.orderIndex = lastIndex ∧
          c.state.packetQueue.lowest.value ≠ 0 := by
  have hzero : (Fault.panic : Fault Error) ≠ .error .zeroPacket := fun h ↦ by cases h
  rw [receivePacket]
  by_cases hordered : pk.reliability ≠ reliabilityReliableOrdered
  · rw [if_pos hordered]
    exact iff_of_false (handlePacket_avoids hzero hhandler.noPanic pk.content c)
      fun h ↦ hordered h.1
  rw [if_neg hordered, and_iff_right (not_not.mp hordered), ← orderPacket_panics_iff]
  rcases horder : orderPacket .debug handler pk c with ⟨c', e | batch⟩
  · rw [bind_error horder]
    exact Checked.error_eq_iff
  · rw [bind_ok horder]
    exact iff_of_false (handleAll_avoids hzero hhandler.noPanic batch c') fun h ↦ by cases h

/-! ## One fragment -/

/-- An index in range finds a slot. -/
theorem findsSlot_of_inRange (h : ¬ IndexOutOfRange c.state.splits pk) :
    FindsSlot c.state.splits pk := by
  rw [FindsSlot]
  cases hl : c.state.splits.lookup pk.splitId with
  | none =>
      have hnot := Finmap.lookup_eq_none.mp hl
      exact UInt32.not_le.mp fun hle ↦ h ((indexOutOfRange_iff hnot).mpr hle)
  | some slots =>
      rintro rfl
      refine h ?_
      rw [IndexOutOfRange, fragmentsOf, hl]
      exact UInt32.zero_le

/-- An index out of range finds a slot only in an entry that is open. -/
theorem findsSlot_iff (h : IndexOutOfRange c.state.splits pk) :
    FindsSlot c.state.splits pk ↔
      fragmentsOf c.state.splits pk ≠ [] ∧ pk.splitId ∈ c.state.splits := by
  rw [FindsSlot]
  cases hl : c.state.splits.lookup pk.splitId with
  | none =>
      have hnot := Finmap.lookup_eq_none.mp hl
      refine iff_of_false (fun hlt ↦ ?_) fun hopen ↦ hnot hopen.2
      exact absurd ((indexOutOfRange_iff hnot).mp h) (UInt32.not_le.mpr hlt)
  | some slots =>
      rw [fragmentsOf, hl, and_iff_left (Finmap.mem_of_lookup_eq_some hl)]

/-- An entry is put back exactly when it was open. -/
theorem insert_fragmentsOf_iff :
    c.state.splits.insert pk.splitId (fragmentsOf c.state.splits pk) = c.state.splits ↔
      pk.splitId ∈ c.state.splits := by
  constructor
  · intro h
    rw [← h]
    exact Finmap.mem_insert.mpr (Or.inl rfl)
  · intro hopen
    obtain ⟨slots, hslots⟩ := HashMap.mem_iff_lookup.mp hopen
    refine Finmap.ext_lookup fun id ↦ ?_
    rw [HashMap.lookup_insert_eq, fragmentsOf, hslots]
    split
    · next hid => rw [hid, hslots]
    · rfl

/-- With a slot in the entry, the text of the error can be built. -/
theorem splitIndexError_of_pos (build : Build) (index : UInt32) {count : Nat} (h : 0 < count) :
    ∃ text, splitIndexError build index count = .ok text := by
  rcases splitIndexError_cases build index count with ⟨-, htext⟩ | ⟨hnot, -⟩
  · exact htext
  · exact absurd (Or.inr h.ne') hnot

/-- A fragment whose index is out of range. -/
theorem splitSound_of_outOfRange (hlim : ¬ SplitLimited handler c.state.splits pk)
    (hindex : IndexOutOfRange c.state.splits pk) :
    SplitSound handler c pk ↔ FindsSlot c.state.splits pk := by
  have hsplit (build : Build) : receiveSplitPacket build handler pk c =
      ({ c with
          state.splits := c.state.splits.insert pk.splitId (fragmentsOf c.state.splits pk) },
        splitIndexError build pk.splitIndex (fragmentsOf c.state.splits pk).length >>=
          fun text ↦ err (.splitPacket text)) := by
    have hopen := @reassemble_open build handler c pk hlim
    rw [if_pos hindex] at hopen
    rw [receiveSplitPacket]
    cases htext : splitIndexError build pk.splitIndex (fragmentsOf c.state.splits pk).length with
    | error e =>
        rw [htext] at hopen
        exact bind_error hopen
    | ok text =>
        rw [htext] at hopen
        exact bind_error hopen
  have htext (hne : fragmentsOf c.state.splits pk ≠ []) :=
    splitIndexError_of_pos .debug pk.splitIndex (List.length_pos_iff.mpr hne)
  rw [findsSlot_iff hindex]
  constructor
  · intro h
    have hne : fragmentsOf c.state.splits pk ≠ [] := by
      intro he
      refine h.noUnderflow ?_
      rw [hsplit, he]
      rfl
    refine ⟨hne, insert_fragmentsOf_iff.mp ?_⟩
    obtain ⟨text, htext⟩ := htext hne
    have hsame := h.unchanged .debug text (by rw [hsplit, htext]; rfl)
    rwa [hsplit] at hsame
  · rintro ⟨hne, hopen⟩
    obtain ⟨text, htext⟩ := htext hne
    refine ⟨fun hpanic ↦ ?_, fun build _ _ ↦ ?_⟩
    · rw [hsplit, htext] at hpanic
      cases hpanic
    · rw [hsplit]
      exact insert_fragmentsOf_iff.mpr hopen

/-- A fragment whose index is in range. -/
theorem splitSound_of_inRange (hhandler : Plain handler)
    (hlim : ¬ SplitLimited handler c.state.splits pk)
    (hindex : ¬ IndexOutOfRange c.state.splits pk) :
    SplitSound handler c pk ↔ ¬ CompletesLast c pk := by
  have hopen (build : Build) := @reassemble_open build handler c pk hlim
  by_cases hfull : [] ∈ filled c.state.splits pk
  · have hsplit (build : Build) : (receiveSplitPacket build handler pk c).2 = .ok () := by
      have hr := hopen build
      rw [if_neg hindex, if_pos (any_isEmpty_iff.mpr hfull)] at hr
      rw [receiveSplitPacket, bind_ok hr]
      rfl
    refine iff_of_true ⟨?_, fun build text h ↦ ?_⟩ fun h ↦ h.full hfull
    · rw [hsplit]
      exact fun h ↦ by cases h
    · rw [hsplit] at h
      cases h
  -- the message is complete, and goes on as a whole packet
  obtain ⟨c', hqueue, hsplit⟩ : ∃ c' : Conn, c'.state.packetQueue = c.state.packetQueue ∧
      ∀ build, (receiveSplitPacket build handler pk c).2 =
        (receivePacket build handler (combinedPacket pk (filled c.state.splits pk)) c').2 := by
    refine ⟨{ c with
      state.splits := c.state.splits.erase pk.splitId
      reassembled := c.reassembled ++ [combinedPacket pk (filled c.state.splits pk)] }, rfl,
      fun build ↦ ?_⟩
    have hr := hopen build
    rw [if_neg hindex, if_neg (fun h ↦ hfull (any_isEmpty_iff.mp h))] at hr
    rw [receiveSplitPacket, bind_ok hr]
  have hpanics := @receivePacket_panics_iff handler c'
    (combinedPacket pk (filled c.state.splits pk)) hhandler
  rw [← hsplit, hqueue] at hpanics
  constructor
  · intro h hlast
    exact h.noUnderflow (hpanics.mpr ⟨hlast.ordered, hlast.new, hlast.last, hlast.moved⟩)
  · intro hlast
    refine ⟨fun h ↦ ?_, fun build text h ↦ ?_⟩
    · obtain ⟨hordered, hnew, hindex', hmoved⟩ := hpanics.mp h
      exact hlast ⟨hindex, hfull, hordered, hindex', hnew, hmoved⟩
    · rw [hsplit] at h
      exact absurd h (receivePacket_avoids build (fun _ _ ↦ hhandler.noSplit _ _ text) _ c')

theorem splitSound_iff_guarded (hhandler : Plain handler) :
    SplitSound handler c pk ↔ Guarded handler c pk := by
  by_cases hlim : SplitLimited handler c.state.splits pk
  · have hsplit (build : Build) : ∃ text, receiveSplitPacket build handler pk c =
        (c, err (.splitPacket text)) := by
      obtain ⟨text, hr⟩ := reassemble_limited build hlim
      exact ⟨text, by rw [receiveSplitPacket, bind_error hr]⟩
    refine iff_of_true ⟨?_, fun build text _ ↦ ?_⟩ (Or.inl hlim)
    · obtain ⟨text, h⟩ := hsplit .debug
      rw [h]
      exact fun he ↦ by cases he
    · obtain ⟨text', h⟩ := hsplit build
      rw [h]
  rw [Guarded, or_iff_right hlim]
  by_cases hindex : IndexOutOfRange c.state.splits pk
  · rw [splitSound_of_outOfRange hlim hindex, and_iff_left (fun h ↦ h.inRange hindex)]
  · rw [splitSound_of_inRange hhandler hlim hindex, and_iff_right (findsSlot_of_inRange hindex)]

/-! ## Runs -/

/-- A fragment that opens an entry has its index in it, unless a limit refuses it. -/
def InRange (handler : ConnectionHandler) (c : Conn) (pk : Packet) : Prop :=
  ¬ SplitLimited handler c.state.splits pk → pk.splitId ∉ c.state.splits →
    pk.splitIndex < pk.splitCount

/-- Every open entry has a slot. -/
def EntriesOpen (c : Conn) : Prop :=
  ∀ id slots, c.state.splits.lookup id = some slots → slots ≠ []

/-- With a slot in every open entry, a fragment in range is guarded by that alone. -/
theorem EntriesOpen.findsSlot (h : EntriesOpen c) (hrange : InRange handler c pk)
    (hlim : ¬ SplitLimited handler c.state.splits pk) : FindsSlot c.state.splits pk := by
  rw [FindsSlot]
  cases hl : c.state.splits.lookup pk.splitId with
  | none => exact hrange hlim (Finmap.lookup_eq_none.mp hl)
  | some slots => exact h _ _ hl

/-- A fragment in range opens no entry without a slot. -/
theorem EntriesOpen.split (h : EntriesOpen c) (hrange : InRange handler c pk) :
    EntriesOpen (receiveSplitPacket build handler pk c).1 := by
  have hsame := (receiveSplitPacket_fst build handler pk c).1
  by_cases hlim : SplitLimited handler c.state.splits pk
  · obtain ⟨text, hr⟩ := reassemble_limited build hlim
    rw [hr] at hsame
    intro id slots hl
    rw [hsame] at hl
    exact h id slots hl
  have hfind := h.findsSlot hrange hlim
  rw [reassemble_open build hlim] at hsame
  intro id slots hl
  split at hsame
  · next hindex =>
    rw [hsame, insert_fragmentsOf_iff.mpr ((findsSlot_iff hindex).mp hfind).2] at hl
    exact h id slots hl
  split at hsame
  · next hempty =>
    rw [hsame, HashMap.lookup_insert_eq] at hl
    split at hl
    · rw [← Option.some.inj hl]
      exact List.ne_nil_of_mem (any_isEmpty_iff.mp hempty)
    · exact h id slots hl
  · rw [hsame, HashMap.lookup_erase_eq] at hl
    split at hl
    · cases hl
    · exact h id slots hl

theorem entriesOpen_of_reachable (hc : ((splitting build handler).restrict fun c label ↦
    ∀ pk ∈ label, InRange handler c pk).Reachable c) : EntriesOpen c := by
  refine hc.invariant ?_ fun c label c' _ h hs ↦ ?_
  · rintro _ ⟨mtu, rfl⟩ id slots hl
    rw [new, newState, Finmap.lookup_empty] at hl
    cases hl
  · obtain ⟨hrange, hs⟩ := hs
    intro id slots hl
    cases label with
    | none =>
        rw [show c'.state.splits = c.state.splits from hs] at hl
        exact h id slots hl
    | some pk =>
        rw [show c'.state.splits = (receiveSplitPacket build handler pk c).1.state.splits from hs]
          at hl
        exact h.split (hrange pk rfl) id slots hl

variable (build) in
/-- **When a fragment does no harm.**  Receiving it does not underflow, and leaves the entries as
they are when it is an error about split packets, exactly when it is guarded.  In a run whose
fragments all have their index in the entry they open, the next such fragment does no harm unless
it completes a message with the last order index. -/
theorem splitSound_iff (hhandler : Plain handler) :
    (∀ c pk, SplitSound handler c pk ↔ Guarded handler c pk) ∧
      ∀ c, ((splitting build handler).restrict fun c label ↦
        ∀ pk ∈ label, InRange handler c pk).Reachable c →
          ∀ pk, InRange handler c pk → ¬ CompletesLast c pk → SplitSound handler c pk := by
  refine ⟨fun c pk ↦ splitSound_iff_guarded hhandler, fun c hc pk hrange hlast ↦ ?_⟩
  rw [splitSound_iff_guarded hhandler]
  by_cases hlim : SplitLimited handler c.state.splits pk
  · exact Or.inl hlim
  · exact Or.inr ⟨(entriesOpen_of_reachable hc).findsSlot hrange hlim, hlast⟩

/-- The first of two fragments does no harm to a new connection, nor does one out of range that
finds its entry. -/
theorem splitSound_iff_opening :
    SplitSound .forwarding (new 1492) (opening 0) ∧ ∃ c, (0 : UInt16) ∈ c.state.splits ∧
      SplitSound .forwarding c { opening 0 with splitIndex := 5 } := by
  have hplain : Plain .forwarding :=
    ⟨fun _ _ h ↦ (by cases h), fun _ _ _ h ↦ (by cases h)⟩
  obtain ⟨hiff, hrun⟩ := splitSound_iff .debug hplain
  refine ⟨(hiff (new 1492) (opening 0)).mpr (Or.inr ⟨?_, fun h ↦ ?_⟩), ?_⟩
  · exact (by decide : (0 : UInt32) < 2)
  · exact h.full (by decide)
  let c := (receiveSplitPacket .debug .forwarding (opening 0) (new 1492)).1
  have hr : ((splitting .debug .forwarding).restrict fun c label ↦
      ∀ pk ∈ label, InRange .forwarding c pk).Reachable c := by
    refine .step (a := some (opening 0)) (.init ⟨1492, rfl⟩) ⟨?_, rfl⟩
    rintro pk ⟨⟩ - -
    exact (by decide : (0 : UInt32) < 2)
  have hmem : (0 : UInt16) ∈ c.state.splits := by decide
  refine ⟨c, hmem, hrun c hr _ (fun _ hnot ↦ absurd hmem hnot) fun h ↦ h.inRange ?_⟩
  exact (by decide : IndexOutOfRange c.state.splits { opening 0 with splitIndex := 5 })

/-- A fragment that announces none makes a new connection underflow.  One whose index is out of
range is refused, and its entry is open all the same. -/
theorem outOfRange_opens_entry :
    let handler : ConnectionHandler := .forwarding
    (calls .debug handler).Reachable (new 1492) ∧
      (receiveSplitPacket .debug handler { opening 0 with splitCount := 0 } (new 1492)).2 =
        panicked ∧
      ∃ c' text, receiveSplitPacket .debug handler { opening 0 with splitIndex := 5 } (new 1492) =
          (c', err (.splitPacket text)) ∧
        c'.state.splits ≠ (new 1492).state.splits := by
  refine ⟨.init ⟨1492, rfl⟩, rfl, _, _, Prod.ext rfl rfl, fun h ↦ ?_⟩
  have hlookup := congrArg (fun m : HashMap UInt16 (List Bytes) ↦ m.lookup 0) h
  exact absurd hlookup (by decide)

end Conn

end Ragnet

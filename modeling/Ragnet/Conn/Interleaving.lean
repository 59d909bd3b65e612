import Ragnet.Conn.Completion
import Ragnet.Conn.Reassembly

/-!
# Reassembly of several messages at a time

The fragments of several split messages arrive interleaved, in any order and some of them more than
once.  The invariant is about each message on its own: its entry holds the fragments that have come,
and there is none before the first and after the last of them.
-/

namespace Ragnet.Conn

open Proc Slots Wire

/-- A message that has been cut into several fragments, and the reliability of their packets. -/
structure SplitMessage where
  payload : Bytes
  fragments : List Bytes
  orderIndex : Uint24
  reliability : UInt8
  splitId : UInt16
  flatten_eq : fragments.flatten = payload
  ne_nil : ∀ f ∈ fragments, f ≠ []
  several : fragments.length > 1

namespace SplitMessage

def packet (m : SplitMessage) (messageIndex : Uint24) (i : Nat) (content : Bytes) : Packet :=
  { Packet.new with
    content := content
    orderIndex := m.orderIndex
    messageIndex := messageIndex
    reliability := m.reliability
    split := true
    splitCount := UInt32.ofNat m.fragments.length
    splitIndex := UInt32.ofNat i
    splitId := m.splitId }

def combined (m : SplitMessage) : Packet :=
  { Packet.new with
    content := m.payload, orderIndex := m.orderIndex, reliability := m.reliability }

theorem length_pos (m : SplitMessage) : 0 < m.fragments.length := Nat.zero_lt_of_lt m.several

/-- Whatever `split` cuts into several fragments is one. -/
theorem exists_of_split {build : Build} {mtu : Nat} {payload : Bytes} {fragments : List Bytes}
    (hmtu : 25 ≤ mtu) (hpayload : payload ≠ []) (h : split build payload mtu = .ok fragments)
    (hseveral : fragments.length > 1) (orderIndex : Uint24) (reliability : UInt8)
    (splitId : UInt16) :
    ∃ m : SplitMessage, m.payload = payload ∧ m.fragments = fragments ∧
      m.orderIndex = orderIndex ∧ m.reliability = reliability ∧ m.splitId = splitId := by
  obtain ⟨fragments', h', -, hflatten, hne, -⟩ := split_spec build hmtu hpayload
  obtain rfl := Except.ok.inj (h.symm.trans h')
  exact ⟨⟨payload, fragments, orderIndex, reliability, splitId, hflatten, hne, hseveral⟩,
    rfl, rfl, rfl, rfl, rfl⟩

end SplitMessage

/-- A fragment of a message, in a packet. -/
structure Fragment where
  message : SplitMessage
  index : Nat
  content : Bytes
  messageIndex : Uint24
  get_eq : message.fragments[index]? = some content

namespace Fragment

def packet (self : Fragment) : Packet :=
  self.message.packet self.messageIndex self.index self.content

end Fragment

/-- The indices of the fragments of a message that have come. -/
def come (arrivals : List Fragment) (m : SplitMessage) : List Nat :=
  (arrivals.filter fun a ↦ a.message.splitId = m.splitId).map Fragment.index

def Complete (arrivals : List Fragment) (m : SplitMessage) : Prop :=
  ∀ i < m.fragments.length, i ∈ come arrivals m

instance (arrivals : List Fragment) (m : SplitMessage) : Decidable (Complete arrivals m) :=
  inferInstanceAs (Decidable (∀ i < _, _))

/-- Fragments of the messages in any order, each any number of times until its message is
complete. -/
structure Interleaving (messages : List SplitMessage) (arrivals : List Fragment) : Prop where
  mem : ∀ a ∈ arrivals, a.message ∈ messages
  incomplete : ∀ before a later, arrivals = before ++ a :: later → ¬ Complete before a.message

/-- Split messages with different ids, for which no entries are open, within the limits: the entries
that are open for other ids count too.  An announced count has 32 bits. -/
structure Admissible (handler : ConnectionHandler) (c : Conn) (messages : List SplitMessage) :
    Prop where
  nodup : (messages.map SplitMessage.splitId).Nodup
  not_open : ∀ m ∈ messages, c.state.splits.lookup m.splitId = none
  count_lt : ∀ m ∈ messages, m.fragments.length < 2 ^ 32
  limits : handler.limitsEnabled = true →
    c.state.splits.len + messages.length ≤ maxConcurrentSplits ∧
      ∀ m ∈ messages, m.fragments.length ≤ maxSplitCount.toNat

/-- What the packets that have arrived make of a connection. -/
def arrived (build : Build) (handler : ConnectionHandler) (arrivals : List Fragment) (c : Conn) :
    Conn :=
  deliver build handler (arrivals.map Fragment.packet) c

/-- Each fragment that completes its message hands it on and removes its entry, each other one only
changes the entry of its message, and once all are complete there is nothing left of them. -/
structure Reassembles (build : Build) (handler : ConnectionHandler) (c : Conn)
    (messages : List SplitMessage) (arrivals : List Fragment) : Prop where
  completes : ∀ before a later, arrivals = before ++ a :: later →
    Complete (before ++ [a]) a.message →
      receiveSplitPacket build handler a.packet (arrived build handler before c) =
        receivePacket build handler a.message.combined
          { arrived build handler before c with
            state.splits := (arrived build handler before c).state.splits.erase a.message.splitId
            reassembled :=
              (arrived build handler before c).reassembled ++ [a.message.combined] } ∧
      (receiveSplitPacket build handler a.packet (arrived build handler before c)).1.state.splits =
        (arrived build handler before c).state.splits.erase a.message.splitId
  waits : ∀ before a later, arrivals = before ++ a :: later →
    ¬ Complete (before ++ [a]) a.message →
      ∃ slots, receiveSplitPacket build handler a.packet (arrived build handler before c) =
        ({ arrived build handler before c with
            state.splits :=
              (arrived build handler before c).state.splits.insert a.message.splitId slots },
          .ok ())
  ends : (∀ m ∈ messages, Complete arrivals m) →
    (arrived build handler arrivals c).state.splits = c.state.splits ∧
      ∃ order : List SplitMessage, order.Perm messages ∧
        (arrived build handler arrivals c).reassembled =
          c.reassembled ++ order.map SplitMessage.combined

section Come

variable {arrivals : List Fragment} {a : Fragment} {m : SplitMessage}

theorem come_concat_of_eq (h : a.message.splitId = m.splitId) :
    come (arrivals ++ [a]) m = come arrivals m ++ [a.index] := by
  rw [come, List.filter_append, List.filter_cons_of_pos (by simpa using h), List.map_append]
  rfl

theorem come_concat_of_ne (h : a.message.splitId ≠ m.splitId) :
    come (arrivals ++ [a]) m = come arrivals m := by
  rw [come, List.filter_append, List.filter_cons_of_neg (by simpa using h)]
  exact congrArg _ (List.append_nil _)

/-- A message without fragments does not exist. -/
theorem not_complete_of_come_nil (h : come arrivals m = []) : ¬ Complete arrivals m := fun hc ↦ by
  have hmem := hc 0 m.length_pos
  rw [h] at hmem
  exact List.not_mem_nil hmem

end Come

theorem arrived_concat (build : Build) (handler : ConnectionHandler) (arrivals : List Fragment)
    (a : Fragment) (c : Conn) :
    arrived build handler (arrivals ++ [a]) c =
      (receiveSplitPacket build handler a.packet (arrived build handler arrivals c)).1 := by
  rw [arrived, arrived, deliver, deliver, List.map_append, List.foldl_append]
  rfl

/-! ## The invariant -/

/-- The entry of a message: it holds what has come, unless nothing has or everything has. -/
inductive EntryOf (arrivals : List Fragment) (m : SplitMessage) : Option (List Bytes) → Prop
  | unopened : come arrivals m = [] → EntryOf arrivals m none
  | waiting {slots : List Bytes} :
      Holding [] m.fragments (come arrivals m) slots → ¬ Complete arrivals m →
        EntryOf arrivals m (some slots)
  | completed : Complete arrivals m → EntryOf arrivals m none

/-- Each message has its entry, all other entries are as they were, and the messages that are
complete have been put together, each once. -/
structure Tracks (messages : List SplitMessage) (c : Conn) (arrivals : List Fragment) (c' : Conn) :
    Prop where
  entry : ∀ m ∈ messages, EntryOf arrivals m (c'.state.splits.lookup m.splitId)
  other : ∀ id, (∀ m ∈ messages, m.splitId ≠ id) →
    c'.state.splits.lookup id = c.state.splits.lookup id
  reassembled : ∃ order : List SplitMessage,
    c'.reassembled = c.reassembled ++ order.map SplitMessage.combined ∧ order.Nodup ∧
      ∀ m, m ∈ order ↔ m ∈ messages ∧ Complete arrivals m

variable {build : Build} {handler : ConnectionHandler} {messages : List SplitMessage} {c c' : Conn}
  {arrivals : List Fragment} {a : Fragment}

/-- Messages with the same id are the same. -/
theorem Admissible.eq_of_splitId (h : Admissible handler c messages) {m m' : SplitMessage}
    (hm : m ∈ messages) (hm' : m' ∈ messages) (hid : m.splitId = m'.splitId) : m = m' :=
  List.inj_on_of_nodup_map h.nodup hm hm' hid

theorem Admissible.tracks_nil (h : Admissible handler c messages) : Tracks messages c [] c where
  entry m hm := by
    rw [h.not_open m hm]
    exact .unopened rfl
  other _ _ := rfl
  reassembled := by
    refine ⟨[], (List.append_nil _).symm, List.nodup_nil, fun m ↦ ?_⟩
    exact iff_of_false List.not_mem_nil fun hm ↦ not_complete_of_come_nil rfl hm.2

/-- No more entries are open than there were and there are messages. -/
theorem Tracks.len_le (h : Tracks messages c arrivals c') :
    c'.state.splits.len ≤ c.state.splits.len + messages.length := by
  have hsubset : c'.state.splits.keys ⊆
      c.state.splits.keys ∪ (messages.map SplitMessage.splitId).toFinset := by
    intro id hid
    rw [Finset.mem_union, List.mem_toFinset, List.mem_map]
    by_cases hm : ∃ m ∈ messages, m.splitId = id
    · exact Or.inr hm
    · refine Or.inl ?_
      have hsame := h.other id fun m hm' he ↦ hm ⟨m, hm', he⟩
      rw [Finmap.mem_keys, ← Finmap.lookup_isSome] at hid ⊢
      rwa [← hsame]
  refine (Finset.card_le_card hsubset).trans ((Finset.card_union_le _ _).trans ?_)
  have hcard := (messages.map SplitMessage.splitId).toFinset_card_le
  rw [List.length_map] at hcard
  exact Nat.add_le_add_left hcard _

/-- So the limits refuse no fragment. -/
theorem Admissible.not_splitLimited (hadm : Admissible handler c messages)
    (h : Tracks messages c arrivals c') (ha : a.message ∈ messages) :
    ¬ SplitLimited handler c'.state.splits a.packet := by
  intro hlim
  obtain ⟨hlen, hcount⟩ := hadm.limits hlim.2
  refine not_splitLimited_of_le ?_ (h.len_le.trans hlen) hlim
  rw [Fragment.packet, SplitMessage.packet]
  dsimp only
  rw [UInt32.toNat_ofNat_of_lt' (hadm.count_lt _ ha)]
  exact hcount _ ha

/-- The slots that a fragment goes into hold what has come. -/
theorem Admissible.holding (hadm : Admissible handler c messages)
    (h : Tracks messages c arrivals c') (ha : a.message ∈ messages)
    (hopen : ¬ Complete arrivals a.message) :
    Holding [] a.message.fragments (come arrivals a.message)
      (fragmentsOf c'.state.splits a.packet) := by
  have hentry := h.entry _ ha
  rw [Fragment.packet, SplitMessage.packet, Conn.fragmentsOf]
  dsimp only
  generalize c'.state.splits.lookup a.message.splitId = entry at hentry ⊢
  cases hentry with
  | unopened hnil =>
      dsimp only
      rw [UInt32.toNat_ofNat_of_lt' (hadm.count_lt _ ha), hnil]
      exact .replicate [] _
  | waiting hholding _ => exact hholding
  | completed hcomplete => exact absurd hcomplete hopen

/-- The slots with the fragment in it hold one more, and they are full once all have come. -/
theorem Admissible.reassemble (build : Build) (hadm : Admissible handler c messages)
    (h : Tracks messages c arrivals c') (ha : a.message ∈ messages)
    (hopen : ¬ Complete arrivals a.message) :
    (Complete (arrivals ++ [a]) a.message →
      Conn.reassemble build handler a.packet c' =
        ({ c' with
            state.splits := c'.state.splits.erase a.message.splitId
            reassembled := c'.reassembled ++ [a.message.combined] },
          .ok (some a.message.combined))) ∧
    (¬ Complete (arrivals ++ [a]) a.message →
      ∃ slots, Holding [] a.message.fragments (come (arrivals ++ [a]) a.message) slots ∧
        Conn.reassemble build handler a.packet c' =
          ({ c' with state.splits := c'.state.splits.insert a.message.splitId slots },
            .ok none)) := by
  have hlt := hadm.count_lt _ ha
  have hlim := hadm.not_splitLimited h ha
  have hold := hadm.holding h ha hopen
  have hbound : a.index < a.message.fragments.length := (List.getElem?_eq_some_iff.mp a.get_eq).1
  have hindex : a.packet.splitIndex.toNat = a.index := by
    exact UInt32.toNat_ofNat_of_lt' (hbound.trans hlt)
  have hcontent : a.packet.content = a.content := rfl
  have hid : a.packet.splitId = a.message.splitId := rfl
  have hne : a.content ≠ [] := a.message.ne_nil _ (List.mem_of_getElem? a.get_eq)
  have hset : Holding [] a.message.fragments (come (arrivals ++ [a]) a.message)
      ((fragmentsOf c'.state.splits a.packet).set a.index a.content) := by
    rw [come_concat_of_eq rfl]
    exact hold.set a.get_eq hne
  have hmem := hset.empty_mem_iff
  rw [reassemble_slots build hlim rfl (hold.length_eq ▸ hlt) (by rwa [hindex, hold.length_eq]),
    hindex, hcontent, hid]
  constructor
  · intro hcomplete
    have hfull : [] ∉ (fragmentsOf c'.state.splits a.packet).set a.index a.content := fun he ↦
      hmem.mp he hcomplete
    have hcombined : combinedPacket a.packet
        ((fragmentsOf c'.state.splits a.packet).set a.index a.content) = a.message.combined := by
      rw [combinedPacket, hset.eq_of_full fun x hx he ↦ hfull (he ▸ hx), a.message.flatten_eq]
      rfl
    rw [if_neg hfull, hcombined]
  · intro hincomplete
    rw [if_pos (hmem.mpr hincomplete)]
    exact ⟨_, hset, rfl⟩

/-- The rest of the call hands the message on, and leaves the entries alone. -/
theorem Admissible.receiveSplitPacket (build : Build) (hadm : Admissible handler c messages)
    (h : Tracks messages c arrivals c') (ha : a.message ∈ messages)
    (hopen : ¬ Complete arrivals a.message) :
    (Complete (arrivals ++ [a]) a.message →
      Conn.receiveSplitPacket build handler a.packet c' =
        receivePacket build handler a.message.combined
          { c' with
            state.splits := c'.state.splits.erase a.message.splitId
            reassembled := c'.reassembled ++ [a.message.combined] } ∧
      (Conn.receiveSplitPacket build handler a.packet c').1.state.splits =
        c'.state.splits.erase a.message.splitId) ∧
    (¬ Complete (arrivals ++ [a]) a.message →
      ∃ slots, Conn.receiveSplitPacket build handler a.packet c' =
        ({ c' with state.splits := c'.state.splits.insert a.message.splitId slots }, .ok ())) := by
  obtain ⟨hcomplete, hincomplete⟩ := hadm.reassemble build h ha hopen
  refine ⟨fun hc ↦ ?_, fun hn ↦ ?_⟩
  · have hr := hcomplete hc
    refine ⟨?_, ?_⟩
    · rw [Conn.receiveSplitPacket, bind_ok hr]
    · rw [(receiveSplitPacket_fst build handler a.packet c').1, hr]
  · obtain ⟨slots, -, hr⟩ := hincomplete hn
    refine ⟨slots, ?_⟩
    rw [Conn.receiveSplitPacket, bind_ok hr]
    rfl

/-- What a fragment of another message does not touch. -/
theorem EntryOf.concat_of_ne {m : SplitMessage} {entry : Option (List Bytes)}
    (h : EntryOf arrivals m entry) (hne : a.message.splitId ≠ m.splitId) :
    EntryOf (arrivals ++ [a]) m entry := by
  have hcome := @come_concat_of_ne arrivals a m hne
  cases h with
  | unopened hnil => exact .unopened (hcome.trans hnil)
  | waiting hold hn =>
      refine .waiting (by rwa [hcome]) ?_
      rwa [Complete, hcome]
  | completed hc =>
      refine .completed ?_
      rwa [Complete, hcome]

/-- The messages that are complete after one more fragment. -/
theorem Admissible.complete_concat_iff (hadm : Admissible handler c messages)
    (ha : a.message ∈ messages) {m : SplitMessage} (hm : m ∈ messages) (hne : m ≠ a.message) :
    Complete (arrivals ++ [a]) m ↔ Complete arrivals m := by
  have hid : a.message.splitId ≠ m.splitId := fun hid ↦ hne (hadm.eq_of_splitId hm ha hid.symm)
  rw [Complete, Complete, come_concat_of_ne hid]

/-- One more fragment. -/
theorem Tracks.concat (build : Build) (hadm : Admissible handler c messages)
    (h : Tracks messages c arrivals c') (ha : a.message ∈ messages)
    (hopen : ¬ Complete arrivals a.message) :
    Tracks messages c (arrivals ++ [a])
      (Conn.receiveSplitPacket build handler a.packet c').1 := by
  obtain ⟨hsplits, hreassembled⟩ := receiveSplitPacket_fst build handler a.packet c'
  obtain ⟨hcomplete, hincomplete⟩ := hadm.reassemble build h ha hopen
  obtain ⟨order, horder, hnodup, hmem⟩ := h.reassembled
  by_cases hc : Complete (arrivals ++ [a]) a.message
  · have hr := hcomplete hc
    rw [hr] at hsplits hreassembled
    refine ⟨fun m hm ↦ ?_, fun id hid ↦ ?_, order ++ [a.message], ?_, ?_, fun m ↦ ?_⟩
    · rw [hsplits]
      by_cases heq : m = a.message
      · rw [heq, Finmap.lookup_erase]
        exact .completed hc
      · have hne : m.splitId ≠ a.message.splitId := fun hid ↦ heq (hadm.eq_of_splitId hm ha hid)
        rw [Finmap.lookup_erase_ne hne]
        exact (h.entry m hm).concat_of_ne hne.symm
    · rw [hsplits, Finmap.lookup_erase_ne (hid _ ha).symm]
      exact h.other id hid
    · rw [hreassembled, horder, List.map_append, List.append_assoc]
      rfl
    · refine hnodup.append (List.nodup_singleton _) fun m hm hm' ↦ ?_
      rw [List.mem_singleton.mp hm'] at hm
      exact hopen ((hmem _).mp hm).2
    · rw [List.mem_append, List.mem_singleton]
      by_cases heq : m = a.message
      · rw [heq]
        exact iff_of_true (Or.inr rfl) ⟨ha, hc⟩
      · rw [hmem m, or_iff_left heq]
        exact and_congr_right fun hm ↦ (hadm.complete_concat_iff ha hm heq).symm
  · obtain ⟨slots, hold, hr⟩ := hincomplete hc
    rw [hr] at hsplits hreassembled
    refine ⟨fun m hm ↦ ?_, fun id hid ↦ ?_, order, hreassembled.trans horder, hnodup, fun m ↦ ?_⟩
    · rw [hsplits]
      by_cases heq : m = a.message
      · rw [heq, Finmap.lookup_insert]
        exact .waiting hold hc
      · have hne : m.splitId ≠ a.message.splitId := fun hid ↦ heq (hadm.eq_of_splitId hm ha hid)
        rw [Finmap.lookup_insert_of_ne _ hne]
        exact (h.entry m hm).concat_of_ne hne.symm
    · rw [hsplits, Finmap.lookup_insert_of_ne _ (hid _ ha).symm]
      exact h.other id hid
    · rw [hmem m]
      refine and_congr_right fun hm ↦ ?_
      by_cases heq : m = a.message
      · rw [heq]
        exact iff_of_false hopen hc
      · exact (hadm.complete_concat_iff ha hm heq).symm

/-! ## Runs -/

/-- An interleaving that stops earlier. -/
theorem Interleaving.before {before later : List Fragment}
    (h : Interleaving messages (before ++ later)) : Interleaving messages before where
  mem a ha := h.mem a (List.mem_append_left _ ha)
  incomplete before' a later' he := by
    refine h.incomplete before' a (later' ++ later) ?_
    rw [he, List.append_assoc, List.cons_append]

theorem Admissible.tracks (build : Build) (hadm : Admissible handler c messages)
    (h : Interleaving messages arrivals) :
    Tracks messages c arrivals (arrived build handler arrivals c) := by
  induction arrivals using List.reverseRecOn with
  | nil => exact hadm.tracks_nil
  | append_singleton before a ih =>
      rw [arrived_concat]
      exact (ih h.before).concat build hadm (h.mem a (by simp)) (h.incomplete before a [] rfl)

/-- **Messages are put together independently of each other.**  However the fragments of several
split messages are interleaved and repeated, a fragment that does not complete its message only
changes the entry of its own id, and one that does removes this entry and hands the message on.  And
once all messages are complete, each has been put together once, and the open entries are those of
the beginning. -/
theorem reassembles_interleaving (build : Build) (handler : ConnectionHandler) (c : Conn)
    (messages : List SplitMessage) (hadm : Admissible handler c messages) (arrivals : List Fragment)
    (h : Interleaving messages arrivals) : Reassembles build handler c messages arrivals where
  completes before a later he hc := by
    have hbefore : Interleaving messages before := by
      rw [he] at h
      exact h.before
    exact (hadm.receiveSplitPacket build (hadm.tracks build hbefore) (h.mem a (by simp [he]))
      (h.incomplete before a later he)).1 hc
  waits before a later he hn := by
    have hbefore : Interleaving messages before := by
      rw [he] at h
      exact h.before
    exact (hadm.receiveSplitPacket build (hadm.tracks build hbefore) (h.mem a (by simp [he]))
      (h.incomplete before a later he)).2 hn
  ends hall := by
    have htracks := hadm.tracks build h
    obtain ⟨order, horder, hnodup, hmem⟩ := htracks.reassembled
    refine ⟨Finmap.ext_lookup fun id ↦ ?_, order, ?_, horder⟩
    · by_cases hid : ∃ m ∈ messages, m.splitId = id
      · obtain ⟨m, hm, rfl⟩ := hid
        have hentry := htracks.entry m hm
        rw [hadm.not_open m hm]
        generalize (arrived build handler arrivals c).state.splits.lookup m.splitId = entry
          at hentry ⊢
        cases hentry with
        | unopened _ => rfl
        | waiting _ hn => exact absurd (hall m hm) hn
        | completed _ => rfl
      · exact htracks.other id fun m hm he ↦ hid ⟨m, hm, he⟩
    · refine (List.perm_ext_iff_of_nodup hnodup (List.Nodup.of_map _ hadm.nodup)).mpr fun m ↦ ?_
      exact (hmem m).trans (and_iff_left_of_imp (hall m))

/-! ## Messages of two fragments -/

/-- A message of two fragments under an id. -/
def pair (splitId : UInt16) (reliability : UInt8) : SplitMessage where
  payload := [1, 2]
  fragments := [[1], [2]]
  orderIndex := .new 0
  reliability := reliability
  splitId := splitId
  flatten_eq := rfl
  ne_nil := by decide
  several := Nat.lt_succ_self 1

def pairFirst (splitId : UInt16) (reliability : UInt8) : Fragment :=
  ⟨pair splitId reliability, 0, [1], .new 0, rfl⟩

def pairSecond (splitId : UInt16) (reliability : UInt8) : Fragment :=
  ⟨pair splitId reliability, 1, [2], .new 1, rfl⟩

theorem Interleaving.nil : Interleaving messages [] where
  mem _ ha := absurd ha List.not_mem_nil
  incomplete before a later he := by simp at he

theorem Interleaving.concat (h : Interleaving messages arrivals) (ha : a.message ∈ messages)
    (hopen : ¬ Complete arrivals a.message) : Interleaving messages (arrivals ++ [a]) where
  mem a' ha' := by
    rcases List.mem_append.mp ha' with ha' | ha'
    · exact h.mem a' ha'
    · rw [List.mem_singleton.mp ha']
      exact ha
  incomplete before a' later he := by
    rcases List.eq_nil_or_concat later with rfl | ⟨later, last, rfl⟩
    · obtain ⟨rfl, ha'⟩ := List.append_inj' he rfl
      rwa [← (List.cons.inj ha').1]
    · rw [List.concat_eq_append, ← List.cons_append, ← List.append_assoc] at he
      exact h.incomplete before a' later (List.append_inj' he rfl).1

/-- Two messages of different reliabilities, a fragment of the one between those of the other, of
which one comes twice. -/
def twoMessages : List Fragment :=
  [] ++ [pairFirst 0 reliabilityReliableOrdered] ++ [pairFirst 1 reliabilityReliable] ++
    [pairFirst 0 reliabilityReliableOrdered] ++ [pairSecond 1 reliabilityReliable] ++
    [pairSecond 0 reliabilityReliableOrdered]

/-- Neither fragment comes after its message is complete. -/
theorem interleaving_twoMessages :
    Interleaving [pair 0 reliabilityReliableOrdered, pair 1 reliabilityReliable] twoMessages := by
  have h0 : pair 0 reliabilityReliableOrdered ∈
      [pair 0 reliabilityReliableOrdered, pair 1 reliabilityReliable] := List.mem_cons_self
  have h1 : pair 1 reliabilityReliable ∈
      [pair 0 reliabilityReliableOrdered, pair 1 reliabilityReliable] :=
    List.mem_cons_of_mem _ List.mem_cons_self
  have hrun : Interleaving [pair 0 reliabilityReliableOrdered, pair 1 reliabilityReliable]
      ([] ++ [pairFirst 0 reliabilityReliableOrdered] ++ [pairFirst 1 reliabilityReliable] ++
        [pairFirst 0 reliabilityReliableOrdered]) :=
    ((Interleaving.nil.concat h0 (by decide)).concat h1 (by decide)).concat h0 (by decide)
  exact (hrun.concat h1 (by decide)).concat h0 (by decide)

/-- Messages of two fragments are within the limit on fragments. -/
theorem admissible_pair (c : Conn) (messages : List SplitMessage)
    (hpair : ∀ m ∈ messages, ∃ id reliability, m = pair id reliability)
    (hnodup : (messages.map SplitMessage.splitId).Nodup)
    (hopen : ∀ m ∈ messages, c.state.splits.lookup m.splitId = none)
    (hlen : c.state.splits.len + messages.length ≤ maxConcurrentSplits) :
    Admissible .forwarding c messages where
  nodup := hnodup
  not_open := hopen
  count_lt m hm := by
    obtain ⟨id, reliability, rfl⟩ := hpair m hm
    exact (by decide : 2 < 2 ^ 32)
  limits _ := by
    refine ⟨hlen, fun m hm ↦ ?_⟩
    obtain ⟨id, reliability, rfl⟩ := hpair m hm
    exact (by decide : 2 ≤ maxSplitCount.toNat)

theorem reassembles_interleaving_two :
    Reassembles .release .forwarding (new 1492)
      [pair 0 reliabilityReliableOrdered, pair 1 reliabilityReliable] twoMessages := by
  refine reassembles_interleaving .release .forwarding (new 1492) _ ?_ twoMessages
    interleaving_twoMessages
  refine admissible_pair (new 1492) _ (fun m hm ↦ ?_) (by decide) (fun _ _ ↦ rfl) (by decide)
  rcases List.mem_pair.mp hm with rfl | rfl
  · exact ⟨0, _, rfl⟩
  · exact ⟨1, _, rfl⟩

/-- With sixteen entries open for other ids, a single message still opens the seventeenth, and its
second and last fragment is refused. -/
theorem interleaving_refused :
    ∃ c, (calls .release .forwarding).Reachable c ∧
      c.state.splits.lookup (pair 16 3).splitId = none ∧
      Interleaving [pair 16 3] [pairFirst 16 3, pairSecond 16 3] ∧
      Complete [pairFirst 16 3, pairSecond 16 3] (pair 16 3) ∧
      ∃ text, receiveSplitPacket .release .forwarding (pairSecond 16 3).packet
          (arrived .release .forwarding [pairFirst 16 3] c) =
        (arrived .release .forwarding [pairFirst 16 3] c, .error (.error (.splitPacket text))) := by
  obtain ⟨c, hc, hopened⟩ := exists_opened .release .forwarding
    (show 16 ≤ maxConcurrentSplits + 1 by decide)
  have hlookup : c.state.splits.lookup 16 = none :=
    (hopened.lookup 16).trans (if_neg (by decide))
  have hmem : pair 16 3 ∈ [pair 16 3] := List.mem_cons_self
  have hrun : Interleaving [pair 16 3] ([] ++ [pairFirst 16 3] ++ [pairSecond 16 3]) :=
    (Interleaving.nil.concat hmem (by decide)).concat hmem (by decide)
  have hlim : ¬ SplitLimited .forwarding c.state.splits (pairFirst 16 3).packet :=
    not_splitLimited_of_le (by decide : 2 ≤ 512) (hopened.len.trans_le (by decide))
  have hfragments : fragmentsOf c.state.splits (pairFirst 16 3).packet = [[], []] := by
    rw [fragmentsOf, show (pairFirst 16 3).packet.splitId = 16 from rfl, hlookup]
    rfl
  have hreassemble : reassemble .release .forwarding (pairFirst 16 3).packet c =
      ({ c with state.splits := c.state.splits.insert 16 [[1], []] }, .ok none) :=
    reassemble_slots .release hlim hfragments (by decide : 2 < 2 ^ 32) (by decide : 0 < 2)
  have hfirst : arrived .release .forwarding [pairFirst 16 3] c =
      { c with state.splits := c.state.splits.insert 16 [[1], []] } := by
    change (receiveSplitPacket .release .forwarding (pairFirst 16 3).packet c).1 = _
    rw [receiveSplitPacket, bind_ok hreassemble]
    rfl
  have hfull : HashMap.len (c.state.splits.insert 16 [[1], []]) = 17 := by
    rw [HashMap.len_insert_of_notMem (Finmap.lookup_eq_none.mp hlookup), hopened.len]
  refine ⟨c, hc, hlookup, hrun, by decide, ?_⟩
  rw [hfirst]
  obtain ⟨text, hrefused⟩ := @reassemble_limited .release .forwarding
    { c with state.splits := c.state.splits.insert 16 [[1], []] } (pairSecond 16 3).packet
    ⟨Or.inr (by rw [gt_iff_lt, hfull]; decide), rfl⟩
  exact ⟨text, by rw [receiveSplitPacket, bind_error hrefused]⟩

end Ragnet.Conn

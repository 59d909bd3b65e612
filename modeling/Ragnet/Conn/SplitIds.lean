import Ragnet.Conn.Reassembly
import Ragnet.Lib.Lts

/-!
# Split ids that come round again

The split id of a message has 16 bits, so a sender uses the same id again after `2 ^ 16` split
messages.  This is harmless as long as a fragment never meets an entry that a fragment of another
message has opened.  It does meet one when a late duplicate has opened an entry for a message that
was complete, and the id has come round in the meantime.
-/

namespace Ragnet.Conn

open Ledger Proc Wire

/-- A sender of split messages, a receiver of their fragments, and two records about the messages,
which are given by position: which are complete, and which one has opened the entry of an id. -/
structure Exchange where
  sender : Sender
  receiver : Conn
  completed : Nat → Bool
  opened : UInt16 → Nat

namespace Exchange

/-- A split message is written, or a fragment arrives. -/
inductive Event where
  | write (env : Env) (data : Bytes)
  | arrive (j i : Nat) (messageIndex : Uint24)

def completes (build : Build) (handler : ConnectionHandler) (pk : Packet) (c : Conn) : Bool :=
  match (reassemble build handler pk c).2 with
  | .ok (some _) => true
  | _ => false

def arrive (build : Build) (handler : ConnectionHandler) (j : Nat) (pk : Packet)
    (self : Exchange) : Exchange where
  sender := self.sender
  receiver := (receiveSplitPacket build handler pk self.receiver).1
  completed :=
    if completes build handler pk self.receiver then Function.update self.completed j true
    else self.completed
  opened :=
    if self.receiver.state.splits.lookup pk.splitId = none then
      Function.update self.opened pk.splitId j
    else self.opened

/-- All runs in which a split id is used again only when all messages with this id are complete,
and in which the fragments that have been sent arrive in any order and any number of times. -/
inductive Step (build : Build) (handler : ConnectionHandler) : Exchange → Event → Exchange → Prop
  | write {s : Exchange} {env : Env} {m : Message} {sender : Sender} :
      m.IsSplit → Starts build s.sender.conn (.writeLocked env m.payload) [m] →
        (∀ j m', s.sender.messages[j]? = some m' → m'.splitId = m.splitId →
          s.completed j = true) →
        sender = ⟨(SendCall.writeLocked env m.payload).run build s.sender.conn,
          s.sender.messages ++ [m]⟩ →
        Step build handler s (.write env m.payload) { s with sender := sender }
  | arrive {s : Exchange} {m : Message} {j i n : Nat} {content : Bytes} {messageIndex : Uint24} :
      s.sender.messages[j]? = some m → m.fragments[i]? = some content →
        .emit n (m.packet messageIndex i content) ∈ s.sender.conn.sends →
          Step build handler s (.arrive j i messageIndex)
            (s.arrive build handler j (m.packet messageIndex i content))

def exchanges (build : Build) (handler : ConnectionHandler) : Lts Exchange Event where
  init s := ∃ mtu mtu', s = ⟨⟨new mtu, []⟩, new mtu', fun _ ↦ false, fun _ ↦ 0⟩
  step := Step build handler

/-- A message has at most `2 ^ 32` fragments, and a fragment that meets an open entry is of the
message that opened it, unless a limit refuses it. -/
def Orderly (build : Build) (handler : ConnectionHandler) (s : Exchange) : Event → Prop
  | .write _ data => ∀ fragments, split build data s.sender.conn.mtu.effective = .ok fragments →
      fragments.length ≤ 2 ^ 32
  | .arrive j i messageIndex => ∀ m content, s.sender.messages[j]? = some m →
      m.fragments[i]? = some content →
        ¬ SplitLimited handler s.receiver.state.splits (m.packet messageIndex i content) →
          s.receiver.state.splits.lookup m.splitId ≠ none → s.opened m.splitId = j

/-! ## Orderly runs -/

/-- Every entry belongs to the message that opened it, and what has been put together are
messages. -/
structure Sound (s : Exchange) : Prop where
  isSplit : ∀ m ∈ s.sender.messages, m.IsSplit
  count_le : ∀ m ∈ s.sender.messages, m.fragments.length ≤ 2 ^ 32
  entries : ∀ id slots, s.receiver.state.splits.lookup id = some slots →
    ∃ m, s.sender.messages[s.opened id]? = some m ∧ Entry m slots
  reassembled : ∀ pk ∈ s.receiver.reassembled, ∃ m ∈ s.sender.messages, pk.content = m.payload

variable {build : Build} {handler : ConnectionHandler} {s s' : Exchange} {e : Event}

theorem Sound.write (h : s.Sound) {m : Message} {sender : Sender}
    (hs : sender.messages = s.sender.messages ++ [m]) (hm : m.IsSplit)
    (hcount : m.fragments.length ≤ 2 ^ 32) : Sound { s with sender := sender } where
  isSplit m' hm' := by
    rw [hs, List.mem_append, List.mem_singleton] at hm'
    rcases hm' with hm' | rfl
    · exact h.isSplit m' hm'
    · exact hm
  count_le m' hm' := by
    rw [hs, List.mem_append, List.mem_singleton] at hm'
    rcases hm' with hm' | rfl
    · exact h.count_le m' hm'
    · exact hcount
  entries id slots hl := by
    obtain ⟨m', hm', hentry⟩ := h.entries id slots hl
    refine ⟨m', ?_, hentry⟩
    change sender.messages[s.opened id]? = some m'
    rw [hs]
    exact List.getElem?_append_left (List.getElem?_eq_some_iff.mp hm').1 ▸ hm'
  reassembled pk hpk := by
    obtain ⟨m', hm', hc⟩ := h.reassembled pk hpk
    exact ⟨m', hs ▸ List.mem_append_left _ hm', hc⟩

/-- An orderly arrival meets no entry of another message. -/
theorem Sound.owns (h : s.Sound) {m : Message} {j : Nat} (hm : s.sender.messages[j]? = some m)
    (hok : s.receiver.state.splits.lookup m.splitId ≠ none → s.opened m.splitId = j) :
    Owns m s.receiver.state.splits := by
  intro slots hl
  obtain ⟨m', hm', hentry⟩ := h.entries m.splitId slots hl
  rw [hok (by rw [hl]; exact Option.some_ne_none _), hm] at hm'
  obtain rfl := Option.some.inj hm'
  exact hentry

/-- A fragment that a limit refuses changes no entry. -/
theorem Sound.arrive_limited (h : s.Sound) {j : Nat} {pk : Packet}
    (hlim : SplitLimited handler s.receiver.state.splits pk) :
    (s.arrive build handler j pk).Sound := by
  obtain ⟨hsplits, hre⟩ := receiveSplitPacket_fst build handler pk s.receiver
  obtain ⟨text, hr⟩ := reassemble_limited build hlim
  rw [hr] at hsplits hre
  refine ⟨h.isSplit, h.count_le, fun id slots hl ↦ ?_, fun pk' hpk ↦ ?_⟩
  · change (receiveSplitPacket build handler pk s.receiver).1.state.splits.lookup id = some slots
      at hl
    rw [hsplits] at hl
    have hopened : (s.arrive build handler j pk).opened id = s.opened id := by
      change (if _ then Function.update s.opened _ j else s.opened) id = _
      split
      · next hnone =>
        refine Function.update_of_ne (fun heq ↦ ?_) _ _
        rw [heq, hnone] at hl
        cases hl
      · rfl
    rw [hopened]
    exact h.entries id slots hl
  · change pk' ∈ (receiveSplitPacket build handler pk s.receiver).1.reassembled at hpk
    rw [hre] at hpk
    exact h.reassembled pk' hpk

theorem Sound.arrive (h : s.Sound) {m : Message} {j i : Nat} {content : Bytes}
    (messageIndex : Uint24) (hm : s.sender.messages[j]? = some m)
    (hi : m.fragments[i]? = some content)
    (hok : s.receiver.state.splits.lookup m.splitId ≠ none → s.opened m.splitId = j) :
    (s.arrive build handler j (m.packet messageIndex i content)).Sound := by
  have hmem := List.mem_of_getElem? hm
  have hid : (m.packet messageIndex i content).splitId = m.splitId := by
    rw [Message.packet_split (h.isSplit m hmem)]
  have hout := @reassemble_owned build handler m s.receiver i content messageIndex (h.owns hm hok)
    (h.isSplit m hmem) (h.count_le m hmem) hi
  obtain ⟨hsplits, hre⟩ := receiveSplitPacket_fst build handler
    (m.packet messageIndex i content) s.receiver
  -- an entry of another id keeps its owner
  have hopened (id : UInt16) (hne : id ≠ m.splitId) :
      (s.arrive build handler j (m.packet messageIndex i content)).opened id = s.opened id := by
    change (if _ then Function.update s.opened _ j else s.opened) id = _
    split
    · exact Function.update_of_ne (hid ▸ hne) _ _
    · rfl
  -- an open entry of this id belongs to this message afterwards
  have hown :
      (s.arrive build handler j (m.packet messageIndex i content)).opened m.splitId = j := by
    change (if _ then Function.update s.opened _ j else s.opened) m.splitId = j
    rw [hid]
    by_cases hl : s.receiver.state.splits.lookup m.splitId = none
    · rw [if_pos hl, Function.update_self]
    · rw [if_neg hl]
      exact hok hl
  refine ⟨h.isSplit, h.count_le, fun id slots hl ↦ ?_, fun pk hpk ↦ ?_⟩
  · change (receiveSplitPacket build handler (m.packet messageIndex i content)
      s.receiver).1.state.splits.lookup id = some slots at hl
    rw [hsplits] at hl
    by_cases heq : id = m.splitId
    · subst heq
      rw [hown]
      exact ⟨m, hm, hout.owns (h.owns hm hok) slots hl⟩
    · rw [hopened id heq]
      exact h.entries id slots ((hout.lookup_of_ne heq).symm.trans hl)
  · change pk ∈ (receiveSplitPacket build handler (m.packet messageIndex i content)
      s.receiver).1.reassembled at hpk
    rw [hre] at hpk
    rcases hout.mem_reassembled hpk with hpk | rfl
    · exact h.reassembled pk hpk
    · exact ⟨m, hmem, rfl⟩

theorem sound_of_reachable
    (h : ((exchanges build handler).restrict (Orderly build handler)).Reachable s) : s.Sound := by
  refine h.invariant ?_ ?_
  · rintro _ ⟨mtu, mtu', rfl⟩
    exact
      { isSplit := fun _ hm ↦ absurd hm List.not_mem_nil
        count_le := fun _ hm ↦ absurd hm List.not_mem_nil
        entries := fun _ _ hl ↦ by cases hl
        reassembled := fun _ hpk ↦ absurd hpk List.not_mem_nil }
  · rintro s e s' - hs ⟨hok, hstep⟩
    cases hstep with
    | @write env m sender hm hstarts hids hsender =>
        obtain ⟨m', hm', -, hf, -, -⟩ := hstarts.of_writeLocked
        obtain rfl := (List.cons.inj hm').1
        exact hs.write (by rw [hsender]) hm (hok m.fragments hf)
    | @arrive m j i n content messageIndex hm hi hsent =>
        by_cases hlim : SplitLimited handler s.receiver.state.splits
            (m.packet messageIndex i content)
        · exact hs.arrive_limited hlim
        · exact hs.arrive messageIndex hm hi (hok m content hm hi hlim)

/-- **What is put together is a message.**  In every orderly run, each content that the receiver
combines from fragments is the content of a message that was written. -/
theorem reassembles_messages
    (h : ((exchanges build handler).restrict (Orderly build handler)).Reachable s) :
    ∀ pk ∈ s.receiver.reassembled, ∃ m ∈ s.sender.messages, pk.content = m.payload :=
  (sound_of_reachable h).reassembled

/-! ## A run that is not orderly -/

/-- A message of two fragments for the smallest MTU. -/
def fill (b : UInt8) : Bytes := List.replicate 359 b

def halves (b : UInt8) : List Bytes := [List.replicate 348 b, List.replicate 11 b]

theorem split_fill (build : Build) {b : UInt8} (hb : b = 7 ∨ b = 8) :
    Ragnet.split build (fill b) (Mtu.clamp 400).effective = .ok (halves b) := by
  rcases hb with rfl | rfl
  · cases build with
    | debug => decide +kernel
    | release => decide +kernel
  · cases build with
    | debug => decide +kernel
    | release => decide +kernel

/-- A write of such a message. -/
theorem write_fill {c : Conn} (hmtu : c.mtu = Mtu.clamp 400) (env : Env)
    (haccepts : ∀ i, env.accepts i = true) {b : UInt8} (hb : b = 7 ∨ b = 8) :
    ∃ m : Message, m.payload = fill b ∧ m.fragments = halves b ∧
      m.splitId = c.state.splitId.toUInt16 ∧ Starts build c (.writeLocked env m.payload) [m] ∧
      ((SendCall.writeLocked env m.payload).run build c).mtu = Mtu.clamp 400 ∧
      ((SendCall.writeLocked env m.payload).run build c).state.splitId = c.state.splitId + 1 ∧
      c.sends ⊆ ((SendCall.writeLocked env m.payload).run build c).sends ∧
      ∀ i content, m.fragments[i]? = some content → ∃ n messageIndex,
        .emit n (m.packet messageIndex i content) ∈
          ((SendCall.writeLocked env m.payload).run build c).sends := by
  obtain ⟨m, hpayload, hstarts⟩ :=
    @exists_starts_writeLocked build c env (fill b) (by rw [fill]; exact List.cons_ne_nil _ _)
  obtain ⟨m', hm', -, hf, ho, hid⟩ := hstarts.of_writeLocked
  obtain rfl := (List.cons.inj hm').1
  have hsplit := split_fill build hb
  rw [← hmtu] at hsplit
  have hfragments : m.fragments = halves b := Except.ok.inj (hf.symm.trans hsplit)
  have hsteps := @writeLocked_steps (fun _ ↦ True) build env (fill b) c _ hf
    fun _ _ _ _ ↦ trivial
  refine ⟨m, hpayload, hfragments, hid, hpayload ▸ hstarts, ?_, ?_, ?_, ?_⟩
  · rw [hpayload]
    exact (congrArg Receiving.mtu hsteps.receiving_eq).trans hmtu
  · rw [hpayload]
    refine hsteps.counters_eq.2.trans ?_
    rw [hfragments]
    rfl
  · rw [hpayload]
    exact hsteps.sends_subset
  · intro i content hi
    obtain ⟨n, messageIndex, hn⟩ := @writeLocked_emits build env haccepts _ c _ hf _ _ hi
    rw [← hid, ← ho] at hn
    exact ⟨n, messageIndex, hpayload ▸ hn⟩

section Halves

variable {m : Message} {c : Conn} {w x y : Bytes} {messageIndex : Uint24}

theorem isSplit_of_two (hf : m.fragments = [x, y]) : m.IsSplit := by
  rw [Message.IsSplit, hf]
  exact Nat.lt_succ_self 1

/-- Neither limit on split packets concerns a message of two fragments. -/
theorem not_splitLimited (hf : m.fragments = [x, y])
    (hlen : c.state.splits.len ≤ maxConcurrentSplits) (i : Nat) (content : Bytes) :
    ¬ SplitLimited handler c.state.splits (m.packet messageIndex i content) := by
  rw [Message.packet_split (isSplit_of_two hf), hf]
  exact not_splitLimited_of_le (by decide : 2 ≤ 512) hlen

/-- The first of two fragments opens an entry. -/
theorem reassemble_first (hf : m.fragments = [x, y])
    (hlen : c.state.splits.len ≤ maxConcurrentSplits)
    (hl : c.state.splits.lookup m.splitId = none) :
    reassemble build handler (m.packet messageIndex 0 x) c =
      ({ c with state.splits := c.state.splits.insert m.splitId [x, []] }, .ok none) := by
  have hsplit := isSplit_of_two hf
  have hslots : fragmentsOf c.state.splits (m.packet messageIndex 0 x) = [[], []] := by
    rw [Message.packet_split hsplit, fragmentsOf, hf]
    dsimp only
    rw [hl]
    rfl
  have hindex : (m.packet messageIndex 0 x).splitIndex.toNat = 0 := by
    rw [Message.packet_split hsplit]
    rfl
  have hcontent : (m.packet messageIndex 0 x).content = x := by rw [Message.packet_split hsplit]
  rw [reassemble_slots build (not_splitLimited hf hlen 0 x) hslots (by decide : 2 < 2 ^ 32)
    (by rw [hindex]; exact Nat.two_pos), hindex, hcontent, List.set_cons_zero, if_pos (by simp),
    Message.packet_split hsplit]

/-- The second one completes what the entry holds, whichever message that is of. -/
theorem reassemble_second (hf : m.fragments = [x, y])
    (hlen : c.state.splits.len ≤ maxConcurrentSplits)
    (hl : c.state.splits.lookup m.splitId = some [w, []]) (hw : w ≠ []) :
    reassemble build handler (m.packet messageIndex 1 y) c =
      ({ c with
          state.splits := c.state.splits.erase m.splitId
          reassembled := c.reassembled ++
            [{ Packet.new with content := w ++ y, orderIndex := m.orderIndex }] },
        .ok (some { Packet.new with content := w ++ y, orderIndex := m.orderIndex })) := by
  have hsplit := isSplit_of_two hf
  have hy : y ≠ [] := (m.sendable y (by rw [hf]; simp)).1
  have hslots : fragmentsOf c.state.splits (m.packet messageIndex 1 y) = [w, []] := by
    rw [Message.packet_split hsplit, fragmentsOf]
    dsimp only
    rw [hl]
  have hindex : (m.packet messageIndex 1 y).splitIndex.toNat = 1 := by
    rw [Message.packet_split hsplit]
    rfl
  have hcontent : (m.packet messageIndex 1 y).content = y := by rw [Message.packet_split hsplit]
  have hcombined : combinedPacket (m.packet messageIndex 1 y) [w, y] =
      { Packet.new with content := w ++ y, orderIndex := m.orderIndex } := by
    rw [combinedPacket, Message.packet_split hsplit, List.flatten_cons, List.flatten_singleton]
  rw [reassemble_slots build (not_splitLimited hf hlen 1 y) hslots (by decide : 2 < 2 ^ 32)
    (by rw [hindex]; exact Nat.one_lt_two), hindex, hcontent, List.set_cons_succ,
    List.set_cons_zero, if_neg (by simp [hw.symm, hy.symm]), hcombined,
    Message.packet_split hsplit]

end Halves

def AllSent (sender : Sender) : Prop :=
  ∀ m ∈ sender.messages, ∀ i content, m.fragments[i]? = some content → ∃ n messageIndex,
    .emit n (m.packet messageIndex i content) ∈ sender.conn.sends

/-- Once all messages are complete, another one can be written. -/
theorem write_step (hmtu : s.sender.conn.mtu = Mtu.clamp 400) (hsent : AllSent s.sender)
    (hdone : ∀ j < s.sender.messages.length, s.completed j = true) {b : UInt8}
    (hb : b = 7 ∨ b = 8) :
    ∃ (m : Message) (sender : Sender), m.payload = fill b ∧ m.fragments = halves b ∧
      m.splitId = s.sender.conn.state.splitId.toUInt16 ∧
      sender.messages = s.sender.messages ++ [m] ∧ sender.conn.mtu = Mtu.clamp 400 ∧
      sender.conn.state.splitId = s.sender.conn.state.splitId + 1 ∧ AllSent sender ∧
      ((exchanges build handler).restrict (Orderly build handler)).step s (.write .calm m.payload)
        { s with sender := sender } := by
  obtain ⟨m, hpayload, hfragments, hid, hstarts, hmtu', hcount, hsends, hemits⟩ :=
    @write_fill build s.sender.conn hmtu .calm (fun _ ↦ rfl) b hb
  refine ⟨m, ⟨_, s.sender.messages ++ [m]⟩, hpayload, hfragments, hid, rfl, hmtu', hcount, ?_, ?_,
    .write (isSplit_of_two hfragments) hstarts (fun j m' hj _ ↦ ?_) rfl⟩
  · intro m' hm' i content hi
    rcases List.mem_append.mp hm' with hm' | hm'
    · obtain ⟨n, messageIndex, hn⟩ := hsent m' hm' i content hi
      exact ⟨n, messageIndex, hsends hn⟩
    · obtain rfl := List.mem_singleton.mp hm'
      exact hemits i content hi
  · intro fragments hf
    rw [hmtu, hpayload, split_fill build hb] at hf
    obtain rfl := Except.ok.inj hf
    exact (by decide : 2 ≤ 2 ^ 32)
  · exact hdone j (List.getElem?_eq_some_iff.mp hj).1

/-- The first of two fragments arrives at an id that is free. -/
theorem arrive_first {m : Message} {x y : Bytes} {messageIndex : Uint24} (j : Nat)
    (hf : m.fragments = [x, y]) (hsplits : s.receiver.state.splits = ∅) :
    let s' := s.arrive build handler j (m.packet messageIndex 0 x)
    s'.receiver.state.splits = (∅ : HashMap UInt16 (List Bytes)).insert m.splitId [x, []] ∧
      s'.receiver.reassembled = s.receiver.reassembled ∧ s'.completed = s.completed ∧
      s'.opened m.splitId = j := by
  have hre := @reassemble_first build handler m s.receiver x y messageIndex hf
    (by rw [hsplits]; decide) (by rw [hsplits]; rfl)
  have hfst := receiveSplitPacket_fst build handler (m.packet messageIndex 0 x) s.receiver
  have hid : (m.packet messageIndex 0 x).splitId = m.splitId := by
    rw [Message.packet_split (isSplit_of_two hf)]
  rw [hre] at hfst
  refine ⟨hfst.1.trans ?_, hfst.2, ?_, ?_⟩
  · rw [← hsplits]
  · change (if completes build handler _ s.receiver then _ else s.completed) = _
    rw [completes, hre]
    rfl
  · change (if s.receiver.state.splits.lookup _ = none then _ else s.opened) m.splitId = j
    rw [hid, hsplits, if_pos (Finmap.lookup_empty m.splitId), Function.update_self]

/-- The second one arrives at an entry of the same shape. -/
theorem arrive_second {m : Message} {w x y : Bytes} {messageIndex : Uint24} (j : Nat)
    (hf : m.fragments = [x, y])
    (hsplits : s.receiver.state.splits =
      (∅ : HashMap UInt16 (List Bytes)).insert m.splitId [w, []]) (hw : w ≠ []) :
    let s' := s.arrive build handler j (m.packet messageIndex 1 y)
    s'.receiver.state.splits = ∅ ∧
      s'.receiver.reassembled = s.receiver.reassembled ++
        [{ Packet.new with content := w ++ y, orderIndex := m.orderIndex }] ∧
      s'.completed = Function.update s.completed j true := by
  have hre := @reassemble_second build handler m s.receiver w x y messageIndex hf
    (by rw [hsplits, HashMap.len, HashMap.keys_insert]; exact Nat.le_of_ble_eq_true rfl)
    (by rw [hsplits, Finmap.lookup_insert]) hw
  have hfst := receiveSplitPacket_fst build handler (m.packet messageIndex 1 y) s.receiver
  rw [hre] at hfst
  refine ⟨hfst.1.trans ?_, hfst.2, ?_⟩
  · change s.receiver.state.splits.erase m.splitId = ∅
    rw [hsplits, HashMap.erase_insert_empty]
  · change (if completes build handler _ s.receiver then _ else s.completed) = _
    rw [completes, hre]
    rfl

/-- Both fragments of a message arrive, one after the other, when no entry is open. -/
theorem arrive_both {m : Message} {x y : Bytes} {k : Nat}
    (hr : ((exchanges build handler).restrict (Orderly build handler)).Reachable s)
    (hm : s.sender.messages[k]? = some m) (hf : m.fragments = [x, y])
    (hsent : AllSent s.sender) (hsplits : s.receiver.state.splits = ∅) :
    ∃ s', ((exchanges build handler).restrict (Orderly build handler)).Reachable s' ∧
      s'.sender = s.sender ∧ s'.receiver.state.splits = ∅ ∧
      s'.receiver.reassembled.length = s.receiver.reassembled.length + 1 ∧
      s'.completed = Function.update s.completed k true := by
  have hx : m.fragments[0]? = some x := by rw [hf]; rfl
  have hy : m.fragments[1]? = some y := by rw [hf]; rfl
  obtain ⟨n₀, mi₀, hn₀⟩ := hsent m (List.mem_of_getElem? hm) 0 _ hx
  obtain ⟨n₁, mi₁, hn₁⟩ := hsent m (List.mem_of_getElem? hm) 1 _ hy
  let s₁ := s.arrive build handler k (m.packet mi₀ 0 x)
  let s₂ := s₁.arrive build handler k (m.packet mi₁ 1 y)
  obtain ⟨hsplits₁, hre₁, hdone₁, hopened₁⟩ := @arrive_first build handler s m _ _ mi₀ k hf hsplits
  obtain ⟨hsplits₂, hre₂, hdone₂⟩ := @arrive_second build handler s₁ m _ _ _ mi₁ k hf hsplits₁
    (m.sendable x (List.mem_of_getElem? hx)).1
  have hr₁ : ((exchanges build handler).restrict (Orderly build handler)).Reachable s₁ := by
    refine hr.step (a := .arrive k 0 mi₀) ⟨fun m' _ _ _ _ hl ↦ absurd ?_ hl, .arrive hm hx hn₀⟩
    rw [hsplits, Finmap.lookup_empty]
  have hr₂ : ((exchanges build handler).restrict (Orderly build handler)).Reachable s₂ := by
    refine hr₁.step (a := .arrive k 1 mi₁) ⟨fun m' _ hm' _ _ _ ↦ ?_, .arrive hm hy hn₁⟩
    obtain rfl := Option.some.inj (hm.symm.trans hm')
    exact hopened₁
  refine ⟨s₂, hr₂, rfl, hsplits₂, ?_, hdone₂.trans (by rw [hdone₁])⟩
  rw [hre₂, hre₁, List.length_append, List.length_singleton]

/-- After `k` messages of two fragments have been written and put together one by one. -/
structure Cycled (build : Build) (handler : ConnectionHandler) (k : Nat) (s : Exchange) : Prop where
  reachable : ((exchanges build handler).restrict (Orderly build handler)).Reachable s
  mtu : s.sender.conn.mtu = Mtu.clamp 400
  splitId : s.sender.conn.state.splitId = UInt32.ofNat k
  length : s.sender.messages.length = k
  payload : ∀ m ∈ s.sender.messages, m.payload = fill 7 ∧ m.fragments = halves 7
  splitId_at : ∀ i m, s.sender.messages[i]? = some m → m.splitId = UInt16.ofNat i
  sent : AllSent s.sender
  completed : ∀ j < k, s.completed j = true
  splits : s.receiver.state.splits = ∅
  reassembled : s.receiver.reassembled.length = k

/-- One more round. -/
theorem Cycled.next {k : Nat} (h : Cycled build handler k s) :
    ∃ s', Cycled build handler (k + 1) s' := by
  obtain ⟨m, sender, hpayload, hfragments, hid, hmessages, hmtu, hsplitId, hsent, hwrite⟩ :=
    @write_step build handler s h.mtu h.sent (by rw [h.length]; exact h.completed) 7 (Or.inl rfl)
  have hm : sender.messages[k]? = some m := by
    rw [hmessages, ← h.length]
    exact List.getElem?_concat_length
  have hwritten : ((exchanges build handler).restrict (Orderly build handler)).Reachable
      { s with sender := sender } := h.reachable.step hwrite
  obtain ⟨s', hr, hsender, hsplits, hre, hdone⟩ :=
    arrive_both hwritten hm hfragments hsent h.splits
  dsimp only at hsender hdone
  refine ⟨s', hr, ?_, ?_, ?_, ?_, ?_, ?_, ?_, hsplits, hre.trans (by rw [h.reassembled])⟩
  · rw [hsender]
    exact hmtu
  · rw [hsender, hsplitId, h.splitId]
    exact (UInt32.ofNat_add k 1).symm
  · rw [hsender, hmessages, List.length_append, h.length]
    rfl
  · intro m' hm'
    rw [hsender, hmessages, List.mem_append, List.mem_singleton] at hm'
    rcases hm' with hm' | rfl
    · exact h.payload m' hm'
    · exact ⟨hpayload, hfragments⟩
  · rw [hsender, hmessages]
    refine Sender.at_append h.splitId_at ?_
    rw [hid, h.splitId, h.length, UInt32.toUInt16_ofNat']
  · rw [hsender]
    exact hsent
  · intro j hj
    rw [hdone]
    by_cases hjk : j = k
    · rw [hjk, Function.update_self]
    · rw [Function.update_of_ne hjk]
      exact h.completed j (by omega)

theorem exists_cycled (build : Build) (handler : ConnectionHandler) (k : Nat) :
    ∃ s, Cycled build handler k s := by
  induction k with
  | zero =>
      refine ⟨⟨⟨new 400, []⟩, new 400, fun _ ↦ false, fun _ ↦ 0⟩, .init ⟨400, 400, rfl⟩, rfl, rfl,
        rfl, ?_, ?_, ?_, ?_, rfl, rfl⟩
      · exact fun _ hm ↦ absurd hm List.not_mem_nil
      · exact fun _ _ hi ↦ by cases hi
      · exact fun _ hm ↦ absurd hm List.not_mem_nil
      · exact fun j hj ↦ absurd hj (Nat.not_lt_zero j)
  | succ k ih =>
      obtain ⟨s, hs⟩ := ih
      exact hs.next

/-- Three messages that are written and put together. -/
theorem reassembles_messages_three :
    ∃ s, ((exchanges .debug .forwarding).restrict (Orderly .debug .forwarding)).Reachable s ∧
      s.sender.messages.length = 3 ∧ s.receiver.reassembled.length = 3 ∧
      ∀ pk ∈ s.receiver.reassembled, ∃ m ∈ s.sender.messages, pk.content = m.payload := by
  obtain ⟨s, hs⟩ := exists_cycled .debug .forwarding 3
  exact ⟨s, hs.reachable, hs.length, hs.reassembled, reassembles_messages hs.reachable⟩

/-- When `2 ^ 16` messages have been written and put together, the first fragment of the first one
arrives late, and a new message with the same split id is written, its second fragment completes
the entry: the receiver combines fragments of two messages. -/
theorem reassembles_two_messages :
    ∃ s, (exchanges .debug .forwarding).Reachable s ∧
      ∃ pk ∈ s.receiver.reassembled, ∀ m ∈ s.sender.messages, pk.content ≠ m.payload := by
  obtain ⟨s, h⟩ := exists_cycled .debug .forwarding (2 ^ 16)
  -- the first message and the packet of its first fragment
  obtain ⟨m, hm⟩ : ∃ m, s.sender.messages[0]? = some m :=
    ⟨_, List.getElem?_eq_getElem (by rw [h.length]; decide)⟩
  have hmem := List.mem_of_getElem? hm
  have hid : m.splitId = 0 := h.splitId_at 0 m hm
  obtain ⟨-, hfragments⟩ := h.payload m hmem
  have hx : m.fragments[0]? = some (List.replicate 348 7) := by rw [hfragments]; rfl
  obtain ⟨n₀, mi₀, hn₀⟩ := h.sent m hmem 0 _ hx
  let s₁ := s.arrive .debug .forwarding 0 (m.packet mi₀ 0 (List.replicate 348 7))
  obtain ⟨hsplits₁, hre₁, hdone₁, -⟩ := @arrive_first .debug .forwarding s m _ _ mi₀
    0 hfragments h.splits
  have hr₁ : (exchanges .debug .forwarding).Reachable s₁ :=
    h.reachable.of_restrict.step (a := .arrive 0 0 mi₀) (.arrive hm hx hn₀)
  -- the new message
  obtain ⟨m', sender, hpayload', hfragments', hid', hmessages', -, -, hsent', hwrite'⟩ :=
    @write_step .debug .forwarding s₁ h.mtu h.sent
      (by change ∀ j < s.sender.messages.length, s₁.completed j = true
          rw [h.length, hdone₁]
          exact h.completed) 8 (Or.inr rfl)
  have hmem' : m' ∈ sender.messages := by rw [hmessages']; simp
  have hm' : sender.messages[2 ^ 16]? = some m' := by
    rw [hmessages', ← h.length]
    exact List.getElem?_concat_length
  have hsame : m'.splitId = m.splitId := by
    rw [hid', hid]
    change s.sender.conn.state.splitId.toUInt16 = 0
    rw [h.splitId]
    rfl
  have hy : m'.fragments[1]? = some (List.replicate 11 8) := by rw [hfragments']; rfl
  obtain ⟨n₁, mi₁, hn₁⟩ := hsent' m' hmem' 1 _ hy
  let s₂ : Exchange := { s₁ with sender := sender }
  let s₃ := s₂.arrive .debug .forwarding (2 ^ 16)
    (m'.packet mi₁ 1 (List.replicate 11 8))
  obtain ⟨-, hre₃, -⟩ := @arrive_second .debug .forwarding s₂ m'
    (List.replicate 348 7) _ _ mi₁ (2 ^ 16) hfragments' (by rw [hsame]; exact hsplits₁)
    (List.cons_ne_nil _ _)
  have hr₃ : (exchanges .debug .forwarding).Reachable s₃ :=
    (hr₁.step hwrite'.2).step (a := .arrive (2 ^ 16) 1 mi₁) (.arrive hm' hy hn₁)
  refine ⟨s₃, hr₃, _, by rw [hre₃]; exact List.mem_append_right _ (List.mem_singleton.mpr rfl), ?_⟩
  intro m'' hm''
  change m'' ∈ sender.messages at hm''
  rw [hmessages', List.mem_append, List.mem_singleton] at hm''
  rcases hm'' with hm'' | rfl
  · rw [(h.payload m'' hm'').1]
    exact (by decide +kernel : List.replicate 348 7 ++ List.replicate 11 8 ≠ fill 7)
  · rw [hpayload']
    exact (by decide +kernel : List.replicate 348 7 ++ List.replicate 11 8 ≠ fill 8)

end Exchange

end Ragnet.Conn

import Ragnet.Link

/-!
# One split message at a time

A sender that starts a split message only when all earlier ones have been put together at the
peer.  Then at most one message is incomplete, and all open entries should belong to it.

They do as long as no fragment of a message that is complete is taken in again.  A fragment that is
sent again comes in a datagram with a new number, so the window does not hold it back.
-/

namespace Ragnet.Link

open Conn Proc Wire

/-- A link with two records about the messages, which are given by position: which are complete,
and which one has opened the entry of an id. -/
structure Serial where
  link : Link
  completed : Nat → Bool
  opened : UInt16 → Nat

namespace Serial

inductive Event where
  | call (call : SendCall)
  /-- The datagram of a packet of the `j`-th message reaches the receiver. -/
  | deliver (env : Env) (seq : Uint24) (j : Nat) (pk : Packet)
  | respond (call : SendCall)
  | flush (env : Env)

def messages (self : Serial) : List Message := self.link.sender.messages

def receiver (self : Serial) : Conn := self.link.receiver

/-- A packet of the `j`-th message has reached the receiver, which is now `after`. -/
def delivered (j : Nat) (pk : Packet) (after : Conn) (self : Serial) : Serial where
  link := { self.link with receiver := after }
  completed :=
    if self.receiver.reassembled.length < after.reassembled.length then
      Function.update self.completed j true
    else self.completed
  opened :=
    if self.receiver.state.splits.lookup pk.splitId = none then
      Function.update self.opened pk.splitId j
    else self.opened

/-- A split message has at most as many fragments as a receiver with limits accepts, and it is
started only when all split messages before it are complete. -/
def MayStart (self : Serial) (m : Message) : Prop :=
  m.IsSplit → m.fragments.length ≤ maxSplitCount.toNat ∧
    ∀ j m', self.messages[j]? = some m' → m'.IsSplit → self.completed j = true

/-- The packet belongs to a fragment of the `j`-th message. -/
def Carries (self : Serial) (j : Nat) (pk : Packet) : Prop :=
  ∃ (m : Message) (i : Nat) (content : Bytes) (messageIndex : Uint24),
    self.messages[j]? = some m ∧ m.fragments[i]? = some content ∧
      pk = m.packet messageIndex i content

/-- The steps of a link whose sender starts one split message at a time. -/
inductive Step (build : Build) (handler : ConnectionHandler) : Serial → Event → Serial → Prop
  | call {s : Serial} {call : SendCall} {ms : List Message} :
      Starts build s.link.sender.conn call ms → (∀ m ∈ ms, s.MayStart m) →
        Step build handler s (.call call)
          { s with link.sender := ⟨call.run build s.link.sender.conn, s.messages ++ ms⟩ }
  | deliver {s : Serial} {env : Env} {seq : Uint24} {j : Nat} {pk : Packet} :
      s.Carries j pk → datagram seq pk ∈ s.link.sender.conn.sendTx →
        Step build handler s (.deliver env seq j pk)
          (s.delivered j pk (receive build handler env (datagram seq pk) s.receiver).1)
  | respond {s : Serial} {call : SendCall} :
      Step build handler s (.respond call)
        { s with link.receiver := call.run build s.receiver }
  | flush {s : Serial} {env : Env} :
      Step build handler s (.flush env)
        { s with link.receiver := flushAcks build env s.receiver }

def serials (build : Build) (handler : ConnectionHandler) : Lts Serial Event where
  init s := ∃ mtu mtu', s = ⟨⟨⟨new mtu, []⟩, new mtu'⟩, fun _ ↦ false, fun _ ↦ 0⟩
  step := Step build handler

/-- The receiver takes in the contents of a datagram: its number is new and the window does not
get too big. -/
def Admits (build : Build) (handler : ConnectionHandler) (c : Conn) (clock : Clock)
    (seq : Uint24) : Prop :=
  ¬ c.state.win.Seen seq.value ∧
    ∃ size, (c.entered clock seq).state.win.size build = .ok size ∧ ¬ Exceeds handler size

/-- No fragment of a split message that is complete is taken in. -/
def NotStale (build : Build) (handler : ConnectionHandler) (s : Serial) : Event → Prop
  | .deliver env seq j _ => ∀ m, s.messages[j]? = some m → m.IsSplit → s.completed j = true →
      ¬ Admits build handler s.receiver env.clock seq
  | _ => True

variable {build : Build} {handler : ConnectionHandler} {s s' : Serial} {e : Event}

/-- What such a link does, a link does. -/
theorem Step.link (h : Step build handler s e s') :
    ∃ e', Link.Step build handler s.link e' s'.link := by
  cases h with
  | @call call ms hstarts _ => exact ⟨.call call, .call ⟨ms, hstarts, rfl⟩⟩
  | @deliver env seq j pk _ hsent => exact ⟨.deliver env (datagram seq pk), .deliver hsent⟩
  | @respond call => exact ⟨.respond call, .respond⟩
  | @flush env => exact ⟨.flush env, .flush⟩

/-- At most one split message is incomplete, and all open entries belong to it. -/
structure Sound (s : Serial) : Prop where
  pk : s.receiver.state.pk = Packet.new
  count_le : ∀ m ∈ s.messages, m.IsSplit → m.fragments.length ≤ maxSplitCount.toNat
  lt_of_completed : ∀ j, s.completed j = true → j < s.messages.length
  single : ∀ j j' m m', s.messages[j]? = some m → s.messages[j']? = some m' → m.IsSplit →
    m'.IsSplit → s.completed j = false → s.completed j' = false → j = j'
  entries : ∀ id slots, s.receiver.state.splits.lookup id = some slots →
    ∃ m, s.messages[s.opened id]? = some m ∧ m.IsSplit ∧ m.splitId = id ∧
      s.completed (s.opened id) = false ∧ Fits [] m.fragments slots

/-- There is at most one open entry. -/
theorem Sound.len_le (h : s.Sound) : s.receiver.state.splits.len ≤ 1 := by
  refine Finset.card_le_one.mpr fun id hid id' hid' ↦ ?_
  obtain ⟨slots, hl⟩ := HashMap.mem_iff_lookup.mp (Finmap.mem_keys.mp hid)
  obtain ⟨slots', hl'⟩ := HashMap.mem_iff_lookup.mp (Finmap.mem_keys.mp hid')
  obtain ⟨m, hm, hsplit, rfl, hdone, -⟩ := h.entries id slots hl
  obtain ⟨m', hm', hsplit', rfl, hdone', -⟩ := h.entries id' slots' hl'
  rw [h.single _ _ m m' hm hm' hsplit hsplit' hdone hdone', hm'] at hm
  rw [Option.some.inj hm]

/-- A step that leaves the entries alone. -/
theorem Sound.delivered_of_same (h : s.Sound) (j : Nat) (pk : Packet) {c : Conn}
    (hpk : c.state.pk = Packet.new) (hsplits : c.state.splits = s.receiver.state.splits)
    (hre : c.reassembled = s.receiver.reassembled) : (s.delivered j pk c).Sound := by
  have hdone : (s.delivered j pk c).completed = s.completed := by
    rw [delivered, hre]
    exact if_neg (lt_irrefl _)
  refine ⟨hpk, h.count_le, ?_, ?_, ?_⟩
  · rw [hdone]
    exact h.lt_of_completed
  · rw [hdone]
    exact h.single
  · intro id slots hl
    change c.state.splits.lookup id = some slots at hl
    rw [hsplits] at hl
    have hopened : (s.delivered j pk c).opened id = s.opened id := by
      change (if _ then Function.update s.opened pk.splitId j else s.opened) id = _
      split
      · next hnone =>
        refine Function.update_of_ne (fun heq ↦ ?_) _ _
        rw [heq, hnone] at hl
        cases hl
      · rfl
    rw [hopened, hdone]
    exact h.entries id slots hl

/-- The slots that a fragment of a message that is not complete goes to fit the message. -/
theorem Sound.fits (h : s.Sound) {m : Message} {j : Nat} (hm : s.messages[j]? = some m)
    (hsplit : m.IsSplit) (hdone : s.completed j = false) (messageIndex : Uint24) (i : Nat)
    (content : Bytes) :
    Fits [] m.fragments
      (fragmentsOf s.receiver.state.splits (m.packet messageIndex i content)) := by
  rw [Message.packet_split hsplit, fragmentsOf]
  dsimp only
  cases hl : s.receiver.state.splits.lookup m.splitId with
  | some slots =>
      obtain ⟨m', hm', hsplit', -, hdone', hfits⟩ := h.entries _ slots hl
      rw [h.single _ j m' m hm' hm hsplit' hsplit hdone' hdone, hm] at hm'
      rw [Option.some.inj hm']
      exact hfits
  | none =>
      have hcount := h.count_le m (List.mem_of_getElem? hm) hsplit
      rw [UInt32.toNat_ofNat_of_lt' (lt_of_le_of_lt hcount (by decide))]
      exact Fits.replicate [] m.fragments

/-- No limit on split packets is exceeded. -/
theorem Sound.not_splitLimited (h : s.Sound) {m : Message} (hm : m ∈ s.messages)
    (hsplit : m.IsSplit) (messageIndex : Uint24) (i : Nat) (content : Bytes) :
    ¬ SplitLimited handler s.receiver.state.splits (m.packet messageIndex i content) := by
  have hcount := h.count_le m hm hsplit
  refine not_splitLimited_of_le ?_ (h.len_le.trans (by decide))
  rw [Message.packet_split hsplit, UInt32.toNat_ofNat_of_lt' (lt_of_le_of_lt hcount (by decide))]
  exact hcount

section Fragment

variable {m : Message} {j i : Nat} {content : Bytes} {messageIndex : Uint24} {c : Conn}

/-- A fragment after which its message is still incomplete. -/
theorem Sound.delivered_waiting {slots : List Bytes} (h : s.Sound)
    (hm : s.messages[j]? = some m) (hsplit : m.IsSplit) (hdone : s.completed j = false)
    (hfits : Fits [] m.fragments slots) (hpk : c.state.pk = Packet.new)
    (hsplits : c.state.splits = s.receiver.state.splits.insert m.splitId slots)
    (hre : c.reassembled = s.receiver.reassembled) :
    (s.delivered j (m.packet messageIndex i content) c).Sound := by
  have hid : (m.packet messageIndex i content).splitId = m.splitId := by
    rw [Message.packet_split hsplit]
  have hcompleted :
      (s.delivered j (m.packet messageIndex i content) c).completed = s.completed := by
    rw [delivered, hre]
    exact if_neg (lt_irrefl _)
  refine ⟨hpk, h.count_le, ?_, ?_, fun id slots' hl ↦ ?_⟩
  · rw [hcompleted]
    exact h.lt_of_completed
  · rw [hcompleted]
    exact h.single
  rw [hcompleted]
  change c.state.splits.lookup id = some slots' at hl
  rw [hsplits, HashMap.lookup_insert_eq] at hl
  have hopened : (s.delivered j (m.packet messageIndex i content) c).opened =
      if s.receiver.state.splits.lookup m.splitId = none then Function.update s.opened m.splitId j
      else s.opened := by
    rw [delivered, hid]
  rw [hopened]
  by_cases heq : id = m.splitId
  · subst heq
    rw [if_pos rfl] at hl
    obtain rfl := Option.some.inj hl
    -- the entry was opened now, or by an earlier fragment of the same message
    have hj : (if s.receiver.state.splits.lookup m.splitId = none then
        Function.update s.opened m.splitId j else s.opened) m.splitId = j := by
      cases hold : s.receiver.state.splits.lookup m.splitId with
      | none => rw [if_pos rfl, Function.update_self]
      | some old =>
          obtain ⟨m', hm', hsplit', -, hdone', -⟩ := h.entries _ old hold
          rw [if_neg (Option.some_ne_none old)]
          exact h.single _ j m' m hm' hm hsplit' hsplit hdone' hdone
    rw [hj]
    exact ⟨m, hm, hsplit, rfl, hdone, hfits⟩
  · rw [if_neg heq] at hl
    have hkeep : (if s.receiver.state.splits.lookup m.splitId = none then
        Function.update s.opened m.splitId j else s.opened) id = s.opened id := by
      split
      · exact Function.update_of_ne heq _ _
      · rfl
    rw [hkeep]
    exact h.entries id slots' hl

/-- The fragment that completes its message. -/
theorem Sound.delivered_complete (h : s.Sound) (hm : s.messages[j]? = some m)
    (hsplit : m.IsSplit) (hdone : s.completed j = false) (hpk : c.state.pk = Packet.new)
    (hsplits : c.state.splits = s.receiver.state.splits.erase m.splitId)
    (hre : c.reassembled = s.receiver.reassembled ++ [m.combined]) :
    (s.delivered j (m.packet messageIndex i content) c).Sound := by
  have hcompleted : (s.delivered j (m.packet messageIndex i content) c).completed =
      Function.update s.completed j true := by
    rw [delivered, hre, List.length_append]
    exact if_pos (Nat.lt_succ_self _)
  -- a message that is still incomplete was so before, and is not this one
  have hstill {j' : Nat} (h' : Function.update s.completed j true j' = false) :
      j' ≠ j ∧ s.completed j' = false := by
    by_cases heq : j' = j
    · rw [heq, Function.update_self] at h'
      cases h'
    · rw [Function.update_of_ne heq] at h'
      exact ⟨heq, h'⟩
  refine ⟨hpk, h.count_le, fun j' hj' ↦ ?_, fun j₁ j₂ m₁ m₂ h₁ h₂ hs₁ hs₂ hd₁ hd₂ ↦ ?_,
    fun id slots hl ↦ ?_⟩
  · rw [hcompleted] at hj'
    by_cases heq : j' = j
    · rw [heq]
      exact (List.getElem?_eq_some_iff.mp hm).1
    · rw [Function.update_of_ne heq] at hj'
      exact h.lt_of_completed j' hj'
  · rw [hcompleted] at hd₁ hd₂
    exact h.single j₁ j₂ m₁ m₂ h₁ h₂ hs₁ hs₂ (hstill hd₁).2 (hstill hd₂).2
  · -- no other entry was open
    change c.state.splits.lookup id = some slots at hl
    rw [hsplits, HashMap.lookup_erase_eq] at hl
    split at hl
    · cases hl
    · next hne =>
      obtain ⟨m', hm', hsplit', hid', hdone', -⟩ := h.entries id slots hl
      rw [h.single _ j m' m hm' hm hsplit' hsplit hdone' hdone, hm] at hm'
      exact absurd (hid'.symm.trans (congrArg Message.splitId (Option.some.inj hm').symm)) hne

/-- A fragment that is taken in keeps the invariant, and no error about split packets is
returned. -/
theorem Sound.takePacket_split (h : s.Sound) (hm : s.messages[j]? = some m) (hsplit : m.IsSplit)
    (hi : m.fragments[i]? = some content) (hdone : s.completed j = false)
    (hpk : c.state.pk = Packet.new) (hsplits : c.state.splits = s.receiver.state.splits)
    (hre : c.reassembled = s.receiver.reassembled) :
    let r := takePacket build handler (m.packet messageIndex i content) c
    (s.delivered j (m.packet messageIndex i content) r.1).Sound ∧
      ((∀ handled content text, handler.handle handled content ≠ err (.splitPacket text)) →
        ∀ text, r.2 ≠ err (.splitPacket text)) := by
  have hlt : m.fragments.length < 2 ^ 32 :=
    lt_of_le_of_lt (h.count_le m (List.mem_of_getElem? hm) hsplit) (by decide)
  have hbit : (m.packet messageIndex i content).split = true := by
    rw [Message.packet_split hsplit]
  have hfits := h.fits hm hsplit hdone messageIndex i content
  have hlimited := @Sound.not_splitLimited handler s h m (List.mem_of_getElem? hm) hsplit
    messageIndex i content
  rw [← hsplits] at hfits hlimited
  rw [takePacket, if_pos hbit, receiveSplitPacket]
  rcases @reassemble_fits build handler m c i content messageIndex hsplit hi hlt hfits hlimited with
    ⟨slots, hfits', hr⟩ | hr
  · rw [bind_ok hr]
    exact ⟨h.delivered_waiting hm hsplit hdone hfits' hpk
      (congrArg (Finmap.insert m.splitId slots) hsplits) hre, fun _ text he ↦ by cases he⟩
  · rw [bind_ok hr]
    have hkeeps := receivePacket_keeps_splits build handler m.combined
      { c with
        state.splits := c.state.splits.erase m.splitId
        reassembled := c.reassembled ++ [m.combined] }
    obtain ⟨hsplits', hrest⟩ := Prod.mk.inj hkeeps
    obtain ⟨hpk', hre'⟩ := Prod.mk.inj hrest
    exact ⟨h.delivered_complete hm hsplit hdone (hpk'.trans hpk)
      (hsplits'.trans (congrArg (Finmap.erase m.splitId) hsplits))
      (hre'.trans (congrArg (· ++ [m.combined]) hre)),
      fun hhandler text ↦ receivePacket_avoids build (fun _ _ ↦ hhandler _ _ text) _ _⟩

/-- So does a whole packet. -/
theorem Sound.takePacket_whole (h : s.Sound) (hsplit : ¬ m.IsSplit)
    (hi : m.fragments[i]? = some content) (hpk : c.state.pk = Packet.new)
    (hsplits : c.state.splits = s.receiver.state.splits)
    (hre : c.reassembled = s.receiver.reassembled) :
    let r := takePacket build handler (m.packet messageIndex i content) c
    (s.delivered j (m.packet messageIndex i content) r.1).Sound ∧
      ((∀ handled content text, handler.handle handled content ≠ err (.splitPacket text)) →
        ∀ text, r.2 ≠ err (.splitPacket text)) := by
  have hbit : ¬ (m.packet messageIndex i content).split = true := by
    rw [Message.packet_whole hsplit hi]
    exact Bool.false_ne_true
  rw [takePacket, if_neg hbit]
  have hkeeps := receivePacket_keeps_splits build handler (m.packet messageIndex i content) c
  obtain ⟨hsplits', hrest⟩ := Prod.mk.inj hkeeps
  obtain ⟨hpk', hre'⟩ := Prod.mk.inj hrest
  exact ⟨h.delivered_of_same j _ (hpk'.trans hpk) (hsplits'.trans hsplits) (hre'.trans hre),
    fun hhandler text ↦ receivePacket_avoids build (fun _ _ ↦ hhandler _ _ text) _ _⟩

end Fragment

/-- A datagram that is not stale keeps the invariant, and no error about split packets is
returned. -/
theorem Sound.deliver {env : Env} {seq : Uint24} {j : Nat} {pk : Packet} (h : s.Sound)
    (hcarries : s.Carries j pk) (hok : NotStale build handler s (.deliver env seq j pk)) :
    let r := receive build handler env (datagram seq pk) s.receiver
    (s.delivered j pk r.1).Sound ∧
      ((∀ handled content text, handler.handle handled content ≠ err (.splitPacket text)) →
        ∀ text, r.2 ≠ err (.splitPacket text)) := by
  obtain ⟨m, i, content, messageIndex, hm, hi, rfl⟩ := hcarries
  have hmem := List.mem_of_getElem? hm
  dsimp only
  by_cases hseen : s.receiver.state.win.Seen seq.value
  · rw [receive_seen build handler env hseen]
    exact ⟨h.delivered_of_same j _ h.pk rfl rfl, fun _ text he ↦ by cases he⟩
  have hgenuine := @genuine_packet _ m i content messageIndex hmem hi
  obtain ⟨nacks, hrecv⟩ :=
    receive_new build handler env hgenuine.encodable hgenuine.overlay h.pk hseen
  rw [hrecv]
  cases hsize : (s.receiver.entered env.clock seq).state.win.size build with
  | error e =>
      refine ⟨h.delivered_of_same j _ h.pk rfl rfl, fun _ text he ↦ ?_⟩
      obtain rfl : e = .error (.splitPacket text) := Except.error.inj he
      exact absurd hsize (Checked.sub_ne_error _ _ _ _ _)
  | ok size =>
      dsimp only
      by_cases hbig : Exceeds handler size
      · rw [if_pos hbig]
        exact ⟨h.delivered_of_same j _ rfl rfl rfl, fun _ text he ↦ by cases he⟩
      rw [if_neg hbig]
      by_cases hsplit : m.IsSplit
      · have hdone : s.completed j = false := by
          cases hd : s.completed j with
          | false => rfl
          | true => exact absurd ⟨hseen, size, hsize, hbig⟩ (hok m hm hsplit hd)
        exact h.takePacket_split hm hsplit hi hdone rfl rfl rfl
      · exact h.takePacket_whole hsplit hi rfl rfl rfl

/-- A message that may start leaves at most one incomplete. -/
theorem Sound.start (h : s.Sound) {m : Message} (hm : s.MayStart m) (conn : Conn) :
    Sound { s with link.sender := ⟨conn, s.messages ++ [m]⟩ } where
  pk := h.pk
  count_le m' hm' hsplit := by
    rcases List.mem_append.mp hm' with hm' | hm'
    · exact h.count_le m' hm' hsplit
    · obtain rfl := List.mem_singleton.mp hm'
      exact (hm hsplit).1
  lt_of_completed j hj := by
    change j < (s.messages ++ [m]).length
    rw [List.length_append]
    exact Nat.lt_add_right _ (h.lt_of_completed j hj)
  single j j' m₁ m₂ h₁ h₂ hs₁ hs₂ hd₁ hd₂ := by
    change (s.messages ++ [m])[j]? = some m₁ at h₁
    change (s.messages ++ [m])[j']? = some m₂ at h₂
    change s.completed j = false at hd₁
    change s.completed j' = false at hd₂
    -- a split message before the new one is complete if the new one is split
    have hold {k k' : Nat} {n n' : Message} (hk : k < s.messages.length)
        (hk' : ¬ k' < s.messages.length) (hn : (s.messages ++ [m])[k]? = some n)
        (hn' : (s.messages ++ [m])[k']? = some n') (hns : n.IsSplit) (hns' : n'.IsSplit)
        (hd : s.completed k = false) : False := by
      rw [List.getElem?_append_left hk] at hn
      rw [List.getElem?_append_right (Nat.le_of_not_lt hk')] at hn'
      obtain rfl := List.mem_singleton.mp (List.mem_of_getElem? hn')
      rw [(hm hns').2 k n hn hns] at hd
      cases hd
    by_cases hj : j < s.messages.length
    · by_cases hj' : j' < s.messages.length
      · rw [List.getElem?_append_left hj] at h₁
        rw [List.getElem?_append_left hj'] at h₂
        exact h.single j j' m₁ m₂ h₁ h₂ hs₁ hs₂ hd₁ hd₂
      · exact (hold hj hj' h₁ h₂ hs₁ hs₂ hd₁).elim
    · by_cases hj' : j' < s.messages.length
      · exact (hold hj' hj h₂ h₁ hs₂ hs₁ hd₂).elim
      · have hlt₁ := (List.getElem?_eq_some_iff.mp h₁).1
        have hlt₂ := (List.getElem?_eq_some_iff.mp h₂).1
        rw [List.length_append, List.length_singleton] at hlt₁ hlt₂
        omega
  entries id slots hl := by
    obtain ⟨m', hm', rest⟩ := h.entries id slots hl
    refine ⟨m', ?_, rest⟩
    change (s.messages ++ [m])[s.opened id]? = some m'
    rw [List.getElem?_append_left (List.getElem?_eq_some_iff.mp hm').1]
    exact hm'

/-- A receiver that differs on its send side only. -/
theorem Sound.congr (h : s.Sound) {c : Conn} (hc : c.delivery = s.receiver.delivery) :
    Sound { s with link.receiver := c } where
  pk := (congrArg Delivery.pk hc).trans h.pk
  count_le := h.count_le
  lt_of_completed := h.lt_of_completed
  single := h.single
  entries id slots hl := by
    have hsplits : c.state.splits = s.receiver.state.splits := congrArg Delivery.splits hc
    change c.state.splits.lookup id = some slots at hl
    rw [hsplits] at hl
    exact h.entries id slots hl

/-- Every step that is not stale keeps the invariant. -/
theorem Sound.step (h : s.Sound) (hok : NotStale build handler s e)
    (hs : Step build handler s e s') : s'.Sound := by
  cases hs with
  | @call call ms hstarts hmay =>
      rcases Sender.starts_cases hstarts with ⟨rfl, -⟩ | ⟨m, rfl, -⟩
      · have hsame : s.messages ++ [] = s.messages := List.append_nil _
        rw [hsame]
        exact ⟨h.pk, h.count_le, h.lt_of_completed, h.single, h.entries⟩
      · exact h.start (hmay m (List.mem_singleton.mpr rfl)) _
  | deliver hcarries _ => exact (h.deliver hcarries hok).1
  | respond => exact h.congr (delivery_of_receiving (SendCall.run_receiving build _ _))
  | flush => exact h.congr (flushAcks_delivery build _ _)

theorem sound_of_reachable
    (h : ((serials build handler).restrict (NotStale build handler)).Reachable s) : s.Sound := by
  refine h.invariant ?_ fun s e s' _ hs hstep ↦ hs.step hstep.1 hstep.2
  rintro _ ⟨mtu, mtu', rfl⟩
  exact
    { pk := rfl
      count_le := fun _ hm ↦ absurd hm List.not_mem_nil
      lt_of_completed := fun _ hj ↦ by cases hj
      single := fun _ _ _ _ hm ↦ by cases hm
      entries := fun _ _ hl ↦ by cases hl }

/-- Every open entry belongs to a message that is not complete, and no datagram that can reach the
receiver makes it return an error about split packets. -/
structure Clean (build : Build) (handler : ConnectionHandler) (s : Serial) : Prop where
  entries : ∀ id slots, s.receiver.state.splits.lookup id = some slots →
    ∃ m, s.messages[s.opened id]? = some m ∧ m.splitId = id ∧ s.completed (s.opened id) = false
  no_error : ∀ env seq j pk s',
    ((serials build handler).restrict (NotStale build handler)).step s (.deliver env seq j pk) s' →
      ∀ text, (receive build handler env (datagram seq pk) s.receiver).2 ≠ err (.splitPacket text)

/-- **One split message at a time stays clean.**  In every run in which no fragment of a complete
message is taken in, no entry is open for a complete message, and the receiver never returns an
error about split packets. -/
theorem clean_unless_stale
    (hhandler : ∀ handled content text, handler.handle handled content ≠ err (.splitPacket text))
    (h : ((serials build handler).restrict (NotStale build handler)).Reachable s) :
    s.Clean build handler := by
  have hs := sound_of_reachable h
  refine ⟨fun id slots hl ↦ ?_, fun env seq j pk s' hstep ↦ ?_⟩
  · obtain ⟨m, hm, -, hid, hdone, -⟩ := hs.entries id slots hl
    exact ⟨m, hm, hid, hdone⟩
  · obtain ⟨hok, hstep⟩ := hstep
    cases hstep with
    | deliver hcarries _ => exact (hs.deliver hcarries hok).2 hhandler

/-! ## A fragment that comes back -/

/-- A message of two fragments for the smallest MTU. -/
def pair : Message where
  payload := List.replicate 359 7
  fragments := [List.replicate 348 7, List.replicate 11 7]
  orderIndex := Uint24.new 0
  splitId := 0
  flatten_eq := by decide +kernel
  sendable := by decide +kernel
  fragments_ne_nil := List.cons_ne_nil _ _

def firstHalf : Packet := pair.packet (Uint24.new 0) 0 (List.replicate 348 7)

def secondHalf : Packet := pair.packet (Uint24.new 1) 1 (List.replicate 11 7)

def written : Serial :=
  ⟨⟨⟨SendCall.run .debug (new 400) (.writeLocked .calm pair.payload), [pair]⟩, new 400⟩,
    fun _ ↦ false, fun _ ↦ 0⟩

/-- After a packet of the message has arrived in the datagram of a number. -/
def arrived (seq : Uint24) (pk : Packet) (self : Serial) : Serial :=
  self.delivered 0 pk (receive .debug .forwarding .calm (datagram seq pk) self.receiver).1

def complete : Serial :=
  (written.arrived (Uint24.new 0) firstHalf).arrived (Uint24.new 1) secondHalf

def resent : Serial :=
  { complete with
    link.sender := ⟨SendCall.run .debug complete.link.sender.conn
      (.checkResend .calm (seconds 1) [Uint24.new 0]), complete.messages ++ []⟩ }

theorem starts_pair : Starts .debug (new 400) (.writeLocked .calm pair.payload) [pair] :=
  @Starts.writeLocked .debug (new 400) .calm pair (by decide +kernel) rfl rfl

theorem mayStart_pair (s : Serial) (h : s.messages = []) : ∀ m ∈ [pair], s.MayStart m := by
  intro m hm _
  obtain rfl := List.mem_singleton.mp hm
  refine ⟨by decide, fun j m' hj _ ↦ ?_⟩
  rw [h] at hj
  cases hj

theorem carries_first {s : Serial} (h : s.messages = [pair]) : s.Carries 0 firstHalf :=
  ⟨pair, 0, _, Uint24.new 0, by rw [h]; rfl, rfl, rfl⟩

theorem carries_second {s : Serial} (h : s.messages = [pair]) : s.Carries 0 secondHalf :=
  ⟨pair, 1, _, Uint24.new 1, by rw [h]; rfl, rfl, rfl⟩

/-- The message is put together without a stale step. -/
theorem complete_reachable :
    ((serials .debug .forwarding).restrict (NotStale .debug .forwarding)).Reachable complete := by
  refine .step (a := .deliver .calm (Uint24.new 1) 0 secondHalf)
    (.step (a := .deliver .calm (Uint24.new 0) 0 firstHalf)
      (.step (a := .call (.writeLocked .calm pair.payload)) (.init ⟨400, 400, rfl⟩)
        ⟨trivial, .call starts_pair (mayStart_pair _ rfl)⟩)
      ⟨fun _ _ _ hdone ↦ absurd hdone (by decide),
        .deliver (carries_first rfl) (by decide +kernel)⟩)
    ⟨fun _ _ _ hdone ↦ absurd hdone (by decide +kernel),
      .deliver (carries_second rfl) (by decide +kernel)⟩

/-- The state after one message is clean. -/
theorem clean_unless_stale_one :
    ((serials .debug .forwarding).restrict (NotStale .debug .forwarding)).Reachable complete ∧
      complete.receiver.handled = [pair.payload] ∧ complete.Clean .debug .forwarding :=
  ⟨complete_reachable, by decide +kernel,
    clean_unless_stale (fun _ _ _ h ↦ by cases h) complete_reachable⟩

/-- The timer sends the first fragment again after the message has been put together, and the
receiver opens an entry for it. -/
theorem stale_entry :
    ∃ s, (serials .debug .forwarding).Reachable s ∧ ¬ s.Clean .debug .forwarding := by
  have hr : (serials .debug .forwarding).Reachable resent :=
    complete_reachable.of_restrict.step
      (a := .call (.checkResend .calm (seconds 1) [Uint24.new 0]))
      (.call .checkResend fun _ hm ↦ absurd hm List.not_mem_nil)
  refine ⟨resent.arrived (Uint24.new 2) firstHalf,
    hr.step (a := .deliver .calm (Uint24.new 2) 0 firstHalf)
      (.deliver (carries_first rfl) (by decide +kernel)), fun hclean ↦ ?_⟩
  obtain ⟨m, -, -, hdone⟩ := hclean.entries 0 [List.replicate 348 7, []] (by decide +kernel)
  exact absurd hdone (by decide +kernel)

end Serial

end Ragnet.Link

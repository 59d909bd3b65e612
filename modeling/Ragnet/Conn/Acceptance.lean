import Ragnet.Conn.Intake
import Ragnet.Conn.Messages
import Ragnet.Conn.Stream
import Ragnet.Conn.Writing

/-!
# Whether a receiver accepts what a sender writes

A new sender writes one message, and a new receiver that has limits is given the datagrams in
order.  The fragments fill the slots of one entry from the left, until the last one completes the
message.  A message of more than 512 fragments is written all the same, but the count that its
fragments announce is beyond the limit, or has lost its high bits.
-/

namespace Ragnet.Conn

open Proc Wire

/-! ## What is written -/

/-- The packet of the `i`-th fragment of the first message of a sender. -/
def firstPacket (count i : Nat) (content : Bytes) : Packet :=
  fragmentPacket count 0 (number 0) (number i) i content

/-- The datagrams of the fragments from the `i`-th on. -/
def firstDatagrams (count : Nat) : Nat → List Bytes → List Bytes
  | _, [] => []
  | i, content :: rest =>
      datagram (number i) (firstPacket count i content) :: firstDatagrams count (i + 1) rest

theorem writeLoop_sendTx {env : Env} {count i n m : Nat} {fragments : List Bytes} {c c' : Conn}
    (hseq : c.state.seq = number i) (hindex : c.state.messageIndex = number i)
    (h : writeLoop env count 0 (number 0) i fragments n c = (c', .ok m)) :
    c'.sendTx = c.sendTx ++ firstDatagrams count i fragments := by
  induction fragments generalizing i n c with
  | nil =>
      obtain rfl := (Prod.mk.inj h).1
      exact (List.append_nil _).symm
  | cons content rest ih =>
      cases haccepts : env.accepts i with
      | false =>
          rw [writeLoop, update_bind, haccepts] at h
          cases (Prod.mk.inj h).2
      | true =>
          rw [writeLoop_cons haccepts] at h
          have hsent := ih (by change c.state.seq.inc.1 = _; rw [hseq]; rfl)
            (by change c.state.messageIndex.inc.1 = _; rw [hindex]; rfl) h
          rw [hsent]
          change (c.sendTx ++ [datagram c.state.seq (fragmentPacket count 0 (number 0)
            c.state.messageIndex i content)]) ++ _ = _
          rw [hseq, hindex, List.append_assoc]
          rfl

/-- A message that is written has been cut into fragments. -/
theorem write_sendTx {build : Build} {env : Env} {data : Bytes} {mtu n : Nat} {sender : Conn}
    (h : write build env data (new mtu) = (sender, .ok n)) :
    ∃ fragments, split build data (Mtu.clamp mtu).effective = .ok fragments ∧
      sender.sendTx = firstDatagrams fragments.length 0 fragments := by
  have hmtu : Mtu.clamp mtu = (new mtu).mtu := rfl
  rw [write_open build rfl] at h
  rw [hmtu]
  cases hsplit : split build data (new mtu).mtu.effective with
  | error e =>
      rw [@writeLocked_of_error build env data (new mtu) e hsplit] at h
      cases (Prod.mk.inj h).2
  | ok fragments =>
      refine ⟨fragments, rfl, ?_⟩
      rw [writeLocked_of_ok env hsplit] at h
      exact writeLoop_sendTx rfl rfl h

/-- While the socket accepts the datagrams, a write returns. -/
theorem write_returns {build : Build} {env : Env} (haccepts : ∀ i, env.accepts i = true)
    {data : Bytes} (mtu : Nat) (hd : data ≠ []) :
    ∃ sender n, write build env data (new mtu) = (sender, .ok n) :=
  ⟨_, data.length, Prod.ext rfl (completes_of_ne_nil build haccepts rfl hd)⟩

/-! ## What is received -/

/-- `receive` on one datagram after the other, up to the first that fails. -/
def receiveAll (build : Build) (handler : ConnectionHandler) (envs : Nat → Env) :
    Nat → List Bytes → Action Unit
  | _, [] => pure ()
  | i, data :: rest => do
      receive build handler (envs i) data
      receiveAll build handler envs (i + 1) rest

/-- The datagrams are accepted one after the other, and with the last one the message is handed to
`handle_packet`. -/
def Accepts (build : Build) (handler : ConnectionHandler) (envs : Nat → Env)
    (datagrams : List Bytes) (data : Bytes) (c : Conn) : Prop :=
  ∃ c', c'.handled = c.handled ∧ c'.closing = c.closing ∧
    receiveAll build handler envs 0 datagrams c = handlePacket handler data c'

section Receive

variable {build : Build} {handler : ConnectionHandler} {count i : Nat} {content : Bytes}
  {taken : List Bytes} {c : Conn}

/-- How many slots an entry gets. -/
def announced (count : Nat) : Nat := (UInt32.ofNat count).toNat

theorem firstPacket_split (hcount : count > 1) :
    firstPacket count i content =
      { Packet.new with
        content := content
        orderIndex := number 0
        messageIndex := number i
        split := true
        splitCount := UInt32.ofNat count
        splitIndex := UInt32.ofNat i
        splitId := 0 } := by
  rw [firstPacket, fragmentPacket, if_pos hcount]

theorem takePacket_firstPacket (hcount : count > 1) :
    takePacket build handler (firstPacket count i content) =
      receiveSplitPacket build handler (firstPacket count i content) := by
  rw [takePacket, firstPacket_split hcount, if_pos rfl]

/-- The entries of a receiver that has put the first fragments into their slots. -/
def held (count : Nat) (taken : List Bytes) : HashMap UInt16 (List Bytes) :=
  if taken = [] then ∅
  else (∅ : HashMap UInt16 (List Bytes)).insert 0
    (taken ++ List.replicate (announced count - taken.length) [])

theorem fragmentsOf_held (hcount : count > 1) :
    fragmentsOf (held count taken) (firstPacket count i content) =
      taken ++ List.replicate (announced count - taken.length) [] := by
  rw [fragmentsOf, firstPacket_split hcount, held]
  by_cases htaken : taken = []
  · subst htaken
    rw [if_pos rfl, Finmap.lookup_empty]
    rfl
  · rw [if_neg htaken, Finmap.lookup_insert]

theorem len_held_le : (held count taken).len ≤ maxConcurrentSplits := by
  rw [held]
  split
  · exact Nat.zero_le _
  · rw [HashMap.len, HashMap.keys_insert]
    exact (Finset.card_insert_le _ _).trans (by decide)

/-- The next fragment goes into the first free slot. -/
theorem set_held (hlt : taken.length < announced count) :
    (taken ++ List.replicate (announced count - taken.length) []).set taken.length content =
      taken ++ [content] ++ List.replicate (announced count - (taken.length + 1)) [] := by
  obtain ⟨k, hk⟩ : ∃ k, announced count - taken.length = k + 1 :=
    ⟨announced count - taken.length - 1, by omega⟩
  have hk' : announced count - (taken.length + 1) = k := by omega
  rw [hk, hk', List.replicate_succ, List.set_append_right _ _ le_rfl, Nat.sub_self,
    List.set_cons_zero, List.append_assoc]
  rfl

theorem insert_held (htaken : taken ++ [content] ≠ []) :
    (held count taken).insert 0
        (taken ++ [content] ++ List.replicate (announced count - (taken.length + 1)) []) =
      held count (taken ++ [content]) := by
  have hlen : (taken ++ [content]).length = taken.length + 1 := by simp
  rw [held, held, if_neg htaken, hlen]
  split
  · rfl
  · exact Finmap.insert_insert _

theorem erase_held : (held count taken).erase 0 = ∅ := by
  rw [held]
  split
  · rfl
  · exact HashMap.erase_insert_empty _ _

/-- A fragment is refused when the announced count is beyond the limit, and when no entry is open
and the index is beyond the slots that a new one gets. -/
theorem takePacket_refused (hcount : count > 1) (hlimits : handler.limitsEnabled = true)
    (hsplits : c.state.splits = ∅) (hi : i < 2 ^ 32)
    (h : announced count > 512 ∨ announced count ≤ i) :
    ∃ c' e, takePacket build handler (firstPacket count i content) c = (c', .error e) ∧
      c'.handled = c.handled := by
  rw [takePacket_firstPacket hcount, receiveSplitPacket]
  by_cases hlim : SplitLimited handler c.state.splits (firstPacket count i content)
  · obtain ⟨text, hr⟩ := reassemble_limited build hlim
    exact ⟨c, _, bind_error hr, rfl⟩
  have hindex : IndexOutOfRange c.state.splits (firstPacket count i content) := by
    rcases h with hbig | hsmall
    · refine absurd ⟨Or.inl ?_, hlimits⟩ hlim
      rw [firstPacket_split hcount]
      exact UInt32.lt_iff_toNat_lt.mpr hbig
    · have hslots : fragmentsOf c.state.splits (firstPacket count i content) =
          List.replicate (announced count) [] := by
        rw [hsplits]
        exact (@fragmentsOf_held count i content [] hcount)
      rw [IndexOutOfRange, hslots, List.length_replicate, firstPacket_split hcount, ge_iff_le,
        UInt32.le_iff_toNat_le, announced, UInt32.ofNat_toNat, UInt32.toNat_ofNat_of_lt' hi]
      exact hsmall
  have hr := @reassemble_open build handler c _ hlim
  rw [if_pos hindex] at hr
  cases htext : splitIndexError build (firstPacket count i content).splitIndex
      (fragmentsOf c.state.splits (firstPacket count i content)).length with
  | error e =>
      rw [htext] at hr
      exact ⟨_, e, bind_error hr, rfl⟩
  | ok text =>
      rw [htext] at hr
      exact ⟨_, _, bind_error hr, rfl⟩

/-- The next fragment is put into its slot, and the last one completes the message. -/
theorem reassemble_held (hsplits : c.state.splits = held count taken) (hcount : count > 1)
    (hlt : taken.length < announced count) (hle : announced count ≤ 512)
    (hne : ∀ f ∈ taken ++ [content], f ≠ []) :
    reassemble build handler (firstPacket count taken.length content) c =
      if taken.length + 1 < announced count then
        ({ c with state.splits := held count (taken ++ [content]) }, .ok none)
      else
        ({ c with
            state.splits := ∅
            reassembled := c.reassembled ++ [streamPacket 0 (taken ++ [content]).flatten] },
          .ok (some (streamPacket 0 (taken ++ [content]).flatten))) := by
  have hlim : ¬ SplitLimited handler c.state.splits (firstPacket count taken.length content) := by
    refine not_splitLimited_of_le ?_ ?_
    · rw [firstPacket_split hcount]
      exact hle
    · rw [hsplits]
      exact len_held_le
  have hslots : fragmentsOf c.state.splits (firstPacket count taken.length content) =
      taken ++ List.replicate (announced count - taken.length) [] := by
    rw [hsplits, fragmentsOf_held hcount]
  have hlen : (taken ++ List.replicate (announced count - taken.length) ([] : Bytes)).length =
      announced count := by
    rw [List.length_append, List.length_replicate, Nat.add_sub_cancel' hlt.le]
  have hindex : (firstPacket count taken.length content).splitIndex.toNat = taken.length := by
    rw [firstPacket_split hcount]
    exact UInt32.toNat_ofNat_of_lt' (hlt.trans (UInt32.toNat_lt _))
  have hid : (firstPacket count taken.length content).splitId = 0 := by
    rw [firstPacket_split hcount]
  have hcontent : (firstPacket count taken.length content).content = content := by
    rw [firstPacket_split hcount]
  have hcombined : combinedPacket (firstPacket count taken.length content) (taken ++ [content]) =
      streamPacket 0 (taken ++ [content]).flatten := by
    rw [combinedPacket, firstPacket_split hcount]
    rfl
  rw [reassemble_slots build hlim hslots (by omega) (by omega), hindex, hcontent, hid,
    set_held hlt, hsplits, erase_held,
    insert_held (List.append_ne_nil_of_right_ne_nil _ (List.cons_ne_nil _ _))]
  by_cases hmore : taken.length + 1 < announced count
  · have hempty : [] ∈ taken ++ [content] ++
        List.replicate (announced count - (taken.length + 1)) ([] : Bytes) :=
      List.mem_append_right _ (List.mem_replicate.mpr ⟨by omega, rfl⟩)
    rw [if_pos hempty, if_pos hmore]
  · have hzero : announced count - (taken.length + 1) = 0 := by omega
    rw [hzero, List.replicate_zero, List.append_nil, if_neg (fun hm ↦ hne [] hm rfl), if_neg hmore,
      hcombined]

/-- A receiver that has put the first fragments into their slots and expects the next one. -/
structure Collecting (count : Nat) (taken : List Bytes) (c : Conn) : Prop where
  pk : c.state.pk = Packet.new
  win : c.state.win = .expecting taken.length
  packetQueue : c.state.packetQueue = .expecting 0
  splits : c.state.splits = held count taken

/-- A receiver without open entries that expects the `i`-th datagram. -/
structure Cleared (i : Nat) (c : Conn) : Prop where
  pk : c.state.pk = Packet.new
  win : c.state.win = .expecting i
  splits : c.state.splits = ∅

theorem cleared_new (mtu : Nat) : Cleared 0 (new mtu) := ⟨rfl, rfl, rfl⟩

theorem collecting_new (count mtu : Nat) : Collecting count [] (new mtu) := ⟨rfl, rfl, rfl, rfl⟩

section Next

variable (h : Collecting count taken c) (hcount : count > 1) (hle : announced count ≤ 512)
  (hne : ∀ f ∈ taken ++ [content], f ≠ []) (hs : Sendable content) (env : Env)

include h hcount hle hne hs

/-- A fragment that is not the last one. -/
theorem Collecting.receive (hlt : taken.length + 1 < announced count) :
    ∃ c', Collecting count (taken ++ [content]) c' ∧ c'.handled = c.handled ∧
      c'.closing = c.closing ∧
      Conn.receive build handler env
        (datagram (number taken.length) (firstPacket count taken.length content)) c =
          (c', .ok ()) := by
  have hlen : (taken ++ [content]).length = taken.length + 1 := by simp
  have hnum : taken.length + 1 < 2 ^ 24 := (hlt.trans_le hle).trans (by decide)
  obtain ⟨nacks, hwin, hrecv⟩ := @receive_next build handler env taken.length c
    (firstPacket count taken.length content) h.pk h.win hnum (fragmentPacket_encodable hs)
    fragmentPacket_overlay
  have hr := @reassemble_held build handler count content taken
    (c.awaiting env.clock (number taken.length) nacks) h.splits hcount (Nat.lt_of_succ_lt hlt) hle
    hne
  rw [if_pos hlt] at hr
  rw [hrecv, takePacket_firstPacket hcount, receiveSplitPacket, bind_ok hr]
  refine ⟨{ c.awaiting env.clock (number taken.length) nacks with
    state.splits := held count (taken ++ [content]) }, ?_, rfl, rfl, rfl⟩
  exact ⟨rfl, by rw [hlen]; exact hwin, h.packetQueue, rfl⟩

/-- The last fragment completes the message, which is handed on. -/
theorem Collecting.receive_last (hlast : taken.length + 1 = announced count) :
    ∃ c', Cleared (announced count) c' ∧ c'.handled = c.handled ∧ c'.closing = c.closing ∧
      Conn.receive build handler env
        (datagram (number taken.length) (firstPacket count taken.length content)) c =
          handlePacket handler (taken ++ [content]).flatten c' := by
  have hnum : taken.length + 1 < 2 ^ 24 := (hlast ▸ hle).trans_lt (by decide)
  obtain ⟨nacks, hwin, hrecv⟩ := @receive_next build handler env taken.length c
    (firstPacket count taken.length content) h.pk h.win hnum (fragmentPacket_encodable hs)
    fragmentPacket_overlay
  have hr := @reassemble_held build handler count content taken
    (c.awaiting env.clock (number taken.length) nacks) h.splits hcount
    (hlast ▸ Nat.lt_succ_self _) hle hne
  rw [if_neg hlast.not_lt] at hr
  have hq := @receivePacket_expecting build handler 0
    { c.awaiting env.clock (number taken.length) nacks with
      state.splits := ∅
      reassembled := c.reassembled ++ [streamPacket 0 (taken ++ [content]).flatten] }
    (taken ++ [content]).flatten h.packetQueue (by decide)
  rw [hrecv, takePacket_firstPacket hcount, receiveSplitPacket, bind_ok hr]
  refine ⟨_, ?_, ?_, ?_, hq.trans (congrFun (handleAll_singleton _) _)⟩
  · refine ⟨rfl, ?_, rfl⟩
    rw [← hlast]
    exact hwin
  · rfl
  · rfl

end Next

section All

variable {envs : Nat → Env} {contents rest : List Bytes}

/-- As many fragments as are announced arrive in order, and behind them others. -/
theorem Collecting.receiveAll (h : Collecting count taken c) (hcount : count > 1)
    (hle : announced count ≤ 512) (hs : ∀ f ∈ taken ++ contents, Sendable f)
    (hlen : taken.length + contents.length = announced count) (hne : contents ≠ []) :
    ∃ c', Cleared (announced count) c' ∧ c'.handled = c.handled ∧ c'.closing = c.closing ∧
      Conn.receiveAll build handler envs taken.length
          (firstDatagrams count taken.length (contents ++ rest)) c =
        (handlePacket handler (taken ++ contents).flatten >>= fun _ ↦
          Conn.receiveAll build handler envs (announced count)
            (firstDatagrams count (announced count) rest)) c' := by
  -- the fragments that are still to come move to those that have been taken
  induction contents generalizing taken c with
  | nil => exact absurd rfl hne
  | cons content contents ih =>
      have hall : ∀ f ∈ taken ++ [content] ++ contents, Sendable f := by simpa using hs
      have hs' : ∀ f ∈ taken ++ [content], Sendable f :=
        fun f hf ↦ hall f (List.mem_append_left _ hf)
      have hfilled : ∀ f ∈ taken ++ [content], f ≠ [] := fun f hf ↦ (hs' f hf).1
      have hcontent : Sendable content := hs' content (by simp)
      rw [List.length_cons] at hlen
      rw [List.cons_append, firstDatagrams, Conn.receiveAll]
      by_cases hlast : contents = []
      · subst hlast
        obtain ⟨c', hc', hhandled, hclosing, hr⟩ :=
          @Collecting.receive_last build handler count content taken c h hcount hle hfilled hcontent
            (envs taken.length) hlen
        refine ⟨c', hc', hhandled, hclosing, ?_⟩
        rw [← hlen]
        exact bind_eq_bind hr _
      · have hpos := List.length_pos_iff.mpr hlast
        have hlength : (taken ++ [content]).length = taken.length + 1 := by simp
        obtain ⟨c₁, hc₁, hhandled, hclosing, hr⟩ :=
          @Collecting.receive build handler count content taken c h hcount hle hfilled hcontent
            (envs taken.length) (by omega)
        obtain ⟨c', hc', hhandled', hclosing', hrest⟩ :=
          @ih (taken ++ [content]) c₁ hc₁ hall (by omega) hlast
        rw [hlength, List.append_assoc, List.singleton_append] at hrest
        rw [bind_ok hr]
        exact ⟨c', hc', hhandled'.trans hhandled, hclosing'.trans hclosing, hrest⟩

/-- The first fragment of those that arrive is refused, and nothing behind it is looked at. -/
theorem Cleared.receiveAll_refused {content : Bytes} (h : Cleared i c) (hcount : count > 1)
    (hi : i + 1 < 2 ^ 24) (hlimits : handler.limitsEnabled = true) (hs : Sendable content)
    (hcause : announced count > 512 ∨ announced count ≤ i) :
    ∃ c' e, Conn.receiveAll build handler envs i (firstDatagrams count i (content :: rest)) c =
      (c', .error e) ∧ c'.handled = c.handled := by
  obtain ⟨nacks, -, hrecv⟩ := @receive_next build handler (envs i) i c (firstPacket count i content)
    h.pk h.win hi (fragmentPacket_encodable hs) fragmentPacket_overlay
  obtain ⟨c', e, hr, hhandled⟩ := @takePacket_refused build handler count i content
    (c.awaiting (envs i).clock (number i) nacks) hcount hlimits h.splits (by omega) hcause
  rw [firstDatagrams, Conn.receiveAll]
  exact ⟨c', e, bind_error (hrecv.trans hr), hhandled⟩

/-- So whatever has been handed on before is all that is. -/
theorem Cleared.handled_refused {content part : Bytes} (h : Cleared i c) (hcount : count > 1)
    (hi : i + 1 < 2 ^ 24) (hlimits : handler.limitsEnabled = true) (hs : Sendable content)
    (hcause : announced count > 512 ∨ announced count ≤ i) :
    ((handlePacket handler part >>= fun _ ↦
      Conn.receiveAll build handler envs i (firstDatagrams count i (content :: rest)))
      c).1.handled = c.handled ++ [part] := by
  have hhandled := handlePacket_handled handler part c
  have hstate := congrArg Prod.fst (handlePacket_state handler part c)
  rcases hp : handlePacket handler part c with ⟨c₁, e | _⟩
  · rw [hp] at hhandled
    rw [bind_error hp]
    exact hhandled
  · rw [hp] at hhandled hstate
    dsimp only at hhandled hstate
    have hc₁ : Cleared i c₁ := by
      obtain ⟨hpk, hwin, hsplits⟩ := h
      rw [← hstate] at hpk hwin hsplits
      exact ⟨hpk, hwin, hsplits⟩
    obtain ⟨c₂, e, hr, hnone⟩ :=
      @Cleared.receiveAll_refused build handler count i c₁ envs rest content hc₁ hcount hi hlimits
        hs hcause
    rw [bind_ok hp, hr, hnone, hhandled]

end All

end Receive

/-! ## Whether it is accepted -/

section Message

variable {build : Build} {handler : ConnectionHandler} {envs : Nat → Env}
  {fragments : List Bytes} (hs : ∀ f ∈ fragments, Sendable f) (mtu : Nat)

include hs

/-- A message of at most 512 fragments is accepted. -/
theorem accepts_of_le (hne : fragments ≠ []) (hle : fragments.length ≤ 512) :
    Accepts build handler envs (firstDatagrams fragments.length 0 fragments) fragments.flatten
      (new mtu) := by
  by_cases hcount : fragments.length > 1
  · have hannounced : announced fragments.length = fragments.length :=
      UInt32.toNat_ofNat_of_lt' (hle.trans_lt (by decide))
    obtain ⟨c', -, hhandled, hclosing, hr⟩ :=
      @Collecting.receiveAll build handler fragments.length [] (new mtu) envs fragments []
        (collecting_new _ mtu) hcount (hannounced.symm ▸ hle) hs
        ((Nat.zero_add _).trans hannounced.symm) hne
    refine ⟨c', hhandled, hclosing, ?_⟩
    rw [List.append_nil] at hr
    exact hr.trans (congrFun (bind_pure _) c')
  · obtain ⟨content, rfl⟩ : ∃ content, fragments = [content] := by
      refine List.length_eq_one_iff.mp ?_
      have hpos := List.length_pos_iff.mpr hne
      omega
    obtain ⟨c', -, hhandled, -, hclosing, hr⟩ :=
      @Expecting.receive build handler (envs 0) 0 (new mtu) content (expecting_new mtu) (by decide)
        (hs content (List.mem_singleton_self content))
    refine ⟨c', hhandled, hclosing, ?_⟩
    have hwhole : firstPacket 1 0 content = streamPacket 0 content := fragmentPacket_whole hcount
    rw [List.length_singleton, firstDatagrams, hwhole, List.flatten_singleton,
      ← handleAll_singleton, ← hr]
    exact congrFun (bind_pure _) (new mtu)

/-- Of a longer message nothing is handed on, or a part of it, where the count has lost its high
bits. -/
theorem handled_of_lt (hlimits : handler.limitsEnabled = true) (hlt : 512 < fragments.length) :
    (receiveAll build handler envs 0 (firstDatagrams fragments.length 0 fragments)
        (new mtu)).1.handled = [] ∨
      ∃ k < fragments.length,
        (receiveAll build handler envs 0 (firstDatagrams fragments.length 0 fragments)
          (new mtu)).1.handled = [(fragments.take k).flatten] := by
  have hcount : fragments.length > 1 := lt_trans (by decide) hlt
  by_cases hfirst : announced fragments.length > 512 ∨ announced fragments.length ≤ 0
  · -- the first fragment is refused
    left
    obtain ⟨content, rest, rfl⟩ : ∃ content rest, fragments = content :: rest :=
      List.exists_cons_of_length_pos (by omega)
    obtain ⟨c₁, e, hrefused, hnone⟩ :=
      @Cleared.receiveAll_refused build handler (content :: rest).length 0 (new mtu) envs rest
        content (cleared_new mtu) hcount (by decide) hlimits (hs content (by simp)) hfirst
    rw [hrefused, hnone]
    rfl
  · -- the first fragments are taken for a message, and the next one is refused
    right
    rw [not_or, Nat.not_lt, Nat.not_le] at hfirst
    obtain ⟨hle, hpos⟩ := hfirst
    generalize hk : announced fragments.length = k at hle hpos
    obtain ⟨content, rest, hrest⟩ : ∃ content rest, fragments.drop k = content :: rest :=
      List.exists_cons_of_length_pos (by rw [List.length_drop]; omega)
    have hcut : fragments.take k ++ content :: rest = fragments := by
      rw [← hrest, List.take_append_drop]
    have htake : (fragments.take k).length = k := List.length_take_of_le (by omega)
    have hcontent : Sendable content := hs content (by rw [← hcut]; simp)
    obtain ⟨c₁, hc₁, hnone, -, hmany⟩ :=
      @Collecting.receiveAll build handler fragments.length [] (new mtu) envs (fragments.take k)
        (content :: rest) (collecting_new _ mtu) hcount (hk ▸ hle)
        (fun f hf ↦ hs f (List.mem_of_mem_take hf)) (by rw [hk, htake]; exact Nat.zero_add k)
        (List.ne_nil_of_length_pos (by omega))
    rw [hcut, hk] at hmany
    have hpart := @Cleared.handled_refused build handler fragments.length k c₁ envs rest content
      (fragments.take k).flatten (hk ▸ hc₁) hcount (by omega) hlimits hcontent
      (Or.inr (le_of_eq hk))
    rw [hnone] at hpart
    exact ⟨k, by omega, (congrArg (fun r ↦ r.1.handled) hmany).trans hpart⟩

/-- A longer message is not accepted. -/
theorem not_accepts_of_lt (hlimits : handler.limitsEnabled = true) (hlt : 512 < fragments.length) :
    ¬ Accepts build handler envs (firstDatagrams fragments.length 0 fragments) fragments.flatten
      (new mtu) := by
  rintro ⟨c', hhandled, -, hr⟩
  have hend : (receiveAll build handler envs 0 (firstDatagrams fragments.length 0 fragments)
      (new mtu)).1.handled = [fragments.flatten] := by
    rw [hr, handlePacket_handled, hhandled]
    rfl
  rcases @handled_of_lt build handler envs fragments hs mtu hlimits hlt with hnone | ⟨k, hk, hpart⟩
  · rw [hnone] at hend
    cases hend
  · rw [hpart] at hend
    have hcut := congrArg List.flatten (List.take_append_drop k fragments)
    rw [List.flatten_append, List.singleton_inj.mp hend, List.append_right_eq_self] at hcut
    -- nothing would be left behind the part
    have hmem : fragments[k] ∈ fragments.drop k := by
      rw [List.drop_eq_getElem_cons hk]
      exact List.mem_cons_self
    exact (hs fragments[k] (List.getElem_mem hk)).1 (List.flatten_eq_nil_iff.mp hcut _ hmem)

end Message

/-- The number of fragments is at most 512 iff they have room for the message. -/
theorem fragmentCount_le_iff {n mtu : Nat} (hmtu : 372 ≤ mtu) :
    fragmentCount n mtu ≤ 512 ↔ n ≤ 512 * fragmentSize mtu := by
  have hfragment : fragmentSize mtu = mtu - 24 := by
    rw [fragmentSize, packetAdditionalSize, splitAdditionalSize]
    omega
  have hwhole : wholeSize mtu = mtu - 14 := by
    rw [wholeSize, packetAdditionalSize]
  rw [fragmentCount]
  by_cases hlong : n > wholeSize mtu
  · rw [if_pos hlong, ← Nat.lt_succ_iff, Nat.div_lt_iff_lt_mul (by omega)]
    omega
  · rw [if_neg hlong]
    omega

/-- **When a new receiver accepts what a new sender writes.**  Every datagram is accepted and the
message handed on exactly when 512 fragments have room for it. -/
theorem write_accepted_iff {build : Build} {handler : ConnectionHandler} {env : Env}
    {envs : Nat → Env} {data : Bytes} {mtu receiverMtu n : Nat} {sender : Conn}
    (hlo : 400 ≤ mtu) (hhi : mtu ≤ 1492) (hlimits : handler.limitsEnabled = true)
    (hwrite : write build env data (new mtu) = (sender, .ok n)) :
    Accepts build handler envs sender.sendTx data (new receiverMtu) ↔
      data.length ≤ 512 * (mtu - 52) := by
  have heffective : (Mtu.clamp mtu).effective = mtu - 28 := by
    change max 400 (min mtu 1492) - 28 = mtu - 28
    rw [Nat.min_eq_left hhi, Nat.max_eq_right hlo]
  obtain ⟨fragments, hsplit, hsent⟩ := write_sendTx hwrite
  have hdata : data ≠ [] := by
    rintro rfl
    exact split_nil build (by omega) fragments hsplit
  obtain ⟨fragments', hsplit', hlen, hflat, hs⟩ := split_sendable build (Mtu.clamp mtu) hdata
  obtain rfl : fragments = fragments' := Except.ok.inj (hsplit.symm.trans hsplit')
  have hne : fragments ≠ [] := by
    rintro rfl
    exact hdata hflat.symm
  have hsize : fragmentSize (mtu - 28) = mtu - 52 := by
    rw [fragmentSize, packetAdditionalSize, splitAdditionalSize]
    omega
  have hcount := @fragmentCount_le_iff data.length (mtu - 28) (by omega)
  rw [← hsize, ← hcount, ← heffective, ← hlen, hsent]
  constructor
  · intro h
    by_contra hlong
    rw [← hflat] at h
    exact not_accepts_of_lt hs receiverMtu hlimits (Nat.lt_of_not_le hlong) h
  · intro hle
    have haccepts := @accepts_of_le build handler envs fragments hs receiverMtu hne hle
    rwa [hflat] at haccepts

/-- Exactly as much as 512 fragments have room for. -/
theorem write_accepted_iff_full :
    ∃ sender n, write .debug .calm (List.replicate 178176 7) (new 400) = (sender, .ok n) ∧
      Accepts .debug .forwarding (fun _ ↦ .calm) sender.sendTx (List.replicate 178176 7)
        (new 400) := by
  have hlen : (List.replicate 178176 (7 : UInt8)).length ≤ 512 * (400 - 52) :=
    List.length_replicate.le
  have hne : List.replicate 178176 (7 : UInt8) ≠ [] := List.cons_ne_nil _ _
  obtain ⟨sender, n, hwrite⟩ := @write_returns .debug .calm (fun _ ↦ rfl) _ 400 hne
  refine ⟨sender, n, hwrite, ?_⟩
  exact (write_accepted_iff (by decide) (by decide) rfl hwrite).mpr hlen

/-- One byte more than 512 fragments have room for: the write returns, and the receiver refuses the
first of the 513 fragments. -/
theorem write_refused :
    ∃ sender n, write .debug .calm (List.replicate 178177 7) (new 400) =
        (sender, .ok n) ∧
      ¬ Accepts .debug .forwarding (fun _ ↦ .calm) sender.sendTx
        (List.replicate 178177 7) (new 400) := by
  generalize hdata : List.replicate 178177 (7 : UInt8) = data
  have hlen : data.length = 178177 := by rw [← hdata, List.length_replicate]
  have hne : data ≠ [] := List.ne_nil_of_length_pos (by omega)
  obtain ⟨sender, n, hwrite⟩ :=
    @write_returns .debug .calm (fun _ ↦ rfl) data 400 hne
  obtain ⟨fragments, hsplit, hsent⟩ := write_sendTx hwrite
  obtain ⟨fragments', hsplit', hcount, hflat, hs⟩ := split_sendable .debug (Mtu.clamp 400) hne
  obtain rfl : fragments = fragments' := Except.ok.inj (hsplit.symm.trans hsplit')
  have hlong : 512 < fragments.length := by
    have heffective : (Mtu.clamp 400).effective = 372 := rfl
    rw [hcount, hlen, heffective]
    decide
  refine ⟨sender, n, hwrite, ?_⟩
  rw [hsent, ← hflat]
  exact not_accepts_of_lt hs 400 rfl hlong

end Ragnet.Conn

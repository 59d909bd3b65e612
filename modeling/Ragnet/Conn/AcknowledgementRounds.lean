import Ragnet.Conn.SendAcknowledgement
import Ragnet.Lib.Blocks

/-!
# What acknowledgement datagrams convey

The rounds of `send_acknowledgement` are those of `Ragnet.Lib.Blocks`, with the capacity of a
datagram as the number of elements that a round takes.
-/

namespace Ragnet.Conn

open Acknowledgement Blocks Wire

/-- The numbers that a peer reads from an acknowledgement datagram, behind its flag byte. -/
def decodeAcknowledgement (build : Build) (datagram : Bytes) : Result (List Uint24) :=
  (Acknowledgement.new.read build (datagram.drop 1)).map Acknowledgement.packets

/-- The datagrams can all be read, and together they carry each of the numbers once. -/
def Conveys (build : Build) (datagrams : List Bytes) (packets : List Uint24) : Prop :=
  ∃ lists : List (List Uint24), datagrams.map (decodeAcknowledgement build) = lists.map .ok ∧
    lists.flatten.Perm packets

theorem proper_capacity (mtu : Nat) : Proper (capacity mtu) where
  pos := capacity_pos mtu
  le := capacity_le mtu

variable {build build' : Build} {env : Env} {mtu : Nat} {bitflag : UInt8}

/-- The datagrams that the channel takes, the first of them the `i`-th of its call. -/
def takenFrom (env : Env) : Nat → List Bytes → List Bytes
  | _, [] => []
  | i, d :: ds => if env.accepts i then d :: takenFrom env (i + 1) ds else takenFrom env (i + 1) ds

/-- An open channel takes them all. -/
theorem takenFrom_of_accepts (henv : ∀ i, env.accepts i = true) (i : Nat) (ds : List Bytes) :
    takenFrom env i ds = ds := by
  induction ds generalizing i with
  | nil => rfl
  | cons d ds ih => rw [takenFrom, if_pos (henv i), ih]

theorem mem_takenFrom {i : Nat} {ds : List Bytes} {d : Bytes} :
    d ∈ takenFrom env i ds ↔ ∃ k, ds[k]? = some d ∧ env.accepts (i + k) = true := by
  induction ds generalizing i with
  | nil => exact ⟨fun h ↦ absurd h List.not_mem_nil, fun ⟨k, hk, _⟩ ↦ by cases hk⟩
  | cons first ds ih =>
      have hrest : d ∈ takenFrom env (i + 1) ds ↔
          ∃ k, (first :: ds)[k + 1]? = some d ∧ env.accepts (i + (k + 1)) = true := by
        rw [ih]
        refine exists_congr fun k ↦ ?_
        rw [List.getElem?_cons_succ, Nat.add_right_comm, Nat.add_assoc]
      rw [takenFrom]
      constructor
      · intro h
        split at h
        · next haccepts =>
          rcases List.mem_cons.mp h with rfl | h
          · exact ⟨0, rfl, haccepts⟩
          · obtain ⟨k, hk⟩ := hrest.mp h
            exact ⟨k + 1, hk⟩
        · obtain ⟨k, hk⟩ := hrest.mp h
          exact ⟨k + 1, hk⟩
      · rintro ⟨k, hk, haccepts⟩
        cases k with
        | zero =>
            rw [if_pos (show env.accepts i = true from haccepts), ← Option.some.inj hk]
            exact List.mem_cons_self
        | succ k =>
            have hmem := hrest.mpr ⟨k, hk, haccepts⟩
            split
            · exact List.mem_cons_of_mem _ hmem
            · exact hmem

/-- What a peer makes of the datagram of a round that took the numbers `taken`. -/
def Decodes (build : Build) (datagram : Bytes) (taken : List Uint24) : Prop :=
  decodeAcknowledgement build datagram = .ok taken ∧ Readable taken ∨
    decodeAcknowledgement build datagram = err .maxAcknowledgement ∧ ¬ Readable taken

/-- The datagram of a round that took the numbers `taken`: the flag byte and an encoding of them. -/
def IsDatagram (bitflag : UInt8) (datagram : Bytes) (taken : List Uint24) : Prop :=
  ∃ body, datagram = [bitflag ||| bitFlagDatagram] ++ body ∧ Encodes body taken

theorem IsDatagram.decodes {datagram : Bytes} {taken : List Uint24}
    (h : IsDatagram bitflag datagram taken) (build : Build) : Decodes build datagram taken := by
  obtain ⟨body, rfl, hbody⟩ := h
  rw [Decodes, decodeAcknowledgement, List.singleton_append, List.drop_one, List.tail_cons]
  refine (hbody.reads build).imp (And.imp_left fun h ↦ ?_) (And.imp_left fun h ↦ ?_)
  · rw [h]
    rfl
  · rw [h]
    rfl

/-- The loop runs the rounds of `Emits` and builds one datagram for each, whatever becomes of
them. -/
theorem acknowledgementLoop_builds (hmtu : 7 ≤ mtu) (hmtu' : mtu < 2 ^ 16)
    (packets : List Uint24) :
    ∃ datagrams out, (∀ env i c, acknowledgementLoop build env mtu bitflag i packets c =
        ({ c with sendTx := c.sendTx ++ takenFrom env i datagrams }, .ok ())) ∧
      Emits (capacity mtu) packets out ∧ List.Forall₂ (IsDatagram bitflag) datagrams out := by
  induction hn : packets.length using Nat.strong_induction_on generalizing packets with
  | _ n ih =>
    subst hn
    by_cases hne : packets = []
    · subst hne
      refine ⟨[], [], fun env i c ↦ ?_, .nil, .nil⟩
      rw [acknowledgementLoop_nil, takenFrom, List.append_nil]
      rfl
    · obtain ⟨body, hw, hbody⟩ :=
        @writeToBuf_encodes build mtu packets [bitflag ||| bitFlagDatagram] hmtu hmtu' hne
      have hle := (proper_capacity mtu).le_length packets
      have hpos : 0 < capacity mtu (sorted packets) := capacity_pos mtu fun hs ↦ by
        have := (sorted_perm packets).length_eq
        rw [hs] at this
        exact hne (List.length_eq_zero_iff.mp this.symm)
      have hdrop : (packets.drop (capacity mtu (sorted packets))).length < packets.length := by
        rw [List.length_drop]
        exact Nat.sub_lt (List.length_pos_iff.mpr hne) hpos
      obtain ⟨datagrams, out, hloop, hemits, hdatagrams⟩ := ih _ hdrop _ rfl
      refine ⟨([bitflag ||| bitFlagDatagram] ++ body) :: datagrams, _, fun env i c ↦ ?_,
        .round hne hemits, .cons ⟨body, rfl, hbody⟩ hdatagrams⟩
      rw [acknowledgementLoop_round hne hw hle, Proc.modify_bind, hloop, takenFrom, trySend]
      cases env.accepts i with
      | false => rfl
      | true => simp

/-- What peers make of the datagrams of the rounds. -/
theorem acknowledgementLoop_rounds (hmtu : 7 ≤ mtu) (hmtu' : mtu < 2 ^ 16) (i : Nat)
    (packets : List Uint24) (c : Conn) :
    ∃ datagrams out, acknowledgementLoop build env mtu bitflag i packets c =
        ({ c with sendTx := c.sendTx ++ takenFrom env i datagrams }, .ok ()) ∧
      Emits (capacity mtu) packets out ∧ List.Forall₂ (Decodes build') datagrams out := by
  obtain ⟨datagrams, out, hloop, hemits, hdatagrams⟩ :=
    @acknowledgementLoop_builds build mtu bitflag hmtu hmtu' packets
  exact ⟨datagrams, out, hloop env i c, hemits, hdatagrams.imp fun _ _ h ↦ h.decodes build'⟩

/-- When the list is not too long, every datagram of its rounds can be read. -/
theorem acknowledgementLoop_emits (henv : ∀ i, env.accepts i = true) (hmtu : 7 ≤ mtu)
    (hmtu' : mtu < 2 ^ 16) (i : Nat) (packets : List Uint24)
    (hlen : packets.length ≤ maxAcknowledgementPackets) (c : Conn) :
    ∃ datagrams out, acknowledgementLoop build env mtu bitflag i packets c =
        ({ c with sendTx := c.sendTx ++ datagrams }, .ok ()) ∧
      Emits (capacity mtu) packets out ∧
      datagrams.map (decodeAcknowledgement build') = out.map .ok := by
  obtain ⟨datagrams, out, hloop, hemits, hdecode⟩ :=
    @acknowledgementLoop_rounds build build' env mtu bitflag hmtu hmtu' i packets c
  rw [takenFrom_of_accepts henv] at hloop
  refine ⟨datagrams, out, hloop, hemits, ?_⟩
  have hreadable : ∀ taken ∈ out, Readable taken := fun taken ht ↦
    Or.inl ((hemits.length_le taken ht).trans hlen)
  clear hloop hemits
  induction hdecode with
  | nil => rfl
  | @cons d taken ds out hd _ ih =>
      rw [List.map_cons, List.map_cons, ih fun t ht ↦ hreadable t (List.mem_cons_of_mem _ ht),
        (hd.resolve_right fun h ↦ h.2 (hreadable taken List.mem_cons_self)).1]

/-- Every call terminates, and what it sends are the rounds of its list. -/
theorem sendAcknowledgement_emits (henv : ∀ i, env.accepts i = true) (packets : List Uint24)
    (hlen : packets.length ≤ maxAcknowledgementPackets) (c : Conn) :
    ∃ datagrams out, sendAcknowledgement build env packets bitflag c =
        ({ c with sendTx := c.sendTx ++ datagrams }, .ok ()) ∧
      Emits (capacity c.mtu.effective) packets out ∧
      datagrams.map (decodeAcknowledgement build') = out.map .ok := by
  have hmtu := c.mtu.effective_bounds
  exact acknowledgementLoop_emits henv (by omega) (by omega) 0 packets hlen c

/-- What readable datagrams convey is settled by what they read as. -/
theorem conveys_iff {datagrams : List Bytes} {out : List (List Uint24)} {packets : List Uint24}
    (h : datagrams.map (decodeAcknowledgement build) = out.map .ok) :
    Conveys build datagrams packets ↔ out.flatten.Perm packets := by
  constructor
  · rintro ⟨lists, hlists, hp⟩
    have hinj : Function.Injective (Except.ok : List Uint24 → Result (List Uint24)) :=
      fun _ _ ↦ Except.ok.inj
    obtain rfl := List.map_injective_iff.mpr hinj (hlists.symm.trans h)
    exact hp
  · exact fun hp ↦ ⟨out, h, hp⟩

/-- **Acknowledgements arrive complete iff the list is in blocks.**  For distinct numbers and an
open channel, `send_acknowledgement` terminates without a fault, and the datagrams it sends carry
each number once exactly when the list falls into ascending blocks where its sorted form overflows
a datagram. -/
theorem sendAcknowledgement_conveys_iff (henv : ∀ i, env.accepts i = true)
    (packets : List Uint24) (hnd : packets.Nodup)
    (hlen : packets.length ≤ maxAcknowledgementPackets) (c : Conn) :
    ∃ datagrams, sendAcknowledgement build env packets bitflag c =
        ({ c with sendTx := c.sendTx ++ datagrams }, .ok ()) ∧
      (Conveys build' datagrams packets ↔ InBlocks (capacity c.mtu.effective) packets) := by
  obtain ⟨datagrams, out, hsend, hemits, hdecode⟩ :=
    @sendAcknowledgement_emits build build' env bitflag henv packets hlen c
  refine ⟨datagrams, hsend, ?_⟩
  rw [conveys_iff hdecode]
  exact hemits.perm_iff (proper_capacity _) hnd

/-- Three numbers fit one datagram and are conveyed in any order. -/
theorem sendAcknowledgement_conveys_three :
    ∃ datagrams,
      sendAcknowledgement .release .calm
          [Uint24.new 9, Uint24.new 3, Uint24.new 4] bitFlagAck (new 1492) =
        ({ new 1492 with sendTx := [] ++ datagrams }, .ok ()) ∧
      (Conveys .release datagrams [Uint24.new 9, Uint24.new 3, Uint24.new 4] ↔
        InBlocks (capacity 1464) [Uint24.new 9, Uint24.new 3, Uint24.new 4]) :=
  sendAcknowledgement_conveys_iff (fun _ ↦ rfl) _ (by decide) (by decide) (new 1492)

/-- A NACK list as `missing` returns it: every second number, in descending order. -/
def descending : List Uint24 := (List.range 100).map fun i ↦ Uint24.new (2 * (99 - i))

/-- At the smallest MTU the sorted list overflows after 92 numbers, which are the smallest ones,
while the 92 largest ones are removed from the list. -/
theorem sendAcknowledgement_loses :
    descending.Nodup ∧ descending.length ≤ maxAcknowledgementPackets ∧
      ∀ datagrams,
        sendAcknowledgement .release .calm descending bitFlagNack (new 400) =
            ({ new 400 with sendTx := datagrams }, .ok ()) →
          ¬ Conveys .release datagrams descending := by
  have hnd : descending.Nodup := by decide +kernel
  have hlen : descending.length ≤ maxAcknowledgementPackets := by decide
  refine ⟨hnd, hlen, fun datagrams hsend ↦ ?_⟩
  obtain ⟨datagrams', out, hsend', hemits, hdecode⟩ :=
    @sendAcknowledgement_emits .release .release .calm bitFlagNack
      (fun _ ↦ rfl) descending hlen (new 400)
  obtain rfl : datagrams = datagrams' :=
    congrArg (fun r ↦ r.1.sendTx) (hsend.symm.trans hsend')
  rw [conveys_iff hdecode, hemits.perm_iff (proper_capacity _) hnd]
  intro hblocks
  have hcut : cut (capacity (new 400).mtu.effective) 1 (sort descending) = 92 := by
    decide +kernel
  have h := hblocks 1
  rw [hcut] at h
  exact absurd (h (Uint24.new 198) (by decide +kernel) (Uint24.new 0) (by decide +kernel))
    (by decide)

/-! ## What a peer can read -/

/-- Every round whose datagram the channel takes stays within what the decoder reads. -/
def RoundsReadable (mtu : Nat) (accepts : Nat → Bool) (packets : List Uint24) : Prop :=
  ∀ out, Emits (capacity mtu) packets out →
    ∀ k taken, out[k]? = some taken → accepts k = true → Readable taken

/-- A datagram can be read exactly when its numbers are readable. -/
theorem Decodes.ok_iff {datagram : Bytes} {taken : List Uint24}
    (h : Decodes build datagram taken) :
    (∃ numbers, decodeAcknowledgement build datagram = .ok numbers) ↔ Readable taken := by
  rcases h with ⟨hok, hreadable⟩ | ⟨herr, hnot⟩
  · exact ⟨fun _ ↦ hreadable, fun _ ↦ ⟨taken, hok⟩⟩
  · refine ⟨fun ⟨numbers, hok⟩ ↦ ?_, fun hreadable ↦ absurd hreadable hnot⟩
    rw [herr] at hok
    cases hok

/-- Every call terminates, and sends the datagrams of its rounds that the channel takes. -/
theorem sendAcknowledgement_rounds (packets : List Uint24) (c : Conn) :
    ∃ datagrams out, sendAcknowledgement build env packets bitflag c =
        ({ c with sendTx := c.sendTx ++ takenFrom env 0 datagrams }, .ok ()) ∧
      Emits (capacity c.mtu.effective) packets out ∧
      List.Forall₂ (Decodes build') datagrams out := by
  have hmtu := c.mtu.effective_bounds
  exact acknowledgementLoop_rounds (by omega) (by omega) 0 packets c

/-- **A peer reads every datagram iff no round is too long.**  For any list and any channel,
`send_acknowledgement` terminates without a fault, and each datagram that the channel takes is
accepted by `Acknowledgement::read` exactly when its round took at most 8192 numbers, or 8193 that
end in a range. -/
theorem sendAcknowledgement_readable_iff (build build' : Build) (env : Env)
    (packets : List Uint24) (bitflag : UInt8) (c : Conn) :
    ∃ datagrams, sendAcknowledgement build env packets bitflag c =
        ({ c with sendTx := c.sendTx ++ datagrams }, .ok ()) ∧
      ((∀ d ∈ datagrams, ∃ numbers, decodeAcknowledgement build' d = .ok numbers) ↔
        RoundsReadable c.mtu.effective env.accepts packets) := by
  obtain ⟨datagrams, out, hsend, hemits, hdecode⟩ :=
    @sendAcknowledgement_rounds build build' env bitflag packets c
  refine ⟨_, hsend, ?_⟩
  obtain ⟨hlen, hget⟩ := List.forall₂_iff_get.mp hdecode
  constructor
  · intro h out' hout' k taken hk haccepts
    obtain rfl := hemits.unique hout'
    obtain ⟨hkout, rfl⟩ := List.getElem?_eq_some_iff.mp hk
    have hkds : k < datagrams.length := hlen ▸ hkout
    have hmem : datagrams[k] ∈ takenFrom env 0 datagrams :=
      mem_takenFrom.mpr ⟨k, List.getElem?_eq_getElem hkds, by rwa [Nat.zero_add]⟩
    exact (hget k hkds hkout).ok_iff.mp (h _ hmem)
  · intro h d hd
    obtain ⟨k, hk, haccepts⟩ := mem_takenFrom.mp hd
    rw [Nat.zero_add] at haccepts
    obtain ⟨hkds, rfl⟩ := List.getElem?_eq_some_iff.mp hk
    have hkout : k < out.length := hlen ▸ hkds
    exact (hget k hkds hkout).ok_iff.mpr
      (h out hemits k _ (List.getElem?_eq_getElem hkout) haccepts)

def firstNumbers (n : Nat) : List Uint24 := (List.range n).map Uint24.new

@[simp] theorem length_firstNumbers (n : Nat) : (firstNumbers n).length = n := by
  rw [firstNumbers, List.length_map, List.length_range]

theorem getElem_firstNumbers {n i : Nat} (hn : n ≤ 2 ^ 24) (hi : i < (firstNumbers n).length) :
    (firstNumbers n)[i].value = i := by
  have hin : i < n := by rwa [length_firstNumbers] at hi
  rw [show (firstNumbers n)[i] = Uint24.new i by simp [firstNumbers]]
  exact Uint24.value_new_of_lt (hin.trans_le hn)

/-- They are one run. -/
theorem firstNumbers_isChain {n : Nat} (hn : n ≤ 2 ^ 24) :
    (firstNumbers n).IsChain fun a b ↦ consecutive a b := by
  rw [List.isChain_iff_getElem]
  intro i hi
  rw [consecutive, beq_iff_eq, getElem_firstNumbers hn, getElem_firstNumbers hn]

/-- They are in order. -/
theorem sort_firstNumbers {n : Nat} (hn : n ≤ 2 ^ 24) :
    sort (firstNumbers n) = firstNumbers n := by
  refine List.Pairwise.insertionSort_eq (List.pairwise_iff_getElem.mpr fun i j hi hj hij ↦ ?_)
  show (firstNumbers n)[i].value ≤ (firstNumbers n)[j].value
  rw [getElem_firstNumbers hn, getElem_firstNumbers hn]
  exact hij.le

/-- One round takes all of them. -/
theorem firstNumbers_emits {mtu n : Nat} (hmtu : 9 < mtu) (hpos : 0 < n) (hn : n ≤ 2 ^ 24) :
    Emits (capacity mtu) (firstNumbers n) [firstNumbers n] := by
  have hcap : capacity mtu (sort (firstNumbers n)) = (firstNumbers n).length := by
    rw [sort_firstNumbers hn]
    exact capacity_of_isChain hmtu (firstNumbers_isChain hn)
  have hne : firstNumbers n ≠ [] := by
    rw [← List.length_pos_iff, length_firstNumbers]
    exact hpos
  have hround : Emits (capacity mtu) (firstNumbers n)
      [(sort (firstNumbers n)).take (capacity mtu (sort (firstNumbers n)))] := by
    refine .round hne ?_
    rw [hcap, List.drop_length]
    exact .nil
  rwa [hcap, sort_firstNumbers hn, List.take_length] at hround

/-- One more than a range may stand for: 8194 numbers without a gap go into one datagram of ten
bytes, which the decoder refuses. -/
theorem sendAcknowledgement_refused :
    ∃ datagrams,
      sendAcknowledgement .release .calm (firstNumbers 8194) bitFlagAck
          (new 1492) = ({ new 1492 with sendTx := [] ++ datagrams }, .ok ()) ∧
        ¬ ∀ d ∈ datagrams, ∃ numbers, decodeAcknowledgement .release d = .ok numbers := by
  have henv : ∀ i, (.calm : Env).accepts i = true := fun _ ↦ rfl
  obtain ⟨datagrams, out, hsend, hemits, hdecode⟩ :=
    @sendAcknowledgement_rounds .release .release .calm bitFlagAck
      (firstNumbers 8194) (new 1492)
  rw [takenFrom_of_accepts henv] at hsend
  refine ⟨datagrams, hsend, fun h ↦ ?_⟩
  have hmtu := (new 1492).mtu.effective_bounds
  obtain rfl := hemits.unique (firstNumbers_emits (by omega) (by omega) (by omega))
  obtain ⟨d, _, hd, -, rfl⟩ := List.forall₂_cons_right_iff.mp hdecode
  have hreadable := hd.ok_iff.mp (h d List.mem_cons_self)
  rw [Readable, length_firstNumbers] at hreadable
  rcases hreadable with hlen | ⟨hlen, -⟩
  · exact absurd hlen (by decide)
  · exact absurd hlen (by decide)

end Ragnet.Conn

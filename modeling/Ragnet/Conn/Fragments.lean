import Ragnet.Conn.Messages

/-!
# The datagrams of a write

Whatever a write is cut into, each of its datagrams fits the effective MTU: the two header sizes
that `split` subtracts are those that `send_datagram` and `Packet::write` emit.
-/

namespace Ragnet.Conn

open Proc Wire

/-- The bytes in front of the content of a fragment. -/
def headerSize (count : Nat) : Nat :=
  if count > 1 then packetAdditionalSize + splitAdditionalSize else packetAdditionalSize

section Fragment

variable {count i : Nat} {splitId : UInt16} {orderIndex messageIndex seq : Uint24}
  {content : Bytes}

/-- `split` subtracts what is emitted in front of a content. -/
theorem length_datagram :
    (datagram seq (fragmentPacket count splitId orderIndex messageIndex i content)).length =
      headerSize count + content.length := by
  rw [datagram, List.length_cons, List.length_append, length_writeUint24, fragmentPacket,
    headerSize]
  split
  · change 3 + (content.length + 20) + 1 = 24 + content.length
    omega
  · change 3 + (content.length + 10) + 1 = 14 + content.length
    omega

/-- The header of a datagram with one packet announces the length of its content. -/
theorem readHeader_datagram {pk : Packet} (h : pk.Encodable) (self : Packet) :
    (Packet.readHeader ((datagram seq pk).drop 4) self).2 = .ok pk.content.length := by
  have hdrop : (datagram seq pk).drop 4 = pk.prelude ++ (pk.messageField ++ pk.sequenceField ++
      pk.orderField ++ pk.splitFields ++ pk.content) := by
    change pk.write = _
    rw [Packet.write_eq]
    simp only [List.append_assoc]
  rw [hdrop, Packet.readHeader_append h]

theorem fragmentPacket_content :
    (fragmentPacket count splitId orderIndex messageIndex i content).content = content := by
  rw [fragmentPacket]
  split
  · rfl
  · rfl

end Fragment

/-! ## What a write sends -/

/-- The loop sends the datagrams of its fragments in order, up to the first that is not taken. -/
theorem writeLoop_datagrams (env : Env) (count : Nat) (splitId : UInt16) (orderIndex : Uint24)
    (i : Nat) (fragments : List Bytes) (n : Nat) (c : Conn) :
    ∃ datagrams,
      (writeLoop env count splitId orderIndex i fragments n c).1.sendTx = c.sendTx ++ datagrams ∧
      ((∀ j, env.accepts j = true) → datagrams.length = fragments.length) ∧
      ∀ (j : Nat) (d : Bytes), datagrams[j]? = some d → ∃ content seq messageIndex,
        fragments[j]? = some content ∧
          d = datagram seq
            (fragmentPacket count splitId orderIndex messageIndex (i + j) content) := by
  induction fragments generalizing i n c with
  | nil => exact ⟨[], (List.append_nil _).symm, fun _ ↦ rfl, fun _ _ h ↦ by cases h⟩
  | cons content rest ih =>
      cases haccepts : env.accepts i with
      | false =>
          refine ⟨[], ?_, fun h ↦ ?_, fun _ _ h ↦ by cases h⟩
          · rw [writeLoop, update_bind, haccepts]
            exact (List.append_nil _).symm
          · rw [h i] at haccepts
            cases haccepts
      | true =>
          obtain ⟨datagrams, hsent, hlength, hall⟩ := ih (i + 1) (n + content.length)
            (c.sentFragment env count splitId orderIndex i content)
          refine ⟨datagram c.state.seq (fragmentPacket count splitId orderIndex
            c.state.messageIndex i content) :: datagrams, ?_, fun h ↦ ?_, fun j d hd ↦ ?_⟩
          · rw [writeLoop_cons haccepts, hsent]
            exact List.append_assoc _ [_] _
          · rw [List.length_cons, List.length_cons, hlength h]
          · cases j with
            | zero => exact ⟨content, _, _, rfl, (Option.some.inj hd).symm⟩
            | succ j =>
                obtain ⟨content', seq, messageIndex, hj, rfl⟩ := hall j d hd
                rw [Nat.add_right_comm]
                exact ⟨content', seq, messageIndex, hj, rfl⟩

/-- A write sends the datagrams of its fragments. -/
theorem writeLocked_datagrams {build : Build} (env : Env) {data : Bytes} {c : Conn}
    {fragments : List Bytes} (hf : split build data c.mtu.effective = .ok fragments) :
    ∃ datagrams, (writeLocked build env data c).1.sendTx = c.sendTx ++ datagrams ∧
      ((∀ j, env.accepts j = true) → datagrams.length = fragments.length) ∧
      ∀ (j : Nat) (d : Bytes), datagrams[j]? = some d → ∃ content seq messageIndex,
        fragments[j]? = some content ∧
          d = datagram seq (fragmentPacket fragments.length c.state.splitId.toUInt16
            c.state.orderIndex messageIndex j content) := by
  rw [writeLocked_of_ok env hf]
  have hloop := writeLoop_datagrams env fragments.length c.state.splitId.toUInt16
    c.state.orderIndex 0 fragments 0 (c.renumber c.state.orderIndex.inc.1
      (if fragments.length > 1 then c.state.splitId + 1 else c.state.splitId))
  simp only [Nat.zero_add] at hloop
  exact hloop

/-- The fragments of data that is not empty: their number, and the length of all but the last. -/
theorem split_lengths (build : Build) (mtu : Mtu) {data : Bytes} (hd : data ≠ []) :
    ∃ fragments, split build data mtu.effective = .ok fragments ∧ fragments.flatten = data ∧
      (∀ f ∈ fragments, Sendable f) ∧
      (fragments.length > 1 ↔ data.length > mtu.effective - 14) ∧
      (fragments.length > 1 → ∀ f ∈ fragments.dropLast, f.length = mtu.effective - 24) ∧
      ∀ f ∈ fragments, headerSize fragments.length + f.length ≤ mtu.effective := by
  obtain ⟨hlo, hhi⟩ := mtu.effective_bounds
  obtain ⟨fragments, hf, hcount, hflat, hne, hlong, hshort⟩ :=
    split_spec build (by omega : 25 ≤ mtu.effective) hd
  obtain ⟨fragments', hf', -, -, hsend⟩ := split_sendable build mtu hd
  obtain rfl := Except.ok.inj (hf.symm.trans hf')
  have hwhole : wholeSize mtu.effective = mtu.effective - 14 := rfl
  have hsize : fragmentSize mtu.effective = mtu.effective - 24 := Nat.sub_sub _ 14 10
  have hmany : fragments.length > 1 ↔ data.length > mtu.effective - 14 := by
    rw [hcount, fragmentCount, hwhole, hsize]
    split
    · next hgt =>
      refine iff_of_true ?_ hgt
      rw [gt_iff_lt, Nat.lt_div_iff_mul_lt (by omega)]
      omega
    · next hle => exact iff_of_false (Nat.lt_irrefl 1) hle
  refine ⟨fragments, hf, hflat, hsend, hmany, fun h ↦ hsize ▸ (hlong (hmany.mp h)).2, ?_⟩
  intro f hmem
  rw [headerSize]
  split
  · next h =>
    have hle := (hlong (hmany.mp h)).1 f hmem
    rw [hsize] at hle
    change 24 + f.length ≤ _
    omega
  · next h =>
    have hle := Nat.le_of_not_lt (hmany.not.mp h)
    rw [hshort hle] at hmem
    rw [List.mem_singleton.mp hmem]
    change 14 + data.length ≤ _
    omega

/-- **Every datagram of a write fits.**  Data that is not empty is cut into fragments that make it
up and are not empty; there is more than one iff the data is longer than the effective MTU less 14
bytes, and then all but the last have the effective MTU less 24; and what is sent are the datagrams
of the fragments, none longer than the effective MTU, each with the length of its fragment in its
header. -/
theorem write_fits (build : Build) (env : Env) (c : Conn) {data : Bytes} (hd : data ≠ []) :
    ∃ fragments datagrams, split build data c.mtu.effective = .ok fragments ∧
      fragments.flatten = data ∧ (∀ f ∈ fragments, f ≠ []) ∧
      (fragments.length > 1 ↔ data.length > c.mtu.effective - 14) ∧
      (fragments.length > 1 → ∀ f ∈ fragments.dropLast, f.length = c.mtu.effective - 24) ∧
      (writeLocked build env data c).1.sendTx = c.sendTx ++ datagrams ∧
      ((∀ i, env.accepts i = true) → datagrams.length = fragments.length) ∧
      ∀ (i : Nat) (d : Bytes), datagrams[i]? = some d → ∃ f seq pk, fragments[i]? = some f ∧
        d = datagram seq pk ∧ pk.content = f ∧ d.length ≤ c.mtu.effective ∧
        ∀ self, (Packet.readHeader (d.drop 4) self).2 = .ok f.length := by
  obtain ⟨fragments, hf, hflat, hsend, hmany, hfull, hfits⟩ := split_lengths build c.mtu hd
  obtain ⟨datagrams, hsent, hlength, hall⟩ := writeLocked_datagrams env hf
  refine ⟨fragments, datagrams, hf, hflat, fun f hm ↦ (hsend f hm).1, hmany, hfull, hsent, hlength,
    fun i d hi ↦ ?_⟩
  obtain ⟨f, seq, messageIndex, hfi, rfl⟩ := hall i d hi
  have hmem := List.mem_of_getElem? hfi
  refine ⟨f, seq, _, hfi, rfl, fragmentPacket_content, ?_, fun self ↦ ?_⟩
  · rw [length_datagram]
    exact hfits f hmem
  · rw [readHeader_datagram (fragmentPacket_encodable (hsend f hmem)), fragmentPacket_content]

/-- A message that is split. -/
theorem write_fits_split :
    ∃ fragments datagrams,
      split .debug (List.replicate 360 7) (new 400).mtu.effective = .ok fragments ∧
      fragments.length > 1 ∧ (∀ f ∈ fragments.dropLast, f.length = 348) ∧
      (writeLocked .debug .calm (List.replicate 360 7) (new 400)).1.sendTx =
        (new 400).sendTx ++ datagrams ∧
      datagrams.length = fragments.length ∧ ∀ d ∈ datagrams, d.length ≤ 372 := by
  have hne : List.replicate 360 (7 : UInt8) ≠ [] := List.cons_ne_nil _ _
  obtain ⟨fragments, datagrams, hf, -, -, hmany, hfull, hsent, hlength, hall⟩ :=
    write_fits .debug .calm (new 400) hne
  have hsplit : fragments.length > 1 := by
    refine hmany.mpr ?_
    rw [List.length_replicate]
    decide
  refine ⟨fragments, datagrams, hf, hsplit, hfull hsplit, hsent, hlength fun _ ↦ rfl, ?_⟩
  intro d hd
  obtain ⟨i, hi⟩ := List.mem_iff_getElem?.mp hd
  obtain ⟨f, seq, pk, -, -, -, hle, -⟩ := hall i d hi
  exact hle

end Ragnet.Conn

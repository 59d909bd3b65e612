import Ragnet.Conn.Messages
import Ragnet.Lib.Slots

/-!
# Putting fragments together

What `receive_split_packet` does with a fragment of a message while the open entry of its split id
belongs to the same message: the entry is filled, and once it is full it is the message.

An announced count is 32 bits wide.  A message of `2 ^ 32` fragments announces none, so its entry
has no slots and nothing ever comes of it; one of more fragments announces too few.
-/

namespace Ragnet.Conn

open Proc Wire

/-- What the entry of a message may hold: slots that fit its fragments, or nothing at all. -/
def Entry (m : Message) (slots : List Bytes) : Prop := slots = [] ∨ Fits [] m.fragments slots

/-- The open entry of the split id of a message, if any, belongs to this message. -/
def Owns (m : Message) (splits : HashMap UInt16 (List Bytes)) : Prop :=
  ∀ slots, splits.lookup m.splitId = some slots → Entry m slots

/-- So are the slots that a fragment is put into, unless the message is too long. -/
theorem Owns.fragmentsOf {m : Message} {splits : HashMap UInt16 (List Bytes)} (h : Owns m splits)
    (hm : m.IsSplit) (hcount : m.fragments.length ≤ 2 ^ 32) (messageIndex : Uint24) (i : Nat)
    (content : Bytes) : Entry m (fragmentsOf splits (m.packet messageIndex i content)) := by
  rw [Message.packet_split hm, Conn.fragmentsOf]
  dsimp only
  cases hl : splits.lookup m.splitId with
  | some slots => exact h slots hl
  | none =>
      rcases Nat.lt_or_eq_of_le hcount with hlt | heq
      · refine Or.inr ?_
        rw [UInt32.toNat_ofNat_of_lt' hlt]
        exact Fits.replicate [] m.fragments
      · refine Or.inl ?_
        rw [heq]
        rfl

section Fragment

variable {build : Build} {handler : ConnectionHandler} {m : Message} {c : Conn} {i : Nat}
  {content : Bytes} {messageIndex : Uint24}

section Slots

variable (hm : m.IsSplit) (hi : m.fragments[i]? = some content)

include hm hi

/-- A fragment that is put into fitting slots leaves fitting slots behind, or completes the
message. -/
theorem reassemble_fits (hlt : m.fragments.length < 2 ^ 32)
    (hfits : Fits [] m.fragments (fragmentsOf c.state.splits (m.packet messageIndex i content)))
    (hlim : ¬ SplitLimited handler c.state.splits (m.packet messageIndex i content)) :
    (∃ slots, Fits [] m.fragments slots ∧
      reassemble build handler (m.packet messageIndex i content) c =
        ({ c with state.splits := c.state.splits.insert m.splitId slots }, .ok none)) ∨
      reassemble build handler (m.packet messageIndex i content) c =
        ({ c with
            state.splits := c.state.splits.erase m.splitId
            reassembled := c.reassembled ++ [m.combined] }, .ok (some m.combined)) := by
  have hlen := (List.getElem?_eq_some_iff.mp hi).1
  have hindex : (m.packet messageIndex i content).splitIndex.toNat = i := by
    rw [Message.packet_split hm]
    exact UInt32.toNat_ofNat_of_lt' (hlen.trans hlt)
  have hcontent : (m.packet messageIndex i content).content = content := by
    rw [Message.packet_split hm]
  have hid : (m.packet messageIndex i content).splitId = m.splitId := by
    rw [Message.packet_split hm]
  rw [reassemble_slots build hlim rfl (hfits.length_eq ▸ hlt) (by rwa [hindex, hfits.length_eq]),
    hindex, hcontent, hid]
  have hset := hfits.set hi
  by_cases hempty :
    [] ∈ (fragmentsOf c.state.splits (m.packet messageIndex i content)).set i content
  · rw [if_pos hempty]
    exact Or.inl ⟨_, hset, rfl⟩
  · have hcombined : combinedPacket (m.packet messageIndex i content)
        ((fragmentsOf c.state.splits (m.packet messageIndex i content)).set i content) =
          m.combined := by
      rw [combinedPacket, hset.eq_of_full fun x hx he ↦ hempty (he ▸ hx), m.flatten_eq,
        Message.packet_split hm]
      rfl
    rw [if_neg hempty, hcombined]
    exact Or.inr rfl

end Slots

/-- What a fragment of a message can lead to. -/
inductive Outcome (m : Message) (c : Conn) : Conn × Result (Option Packet) → Prop
  /-- A limit is exceeded. -/
  | limited (e : Fault Error) : Outcome m c (c, .error e)
  /-- The entry stays open. -/
  | waiting {slots : List Bytes} {r : Result (Option Packet)} :
      Entry m slots → (∀ pk, r ≠ .ok (some pk)) →
        Outcome m c ({ c with state.splits := c.state.splits.insert m.splitId slots }, r)
  /-- The message is complete. -/
  | complete :
      Outcome m c
        ({ c with
            state.splits := c.state.splits.erase m.splitId
            reassembled := c.reassembled ++ [m.combined] }, .ok (some m.combined))

section Outcome

variable {out : Conn × Result (Option Packet)}

/-- The entries of other ids stay as they are. -/
theorem Outcome.lookup_of_ne (h : Outcome m c out) {id : UInt16} (hne : id ≠ m.splitId) :
    out.1.state.splits.lookup id = c.state.splits.lookup id := by
  cases h with
  | limited e => rfl
  | waiting _ _ => exact Finmap.lookup_insert_of_ne _ hne
  | complete => exact Finmap.lookup_erase_ne hne

/-- The entry of the message stays its own. -/
theorem Outcome.owns (h : Outcome m c out) (howns : Owns m c.state.splits) :
    Owns m out.1.state.splits := by
  cases h with
  | limited e => exact howns
  | @waiting slots _ hentry _ =>
      intro slots' hl
      change (c.state.splits.insert m.splitId slots).lookup m.splitId = _ at hl
      rw [Finmap.lookup_insert] at hl
      exact Option.some.inj hl ▸ hentry
  | complete =>
      intro slots hl
      change (c.state.splits.erase m.splitId).lookup m.splitId = _ at hl
      rw [Finmap.lookup_erase] at hl
      cases hl

/-- Nothing but the message is put together. -/
theorem Outcome.mem_reassembled (h : Outcome m c out) {pk : Packet} (hpk : pk ∈ out.1.reassembled) :
    pk ∈ c.reassembled ∨ pk = m.combined := by
  cases h with
  | limited e => exact Or.inl hpk
  | waiting _ _ => exact Or.inl hpk
  | complete => exact (List.mem_append.mp hpk).imp_right List.mem_singleton.mp

theorem Outcome.eq_combined {c' : Conn} {pk : Packet} (h : Outcome m c (c', .ok (some pk))) :
    pk = m.combined := by
  generalize hout : (c', (.ok (some pk) : Result (Option Packet))) = out at h
  cases h with
  | limited e => cases (Prod.mk.inj hout).2
  | waiting _ hnone => exact absurd (Prod.mk.inj hout).2.symm (hnone pk)
  | complete => exact Option.some.inj (Except.ok.inj (Prod.mk.inj hout).2)

end Outcome

/-- A fragment of a message that owns its entry. -/
theorem reassemble_owned (h : Owns m c.state.splits) (hm : m.IsSplit)
    (hcount : m.fragments.length ≤ 2 ^ 32) (hi : m.fragments[i]? = some content) :
    Outcome m c (reassemble build handler (m.packet messageIndex i content) c) := by
  by_cases hlim : SplitLimited handler c.state.splits (m.packet messageIndex i content)
  · obtain ⟨text, hr⟩ := reassemble_limited build hlim
    rw [hr]
    exact .limited _
  have hentry := h.fragmentsOf hm hcount messageIndex i content
  have hid : (m.packet messageIndex i content).splitId = m.splitId := by
    rw [Message.packet_split hm]
  by_cases hindex : IndexOutOfRange c.state.splits (m.packet messageIndex i content)
  · rw [reassemble_open build hlim, if_pos hindex, hid]
    refine .waiting hentry fun pk hr ↦ ?_
    cases htext : splitIndexError build (m.packet messageIndex i content).splitIndex
        (fragmentsOf c.state.splits (m.packet messageIndex i content)).length with
    | error e =>
        rw [htext] at hr
        cases hr
    | ok text =>
        rw [htext] at hr
        cases hr
  · -- the slots are not `2 ^ 32` in number, nor are there none
    have hzero {n : Nat} (hn : UInt32.ofNat n = 0)
        (hlen : (fragmentsOf c.state.splits (m.packet messageIndex i content)).length = n) :
        False := by
      rw [IndexOutOfRange, hlen, hn] at hindex
      exact hindex UInt32.zero_le
    rcases hentry with hnil | hfits
    · exact (hzero rfl (congrArg List.length hnil)).elim
    rcases Nat.lt_or_eq_of_le hcount with hlt | heq
    · rcases @reassemble_fits build _ _ _ _ _ _ hm hi hlt hfits hlim with ⟨slots, hslots, hr⟩ | hr
      · rw [hr]
        exact .waiting (Or.inr hslots) fun pk hpk ↦ by cases hpk
      · rw [hr]
        exact .complete
    · exact (hzero (by rw [heq]; rfl) hfits.length_eq).elim

end Fragment

end Ragnet.Conn

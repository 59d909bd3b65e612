import Ragnet.Conn.Connected
import Ragnet.Conn.Refusal
import Mathlib.Data.Finset.Order

/-!
# Sending everything again

Once enough time has passed, `check_resend` sends everything that is still tracked again, under
numbers that have not been used.  A peer that has received only numbers below takes such a datagram
for a new one, and its next flush acknowledges the number.
-/

namespace Ragnet

open Ledger Proc Wire

/-! ## Everything is late -/

/-- At this time `check_resend` sends everything again. -/
def ResendMap.Late (self : ResendMap) (now : Instant) : Prop :=
  ∀ n record, self.unacknowledged.lookup n = some record →
    (self.rtt now).2 + (self.rtt now).2 / 2 < durationSince now record.timestamp

theorem lt_durationSince {time last : Int} {d k : Nat} (h : time ≤ last) (hd : d < k) :
    d < durationSince (last + k) time := by
  rw [durationSince]
  omega

/-- Such a time comes. -/
theorem ResendMap.exists_late (m : ResendMap) : ∃ now, m.Late now := by
  obtain ⟨last, hlast⟩ := (m.unacknowledged.keys.image fun n ↦
    ((m.unacknowledged.lookup n).map ResendRecord.timestamp).getD 0).exists_le
  obtain ⟨lastDelay, hlastDelay⟩ := m.delays.keys.exists_le
  generalize hnow : max last lastDelay + (6 * 10 ^ 9 : Nat) = now
  have hlater {time : Instant} (h : time ≤ last ∨ time ≤ lastDelay) {d : Nat}
      (hd : d < 6 * 10 ^ 9) : d < durationSince now time :=
    hnow ▸ lt_durationSince (le_max_iff.mpr h) hd
  -- the delays are forgotten, so the round-trip time is estimated at 50 ms
  have hdelays : HashMap.len (m.delays.retain fun t _ ↦
      durationSince now t ≤ rttCalculationWindow) = 0 := by
    refine Finset.card_eq_zero.mpr (Finset.eq_empty_of_forall_notMem fun t ht ↦ ?_)
    obtain ⟨delay, hdelay⟩ := HashMap.mem_iff_lookup.mp (Finmap.mem_keys.mp ht)
    rw [HashMap.lookup_retain] at hdelay
    obtain ⟨hmem, hle⟩ := Option.filter_eq_some_iff.mp hdelay
    have hlate := hlastDelay t (Finmap.mem_keys.mpr (HashMap.mem_iff_lookup.mpr ⟨delay, hmem⟩))
    exact absurd (of_decide_eq_true hle) (Nat.not_le.mpr (hlater (Or.inr hlate) (by decide)))
  have hrtt : (m.rtt now).2 = 50 * 10 ^ 6 := by
    rw [rtt]
    exact congrArg Prod.snd (if_pos hdelays)
  refine ⟨now, fun n record hrecord ↦ ?_⟩
  have htimestamp : record.timestamp ≤ last := hlast _ <| Finset.mem_image.mpr
    ⟨n, Finmap.mem_keys.mpr (HashMap.mem_iff_lookup.mpr ⟨record, hrecord⟩), by rw [hrecord]; rfl⟩
  rw [hrtt]
  exact hlater (Or.inl htimestamp) (by decide)

namespace Conn

variable {build : Build} {handler : ConnectionHandler} {env : Env} {c : Conn} {seq : Uint24}
  {pk : Packet} {n : Nat} {data d : Bytes}

/-! ## What is sent again -/

/-- Everything tracked has a number from `base` on, and a datagram among those handed over from the
`k`-th on. -/
def Resent (k base : Nat) (c : Conn) : Prop :=
  ∀ n pk, c.tracked n = some pk →
    base ≤ n ∧ ∃ seq, n = Uint24.value seq ∧ datagram seq pk ∈ c.sendTx.drop k

/-- A packet that is sent again, through a channel that takes it. -/
theorem resend_of_tracked (removed added : Instant) (h : c.tracked seq.value = some pk) :
    resend removed added true seq c =
      (emit pk added
        { c with
          state.retransmission := (c.state.retransmission.retransmit seq removed).1 }).1.trySend
        true (datagram c.state.seq pk) := by
  have htaken : (c.state.retransmission.retransmit seq removed).2 = some pk :=
    (ResendMap.remove_snd c.state.retransmission seq 2 removed).trans h
  rw [resend]
  dsimp only
  rw [htaken]
  rfl

theorem resend_of_untracked (removed added : Instant) (accepted : Bool)
    (h : c.tracked seq.value = none) : resend removed added accepted seq c = c := by
  have hnone : c.state.retransmission.unacknowledged.lookup seq.value = none :=
    Option.map_eq_none_iff.mp h
  have hid : c.state.retransmission.retransmit seq removed = (c.state.retransmission, none) := by
    rw [ResendMap.retransmit, ResendMap.remove, hnone]
  rw [resend, hid]

/-- What sending one packet again does: it gets a new number, and is tracked under it. -/
theorem resend_spec (removed added : Instant) (h : c.Sound) (hlt : c.issued + 1 < 2 ^ 24)
    (ht : c.tracked seq.value = some pk) :
    (resend removed added true seq c).Sound ∧
      (resend removed added true seq c).issued = c.issued + 1 ∧
      (resend removed added true seq c).sendTx = c.sendTx ++ [datagram c.state.seq pk] ∧
      ∀ n, (resend removed added true seq c).tracked n =
        if n = c.state.seq.value then some pk
        else if n = seq.value then none else c.tracked n := by
  rw [resend_of_tracked removed added ht]
  refine ⟨(@Sound.reissue _ _ seq removed added h hlt ht).congr rfl, @issued_emit _ pk added, rfl,
    fun n ↦ ?_⟩
  exact (ResendMap.tracked_add _ _ _ _ n).trans (congrArg _
    (ResendMap.tracked_remove c.state.retransmission seq 2 removed n))

/-- What is tracked afterwards was not to be sent again, or it has been sent. -/
theorem resendAll_tracked (haccepts : ∀ i, env.accepts i = true) (i : Nat) (seqs : List Uint24)
    (h : c.Sound) (hlt : c.issued + seqs.length < 2 ^ 24)
    (ht : (resendAll env i seqs c).tracked n = some pk) :
    (c.tracked n = some pk ∧ n ∉ seqs.map Uint24.value) ∨
      c.issued ≤ n ∧ ∃ seq, n = Uint24.value seq ∧
        datagram seq pk ∈ (resendAll env i seqs c).sendTx.drop c.sendTx.length := by
  induction seqs generalizing i c with
  | nil => exact Or.inl ⟨ht, List.not_mem_nil⟩
  | cons seq seqs ih =>
      rw [List.length_cons] at hlt
      rw [resendAll, haccepts] at ht ⊢
      cases hseq : c.tracked seq.value with
      | none =>
          rw [resend_of_untracked _ _ _ hseq] at ht ⊢
          refine (ih (i + 1) h (by omega) ht).imp_left fun ⟨hold, hnot⟩ ↦ ⟨hold, ?_⟩
          rw [List.map_cons, List.mem_cons, not_or]
          refine ⟨fun heq ↦ ?_, hnot⟩
          rw [heq, hseq] at hold
          cases hold
      | some pk' =>
          obtain ⟨hsound, hissued, hsendTx, htracked⟩ :=
            resend_spec (env.clock (2 * i)) (env.clock (2 * i + 1)) h (by omega) hseq
          generalize resend (env.clock (2 * i)) (env.clock (2 * i + 1)) true seq c = c'
            at ht hsound hissued hsendTx htracked ⊢
          have hdrop {d : Bytes} (hd : d ∈ c'.sendTx.drop c.sendTx.length) :
              d ∈ (resendAll env (i + 1) seqs c').sendTx.drop c.sendTx.length := by
            obtain ⟨rest, hrest⟩ := SendSteps.sendTx_prefix
              (@resendAll_steps (fun _ ↦ True) env (i + 1) seqs c')
            rw [← hrest, List.drop_append_of_le_length]
            · exact List.mem_append_left _ hd
            · rw [hsendTx, List.length_append]
              exact Nat.le_add_right _ _
          rcases ih (i + 1) hsound (by omega) ht with ⟨hold, hnot⟩ | ⟨hle, seq', rfl, hmem⟩
          · rw [htracked] at hold
            split at hold
            · next heq =>
              obtain rfl := Option.some.inj hold
              refine Or.inr ⟨by rw [heq, h.seq_eq], c.state.seq, heq, hdrop ?_⟩
              rw [hsendTx, List.drop_left]
              exact List.mem_singleton.mpr rfl
            split at hold
            · cases hold
            · next hne =>
              refine Or.inl ⟨hold, ?_⟩
              rw [List.map_cons, List.mem_cons, not_or]
              exact ⟨hne, hnot⟩
          · refine Or.inr ⟨by omega, seq', rfl, ?_⟩
            rw [hsendTx, List.length_append, ← List.drop_drop] at hmem
            exact List.mem_of_mem_drop hmem

theorem issued_resendAll_le (i : Nat) (seqs : List Uint24) (c : Conn) :
    (resendAll env i seqs c).issued ≤ c.issued + seqs.length := by
  induction seqs generalizing i c with
  | nil => exact Nat.le_refl _
  | cons seq seqs ih =>
      have hstep : ∀ removed added accepted,
          (resend removed added accepted seq c).issued ≤ c.issued + 1 := by
        intro removed added accepted
        rw [resend]
        dsimp only
        split
        · exact Nat.le_succ _
        · rw [← @issued_emit c _ added]
          cases accepted <;> exact Nat.le_refl _
      refine (ih (i + 1) _).trans ?_
      have h := hstep (env.clock (2 * i)) (env.clock (2 * i + 1)) (env.accepts i)
      rw [List.length_cons]
      omega

/-- **A late check sends everything again.** -/
theorem checkResend_resent (haccepts : ∀ i, env.accepts i = true) {now : Instant}
    {iter : List Uint24} (hlate : c.state.retransmission.Late now)
    (hiter : ∀ n, c.tracked n ≠ none → n ∈ iter.map Uint24.value) (h : c.Sound)
    (hlt : c.issued + iter.length < 2 ^ 24) :
    (checkResend env now iter c).Resent c.sendTx.length c.issued := by
  intro n pk ht
  rw [checkResend] at ht ⊢
  dsimp only at ht ⊢
  generalize hseqs : List.filter _ iter = seqs at ht ⊢
  have hlength : seqs.length ≤ iter.length := hseqs ▸ List.length_filter_le _ _
  have hmeasured := h.steps (.single (@SendStep.measure (fun _ ↦ True) c now)) (by
    exact (Nat.le_add_right _ _).trans_lt hlt)
  rcases resendAll_tracked haccepts 0 seqs hmeasured
    ((Nat.add_le_add_left hlength _).trans_lt hlt) ht with ⟨hold, hnot⟩ | hnew
  · have hc : c.tracked n = some pk := (ResendMap.tracked_rtt _ now n).symm.trans hold
    obtain ⟨seq, hseq, rfl⟩ := List.mem_map.mp (hiter n fun hn ↦ by rw [hn] at hc; cases hc)
    refine absurd ?_ hnot
    obtain ⟨record, hrecord, -⟩ := Option.map_eq_some_iff.mp hc
    have hunacknowledged : (c.state.retransmission.rtt now).1.unacknowledged =
        c.state.retransmission.unacknowledged := by
      rw [ResendMap.rtt]
      split <;> rfl
    rw [← hseqs]
    refine List.mem_map_of_mem (List.mem_filter.mpr ⟨hseq, ?_⟩)
    rw [hunacknowledged, hrecord]
    exact decide_eq_true (hlate _ _ hrecord)
  · exact hnew

/-! ## The numbers tracked -/

theorem mem_keys_unacknowledged :
    n ∈ c.state.retransmission.unacknowledged.keys ↔ c.tracked n ≠ none := by
  rw [Finmap.mem_keys, ← Finmap.lookup_isSome, Conn.tracked, ResendMap.tracked, ne_eq,
    Option.map_eq_none_iff, ← ne_eq, Option.isSome_iff_ne_none]

/-- A check can go through the numbers in some order. -/
theorem exists_iter (hlt : ∀ n, c.tracked n ≠ none → n < 2 ^ 24) :
    ∃ iter : List Uint24, iter.Nodup ∧ (∀ seq, seq ∈ iter ↔ c.tracked seq.value ≠ none) ∧
      iter.length = c.state.retransmission.unacknowledged.len := by
  have hvalue {n : Nat} (hn : n ∈ c.state.retransmission.unacknowledged.keys.toList) :
      (Uint24.new n).value = n :=
    Uint24.value_new_of_lt (hlt n (mem_keys_unacknowledged.mp (Finset.mem_toList.mp hn)))
  refine ⟨c.state.retransmission.unacknowledged.keys.toList.map Uint24.new, ?_, fun seq ↦ ?_, ?_⟩
  · refine (Finset.nodup_toList _).map_on fun n hn n' hn' heq ↦ ?_
    rw [← hvalue hn, heq, hvalue hn']
  · rw [List.mem_map, ← mem_keys_unacknowledged, ← Finset.mem_toList]
    constructor
    · rintro ⟨n, hn, rfl⟩
      rwa [hvalue hn]
    · intro hn
      exact ⟨seq.value, hn, Uint24.ext (hvalue hn)⟩
  · rw [List.length_map, Finset.length_toList, HashMap.len]

/-- If there are any, one of them is the lowest. -/
theorem exists_lowest (hne : c.state.retransmission.unacknowledged.len ≠ 0) :
    ∃ lowest pk, c.tracked lowest = some pk ∧ ∀ n pk', c.tracked n = some pk' → lowest ≤ n := by
  classical
  have htracks : ∃ n, c.tracked n ≠ none := by
    obtain ⟨n, hn⟩ := Finset.card_ne_zero.mp hne
    exact ⟨n, mem_keys_unacknowledged.mp hn⟩
  obtain ⟨pk, hpk⟩ := Option.ne_none_iff_exists'.mp (Nat.find_spec htracks)
  exact ⟨_, pk, hpk, fun n pk' hn ↦ Nat.find_min' htracks (hn ▸ Option.some_ne_none pk')⟩

/-- An acknowledgement leaves one less. -/
theorem len_acknowledge_lt (h : c.tracked seq.value = some pk) (now : Instant) :
    (c.state.retransmission.acknowledge seq now).1.unacknowledged.len <
      c.state.retransmission.unacknowledged.len := by
  obtain ⟨record, hrecord, -⟩ := Option.map_eq_some_iff.mp h
  rw [ResendMap.acknowledge, ResendMap.remove, hrecord]
  exact HashMap.len_erase_lt (HashMap.mem_iff_lookup.mpr ⟨record, hrecord⟩)

/-! ## One number is acknowledged -/

/-- A single number goes into one datagram. -/
theorem flushAcks_single (haccepts : env.accepts 0 = true) (h : c.state.ackSlice = [seq]) :
    ∃ d, flushAcks build env c =
        { c with state.ackSlice := [], sendTx := c.sendTx ++ [d] } ∧
      IsDatagram bitFlagAck d [seq] := by
  have hmtu := c.mtu.effective_bounds
  have hsorted : Acknowledgement.sorted [seq] = [seq] :=
    List.perm_singleton.mp (Acknowledgement.sorted_perm [seq])
  obtain ⟨body, hwrite, hbody⟩ := @Acknowledgement.writeToBuf_encodes build c.mtu.effective [seq]
    [bitFlagAck ||| bitFlagDatagram] (by omega) (by omega) (List.cons_ne_nil _ _)
  have hcapacity : Acknowledgement.capacity c.mtu.effective [seq] = 1 :=
    Nat.le_antisymm (Acknowledgement.capacity_le _ _)
      (Acknowledgement.capacity_pos _ (List.cons_ne_nil _ _))
  rw [hsorted, hcapacity] at hwrite hbody
  refine ⟨[bitFlagAck ||| bitFlagDatagram] ++ body, ?_, body, rfl, hbody⟩
  have hround := @flushAcks_round build env c _ (by rw [h]; exact List.cons_ne_nil _ _)
    (by rw [h]; exact hwrite)
  rw [hround, haccepts]
  rfl

/-- The datagram is read. -/
theorem receive_single (h : IsDatagram bitFlagAck d [seq]) :
    receive build handler env d c = (acknowledgeAll env.clock 0 [seq] c, .ok ()) := by
  obtain ⟨body, rfl, hbody⟩ := h
  have hreceive : receive build handler env ([bitFlagAck ||| bitFlagDatagram] ++ body) =
      handleAck build env.clock body := by
    rw [List.singleton_append, receive, if_pos (by decide)]
  rw [hreceive, handleAck]
  rcases hbody.reads build with ⟨hread, -⟩ | ⟨-, hnot⟩
  · rw [hread]
    rfl
  · exact absurd (Or.inl (Nat.one_le_iff_ne_zero.mpr (by decide))) hnot

theorem tracked_acknowledgeAll_single (clock : Clock) (m : Nat) :
    (acknowledgeAll clock 0 [seq] c).tracked m = if m = seq.value then none else c.tracked m :=
  ResendMap.tracked_remove c.state.retransmission seq 1 (clock 0) m

/-! ## A number above all that have arrived -/

/-- A number above all that the window knows has not been seen. -/
theorem not_seen_of_highest_le (h : c.state.win.Bounded) (hle : c.state.win.highest.value ≤ n) :
    ¬ c.state.win.Seen n := by
  rintro (hlt | hmem)
  · exact absurd (h.frontier_le.trans hle) (Nat.not_le.mpr hlt)
  · exact absurd (h.mem n hmem).2 (Nat.not_lt.mpr hle)

/-- Its datagram is entered. -/
theorem receive_above (h : c.state.win.Bounded) (hle : c.state.win.highest.value ≤ seq.value)
    (hseq : seq ≠ lastIndex) :
    (receive build handler env (datagram seq pk) c).1.state.ackSlice =
        c.state.ackSlice ++ [seq] ∧
      (receive build handler env (datagram seq pk) c).1.state.win.highest.value =
        seq.value + 1 := by
  have hseen := not_seen_of_highest_le h hle
  have hrecords := @receiveDatagram_records build handler c env _ seq
    (loadUint24_number seq pk.write) hseen
  refine ⟨congrArg Arrivals.ackSlice hrecords, ?_⟩
  have hwin := congrArg (fun a : Arrivals ↦ a.win.highest.value) hrecords
  refine hwin.trans ?_
  dsimp only
  rw [DatagramWindow.enter_highest, DatagramWindow.add_of_not_seen hseen]
  dsimp only
  rw [value_bound hseq, if_pos (Nat.lt_succ_of_le hle)]

/-! ## What has been handed over stays so -/

theorem sendTx_receiveDatagram (data : Bytes) :
    c.sendTx <+: (receiveDatagram build handler env data c).1.sendTx := by
  by_cases hlen : data.length < 3
  · rw [receiveDatagram_short build handler env hlen]
  obtain ⟨seq, hl⟩ := loadUint24_isOk.mpr (Nat.le_of_not_lt hlen)
  by_cases hseen : c.state.win.Seen seq.value
  · rw [receiveDatagram_seen build handler env hl hseen]
  obtain ⟨nacks, hrecv⟩ := receiveDatagram_new build handler env hl hseen
  rw [hrecv]
  cases (c.entered env.clock seq).state.win.size build with
  | error e => exact List.prefix_refl _
  | ok size =>
      dsimp only
      split
      · exact List.prefix_append _ _
      · have hkeeps := congrArg Prod.snd (handleDatagram_issuing build handler (data.drop 3)
          { c.entered env.clock seq with sendTx := c.sendTx ++ nacks })
        dsimp only at hkeeps
        rw [hkeeps]
        exact List.prefix_append _ _

theorem sendTx_receive (data : Bytes) :
    c.sendTx <+: (receive build handler env data c).1.sendTx := by
  cases data with
  | nil => exact List.prefix_refl _
  | cons flags rest =>
      rw [receive]
      split
      · exact SendSteps.sendTx_prefix (@handleAck_steps (fun _ ↦ True) build env.clock rest c)
      split
      · exact SendSteps.sendTx_prefix (@handleNack_steps (fun _ ↦ True) build env rest c)
      split
      · exact sendTx_receiveDatagram rest
      · exact List.prefix_refl _

end Conn

end Ragnet

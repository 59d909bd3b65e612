import Ragnet.Conn.Outgoing

/-!
# Messages in program order

A spawned task may be late: a later write takes the lock before it, and the sender task may have
stopped.  While every task is in time, the order indices follow the order of the calls and the
disconnect notification goes out.
-/

namespace Ragnet.Outgoing

open Wire

variable {build : Build} {s s' : Outgoing} {e : Event} {i j : Nat} {m : Issued}

/-! ## What keeps the order -/

/-- What has been queued stays so, and what has been sent. -/
theorem Ordered.drained_of_queued (h : s.Ordered) (hstop : s.sender = .stopped)
    (hdis : ∀ i, s'.IsDisconnect i ↔ s.IsDisconnect i)
    (hqueued : ∀ i o d, s.progress i = .queued o d → s'.progress i = .queued o d)
    (hsent : s.sent ⊆ s'.sent) :
    (∃ i, s'.IsDisconnect i) ∧
      ∀ i, s'.IsDisconnect i → ∃ o d, s'.progress i = .queued o d ∧ d ∈ s'.sent := by
  obtain ⟨⟨i, hi⟩, hall⟩ := h.drained hstop
  refine ⟨⟨i, (hdis i).mpr hi⟩, fun i hi ↦ ?_⟩
  obtain ⟨o, d, hq, hd⟩ := hall i ((hdis i).mp hi)
  exact ⟨o, d, hqueued i o d hq, hsent hd⟩

/-- The task of a message that has not been queued goes on. -/
theorem Ordered.drained_of_update (h : s.Ordered) (hm : s'.messages = s.messages) {p : Progress}
    (hp : s'.progress = Function.update s.progress j p)
    (hj : ∀ o d, s.progress j ≠ .queued o d) (hstop : s.sender = .stopped)
    (hsent : s.sent ⊆ s'.sent) :
    (∃ i, s'.IsDisconnect i) ∧
      ∀ i, s'.IsDisconnect i → ∃ o d, s'.progress i = .queued o d ∧ d ∈ s'.sent := by
  refine h.drained_of_queued hstop (fun _ ↦ isFrom_iff hm) (fun i o d hq ↦ ?_) hsent
  rw [hp, Function.update_of_ne]
  · exact hq
  · rintro rfl
    exact hj o d hq

/-- A step that leaves the messages and their progress alone. -/
theorem Ordered.of_same (h : s.Ordered) (hm : s'.messages = s.messages)
    (hp : s'.progress = s.progress) (hsender : s'.sender = .stopped → s.sender = .stopped)
    (hsent : s.sent ⊆ s'.sent) : s'.Ordered := by
  refine ⟨fun i j hij ↦ ?_, fun i hi ↦ ?_, fun hstop ↦ ?_⟩
  · rw [hp]
    exact h.numbers i j ((precedes_iff hm).mp hij)
  · rw [hp]
    exact h.kept i ((isFrom_iff hm).mp hi)
  · exact h.drained_of_queued (hsender hstop) (fun _ ↦ isFrom_iff hm)
      (fun i _ _ hq ↦ (congrFun hp i).trans hq) hsent

/-- A message is issued. -/
theorem Ordered.of_issued (hsound : s.Sound) (h : s.Ordered) (hm : s'.messages = s.messages ++ [m])
    (hp : s'.progress = s.progress) (hsender : s'.sender = s.sender)
    (hstop : s.sender = .stopped → m.origin ≠ .disconnectNotification)
    (hsent : s.sent ⊆ s'.sent) : s'.Ordered := by
  have hlocking : s.progress s.messages.length = .locking := hsound.fresh _ le_rfl
  refine ⟨fun i j hij o ho ↦ ?_, fun i hi o ho ↦ ?_, fun hstopped ↦ ?_⟩
  · rw [hp] at ho ⊢
    -- a message that has been numbered was there before
    have hj : j < s.messages.length := by
      refine Nat.lt_of_not_le fun hle ↦ ?_
      rw [hsound.fresh j hle] at ho
      cases ho
    have hmem {k : Nat} (hk : k < s.messages.length) (a : Issued) (ha : s'.messages[k]? = some a) :
        s.messages[k]? = some a :=
      (getElem?_issued hm ha).resolve_right fun he ↦ absurd he.1 (Nat.ne_of_lt hk)
    exact h.numbers i j (hij.congr (hmem (hij.lt.trans hj)) (hmem hj)) o ho
  · rw [hp] at ho
    rcases (isFrom_issued_iff hm).mp hi with hi | ⟨rfl, -⟩
    · exact h.kept i hi o ho
    · rw [hlocking] at ho
      cases ho
  · rw [hsender] at hstopped
    refine h.drained_of_queued hstopped (fun i ↦ ?_) (fun i _ _ hq ↦ (congrFun hp i).trans hq) hsent
    exact (isFrom_issued_iff hm).trans
      ⟨fun hi ↦ hi.resolve_right fun he ↦ hstop hstopped he.2, Or.inl⟩

/-- A message is numbered: in order exactly when those that precede it have been. -/
theorem ordered_lock_iff (hsound : s.Sound) (h : s.Ordered) (hm : s'.messages = s.messages)
    {p : Progress} (hp : s'.progress = Function.update s.progress j p)
    (hj : s.progress j = .locking) (ho : p.orderIndex = some s.conn.state.orderIndex)
    (hdrop : ∀ o, p ≠ .dropped o) (hsender : s'.sender = s.sender) (hsent : s.sent ⊆ s'.sent)
    (hcount : s.numbered < 2 ^ 24) :
    s'.Ordered ↔ ∀ i, s.Precedes i j → s.progress i ≠ .locking := by
  have hself : s'.progress j = p := by
    rw [hp, Function.update_self]
  have hother {k : Nat} (hk : k ≠ j) : s'.progress k = s.progress k := by
    rw [hp, Function.update_of_ne hk]
  have hvalue : s.conn.state.orderIndex.value = s.numbered := by
    rw [hsound.orderIndex_eq, Uint24.value_new_of_lt hcount]
  constructor
  · intro h' i hij hlocking
    obtain ⟨o', ho', -⟩ := h'.numbers i j ((precedes_iff hm).mpr hij) _ (by rw [hself]; exact ho)
    rw [hother (Nat.ne_of_lt hij.lt), hlocking] at ho'
    cases ho'
  · intro hturn
    refine ⟨fun i k hik o hk ↦ ?_, fun i hi o ↦ ?_, fun hstop ↦ ?_⟩
    · rw [precedes_iff hm] at hik
      by_cases hkj : k = j
      · subst hkj
        rw [hself, ho] at hk
        obtain rfl := Option.some.inj hk
        rw [hother (Nat.ne_of_lt hik.lt), hvalue]
        obtain ⟨o', ho'⟩ := Option.ne_none_iff_exists'.mp
          fun hnone ↦ hturn i hik (Progress.eq_locking_iff.mpr hnone)
        exact ⟨o', ho', hsound.lt_numbered i o' ho'⟩
      · rw [hother hkj] at hk
        obtain ⟨o', ho', hlt⟩ := h.numbers i k hik o hk
        have hij : i ≠ j := by
          rintro rfl
          rw [hj] at ho'
          cases ho'
        exact ⟨o', by rwa [hother hij], hlt⟩
    · by_cases hij : i = j
      · subst hij
        rw [hself]
        exact hdrop o
      · rw [hother hij]
        exact h.kept i ((isFrom_iff hm).mp hi) o
    · refine h.drained_of_update hm hp (fun o d hq ↦ ?_) (hsender ▸ hstop) hsent
      rw [hj] at hq
      cases hq

/-- The task of a message comes to its end: the channel has taken its datagram, or not. -/
theorem ordered_queue_iff (h : s.Ordered) (hm : s'.messages = s.messages) {p : Progress}
    {o : Uint24} {d : Bytes} (hp : s'.progress = Function.update s.progress j p)
    (hj : s.progress j = .queueing o d) (ho : p.orderIndex = some o)
    (hsender : s'.sender = s.sender) (hsent : s.sent ⊆ s'.sent) :
    s'.Ordered ↔ (s.IsDisconnect j → ∀ o, p ≠ .dropped o) := by
  have hself : s'.progress j = p := by
    rw [hp, Function.update_self]
  have hother {k : Nat} (hk : k ≠ j) : s'.progress k = s.progress k := by
    rw [hp, Function.update_of_ne hk]
  have horder (k : Nat) : (s'.progress k).orderIndex = (s.progress k).orderIndex := by
    by_cases hk : k = j
    · subst hk
      rw [hself, hj, ho]
      rfl
    · rw [hother hk]
  constructor
  · intro h' hdis o
    have hkept := h'.kept j ((isFrom_iff hm).mpr hdis) o
    rwa [hself] at hkept
  · intro hkept
    refine ⟨fun i k hik o hk ↦ ?_, fun i hi o ↦ ?_, fun hstop ↦ ?_⟩
    · rw [horder] at hk ⊢
      exact h.numbers i k ((precedes_iff hm).mp hik) o hk
    · have hdis := (isFrom_iff hm).mp hi
      by_cases hij : i = j
      · subst hij
        rw [hself]
        exact hkept hdis o
      · rw [hother hij]
        exact h.kept i hdis o
    · refine h.drained_of_update hm hp (fun o d hq ↦ ?_) (hsender ▸ hstop) hsent
      rw [hj] at hq
      cases hq

/-- The sender task stops, with the disconnect notification exactly when the task of this has come
to its end. -/
theorem ordered_stop_iff (hsound : s.Sound) (h : s.Ordered) (hsender : s.sender = .draining)
    (hchannel : s.channel = []) :
    Ordered { s with sender := .stopped } ↔ ∀ i, s.IsDisconnect i → ¬ (s.progress i).Pending := by
  have hall : s.sent = s.conn.sendTx := List.take_of_length_le (List.drop_eq_nil_iff.mp hchannel)
  constructor
  · intro h' i hi hpending
    obtain ⟨o, d, hq, -⟩ := (h'.drained rfl).2 i hi
    change s.progress i = _ at hq
    rw [hq] at hpending
    exact hpending
  · intro hturn
    refine ⟨fun i j hij ↦ h.numbers i j (hij.congr (fun _ ↦ id) fun _ ↦ id),
      fun i hi ↦ h.kept i hi, fun _ ↦ ⟨hsound.sender (Or.inl hsender), fun i hi ↦ ?_⟩⟩
    have hpending := hturn i hi
    have hkept := h.kept i hi
    have hwritten := hsound.written i
    have hqueued := hsound.queued i
    change ∃ o d, s.progress i = .queued o d ∧ d ∈ s.sent
    cases hp : s.progress i with
    | locking =>
        rw [hp] at hpending
        exact absurd trivial hpending
    | written o => exact absurd hi (hwritten o hp)
    | queueing o d =>
        rw [hp] at hpending
        exact absurd trivial hpending
    | queued o d => exact ⟨o, d, rfl, hall ▸ hqueued o d hp⟩
    | dropped o => exact absurd hp (hkept o)

/-- A step keeps the order exactly when it is in turn. -/
theorem ordered_step_iff (hsound : s.Sound) (h : s.Ordered) (hs : Step build s e s')
    (hfits : CountFits s e) : s'.Ordered ↔ InTurn s e := by
  have hsame : s.sent ⊆ s.sent := List.Subset.refl _
  cases hs with
  | message _ =>
      exact iff_of_true (h.of_issued hsound rfl rfl rfl (fun _ ↦ Origin.noConfusion) hsame) trivial
  | accept _ _ =>
      exact iff_of_true (h.of_issued hsound rfl rfl rfl (fun _ ↦ Origin.noConfusion) hsame) trivial
  | mark _ => exact iff_of_true (h.of_same rfl rfl id hsame) trivial
  | connect _ => exact iff_of_true (h.of_same rfl rfl id hsame) trivial
  | wait _ _ => exact iff_of_true (h.of_same rfl rfl id hsame) trivial
  | write _ _ _ =>
      exact iff_of_true (h.of_issued hsound rfl rfl rfl (fun _ ↦ Origin.noConfusion) hsame) trivial
  | @lockWrite j a env ha hwrite hj _ =>
      obtain ⟨splitId, hquiet⟩ :=
        Conn.writeLocked_quiet build env (hsound.ne_nil j a ha hwrite) s.conn
      exact ordered_lock_iff hsound h rfl rfl hj rfl (fun _ ↦ Progress.noConfusion) rfl
        (sent_subset hquiet.sendTx le_rfl) hfits
  | @lockMessage j a env _ _ hj =>
      exact ordered_lock_iff hsound h rfl rfl hj rfl (fun _ ↦ Progress.noConfusion) rfl hsame hfits
  | @queue j o d hj _ =>
      have hiff := @ordered_queue_iff s
        { s with
          conn := s.conn.trySend true d
          progress := Function.update s.progress j (.queued o d) } j h rfl (.queued o d) o d rfl hj
        rfl rfl (sent_subset (List.prefix_append _ _) le_rfl)
      exact hiff.trans (iff_of_true (fun _ _ ↦ Progress.noConfusion) fun _ ↦ rfl)
  | @drop j o d hj =>
      have hiff := @ordered_queue_iff s
        { s with progress := Function.update s.progress j (.dropped o) } j h rfl (.dropped o) o d
        rfl hj rfl rfl hsame
      exact hiff.trans ⟨fun hkept hdis ↦ absurd rfl (hkept hdis _), fun hturn hdis ↦ by
        cases hturn hdis⟩
  | close hopen _ =>
      refine iff_of_true (h.of_issued hsound rfl rfl rfl (fun hstop ↦ ?_) hsame) trivial
      obtain ⟨i, hi⟩ := hsound.sender (Or.inr hstop)
      rw [hsound.closed i hi] at hopen
      cases hopen
  | notify _ => exact iff_of_true (h.of_same rfl rfl id hsame) trivial
  | enter _ =>
      refine iff_of_true (h.of_same rfl rfl (fun hstop ↦ ?_) hsame) trivial
      cases hstop
  | take _ _ =>
      refine iff_of_true (h.of_same rfl rfl (fun hstop ↦ ?_)
        (sent_subset (List.prefix_refl _) (Nat.le_succ _))) trivial
      cases hstop
  | cancel _ _ =>
      refine iff_of_true (h.of_same rfl rfl (fun hstop ↦ ?_) hsame) trivial
      cases hstop
  | drain _ _ =>
      exact iff_of_true (h.of_same rfl rfl id
        (sent_subset (List.prefix_refl _) (Nat.le_succ _))) trivial
  | stop hsender hchannel => exact ordered_stop_iff hsound h hsender hchannel
  | other hquiet _ =>
      exact iff_of_true (h.of_same rfl rfl id (sent_subset hquiet.sendTx le_rfl)) trivial

/-! ## What keeps the invariant -/

/-- A step that leaves the messages and their progress alone. -/
theorem Sound.of_same (h : s.Sound) (hm : s'.messages = s.messages) (hp : s'.progress = s.progress)
    (hnumbered : s'.numbered = s.numbered) (hquiet : s.conn.Quiet s'.conn)
    (hnotified : s'.closing ≠ none ∨ 0 < s'.cancelNotify.calls →
      s.closing ≠ none ∨ 0 < s.cancelNotify.calls)
    (hsender : s'.sender = .draining ∨ s'.sender = .stopped → ∃ i, s.IsDisconnect i) :
    s'.Sound := by
  have hdis (i : Nat) : s'.IsDisconnect i ↔ s.IsDisconnect i := isFrom_iff hm
  refine ⟨?_, ?_, ?_, ?_, ?_, ?_, ?_, fun i hi ↦ ?_, fun hn ↦ ?_, fun hs ↦ ?_⟩
  · rw [hm]
    exact h.ne_nil
  · rw [hm, hp]
    exact h.fresh
  · rw [hnumbered]
    exact h.numbered_le
  · rw [hnumbered, hquiet.orderIndex]
    exact h.orderIndex_eq
  · rw [hp, hnumbered]
    exact h.lt_numbered
  · rw [hp]
    exact fun i o ho hi ↦ h.written i o ho ((hdis i).mp hi)
  · rw [hp]
    exact fun i o d hq ↦ hquiet.sendTx.subset (h.queued i o d hq)
  · rw [hquiet.closed]
    exact h.closed i ((hdis i).mp hi)
  · obtain ⟨i, hi⟩ := h.notified (hnotified hn)
    exact ⟨i, (hdis i).mpr hi⟩
  · obtain ⟨i, hi⟩ := hsender hs
    exact ⟨i, (hdis i).mpr hi⟩

/-- A message is issued. -/
theorem Sound.of_issued (h : s.Sound) (hm : s'.messages = s.messages ++ [m])
    (hp : s'.progress = s.progress) (hnumbered : s'.numbered = s.numbered)
    (hstate : s'.conn.state = s.conn.state) (htx : s'.conn.sendTx = s.conn.sendTx)
    (hsender : s'.sender = s.sender) (hne : m.origin = .write → m.data ≠ [])
    (hclosed : s.conn.closed = true ∨ m.origin = .disconnectNotification → s'.conn.closed = true)
    (hnotified : s'.closing ≠ none ∨ 0 < s'.cancelNotify.calls →
      (s.closing ≠ none ∨ 0 < s.cancelNotify.calls) ∨ m.origin = .disconnectNotification) :
    s'.Sound := by
  have hdis {i : Nat} : s'.IsDisconnect i ↔
      s.IsDisconnect i ∨ i = s.messages.length ∧ m.origin = .disconnectNotification :=
    isFrom_issued_iff hm
  refine ⟨fun i a ha ↦ ?_, fun i hi ↦ ?_, ?_, ?_, ?_, fun i o ho hi ↦ ?_, ?_, fun i hi ↦ ?_,
    fun hn ↦ ?_, fun hs ↦ ?_⟩
  · rcases getElem?_issued hm ha with ha | ⟨-, rfl⟩
    · exact h.ne_nil i a ha
    · exact hne
  · rw [hm, List.length_append] at hi
    rw [hp]
    exact h.fresh i (by omega)
  · rw [hnumbered]
    exact h.numbered_le
  · rw [hnumbered, hstate]
    exact h.orderIndex_eq
  · rw [hp, hnumbered]
    exact h.lt_numbered
  · rw [hp] at ho
    rcases hdis.mp hi with hi | ⟨rfl, -⟩
    · exact h.written i o ho hi
    · rw [h.fresh _ le_rfl] at ho
      cases ho
  · rw [hp, htx]
    exact h.queued
  · exact hclosed ((hdis.mp hi).imp (h.closed i) And.right)
  · rcases hnotified hn with hn | horigin
    · obtain ⟨i, hi⟩ := h.notified hn
      exact ⟨i, hdis.mpr (Or.inl hi)⟩
    · exact ⟨s.messages.length, hdis.mpr (Or.inr ⟨rfl, horigin⟩)⟩
  · rw [hsender] at hs
    obtain ⟨i, hi⟩ := h.sender hs
    exact ⟨i, hdis.mpr (Or.inl hi)⟩

/-- A message comes further. -/
theorem Sound.of_progress (h : s.Sound) (hm : s'.messages = s.messages) {p : Progress}
    (hp : s'.progress = Function.update s.progress j p) (hlt : j < s.messages.length)
    (hnumbered : s.numbered ≤ s'.numbered) (hle : s'.numbered ≤ 2 ^ 24)
    (horder : s'.conn.state.orderIndex = Uint24.new s'.numbered)
    (ho : ∀ o, p.orderIndex = some o → o.value < s'.numbered)
    (hwritten : ∀ o, p = .written o → ¬ s.IsDisconnect j)
    (htx : s.conn.sendTx ⊆ s'.conn.sendTx) (hq : ∀ o d, p = .queued o d → d ∈ s'.conn.sendTx)
    (hclosed : s'.conn.closed = s.conn.closed) (hclosing : s'.closing = s.closing)
    (hcancel : s'.cancelNotify = s.cancelNotify) (hsender : s'.sender = s.sender) : s'.Sound := by
  have hdis (i : Nat) : s'.IsDisconnect i ↔ s.IsDisconnect i := isFrom_iff hm
  -- what holds of the message that comes further and of the others where they are
  have hall {P : Nat → Progress → Prop} (hj : P j p) (hrest : ∀ i, i ≠ j → P i (s.progress i)) :
      ∀ i, P i (s'.progress i) := by
    rw [hp]
    exact (Function.forall_update_iff s.progress P).mpr ⟨hj, hrest⟩
  refine ⟨?_, ?_, hle, horder, ?_, ?_, ?_, fun i hi ↦ ?_, fun hn ↦ ?_, fun hs ↦ ?_⟩
  · rw [hm]
    exact h.ne_nil
  · rw [hm]
    exact hall (P := fun i q ↦ s.messages.length ≤ i → q = .locking)
      (fun hj ↦ absurd hlt (Nat.not_lt_of_le hj)) fun i _ ↦ h.fresh i
  · exact hall (P := fun _ q ↦ ∀ o, q.orderIndex = some o → o.value < s'.numbered) ho
      fun i _ o hio ↦ Nat.lt_of_lt_of_le (h.lt_numbered i o hio) hnumbered
  · simp only [hdis]
    exact hall (P := fun i q ↦ ∀ o, q = .written o → ¬ s.IsDisconnect i) hwritten
      fun i _ ↦ h.written i
  · exact hall (P := fun _ q ↦ ∀ o d, q = .queued o d → d ∈ s'.conn.sendTx) hq
      fun i _ o d hiq ↦ htx (h.queued i o d hiq)
  · rw [hclosed]
    exact h.closed i ((hdis i).mp hi)
  · rw [hclosing, hcancel] at hn
    obtain ⟨i, hi⟩ := h.notified hn
    exact ⟨i, (hdis i).mpr hi⟩
  · rw [hsender] at hs
    obtain ⟨i, hi⟩ := h.sender hs
    exact ⟨i, (hdis i).mpr hi⟩

/-- A message that has come somewhere has been issued. -/
theorem Sound.lt_length (h : s.Sound) (hj : s.progress j ≠ .locking) : j < s.messages.length :=
  Nat.lt_of_not_le fun hle ↦ hj (h.fresh j hle)

/-- A message is numbered. -/
theorem Sound.of_numbered (h : s.Sound) (hfits : s.numbered < 2 ^ 24)
    (hm : s'.messages = s.messages) {p : Progress}
    (hp : s'.progress = Function.update s.progress j p) (ha : s.messages[j]? = some m)
    (hnumbered : s'.numbered = s.numbered + 1)
    (horder : s'.conn.state.orderIndex = s.conn.state.orderIndex.inc.1)
    (ho : p.orderIndex = some s.conn.state.orderIndex)
    (hwritten : ∀ o, p = .written o → ¬ s.IsDisconnect j) (hqueued : ∀ o d, p ≠ .queued o d)
    (htx : s.conn.sendTx ⊆ s'.conn.sendTx) (hclosed : s'.conn.closed = s.conn.closed)
    (hclosing : s'.closing = s.closing) (hcancel : s'.cancelNotify = s.cancelNotify)
    (hsender : s'.sender = s.sender) : s'.Sound := by
  refine h.of_progress hm hp (List.getElem?_eq_some_iff.mp ha).1 (by omega) (by omega) ?_
    (fun o hpo ↦ ?_) hwritten htx (fun o d hq ↦ absurd hq (hqueued o d)) hclosed hclosing hcancel
    hsender
  · rw [horder, hnumbered, h.orderIndex_eq, Uint24.inc_new]
  · obtain rfl := Option.some.inj (ho.symm.trans hpo)
    rw [h.orderIndex_eq, Uint24.value_new_of_lt hfits, hnumbered]
    exact Nat.lt_succ_self _

/-- The task of a message comes to its end. -/
theorem Sound.of_ended (h : s.Sound) (hm : s'.messages = s.messages) {p : Progress} {o : Uint24}
    {d : Bytes} (hp : s'.progress = Function.update s.progress j p)
    (hj : s.progress j = .queueing o d) (ho : p.orderIndex = some o)
    (hwritten : ∀ o, p ≠ .written o) (hqueued : ∀ o d, p = .queued o d → d ∈ s'.conn.sendTx)
    (hnumbered : s'.numbered = s.numbered) (hstate : s'.conn.state = s.conn.state)
    (htx : s.conn.sendTx ⊆ s'.conn.sendTx) (hclosed : s'.conn.closed = s.conn.closed)
    (hclosing : s'.closing = s.closing) (hcancel : s'.cancelNotify = s.cancelNotify)
    (hsender : s'.sender = s.sender) : s'.Sound := by
  refine h.of_progress hm hp (h.lt_length fun hl ↦ ?_) hnumbered.ge
    (hnumbered.trans_le h.numbered_le) ?_ (fun o' hpo ↦ ?_)
    (fun o' hw ↦ absurd hw (hwritten o')) htx hqueued hclosed hclosing hcancel hsender
  · rw [hl] at hj
    cases hj
  · rw [hstate, hnumbered]
    exact h.orderIndex_eq
  · rw [hnumbered]
    refine h.lt_numbered j o' ?_
    rw [hj, ← hpo, ho]
    rfl

theorem Sound.step (h : s.Sound) (hs : Step build s e s') (hfits : CountFits s e) : s'.Sound := by
  have hquiet := Conn.Quiet.refl s.conn
  cases hs with
  | message _ =>
      exact h.of_issued rfl rfl rfl rfl rfl rfl (fun he ↦ by cases he)
        (fun hc ↦ hc.resolve_right Origin.noConfusion) Or.inl
  | accept _ _ =>
      exact h.of_issued rfl rfl rfl rfl rfl rfl (fun he ↦ by cases he)
        (fun hc ↦ hc.resolve_right Origin.noConfusion) Or.inl
  | mark _ => exact h.of_same rfl rfl rfl hquiet id h.sender
  | connect _ => exact h.of_same rfl rfl rfl hquiet id h.sender
  | wait _ _ => exact h.of_same rfl rfl rfl hquiet id h.sender
  | write _ hne _ =>
      exact h.of_issued rfl rfl rfl rfl rfl rfl (fun _ ↦ hne)
        (fun hc ↦ hc.resolve_right Origin.noConfusion) Or.inl
  | @lockWrite j a env ha hwrite hj _ =>
      obtain ⟨splitId, hquiet⟩ := Conn.writeLocked_quiet build env (h.ne_nil j a ha hwrite) s.conn
      refine h.of_numbered hfits rfl rfl ha rfl hquiet.orderIndex rfl (fun o _ ↦ ?_)
        (fun _ _ ↦ Progress.noConfusion) hquiet.sendTx.subset hquiet.closed rfl rfl rfl
      rintro ⟨b, hb, horigin⟩
      obtain rfl := Option.some.inj (ha.symm.trans hb)
      rw [hwrite] at horigin
      cases horigin
  | lockMessage ha _ _ =>
      exact h.of_numbered hfits rfl rfl ha rfl rfl rfl (fun _ ↦ Progress.noConfusion)
        (fun _ _ ↦ Progress.noConfusion) (List.Subset.refl _) rfl rfl rfl rfl
  | queue hj _ =>
      refine h.of_ended rfl rfl hj rfl (fun _ ↦ Progress.noConfusion) (fun o d hq ↦ ?_) rfl rfl
        (List.prefix_append _ _).subset rfl rfl rfl rfl
      obtain ⟨-, rfl⟩ := Progress.queued.inj hq
      exact List.mem_append_right _ (List.mem_singleton.mpr rfl)
  | drop hj =>
      exact h.of_ended rfl rfl hj rfl (fun _ ↦ Progress.noConfusion)
        (fun _ _ ↦ Progress.noConfusion) rfl rfl (List.Subset.refl _) rfl rfl rfl rfl
  | close _ _ =>
      exact h.of_issued rfl rfl rfl rfl rfl rfl (fun he ↦ by cases he) (fun _ ↦ rfl)
        fun _ ↦ Or.inr rfl
  | notify hclosing =>
      refine h.of_same rfl rfl rfl hquiet (fun _ ↦ Or.inl ?_) h.sender
      rw [hclosing]
      exact Option.some_ne_none _
  | enter _ =>
      refine h.of_same rfl rfl rfl hquiet id fun hs ↦ ?_
      rcases hs with hs | hs <;> cases hs
  | take _ _ =>
      refine h.of_same rfl rfl rfl hquiet id fun hs ↦ ?_
      rcases hs with hs | hs <;> cases hs
  | cancel _ hready =>
      exact h.of_same rfl rfl rfl hquiet id fun _ ↦ h.notified (Or.inr (Nat.zero_lt_of_lt hready))
  | drain _ _ => exact h.of_same rfl rfl rfl hquiet id h.sender
  | stop hsender _ => exact h.of_same rfl rfl rfl hquiet id fun _ ↦ h.sender (Or.inl hsender)
  | other hother _ => exact h.of_same rfl rfl rfl hother id h.sender

/-! ## What comes before the first write -/

/-- On a connection that was dialed, NEW_INCOMING_CONNECTION is sent before the connection is
marked, and so before `wait_connected` returns. -/
structure Announced (s : Outgoing) : Prop where
  marking : s.marking ≠ [] → ∃ i, s.IsFrom .newIncomingConnection i
  connected : s.connected = true → ∃ i, s.IsFrom .newIncomingConnection i
  waited : ∀ caller n, s.waited caller = some n → ∃ i < n, s.IsFrom .newIncomingConnection i
  messages : ∀ (j : Nat) (b : Issued) (n : Nat), s.messages[j]? = some b → b.waited = some n →
    ∃ i < n, s.IsFrom .newIncomingConnection i

theorem Announced.of_issued (h : s.Announced) (hm : s'.messages = s.messages ++ [m]) {caller : Nat}
    (hwaited : m.waited = s.waited caller) (hw : s'.waited = s.waited)
    (hmarking : s'.marking ≠ [] → ∃ i, s'.IsFrom .newIncomingConnection i)
    (hconnected : s'.connected = s.connected) : s'.Announced := by
  have hold {i : Nat} (hi : s.IsFrom .newIncomingConnection i) :
      s'.IsFrom .newIncomingConnection i := (isFrom_issued_iff hm).mpr (Or.inl hi)
  refine ⟨hmarking, fun hc ↦ ?_, fun c n hn ↦ ?_, fun j b n hb hn ↦ ?_⟩
  · obtain ⟨i, hi⟩ := h.connected (hconnected ▸ hc)
    exact ⟨i, hold hi⟩
  · obtain ⟨i, hlt, hi⟩ := h.waited c n (hw ▸ hn)
    exact ⟨i, hlt, hold hi⟩
  · rcases getElem?_issued hm hb with hb | ⟨-, rfl⟩
    · obtain ⟨i, hlt, hi⟩ := h.messages j b n hb hn
      exact ⟨i, hlt, hold hi⟩
    · obtain ⟨i, hlt, hi⟩ := h.waited caller n (hwaited ▸ hn)
      exact ⟨i, hlt, hold hi⟩

theorem Announced.step (hdialed : s.dialed = true) (h : s.Announced) (hs : Step build s e s') :
    s'.Announced := by
  have hmarking {caller : Nat} {origin : Origin} {data : Bytes} (hne : s.marking ≠ []) :
      ∃ i, (s.issue caller origin data).IsFrom .newIncomingConnection i := by
    obtain ⟨i, hi⟩ := h.marking hne
    exact ⟨i, hi.congr fun _ ↦ getElem?_of_issued rfl⟩
  cases hs with
  | message _ => exact h.of_issued rfl rfl rfl hmarking rfl
  | accept _ _ =>
      refine h.of_issued rfl rfl rfl (fun _ ↦ ⟨s.messages.length, ?_⟩) rfl
      exact ⟨_, List.getElem?_concat_length, rfl⟩
  | mark hmem =>
      obtain ⟨i, hi⟩ := h.marking (List.ne_nil_of_mem hmem)
      exact ⟨fun _ ↦ ⟨i, hi⟩, fun _ ↦ ⟨i, hi⟩, h.waited, h.messages⟩
  | connect hlistener =>
      rw [hdialed] at hlistener
      cases hlistener
  | @wait caller hconnected _ =>
      refine ⟨h.marking, h.connected, fun c n hn ↦ ?_, h.messages⟩
      by_cases hc : c = caller
      · subst hc
        obtain ⟨i, a, ha, horigin⟩ := h.connected hconnected
        change Function.update s.waited c _ c = _ at hn
        rw [Function.update_self] at hn
        obtain rfl := Option.some.inj hn
        exact ⟨i, (List.getElem?_eq_some_iff.mp ha).1, a, ha, horigin⟩
      · change Function.update s.waited caller _ c = _ at hn
        rw [Function.update_of_ne hc] at hn
        exact h.waited c n hn
  | write _ _ _ => exact h.of_issued rfl rfl rfl hmarking rfl
  | close _ _ => exact h.of_issued rfl rfl rfl hmarking rfl
  | _ => exact ⟨h.marking, h.connected, h.waited, h.messages⟩

theorem Step.dialed_eq (hs : Step build s e s') : s'.dialed = s.dialed := by
  cases hs <;> rfl

/-! ## Whole runs -/

theorem sound_new (dialed : Bool) (mtu : Nat) : Sound (new dialed mtu) where
  ne_nil _ _ ha := by cases ha
  fresh _ _ := rfl
  numbered_le := Nat.zero_le _
  orderIndex_eq := rfl
  lt_numbered _ _ ho := by cases ho
  written _ _ ho := by cases ho
  queued _ _ _ hq := by cases hq
  closed i hi := by
    obtain ⟨a, ha, -⟩ := hi
    cases ha
  notified hn := by
    rcases hn with hn | hn
    · exact absurd rfl hn
    · exact absurd hn (Nat.lt_irrefl 0)
  sender hs := by rcases hs with hs | hs <;> cases hs

theorem ordered_new (dialed : Bool) (mtu : Nat) : Ordered (new dialed mtu) where
  numbers _ _ _ _ ho := by cases ho
  kept _ _ _ ho := by cases ho
  drained hs := by cases hs

theorem announced_of_reachable (h : (outgoings build).Reachable s) (hdialed : s.dialed = true) :
    s.Announced := by
  refine h.invariant (I := fun s ↦ s.dialed = true → s.Announced) ?_ ?_ hdialed
  · rintro _ ⟨dialed, mtu, rfl⟩ -
    refine ⟨fun hne ↦ absurd rfl hne, fun hc ↦ ?_, fun _ _ hn ↦ ?_, fun _ _ _ hb ↦ ?_⟩
    · cases hc
    · cases hn
    · cases hb
  · intro s e s' _ ih hs hd
    have hd' : s.dialed = true := (Step.dialed_eq hs).symm.trans hd
    exact (ih hd').step hd' hs

/-- **Messages go out in order while the spawned tasks keep up.**  In every run in which a message
gets the state lock after those that precede it, and in which the sender task does not stop before
the task of the disconnect notification has come to its end, for which the channel has room, the
order indices of a caller's messages increase in program order, NEW_INCOMING_CONNECTION has a
smaller one than what is written after `wait_connected`, and the sender task stops after it has sent
the disconnect notification; and the first step out of turn is the end of that. -/
theorem ordered_while_inTurn
    (h : ((outgoings build).restrict fun s e ↦ CountFits s e ∧ InTurn s e).Reachable s) :
    s.Ordered ∧ (s.dialed = true → s.Announced) ∧
      ∀ e s', (outgoings build).step s e s' → CountFits s e → (s'.Ordered ↔ InTurn s e) := by
  obtain ⟨hsound, hordered⟩ : s.Sound ∧ s.Ordered := by
    refine h.invariant (I := fun s ↦ s.Sound ∧ s.Ordered) ?_ ?_
    · rintro _ ⟨dialed, mtu, rfl⟩
      exact ⟨sound_new dialed mtu, ordered_new dialed mtu⟩
    · rintro s e s' - ⟨hs, ho⟩ ⟨⟨hfits, hturn⟩, hstep⟩
      exact ⟨hs.step hstep hfits, (ordered_step_iff hs ho hstep hfits).mpr hturn⟩
  exact ⟨hordered, announced_of_reachable h.of_restrict,
    fun _ _ hs hfits ↦ ordered_step_iff hsound hordered hs hfits⟩

/-! ## Tasks that are late -/

/-- A caller is free as long as nobody writes or is in the middle of a call of the handler. -/
theorem free_of_all (hmarking : s.marking = []) (hclosing : s.closing = none)
    (hmessages : ∀ a ∈ s.messages, a.origin ≠ .write) (caller : Nat) : s.Free caller := by
  refine ⟨?_, ?_, fun i a ha _ hwrite ↦ absurd hwrite (hmessages a (List.mem_of_getElem? ha))⟩
  · rw [hmarking]
    exact List.not_mem_nil
  · rw [hclosing]
    exact (Option.some_ne_none caller).symm

/-- The counter after a write. -/
theorem orderIndex_writeLocked (env : Env) {data : Bytes} (hd : data ≠ []) (c : Conn) :
    (Conn.writeLocked build env data c).1.state.orderIndex = c.state.orderIndex.inc.1 := by
  obtain ⟨splitId, hquiet⟩ := Conn.writeLocked_quiet build env hd c
  exact hquiet.orderIndex

/-- NEW_INCOMING_CONNECTION, as a dialer sends it. -/
def announcement : NewIncomingConnection := ⟨.unspecified, defaultSystemAddresses, 0, 0⟩

/-- A dialed connection whose sender task waits for datagrams; NEW_INCOMING_CONNECTION is numbered,
and the connection is marked after it. -/
def announcing : Outgoing :=
  { ({ new true 1492 with sender := .selecting ⟨0⟩ }.issue 0 .newIncomingConnection
      announcement.write).lockMessage .calm 0 announcement.write with
    connected := true }

def waiting : Outgoing :=
  { announcing with waited := Function.update announcing.waited 1 (some 1) }

/-- It has written a byte, which is sent as an internal message is. -/
def announced : Outgoing :=
  { waiting.issue 1 .write [7] with
    conn := Conn.sendMessage .calm [7] waiting.conn
    progress := Function.update waiting.progress 1 (.written waiting.conn.state.orderIndex)
    numbered := 2 }

theorem reachable_announcing :
    ((outgoings .release).restrict fun s e ↦ CountFits s e ∧ InTurn s e).Reachable announcing := by
  let T := (outgoings .release).restrict fun s e ↦ CountFits s e ∧ InTurn s e
  let s₁ : Outgoing := { new true 1492 with sender := .selecting ⟨0⟩ }
  let s₂ : Outgoing := { s₁.issue 0 .newIncomingConnection announcement.write with marking := [0] }
  have h₁ : T.Reachable s₁ :=
    .step (a := .enter) (.init ⟨true, 1492, rfl⟩) ⟨⟨trivial, trivial⟩, .enter rfl⟩
  have hfree : s₁.Free 0 := free_of_all rfl rfl (fun _ ha ↦ absurd ha List.not_mem_nil) 0
  have h₂ : T.Reachable s₂ :=
    .step (a := .accept 0 announcement) h₁ ⟨⟨trivial, trivial⟩, .accept rfl hfree⟩
  have h₃ : T.Reachable (s₂.lockMessage .calm 0 announcement.write) := by
    refine .step (a := .lock 0 .calm) h₂ ⟨⟨Nat.two_pow_pos 24, ?_⟩, ?_⟩
    · exact fun i hi ↦ absurd hi.lt (Nat.not_lt_zero i)
    · exact @Step.lockMessage _ s₂ 0 ⟨0, .newIncomingConnection, announcement.write, none⟩ _ rfl
        Origin.noConfusion rfl
  exact .step (a := .mark 0) h₃ ⟨⟨trivial, trivial⟩, .mark List.mem_cons_self⟩

theorem reachable_announced :
    ((outgoings .release).restrict fun s e ↦ CountFits s e ∧ InTurn s e).Reachable announced := by
  let T := (outgoings .release).restrict fun s e ↦ CountFits s e ∧ InTurn s e
  let s := waiting.issue 1 .write [7]
  have hlock : s.lockWrite .release .calm 1 [7] = announced := by
    rw [lockWrite, Conn.writeLocked_whole rfl (Conn.split_byte _)]
    rfl
  have hfree : announcing.Free 1 := by
    refine free_of_all rfl rfl (fun a ha ↦ ?_) 1
    obtain rfl := List.mem_singleton.mp ha
    exact Origin.noConfusion
  have h₁ : T.Reachable waiting :=
    .step (a := .wait 1) reachable_announcing ⟨⟨trivial, trivial⟩, .wait rfl hfree⟩
  have h₂ : T.Reachable s := .step (a := .write 1 [7]) h₁
    ⟨⟨trivial, trivial⟩, .write rfl (List.cons_ne_nil _ _) hfree⟩
  refine .step (a := .lock 1 .calm) h₂ ⟨⟨(by decide : 1 < 2 ^ 24), fun i hi ↦ ?_⟩, hlock ▸ ?_⟩
  · obtain rfl : i = 0 := Nat.lt_one_iff.mp hi.lt
    exact Progress.noConfusion
  · exact @Step.lockWrite _ s 1 ⟨1, .write, [7], some 1⟩ _ rfl rfl rfl fun hstop ↦ by cases hstop

/-- NEW_INCOMING_CONNECTION, a write behind it and the disconnect notification, each in its turn. -/
theorem ordered_while_inTurn_announced :
    ∃ s, ((outgoings .release).restrict fun s e ↦ CountFits s e ∧ InTurn s e).Reachable s ∧
      s.IsFrom .newIncomingConnection 0 ∧ (s.progress 0).orderIndex = some (Uint24.new 0) ∧
      s.IsFrom .write 1 ∧ (s.progress 1).orderIndex = some (Uint24.new 1) ∧
      s.IsDisconnect 2 ∧ s.sender = .stopped ∧ s.Ordered ∧ s.Announced := by
  let T := (outgoings .release).restrict fun s e ↦ CountFits s e ∧ InTurn s e
  let s₁ : Outgoing := { announced.issue 2 .disconnectNotification [Id.disconnectNotification] with
    conn.closed := true, closing := some 2 }
  have h₁ : T.Reachable s₁ := by
    refine .step (a := .close 2) reachable_announced
      ⟨⟨trivial, trivial⟩, .close rfl ⟨List.not_mem_nil, ?_, ?_⟩⟩
    · exact fun h ↦ by cases h
    · intro i a ha hcaller
      rcases List.mem_pair.mp (List.mem_of_getElem? ha) with rfl | rfl
      · exact absurd hcaller (by decide)
      · exact absurd hcaller (by decide)
  let s₂ : Outgoing := { s₁ with closing := none, cancelNotify := s₁.cancelNotify.notifyWaiters }
  have h₂ : T.Reachable s₂ := .step (a := .notify) h₁ ⟨⟨trivial, trivial⟩, .notify rfl⟩
  let s₃ := s₂.lockMessage .calm 2 [Id.disconnectNotification]
  have h₃ : T.Reachable s₃ := by
    refine .step (a := .lock 2 .calm) h₂ ⟨⟨(by decide : 2 < 2 ^ 24), fun i hi ↦ ?_⟩, ?_⟩
    · have hlt := hi.lt
      obtain rfl | rfl : i = 0 ∨ i = 1 := by omega
      · exact Progress.noConfusion
      · exact Progress.noConfusion
    · exact @Step.lockMessage _ s₂ 2
        ⟨2, .disconnectNotification, [Id.disconnectNotification], none⟩ _ rfl Origin.noConfusion rfl
  -- the tasks come to their end, and the sender task stops
  let s₄ : Outgoing := { s₃ with
    conn := s₃.conn.trySend true
      (Conn.numberMessage .calm announcement.write (Conn.new 1492)).2
    progress := Function.update s₃.progress 0 (.queued (Uint24.new 0)
      (Conn.numberMessage .calm announcement.write (Conn.new 1492)).2) }
  have h₄ : T.Reachable s₄ := .step (a := .queue 0 true) h₃
    ⟨⟨trivial, fun _ ↦ rfl⟩, .queue rfl fun h ↦ by cases h⟩
  let s₅ : Outgoing := { s₄ with
    conn := s₄.conn.trySend true
      (Conn.numberMessage .calm [Id.disconnectNotification] s₂.conn).2
    progress := Function.update s₄.progress 2 (.queued s₂.conn.state.orderIndex
      (Conn.numberMessage .calm [Id.disconnectNotification] s₂.conn).2) }
  have h₅ : T.Reachable s₅ := .step (a := .queue 2 true) h₄
    ⟨⟨trivial, fun _ ↦ rfl⟩, .queue rfl fun h ↦ by cases h⟩
  let s₆ : Outgoing := { s₅ with sender := .draining }
  have h₆ : T.Reachable s₆ := .step (a := .cancel) h₅
    ⟨⟨trivial, trivial⟩, .cancel rfl Nat.one_pos⟩
  have h₇ : T.Reachable { s₆ with taken := 1 } := .step (a := .drain) h₆
    ⟨⟨trivial, trivial⟩, .drain rfl (List.cons_ne_nil _ _)⟩
  have h₈ : T.Reachable { s₆ with taken := 2 } := .step (a := .drain) h₇
    ⟨⟨trivial, trivial⟩, .drain rfl (List.cons_ne_nil _ _)⟩
  have h₉ : T.Reachable { s₆ with taken := 3 } := .step (a := .drain) h₈
    ⟨⟨trivial, trivial⟩, .drain rfl (List.cons_ne_nil _ _)⟩
  have h₁₀ : T.Reachable { s₆ with taken := 3, sender := .stopped } := by
    refine .step (a := .stop) h₉ ⟨⟨trivial, fun i hi ↦ ?_⟩, .stop rfl rfl⟩
    have hlt : i < 3 := (List.getElem?_eq_some_iff.mp hi.choose_spec.1).1
    obtain rfl | rfl | rfl : i = 0 ∨ i = 1 ∨ i = 2 := by omega
    all_goals exact id
  obtain ⟨hordered, hannounced, -⟩ := ordered_while_inTurn h₁₀
  exact ⟨_, h₁₀, ⟨_, rfl, rfl⟩, rfl, ⟨_, rfl, rfl⟩, rfl, ⟨_, rfl, rfl⟩, rfl, hordered,
    hannounced rfl⟩

/-- A write takes the lock before the task of NEW_INCOMING_CONNECTION, and the sender task stops
before that of the disconnect notification has got it. -/
theorem late_tasks :
    (∃ s i j o o', (outgoings .release).Reachable s ∧ s.Precedes i j ∧
      s.IsFrom .newIncomingConnection i ∧ s.IsFrom .write j ∧
      (s.progress i).orderIndex = some o ∧ (s.progress j).orderIndex = some o' ∧
      o'.value < o.value) ∧
    ∃ s i, (outgoings .release).Reachable s ∧ s.IsDisconnect i ∧ s.sender = .stopped ∧
      s.progress i = .locking := by
  constructor
  · let s₁ :=
      { (new true 1492).issue 0 .newIncomingConnection announcement.write with marking := [0] }
    let s₂ := { s₁ with connected := true, marking := s₁.marking.erase 0 }
    let s₃ := { s₂ with waited := Function.update s₂.waited 1 (some s₂.messages.length) }
    let s₄ := s₃.issue 1 .write [7]
    let s₅ := s₄.lockWrite .release .calm 1 [7]
    let s₆ := s₅.lockMessage .calm 0 announcement.write
    have hfree₀ : (new true 1492).Free 0 :=
      free_of_all rfl rfl (fun _ ha ↦ absurd ha List.not_mem_nil) 0
    have hfree₂ : s₂.Free 1 := by
      refine free_of_all rfl rfl (fun a ha ↦ ?_) 1
      obtain rfl := List.mem_singleton.mp ha
      exact Origin.noConfusion
    have t₅ : Step .release s₄ (.lock 1 .calm) s₅ :=
      @Step.lockWrite _ s₄ 1 ⟨1, .write, [7], some 1⟩ _ rfl rfl rfl fun hstop ↦ by cases hstop
    have t₆ : Step .release s₅ (.lock 0 .calm) s₆ :=
      @Step.lockMessage _ s₅ 0 ⟨0, .newIncomingConnection, announcement.write, none⟩ _ rfl
        Origin.noConfusion rfl
    have hr : (outgoings .release).Reachable s₆ := by
      refine .step (s := s₅) (.step (s := s₄) (.step (s := s₃) (a := .write 1 [7])
        (.step (s := s₂) (a := .wait 1) (.step (s := s₁) (a := .mark 0)
          (.step (a := .accept 0 announcement) (.init ⟨true, 1492, rfl⟩) (.accept rfl hfree₀))
          (.mark List.mem_cons_self)) (.wait rfl hfree₂))
        (.write rfl (List.cons_ne_nil _ _) hfree₂)) t₅) t₆
    have horder : s₅.conn.state.orderIndex = Uint24.new 1 :=
      orderIndex_writeLocked .calm (List.cons_ne_nil 7 []) s₄.conn
    refine ⟨s₆, 0, 1, _, _, hr, .newIncomingConnection rfl rfl Nat.one_pos rfl rfl rfl Nat.one_pos,
      ⟨_, rfl, rfl⟩, ⟨_, rfl, rfl⟩, rfl, rfl, ?_⟩
    change (Uint24.new 0).value < s₅.conn.state.orderIndex.value
    rw [horder]
    decide
  · let s₁ := { new false 1492 with sender := .selecting ⟨0⟩ }
    let s₂ := { s₁.issue 0 .disconnectNotification [Id.disconnectNotification] with
      conn.closed := true, closing := some 0 }
    let s₃ := { s₂ with closing := none, cancelNotify := s₂.cancelNotify.notifyWaiters }
    let s₄ := { s₃ with sender := .draining }
    have hfree₁ : s₁.Free 0 := free_of_all rfl rfl (fun _ ha ↦ absurd ha List.not_mem_nil) 0
    refine ⟨{ s₄ with sender := .stopped }, 0, ?_, ⟨_, rfl, rfl⟩, rfl, rfl⟩
    refine .step (s := s₄) (a := .stop) (.step (s := s₃) (a := .cancel)
      (.step (s := s₂) (a := .notify) (.step (s := s₁) (a := .close 0)
        (.step (a := .enter) (.init ⟨false, 1492, rfl⟩) (.enter rfl))
        (.close rfl hfree₁)) (.notify rfl)) (.cancel rfl Nat.one_pos)) (.stop rfl rfl)

end Ragnet.Outgoing

import Mathlib.Logic.Function.Basic
import Ragnet.Lib.Lts
import Ragnet.Lib.Notify

/-!
# Closing a connection

The tasks of a connection that wait for `cancel_notify`, each in a `select!` between its work and a
future that it makes anew every time: `start_ticking`, `sender_task`, the receive task of
`Dialer::dial_addr`, and any number of calls of `read` and `read_packet`, of which the one that
holds the receiver waits.  `close_immediately` notifies once.

Of the work there is a count: ticks that are due, datagrams to send, datagrams that have arrived,
contents for the application.  The channels do not close, because the connection holds a sender of
each.
-/

namespace Ragnet

/-- The loops that wait for `cancel_notify`. -/
inductive Loop where
  | startTicking
  | senderTask
  | receiveTask
deriving DecidableEq

inductive Phase where
  /-- Not in its `select!`: it has not come there yet, or is at work. -/
  | busy
  /-- In its `select!`, with a cancel future. -/
  | selecting (cancel : Notified)
  /-- It has returned. -/
  | ended

/-- Where a call of `read` or `read_packet` is. -/
inductive ReadPhase where
  /-- In `self.packet_rx.lock().await`. -/
  | locking
  /-- In its `select!`, with a cancel future. -/
  | selecting (cancel : Notified)
  /-- It has returned. -/
  | returned
deriving DecidableEq

/-- The call has not returned. -/
def ReadPhase.isActive : ReadPhase → Bool
  | .returned => false
  | _ => true

/-- Who calls `close_immediately`. -/
inductive Caller where
  | loop (l : Loop)
  /-- The listener, its connect task, or whoever has dialed. -/
  | other
deriving DecidableEq

/-- A connection and its tasks. -/
structure Shutdown where
  closed : Bool
  /-- The call of `close_immediately` that has set `closed` and not yet notified. -/
  closing : Option Caller
  cancelNotify : Notify
  phase : Loop → Phase
  /-- How much work is ready for a loop. -/
  work : Loop → Nat
  /-- The calls of `read` and `read_packet`, oldest first. -/
  reads : List ReadPhase
  /-- How many contents there are for the application. -/
  packets : Nat

namespace Shutdown

inductive Event where
  /-- Work becomes ready: a tick is due, a datagram is to be sent or has arrived. -/
  | offer (l : Loop)
  /-- A content is sent to the application. -/
  | deliver
  /-- A loop comes to its `select!`. -/
  | enter (l : Loop)
  /-- A loop takes the branch of its work. -/
  | take (l : Loop)
  /-- A loop takes the branch of its cancel future. -/
  | cancel (l : Loop)
  /-- The receive task gets an error and leaves its loop. -/
  | fail
  /-- A call of `read` or `read_packet`. -/
  | read
  /-- The call gets the receiver and comes to its `select!`. -/
  | lock (i : Nat)
  /-- The call takes a content and returns. -/
  | receive (i : Nat)
  /-- The call takes the branch of its cancel future and returns. -/
  | cancelRead (i : Nat)
  /-- A call of `close_immediately`, up to the notification. -/
  | close (caller : Caller)
  /-- The rest of the call that has set `closed`. -/
  | notify

/-- What becomes of the caller after `close_immediately`: the ticker returns. -/
def afterClose (phase : Loop → Phase) (caller : Caller) : Loop → Phase :=
  if caller = .loop .startTicking then Function.update phase .startTicking .ended else phase

/-- Whether a loop is in the middle of its work, and not in a call of `close_immediately`. -/
def Working (s : Shutdown) (l : Loop) : Prop :=
  s.phase l = .busy ∧ s.closing ≠ some (.loop l)

inductive Step : Shutdown → Event → Shutdown → Prop
  | offer {s : Shutdown} {l : Loop} :
      Step s (.offer l) { s with work := Function.update s.work l (s.work l + 1) }
  | deliver {s : Shutdown} : Step s .deliver { s with packets := s.packets + 1 }
  | enter {s : Shutdown} {l : Loop} :
      s.Working l →
        Step s (.enter l)
          { s with phase := Function.update s.phase l (.selecting s.cancelNotify.notified) }
  | take {s : Shutdown} {l : Loop} {future : Notified} :
      s.phase l = .selecting future → 0 < s.work l →
        Step s (.take l)
          { s with
            phase := Function.update s.phase l .busy
            work := Function.update s.work l (s.work l - 1) }
  | cancel {s : Shutdown} {l : Loop} {future : Notified} :
      s.phase l = .selecting future → future.Ready s.cancelNotify →
        Step s (.cancel l) { s with phase := Function.update s.phase l .ended }
  | fail {s : Shutdown} :
      s.Working .receiveTask →
        Step s .fail { s with phase := Function.update s.phase .receiveTask .ended }
  | read {s : Shutdown} : Step s .read { s with reads := s.reads ++ [.locking] }
  | lock {s : Shutdown} {i : Nat} :
      s.reads[i]? = some .locking →
        (∀ (j : Nat) (future : Notified), s.reads[j]? ≠ some (.selecting future)) →
        Step s (.lock i) { s with reads := s.reads.set i (.selecting s.cancelNotify.notified) }
  | receive {s : Shutdown} {i : Nat} {future : Notified} :
      s.reads[i]? = some (.selecting future) → 0 < s.packets →
        Step s (.receive i)
          { s with reads := s.reads.set i .returned, packets := s.packets - 1 }
  | cancelRead {s : Shutdown} {i : Nat} {future : Notified} :
      s.reads[i]? = some (.selecting future) → future.Ready s.cancelNotify →
        Step s (.cancelRead i) { s with reads := s.reads.set i .returned }
  | close {s : Shutdown} {caller : Caller} :
      (∀ l, caller = .loop l → l ≠ .senderTask ∧ s.Working l) → s.closed = false →
        Step s (.close caller) { s with closed := true, closing := some caller }
  | closeAgain {s : Shutdown} {caller : Caller} :
      (∀ l, caller = .loop l → l ≠ .senderTask ∧ s.Working l) → s.closed = true →
        Step s (.close caller) { s with phase := afterClose s.phase caller }
  | notify {s : Shutdown} {caller : Caller} :
      s.closing = some caller →
        Step s .notify
          { s with
            closing := none
            cancelNotify := s.cancelNotify.notifyWaiters
            phase := afterClose s.phase caller }

/-- A new connection.  The receive task is that of a dialer; a listener's connection has none. -/
def new (dialed : Bool) : Shutdown where
  closed := false
  closing := none
  cancelNotify := .new
  phase := fun l ↦ if l = .receiveTask ∧ dialed = false then .ended else .busy
  work := fun _ ↦ 0
  reads := []
  packets := 0

/-- All interleavings of the tasks of a new connection. -/
def shutdowns : Lts Shutdown Event where
  init s := ∃ dialed, s = new dialed
  step := Step

/-- The connection is closed, and `close_immediately` has finished. -/
def Finished (s : Shutdown) : Prop := s.closed = true ∧ s.closing = none

/-- A loop is parked on a cancel future that has not been woken. -/
def LoopParked (s : Shutdown) (l : Loop) : Prop :=
  ∃ future, s.phase l = .selecting future ∧ ¬ future.Ready s.cancelNotify ∧ s.work l = 0

/-- So is a call of `read` or `read_packet`. -/
def ReadParked (s : Shutdown) (i : Nat) : Prop :=
  ∃ future, s.reads[i]? = some (.selecting future) ∧ ¬ future.Ready s.cancelNotify ∧ s.packets = 0

/-- After `close_immediately`, no task is parked on a cancel future that was made too late. -/
def Unparked (s : Shutdown) : Prop :=
  s.Finished → (∀ l, ¬ s.LoopParked l) ∧ ∀ i, ¬ s.ReadParked i

/-- How many calls of `read` and `read_packet` have not returned. -/
def active (s : Shutdown) : Nat := s.reads.countP ReadPhase.isActive

/-- The notification comes while every loop is in its `select!` or has returned, apart from a ticker
that notifies itself, and while there is a content for every call if any waits for the receiver.
Afterwards the loops that are woken take up no work, and a call comes only if there is a content for
it and for all other calls. -/
def Placed (s : Shutdown) : Event → Prop
  | .notify =>
      (∀ l, s.phase l = .busy → l = .startTicking ∧ s.closing = some (.loop .startTicking)) ∧
        (.locking ∈ s.reads → s.active ≤ s.packets)
  | .take _ => ¬ s.Finished
  | .read => s.Finished → s.active < s.packets
  | _ => True

/-- The tasks that there are go on: no work, content or call comes, and nobody closes. -/
def Event.GoesOn : Event → Prop
  | .enter _ | .take _ | .cancel _ | .lock _ | .receive _ | .cancelRead _ => True
  | _ => False

/-- When the tasks go on, one of them may park too late. -/
def MayPark (s : Shutdown) : Prop :=
  ∃ events s', (shutdowns.restrict fun _ e ↦ e.GoesOn).Run s events s' ∧ ¬ s'.Unparked

/-- Every cancel future has been made, and one call at a time has the receiver. -/
structure Valid (s : Shutdown) : Prop where
  phase : ∀ l future, s.phase l = .selecting future → future.Exists s.cancelNotify
  reads : ∀ (i : Nat) (future : Notified), s.reads[i]? = some (.selecting future) →
    future.Exists s.cancelNotify
  exclusive : ∀ (i j : Nat) (future future' : Notified), s.reads[i]? = some (.selecting future) →
    s.reads[j]? = some (.selecting future') → i = j

section Steps

variable {s s' : Shutdown} {e : Event} {l l' : Loop} {i j : Nat} {future : Notified}

/-! ## Where the tasks are after a step -/

theorem phase_update {p : Phase} (h : Function.update s.phase l p l' = .selecting future) :
    (l' = l ∧ p = .selecting future) ∨ (l' ≠ l ∧ s.phase l' = .selecting future) := by
  by_cases hl : l' = l
  · subst hl
    rw [Function.update_self] at h
    exact Or.inl ⟨rfl, h⟩
  · rw [Function.update_of_ne hl] at h
    exact Or.inr ⟨hl, h⟩

/-- A loop that leaves its `select!` is not at one. -/
theorem phase_update_left {p : Phase} (hp : ∀ future, p ≠ .selecting future)
    (h : Function.update s.phase l p l' = .selecting future) :
    l' ≠ l ∧ s.phase l' = .selecting future :=
  (phase_update h).resolve_left fun hl ↦ hp future hl.2

theorem busy_ne (future : Notified) : Phase.busy ≠ .selecting future := fun h ↦ by cases h

theorem ended_ne (future : Notified) : Phase.ended ≠ .selecting future := fun h ↦ by cases h

theorem afterClose_selecting {caller : Caller}
    (h : afterClose s.phase caller l = .selecting future) : s.phase l = .selecting future := by
  rw [afterClose] at h
  split at h
  · exact (phase_update_left ended_ne h).2
  · exact h

theorem reads_set {p : ReadPhase} (h : (s.reads.set i p)[j]? = some (.selecting future)) :
    (j = i ∧ p = .selecting future) ∨ (j ≠ i ∧ s.reads[j]? = some (.selecting future)) := by
  rw [List.getElem?_set] at h
  by_cases hj : i = j
  · rw [if_pos hj] at h
    split at h
    · exact Or.inl ⟨hj.symm, Option.some.inj h⟩
    · cases h
  · rw [if_neg hj] at h
    exact Or.inr ⟨Ne.symm hj, h⟩

/-- A call that returns does not have the receiver any more. -/
theorem reads_returned
    (h : (s.reads.set i ReadPhase.returned)[j]? = some (.selecting future)) :
    j ≠ i ∧ s.reads[j]? = some (.selecting future) :=
  (reads_set h).resolve_left fun hj ↦ by cases hj.2

theorem reads_append (h : (s.reads ++ [ReadPhase.locking])[j]? = some (.selecting future)) :
    s.reads[j]? = some (.selecting future) := by
  rcases Nat.lt_or_ge j s.reads.length with hj | hj
  · rwa [List.getElem?_append_left hj] at h
  · rw [List.getElem?_append_right hj] at h
    have hmem := List.mem_of_getElem? h
    cases List.mem_singleton.mp hmem

/-! ## The invariant -/

theorem valid_new (dialed : Bool) : Valid (new dialed) where
  phase l future h := by
    rw [new] at h
    dsimp only at h
    split at h
    · cases h
    · cases h
  reads i future h := by cases h
  exclusive i j future future' h := by cases h

theorem Valid.of_reads (h : Valid s) (hphase : ∀ l future, s'.phase l = .selecting future →
      s.phase l = .selecting future ∨ future = s.cancelNotify.notified)
    (hreads : ∀ (j : Nat) (future : Notified), s'.reads[j]? = some (.selecting future) →
      s.reads[j]? = some (.selecting future))
    (hcancel : ∀ future : Notified, future.Exists s.cancelNotify → future.Exists s'.cancelNotify) :
    Valid s' where
  phase l future hp := by
    rcases hphase l future hp with hp | rfl
    · exact hcancel future (h.phase l future hp)
    · exact hcancel _ (Notified.exists_notified _)
  reads i future hr := hcancel future (h.reads i future (hreads i future hr))
  exclusive i j future future' hi hj :=
    h.exclusive i j future future' (hreads i future hi) (hreads j future' hj)

theorem Valid.step (h : Valid s) (hs : Step s e s') : Valid s' := by
  have hsame : ∀ (j : Nat) (future : Notified), s.reads[j]? = some (.selecting future) →
      s.reads[j]? = some (.selecting future) := fun _ _ hr ↦ hr
  cases hs with
  | offer => exact h.of_reads (fun _ _ ↦ Or.inl) hsame fun _ he ↦ he
  | deliver => exact h.of_reads (fun _ _ ↦ Or.inl) hsame fun _ he ↦ he
  | enter _ =>
      refine h.of_reads (fun _ _ hp ↦ ?_) hsame fun _ he ↦ he
      rcases phase_update hp with ⟨-, hp⟩ | ⟨-, hp⟩
      · exact Or.inr (Phase.selecting.inj hp).symm
      · exact Or.inl hp
  | take _ _ =>
      refine h.of_reads (fun _ _ hp ↦ Or.inl ?_) hsame fun _ he ↦ he
      exact (phase_update_left busy_ne hp).2
  | cancel _ _ =>
      refine h.of_reads (fun _ _ hp ↦ Or.inl ?_) hsame fun _ he ↦ he
      exact (phase_update_left ended_ne hp).2
  | fail _ =>
      refine h.of_reads (fun _ _ hp ↦ Or.inl ?_) hsame fun _ he ↦ he
      exact (phase_update_left ended_ne hp).2
  | read => exact h.of_reads (fun _ _ ↦ Or.inl) (fun _ _ ↦ reads_append) fun _ he ↦ he
  | @lock i _ hfree =>
      refine ⟨h.phase, fun j future hr ↦ ?_, fun j k future future' hj hk ↦ ?_⟩
      · rcases reads_set hr with ⟨-, hp⟩ | ⟨-, hr⟩
        · obtain rfl := ReadPhase.selecting.inj hp
          exact Notified.exists_notified _
        · exact absurd hr (hfree j future)
      · rcases reads_set hj with ⟨rfl, -⟩ | ⟨-, hj⟩
        · rcases reads_set hk with ⟨rfl, -⟩ | ⟨-, hk⟩
          · rfl
          · exact absurd hk (hfree k future')
        · exact absurd hj (hfree j future)
  | receive _ _ =>
      exact h.of_reads (fun _ _ ↦ Or.inl) (fun _ _ hr ↦ (reads_returned hr).2) fun _ he ↦ he
  | cancelRead _ _ =>
      exact h.of_reads (fun _ _ ↦ Or.inl) (fun _ _ hr ↦ (reads_returned hr).2) fun _ he ↦ he
  | close _ _ => exact h.of_reads (fun _ _ ↦ Or.inl) hsame fun _ he ↦ he
  | closeAgain _ _ =>
      exact h.of_reads (fun _ _ hp ↦ Or.inl (afterClose_selecting hp)) hsame fun _ he ↦ he
  | notify _ =>
      exact h.of_reads (fun _ _ hp ↦ Or.inl (afterClose_selecting hp)) hsame
        fun _ he ↦ he.notifyWaiters

/-- A call that is to notify has set the flag. -/
theorem closed_step (h : s.closing ≠ none → s.closed = true) (hs : Step s e s') :
    s'.closing ≠ none → s'.closed = true := by
  cases hs with
  | close _ _ => exact fun _ ↦ rfl
  | notify _ => exact fun hne ↦ absurd rfl hne
  | _ => exact h

/-! ## After the notification -/

/-- No loop is at work, every loop that waits is woken, and there is a content for every call as
long as some call may still come to wait. -/
structure Settled (s : Shutdown) : Prop where
  loops : ∀ l, s.phase l ≠ .busy
  woken : ∀ l future, s.phase l = .selecting future → future.Ready s.cancelNotify
  reads : (.locking ∈ s.reads ∨ ∃ (i : Nat) (future : Notified),
    s.reads[i]? = some (.selecting future) ∧ ¬ future.Ready s.cancelNotify) →
      s.active ≤ s.packets

theorem active_pos {p : ReadPhase} (h : s.reads[i]? = some p) (hp : p.isActive = true) :
    0 < s.active :=
  List.countP_pos_iff.mpr ⟨p, List.mem_of_getElem? h, hp⟩

/-- A call that goes on is one of as many. -/
theorem active_selecting (h : s.reads[i]? = some .locking) :
    (s.reads.set i (.selecting future)).countP ReadPhase.isActive = s.active := by
  have hpos := active_pos h rfl
  obtain ⟨hlt, hi⟩ := List.getElem?_eq_some_iff.mp h
  rw [List.countP_set hlt, hi]
  exact Nat.sub_add_cancel hpos

/-- A call that returns is one less. -/
theorem active_returned {p : ReadPhase} (h : s.reads[i]? = some p) (hp : p.isActive = true) :
    (s.reads.set i .returned).countP ReadPhase.isActive = s.active - 1 := by
  obtain ⟨hlt, hi⟩ := List.getElem?_eq_some_iff.mp h
  rw [List.countP_set hlt, hi, if_pos hp]
  rfl

/-- The other calls still wait for the receiver when one has returned. -/
theorem locking_returned (h : .locking ∈ s.reads.set i .returned) : .locking ∈ s.reads := by
  rcases List.mem_or_eq_of_mem_set h with h | h
  · exact h
  · cases h

/-- Then no task is parked. -/
theorem Settled.unparked (h : Settled s) : Unparked s := fun _ ↦ by
  refine ⟨fun l hl ↦ ?_, fun i hi ↦ ?_⟩
  · obtain ⟨future, hphase, hready, -⟩ := hl
    exact hready (h.woken l future hphase)
  · obtain ⟨future, hread, hready, hpackets⟩ := hi
    have hle := h.reads (Or.inr ⟨i, future, hread, hready⟩)
    have hpos := active_pos hread rfl
    omega

/-- A call returns, and takes a content or leaves them all. -/
theorem Settled.returned {p : ReadPhase} {packets : Nat} (h : Settled s)
    (hread : s.reads[i]? = some p) (hp : p.isActive = true) (hpackets : s.packets - 1 ≤ packets) :
    Settled { s with reads := s.reads.set i .returned, packets := packets } where
  loops := h.loops
  woken := h.woken
  reads hwait := by
    have hle : s.active ≤ s.packets := by
      refine h.reads (hwait.imp locking_returned ?_)
      rintro ⟨j, future, hj, hready⟩
      exact ⟨j, future, (reads_returned hj).2, hready⟩
    have hactive := active_returned hread hp
    rw [active]
    dsimp only
    omega

/-- The notification makes it so. -/
theorem settled_notify {caller : Caller} (hvalid : Valid s) (hclosing : s.closing = some caller)
    (hok : Placed s .notify) :
    Settled { s with
      closing := none
      cancelNotify := s.cancelNotify.notifyWaiters
      phase := afterClose s.phase caller } := by
  obtain ⟨hloops, hreads⟩ := hok
  refine ⟨fun l hl ↦ ?_, fun l future hl ↦ ?_, fun hwait ↦ ?_⟩
  · dsimp only at hl
    rw [afterClose] at hl
    split at hl
    · next hcaller =>
      rw [Function.update_apply] at hl
      split at hl
      · cases hl
      · next hne => exact hne (hloops l hl).1
    · next hcaller =>
      have hticker := (hloops l hl).2
      rw [hclosing] at hticker
      exact hcaller (Option.some.inj hticker)
  · exact (hvalid.phase l future (afterClose_selecting hl)).ready
  · rcases hwait with hlocking | ⟨i, future, hread, hready⟩
    · exact hreads hlocking
    · exact absurd (hvalid.reads i future hread).ready hready

/-- It stays so. -/
theorem Settled.step (h : Settled s) (hfinished : s.Finished) (hok : Placed s e)
    (hs : Step s e s') : Settled s' := by
  cases hs with
  | offer => exact ⟨h.loops, h.woken, h.reads⟩
  | deliver => exact ⟨h.loops, h.woken, fun hwait ↦ Nat.le_succ_of_le (h.reads hwait)⟩
  | enter hworking => exact absurd hworking.1 (h.loops _)
  | take _ _ => exact absurd hfinished hok
  | cancel _ _ =>
      refine ⟨fun l hl ↦ ?_, fun l future hl ↦ ?_, h.reads⟩
      · dsimp only at hl
        rw [Function.update_apply] at hl
        split at hl
        · cases hl
        · exact h.loops l hl
      · exact h.woken l future (phase_update_left ended_ne hl).2
  | fail hworking => exact absurd hworking.1 (h.loops _)
  | read =>
      refine ⟨h.loops, h.woken, fun _ ↦ ?_⟩
      have hlt : s.active < s.packets := hok hfinished
      rw [active, List.countP_append]
      exact hlt
  | @lock i hlocking _ =>
      refine ⟨h.loops, h.woken, fun _ ↦ ?_⟩
      have hle := h.reads (Or.inl (List.mem_of_getElem? hlocking))
      rw [active, active_selecting hlocking]
      exact hle
  | receive hread _ => exact h.returned hread rfl (Nat.le_refl _)
  | cancelRead hread _ => exact h.returned hread rfl (Nat.sub_le _ _)
  | close _ hopen =>
      rw [hfinished.1] at hopen
      cases hopen
  | closeAgain hcaller _ =>
      refine ⟨fun l hl ↦ ?_, fun l future hl ↦ h.woken l future (afterClose_selecting hl), h.reads⟩
      dsimp only at hl
      rw [afterClose] at hl
      split at hl
      · rw [Function.update_apply] at hl
        split at hl
        · cases hl
        · exact h.loops l hl
      · exact h.loops l hl
  | notify hclosing =>
      rw [hfinished.2] at hclosing
      cases hclosing

/-- It is so once `close_immediately` has finished. -/
theorem settled_step (hvalid : Valid s) (h : s.Finished → Settled s) (hok : Placed s e)
    (hs : Step s e s') (hfinished : s'.Finished) : Settled s' := by
  by_cases hf : s.Finished
  · exact (h hf).step hf hok hs
  · cases hs with
    | notify hclosing => exact settled_notify hvalid hclosing hok
    | close _ _ => cases hfinished.2
    | _ => exact absurd hfinished hf

/-! ## When the notification is misplaced -/

theorem MayPark.of_parked (h : ¬ s.Unparked) : s.MayPark := ⟨[], s, .nil s, h⟩

theorem MayPark.of_step (hgoes : e.GoesOn) (hs : Step s e s') (h : s'.MayPark) : s.MayPark := by
  obtain ⟨events, s'', hrun, hparked⟩ := h
  have hstep : (shutdowns.restrict fun _ e ↦ e.GoesOn).step s e s' := ⟨hgoes, hs⟩
  exact ⟨_, s'', (Lts.Run.single hstep).append hrun, hparked⟩

/-- A loop at work parks when it comes back to its `select!` and its work is done. -/
theorem mayPark_of_busy (hfinished : s.Finished) (hphase : s.phase l = .busy) : s.MayPark := by
  induction hwork : s.work l generalizing s with
  | zero =>
      have hworking : s.Working l := ⟨hphase, by rw [hfinished.2]; exact fun h ↦ by cases h⟩
      refine .of_step (e := .enter l) trivial (.enter hworking) (.of_parked fun h ↦ ?_)
      exact (h hfinished).1 l
        ⟨_, Function.update_self _ _ _, Notified.not_ready_notified _, hwork⟩
  | succ n ih =>
      have hworking : s.Working l := ⟨hphase, by rw [hfinished.2]; exact fun h ↦ by cases h⟩
      refine .of_step (e := .enter l) trivial (.enter hworking) ?_
      refine .of_step (e := .take l) trivial
        (.take (Function.update_self _ _ _) (hwork ▸ Nat.succ_pos n)) ?_
      refine ih hfinished (Function.update_self _ _ _) ?_
      dsimp only
      rw [Function.update_self, hwork]
      rfl

/-- A call that is not the one that returns goes on waiting. -/
theorem locking_set (h : .locking ∈ s.reads) (hread : s.reads[i]? = some (.selecting future))
    (p : ReadPhase) : .locking ∈ s.reads.set i p := by
  obtain ⟨j, hj⟩ := List.mem_iff_getElem?.mp h
  have hne : i ≠ j := by
    rintro rfl
    cases hread.symm.trans hj
  exact List.mem_iff_getElem?.mpr ⟨j, by rwa [List.getElem?_set_ne hne]⟩

/-- Of several calls of which none has the receiver, another one waits for it. -/
theorem locking_of_active (h : ∀ (j : Nat) (future : Notified),
    s.reads[j]? ≠ some (.selecting future)) (hactive : 0 < s.active) : .locking ∈ s.reads := by
  obtain ⟨p, hp, hpos⟩ := List.countP_pos_iff.mp hactive
  cases p with
  | locking => exact hp
  | selecting future =>
      obtain ⟨j, hj⟩ := List.mem_iff_getElem?.mp hp
      exact absurd hj (h j future)
  | returned => cases hpos

/-- A call parks when the calls before it have taken all contents. -/
theorem mayPark_of_locking (hfinished : s.Finished) (hlocking : .locking ∈ s.reads)
    (hlt : s.packets < s.active) : s.MayPark := by
  induction hn : s.active using Nat.strongRecOn generalizing s with
  | _ n ih =>
    subst hn
    by_cases hselecting : ∃ (i : Nat) (future : Notified), s.reads[i]? = some (.selecting future)
    · obtain ⟨i, future, hread⟩ := hselecting
      have hactive := active_returned hread rfl
      have hpos := active_pos hread rfl
      by_cases hpackets : s.packets = 0
      · by_cases hready : future.Ready s.cancelNotify
        · -- the call that has the receiver is cancelled
          refine .of_step (e := .cancelRead i) trivial (.cancelRead hread hready) ?_
          have hmem := locking_set hlocking hread .returned
          refine ih _ ?_ hfinished hmem ?_ rfl
          · rw [active, hactive]
            omega
          · exact hpackets.trans_lt (List.countP_pos_iff.mpr ⟨_, hmem, rfl⟩)
        · exact .of_parked fun h ↦ (h hfinished).2 i ⟨future, hread, hready, hpackets⟩
      · -- it takes a content
        refine .of_step (e := .receive i) trivial (.receive hread (Nat.pos_of_ne_zero hpackets)) ?_
        refine ih _ ?_ hfinished (locking_set hlocking hread .returned) ?_ rfl
        · rw [active, hactive]
          omega
        · rw [active, hactive]
          dsimp only
          omega
    · have hfree : ∀ (j : Nat) (future : Notified), s.reads[j]? ≠ some (.selecting future) :=
        fun j future hj ↦ hselecting ⟨j, future, hj⟩
      obtain ⟨i, hi⟩ := List.mem_iff_getElem?.mp hlocking
      have hbound := (List.getElem?_eq_some_iff.mp hi).1
      refine .of_step (e := .lock i) trivial (.lock hi hfree) ?_
      have hread : (s.reads.set i (.selecting s.cancelNotify.notified))[i]? =
          some (.selecting s.cancelNotify.notified) := List.getElem?_set_self hbound
      by_cases hpackets : s.packets = 0
      · exact .of_parked fun h ↦ (h hfinished).2 i
          ⟨_, hread, Notified.not_ready_notified _, hpackets⟩
      · refine .of_step (e := .receive i) trivial (.receive hread (Nat.pos_of_ne_zero hpackets)) ?_
        have hreturned := active_returned hi rfl
        have hpos := active_pos hi rfl
        dsimp only
        rw [List.set_set]
        refine ih _ ?_ hfinished (locking_of_active (fun j future hj ↦ ?_) ?_) ?_ rfl
        · rw [active, hreturned]
          omega
        · exact hfree j future (reads_returned hj).2
        · rw [active, hreturned]
          omega
        · rw [active, hreturned]
          dsimp only
          omega

/-- Once a step is misplaced, a task may park. -/
theorem mayPark_of_misplaced (hclosed : s.closing ≠ none → s.closed = true) (hs : Step s e s')
    (hnot : ¬ Placed s e) : s'.MayPark := by
  cases hs with
  | @notify caller hclosing =>
      have hfinished : Finished { s with
          closing := none
          cancelNotify := s.cancelNotify.notifyWaiters
          phase := afterClose s.phase caller } :=
        ⟨hclosed (by rw [hclosing]; exact fun h ↦ by cases h), rfl⟩
      rcases not_and_or.mp hnot with hloops | hreads
      · -- a loop was at work
        obtain ⟨l, hl⟩ := not_forall.mp hloops
        obtain ⟨hbusy, hticker⟩ := Classical.not_imp.mp hl
        refine @mayPark_of_busy _ l hfinished ?_
        dsimp only
        rw [afterClose]
        split
        · next hcaller =>
          rw [hcaller] at hclosing
          rw [Function.update_of_ne fun hl ↦ hticker ⟨hl, hclosing⟩]
          exact hbusy
        · exact hbusy
      · obtain ⟨hlocking, hle⟩ := Classical.not_imp.mp hreads
        exact mayPark_of_locking hfinished hlocking (Nat.lt_of_not_le hle)
  | take _ _ =>
      exact mayPark_of_busy (not_not.mp hnot) (Function.update_self _ _ _)
  | read =>
      obtain ⟨hfinished, hle⟩ := Classical.not_imp.mp hnot
      refine mayPark_of_locking hfinished (List.mem_append_right _ (List.mem_singleton.mpr rfl)) ?_
      rw [active, List.countP_append]
      exact Nat.lt_succ_of_le (Nat.le_of_not_lt hle)
  | _ => exact absurd trivial hnot

end Steps

variable {s s' : Shutdown} {e : Event} {i : Nat} {future : Notified}

/-- **Nobody waits in vain if the notification finds everybody.**  In every run in which
`close_immediately` notifies while all loops wait, in which those take up no work afterwards, and in
which there is a content for every call that gets the receiver too late for the notification, no
task is ever parked on a cancel future that was made too late.  And once a step does not meet this,
a task may park without anything new. -/
theorem unparked_while_placed (h : (shutdowns.restrict Placed).Reachable s) :
    s.Unparked ∧ ∀ e s', shutdowns.step s e s' → ¬ Placed s e → s'.MayPark := by
  have hclosed : s.closing ≠ none → s.closed = true := by
    refine h.of_restrict.invariant (I := fun s ↦ s.closing ≠ none → s.closed = true) ?_
      fun _ _ _ _ hi hs ↦ closed_step hi hs
    rintro _ ⟨dialed, rfl⟩
    exact fun hne ↦ absurd rfl hne
  have hsettled : s.Finished → Settled s := by
    refine (h.invariant (I := fun s ↦ Valid s ∧ (s.Finished → Settled s)) ?_
      fun s e s' _ hi hs ↦ ?_).2
    · rintro _ ⟨dialed, rfl⟩
      exact ⟨valid_new dialed, fun hf ↦ by cases hf.1⟩
    · exact ⟨hi.1.step hs.2, settled_step hi.1 hi.2 hs.1 hs.2⟩
  exact ⟨fun hf ↦ (hsettled hf).unparked hf,
    fun _ _ hs hnot ↦ mayPark_of_misplaced hclosed hs hnot⟩

/-- All loops wait when the notification comes, and so does a call.  The next call finds a
content. -/
theorem unparked_while_placed_read :
    ∃ s, (shutdowns.restrict Placed).Reachable s ∧ s.Finished ∧
      s.reads = [.returned, .returned] ∧ s.Unparked := by
  have hgo {s s' : Shutdown} (e : Event) (h : (shutdowns.restrict Placed).Reachable s)
      (hs : Step s e s') (hok : Placed s e) : (shutdowns.restrict Placed).Reachable s' :=
    h.step ⟨hok, hs⟩
  have henter {s : Shutdown} (l : Loop) (h : (shutdowns.restrict Placed).Reachable s)
      (hphase : s.phase l = .busy) (hclosing : s.closing = none) :=
    hgo (.enter l) h (.enter ⟨hphase, by rw [hclosing]; exact fun h ↦ by cases h⟩) trivial
  have h₀ : (shutdowns.restrict Placed).Reachable (new true) := .init ⟨true, rfl⟩
  have h₁ := henter .startTicking h₀ rfl rfl
  have h₂ := henter .senderTask h₁ rfl rfl
  have h₃ := henter .receiveTask h₂ rfl rfl
  have h₄ := hgo .read h₃ .read fun hf ↦ by cases hf.1
  have h₅ := hgo (.lock 0) h₄ (.lock rfl fun j future hj ↦ by rcases j with _ | _ <;> cases hj)
    trivial
  have h₆ := hgo (.close .other) h₅ (.close (fun l hl ↦ by cases hl) rfl) trivial
  have h₇ := hgo .notify h₆ (.notify rfl)
    ⟨fun l hl ↦ (by cases l <;> cases hl), fun hl ↦ (by cases List.mem_singleton.mp hl)⟩
  have h₈ := hgo (.cancel .startTicking) h₇ (.cancel rfl Nat.one_pos) trivial
  have h₉ := hgo (.cancelRead 0) h₈ (.cancelRead rfl Nat.one_pos) trivial
  have h₁₀ := hgo .deliver h₉ .deliver trivial
  have h₁₁ := hgo .read h₁₀ .read fun _ ↦ Nat.one_pos
  have h₁₂ := hgo (.lock 1) h₁₁
    (.lock rfl fun j future hj ↦ by rcases j with _ | _ | _ <;> cases hj) trivial
  have h₁₃ := hgo (.receive 1) h₁₂ (.receive rfl Nat.one_pos) trivial
  exact ⟨_, h₁₃, ⟨rfl, rfl⟩, rfl, (unparked_while_placed h₁₃).1⟩

/-! ## A read after the end -/

/-- After `close_immediately`, only a content can help a call that is parked. -/
theorem ReadParked.step (hfinished : s.Finished) (h : s.ReadParked i) (hs : Step s e s')
    (he : e ≠ .deliver) : s'.Finished ∧ s'.ReadParked i := by
  obtain ⟨future, hread, hready, hpackets⟩ := h
  cases hs with
  | deliver => exact absurd rfl he
  | read =>
      have hlt : i < s.reads.length := (List.getElem?_eq_some_iff.mp hread).1
      exact ⟨hfinished, future, by rwa [List.getElem?_append_left hlt], hready, hpackets⟩
  | lock _ hfree => exact absurd hread (hfree i future)
  | receive _ hsome => exact absurd hpackets (Nat.ne_of_gt hsome)
  | @cancelRead j future' hread' hready' =>
      have hj : j ≠ i := by
        rintro rfl
        obtain rfl := ReadPhase.selecting.inj (Option.some.inj (hread'.symm.trans hread))
        exact hready hready'
      exact ⟨hfinished, future, by rwa [List.getElem?_set_ne hj], hready, hpackets⟩
  | close _ hopen =>
      rw [hfinished.1] at hopen
      cases hopen
  | notify hclosing =>
      rw [hfinished.2] at hclosing
      cases hclosing
  | _ => exact ⟨hfinished, future, hread, hready, hpackets⟩

/-- So it waits for as long as none comes. -/
theorem ReadParked.run {events : List Event} (hfinished : s.Finished) (h : s.ReadParked i)
    (hrun : (shutdowns.restrict fun _ e ↦ e ≠ .deliver).Run s events s') :
    s'.Finished ∧ s'.ReadParked i := by
  induction hrun with
  | nil => exact ⟨hfinished, h⟩
  | snoc _ hstep ih => exact ih.2.step ih.1 hstep.2 hstep.1

def shut : Shutdown := { new true with closed := true, cancelNotify := ⟨1⟩ }

theorem reachable_shut : shutdowns.Reachable shut := by
  have hclose : Step (new true) (.close .other)
      { new true with closed := true, closing := some .other } :=
    .close (fun l hl ↦ by cases hl) rfl
  have hphase : afterClose (new true).phase .other = (new true).phase :=
    if_neg fun h ↦ by cases h
  have hnotify : Step { new true with closed := true, closing := some .other } .notify
      { shut with phase := afterClose (new true).phase .other } := .notify rfl
  rw [hphase] at hnotify
  have hclosing : shutdowns.Reachable { new true with closed := true, closing := some .other } :=
    .step (a := .close .other) (.init ⟨true, rfl⟩) hclose
  exact .step (a := .notify) hclosing hnotify

/-- A call of `read` on it gets the receiver and waits, and without contents it does so forever. -/
theorem late_read :
    ∃ s, shutdowns.Reachable s ∧ ¬ s.Unparked ∧ ∀ events s',
      (shutdowns.restrict fun _ e ↦ e ≠ .deliver).Run s events s' → s'.ReadParked 0 := by
  have hread : Step shut .read { shut with reads := [.locking] } := .read
  have hlock : Step { shut with reads := [.locking] } (.lock 0)
      { shut with reads := [.selecting ⟨1⟩] } := by
    refine .lock rfl fun j future hj ↦ ?_
    cases List.mem_singleton.mp (List.mem_of_getElem? hj)
  have hparked : ReadParked { shut with reads := [.selecting ⟨1⟩] } 0 :=
    ⟨⟨1⟩, rfl, Nat.lt_irrefl 1, rfl⟩
  refine ⟨{ shut with reads := [.selecting ⟨1⟩] }, ?_, fun h ↦ (h ⟨rfl, rfl⟩).2 0 hparked, ?_⟩
  · have hlocking : shutdowns.Reachable { shut with reads := [.locking] } :=
      .step (a := .read) reachable_shut hread
    exact .step (a := .lock 0) hlocking hlock
  · exact fun _ _ hrun ↦ (ReadParked.run ⟨rfl, rfl⟩ hparked hrun).2

end Shutdown

end Ragnet

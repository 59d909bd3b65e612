import Ragnet.Lib.Lts
import Ragnet.Lib.Notify
import Mathlib.Data.List.Nodup

/-!
# Accepting connections

How a connection gets from `handle_open_connection_request_2` to a call of `accept`.  The task that
is spawned for it waits in `wait_connected` until the handler calls `mark_connected`, or for ten
seconds, and puts it into the channel of incoming connections.

`wait_connected` looks at the flag first and makes its future after that, and `mark_connected` sets
the flag first and notifies after that.  These are steps of their own here.
-/

namespace Ragnet

/-- The capacity of the channel of incoming connections. -/
def incomingCapacity : Nat := 64

/-! ## The connect task of one connection -/

inductive ConnectPhase where
  /-- It has not been polled. -/
  | begun
  /-- `wait_connected` has found the flag not set. -/
  | unmarked
  /-- `wait_connected` waits for the notification. -/
  | parked (future : Notified)
  /-- `wait_connected` has returned, and the task waits for room in the channel. -/
  | established
  /-- The connection is in the channel, or has been. -/
  | sent
  /-- The ten seconds were over first. -/
  | timedOut
deriving DecidableEq

structure Connecting where
  /-- `connected`. -/
  connected : Bool
  /-- `mark_connected` has set the flag, and has not notified yet. -/
  marking : Bool
  /-- `connected_notify`. -/
  notify : Notify
  phase : ConnectPhase
deriving DecidableEq

namespace Connecting

def new : Connecting := ⟨false, false, .new, .begun⟩

inductive Event where
  /-- `wait_connected` looks at the flag. -/
  | load
  /-- It makes its future. -/
  | register
  /-- The future is ready. -/
  | wake
  /-- `mark_connected` sets the flag. -/
  | mark
  /-- It notifies. -/
  | notify
  /-- The ten seconds are over. -/
  | timeOut
  /-- The task puts the connection into the channel. -/
  | send
deriving DecidableEq

/-- The steps.  Once the flag has been set, `mark_connected` does nothing more. -/
inductive Step : Connecting → Event → Connecting → Prop
  | load {c : Connecting} :
      c.phase = .begun →
        Step c .load { c with phase := if c.connected then .established else .unmarked }
  | register {c : Connecting} :
      c.phase = .unmarked → Step c .register { c with phase := .parked c.notify.notified }
  | wake {c : Connecting} {future : Notified} :
      c.phase = .parked future → future.Ready c.notify →
        Step c .wake { c with phase := .established }
  | mark {c : Connecting} :
      Step c .mark (if c.connected then c else { c with connected := true, marking := true })
  | notify {c : Connecting} :
      c.marking = true →
        Step c .notify { c with notify := c.notify.notifyWaiters, marking := false }
  | timeOut {c : Connecting} {future : Notified} :
      c.phase = .parked future → Step c .timeOut { c with phase := .timedOut }
  | send {c : Connecting} : c.phase = .established → Step c .send { c with phase := .sent }

/-- The call of `mark_connected` that has set the flag has returned. -/
def Marked (c : Connecting) : Prop := c.connected = true ∧ c.marking = false

instance (c : Connecting) : Decidable c.Marked := inferInstanceAs (Decidable (_ ∧ _))

/-- The flag, the notification and the task agree. -/
structure Sound (c : Connecting) : Prop where
  /-- There is one notification, and it comes with the end of `mark_connected`. -/
  calls : c.notify.calls = if c.Marked then 1 else 0
  marking : c.marking = true → c.connected = true
  established : c.phase = .established ∨ c.phase = .sent → c.connected = true

/-- The task waits for a notification that has been sent, or has given up. -/
def Lost (c : Connecting) : Prop :=
  c.Marked ∧ (c.phase = .timedOut ∨ ∃ future, c.phase = .parked future ∧ ¬ future.Ready c.notify)

variable {c c' : Connecting} {e : Event}

theorem sound_new : new.Sound := ⟨rfl, fun h ↦ h, fun h ↦ by rcases h with h | h <;> cases h⟩

theorem Sound.step (h : c.Sound) (hs : Step c e c') : c'.Sound := by
  cases hs with
  | load hphase =>
      refine ⟨h.calls, h.marking, fun hp ↦ ?_⟩
      by_cases hconnected : c.connected = true
      · exact hconnected
      · rw [if_neg hconnected] at hp
        rcases hp with hp | hp <;> cases hp
  | register hphase => exact ⟨h.calls, h.marking, fun hp ↦ by rcases hp with hp | hp <;> cases hp⟩
  | wake hphase hready =>
      refine ⟨h.calls, h.marking, fun _ ↦ ?_⟩
      -- a future is ready only after the notification
      by_contra hconnected
      have hcalls := h.calls
      rw [if_neg fun hmarked ↦ hconnected hmarked.1] at hcalls
      have hlt : _ < c.notify.calls := hready
      rw [hcalls] at hlt
      exact Nat.not_lt_zero _ hlt
  | mark =>
      split
      · exact h
      · next hconnected =>
        have hcalls := h.calls
        rw [if_neg fun hmarked ↦ hconnected hmarked.1] at hcalls
        refine ⟨?_, fun _ ↦ rfl, fun _ ↦ rfl⟩
        rw [if_neg fun hmarked ↦ Bool.noConfusion hmarked.2]
        exact hcalls
  | notify hmarking =>
      have hcalls := h.calls
      rw [if_neg fun hmarked ↦ by rw [hmarked.2] at hmarking; cases hmarking] at hcalls
      refine ⟨?_, fun hm ↦ Bool.noConfusion hm, h.established⟩
      rw [if_pos ⟨h.marking hmarking, rfl⟩]
      exact congrArg (· + 1) hcalls
  | timeOut hphase => exact ⟨h.calls, h.marking, fun hp ↦ by rcases hp with hp | hp <;> cases hp⟩
  | send hphase => exact ⟨h.calls, h.marking, fun _ ↦ h.established (Or.inl hphase)⟩

/-- Only `send` puts the connection into the channel. -/
theorem Step.sent_iff (hs : Step c e c') (hne : e ≠ .send) :
    c'.phase = .sent ↔ c.phase = .sent := by
  cases hs with
  | load hphase =>
      rw [hphase]
      dsimp only
      split <;> exact iff_of_false ConnectPhase.noConfusion ConnectPhase.noConfusion
  | register hphase | wake hphase _ | timeOut hphase =>
      rw [hphase]
      exact iff_of_false ConnectPhase.noConfusion ConnectPhase.noConfusion
  | mark => split <;> rfl
  | notify _ => rfl
  | send _ => exact absurd rfl hne

/-- What is lost stays so. -/
theorem Lost.step (h : c.Lost) (hs : Step c e c') : c'.Lost := by
  obtain ⟨hmarked, hphase⟩ := h
  cases hs with
  | load hbegun => rcases hphase with hp | ⟨_, hp, -⟩ <;> cases hbegun.symm.trans hp
  | register hunmarked => rcases hphase with hp | ⟨_, hp, -⟩ <;> cases hunmarked.symm.trans hp
  | wake hparked hready =>
      rcases hphase with hp | ⟨future, hp, hnot⟩
      · cases hparked.symm.trans hp
      · obtain rfl := ConnectPhase.parked.inj (hparked.symm.trans hp)
        exact absurd hready hnot
  | mark =>
      rw [if_pos hmarked.1]
      exact ⟨hmarked, hphase⟩
  | notify hmarking => exact absurd (hmarking.symm.trans hmarked.2) Bool.noConfusion
  | timeOut _ => exact ⟨hmarked, Or.inl rfl⟩
  | send hestablished => rcases hphase with hp | ⟨_, hp, -⟩ <;> cases hestablished.symm.trans hp

/-- A future that is made after the notification waits for another one. -/
theorem lost_register (h : c.Marked) :
    Lost { c with phase := .parked c.notify.notified } :=
  ⟨h, Or.inr ⟨_, rfl, Notified.not_ready_notified c.notify⟩⟩

theorem Lost.ne_established (h : c.Lost) : c.phase ≠ .established := by
  intro he
  rcases h.2 with hp | ⟨_, hp, -⟩ <;> cases he.symm.trans hp

theorem Lost.ne_sent (h : c.Lost) : c.phase ≠ .sent := by
  intro hsent
  rcases h.2 with hp | ⟨_, hp, -⟩ <;> cases hsent.symm.trans hp

end Connecting

/-! ## The listener and its callers -/

/-- A listener, as far as the channel of incoming connections is concerned. -/
structure Accepting where
  closed : Bool
  /-- The connections, in the order in which they were created. -/
  connections : List Connecting
  /-- The channel of incoming connections, by their positions. -/
  channel : List Nat
  /-- The calls of `accept` that have found the listener open and wait for a connection. -/
  waiting : Nat
  /-- What the calls of `accept` have returned. -/
  accepted : List Nat
deriving DecidableEq

namespace Accepting

open Connecting

/-- `ListenConfig::listen`. -/
def new : Accepting := ⟨false, [], [], 0, []⟩

inductive Event where
  /-- `handle_open_connection_request_2` creates a connection and spawns its task. -/
  | open
  /-- Something happens to a connection. -/
  | connection (i : Nat) (event : Connecting.Event)
  /-- `accept` is called. -/
  | call
  /-- A call of `accept` takes a connection out of the channel. -/
  | take
  /-- `close` sets the flag. -/
  | close

/-- The steps.  A call of `accept` on a closed listener fails and changes nothing. -/
inductive Step : Accepting → Event → Accepting → Prop
  | open {s : Accepting} : Step s .open { s with connections := s.connections ++ [.new] }
  | connection {s : Accepting} {i : Nat} {event : Connecting.Event} {c c' : Connecting} :
      event ≠ .send → s.connections[i]? = some c → Connecting.Step c event c' →
        Step s (.connection i event) { s with connections := s.connections.set i c' }
  | send {s : Accepting} {i : Nat} {c c' : Connecting} :
      s.connections[i]? = some c → Connecting.Step c .send c' →
        s.channel.length < incomingCapacity →
          Step s (.connection i .send)
            { s with connections := s.connections.set i c', channel := s.channel ++ [i] }
  | call {s : Accepting} : s.closed = false → Step s .call { s with waiting := s.waiting + 1 }
  | take {s : Accepting} {i : Nat} {channel : List Nat} :
      0 < s.waiting → s.channel = i :: channel →
        Step s .take
          { s with channel := channel, waiting := s.waiting - 1, accepted := s.accepted ++ [i] }
  | close {s : Accepting} : Step s .close { s with closed := true }

def acceptings : Lts Accepting Event where
  init s := s = .new
  step := Step

/-- The connections that have gone into the channel, in this order. -/
def offered (s : Accepting) : List Nat := s.accepted ++ s.channel

/-- Every connection is sound, and the ones offered are those whose tasks have sent them. -/
structure Sound (s : Accepting) : Prop where
  sound : ∀ (i : Nat) (c : Connecting), s.connections[i]? = some c → Connecting.Sound c
  nodup : s.offered.Nodup
  mem_offered : ∀ i, i ∈ s.offered ↔ ∃ c, s.connections[i]? = some c ∧ c.phase = .sent
  length_le : s.channel.length ≤ incomingCapacity

variable {s s' : Accepting} {e : Event} {i : Nat} {c : Connecting}

theorem sound_new : new.Sound where
  sound _ _ hi := by cases hi
  nodup := List.nodup_nil
  mem_offered i := iff_of_false List.not_mem_nil fun ⟨_, hi, _⟩ ↦ by cases hi
  length_le := Nat.zero_le _

/-- After a step of one connection. -/
theorem getElem?_set {connections : List Connecting} {c' c'' : Connecting} {j : Nat}
    (hi : connections[i]? = some c) :
    (connections.set i c')[j]? = some c'' ↔
      i = j ∧ c'' = c' ∨ i ≠ j ∧ connections[j]? = some c'' := by
  have hlt := (List.getElem?_eq_some_iff.mp hi).1
  by_cases hij : i = j
  · subst hij
    rw [List.getElem?_set_self hlt, Option.some.injEq]
    simp [eq_comm]
  · rw [List.getElem?_set_ne hij]
    simp [hij]

/-- After a connection has been created. -/
theorem getElem?_append_new {connections : List Connecting} {c : Connecting} {j : Nat} :
    (connections ++ [Connecting.new])[j]? = some c ↔
      connections[j]? = some c ∨ j = connections.length ∧ c = .new := by
  constructor
  · intro hj
    rw [List.getElem?_append] at hj
    split at hj
    · exact Or.inl hj
    · next hle =>
      obtain ⟨hlt, hc⟩ := List.getElem?_eq_some_iff.mp hj
      rw [List.length_singleton] at hlt
      rw [List.getElem_singleton] at hc
      exact Or.inr ⟨by omega, hc.symm⟩
  · rintro (hj | ⟨rfl, rfl⟩)
    · exact List.getElem?_append_left (List.getElem?_eq_some_iff.mp hj).1 ▸ hj
    · exact List.getElem?_concat_length

theorem Sound.create (h : s.Sound) :
    Sound { s with connections := s.connections ++ [.new] } := by
  refine ⟨fun j d hj ↦ ?_, h.nodup, fun j ↦ (h.mem_offered j).trans ?_, h.length_le⟩
  · rcases getElem?_append_new.mp hj with hj | ⟨-, rfl⟩
    · exact h.sound j d hj
    · exact Connecting.sound_new
  · constructor
    · rintro ⟨d, hj, hsent⟩
      exact ⟨d, getElem?_append_new.mpr (Or.inl hj), hsent⟩
    · rintro ⟨d, hj, hsent⟩
      rcases getElem?_append_new.mp hj with hj | ⟨-, rfl⟩
      · exact ⟨d, hj, hsent⟩
      · cases hsent

/-- A connection takes a step that is not `send`. -/
theorem Sound.connection (h : s.Sound) {event : Connecting.Event} {c' : Connecting}
    (hne : event ≠ .send) (hi : s.connections[i]? = some c)
    (hstep : Connecting.Step c event c') :
    Sound { s with connections := s.connections.set i c' } := by
  have hsent := hstep.sent_iff hne
  refine ⟨fun j d hj ↦ ?_, h.nodup, fun j ↦ (h.mem_offered j).trans ?_, h.length_le⟩
  · rcases (getElem?_set hi).mp hj with ⟨-, rfl⟩ | ⟨-, hj⟩
    · exact (h.sound i c hi).step hstep
    · exact h.sound j d hj
  · constructor
    · rintro ⟨d, hj, hp⟩
      by_cases hij : i = j
      · subst hij
        obtain rfl := Option.some.inj (hi.symm.trans hj)
        exact ⟨c', (getElem?_set hi).mpr (Or.inl ⟨rfl, rfl⟩), hsent.mpr hp⟩
      · exact ⟨d, (getElem?_set hi).mpr (Or.inr ⟨hij, hj⟩), hp⟩
    · rintro ⟨d, hj, hp⟩
      rcases (getElem?_set hi).mp hj with ⟨rfl, rfl⟩ | ⟨-, hj⟩
      · exact ⟨c, hi, hsent.mp hp⟩
      · exact ⟨d, hj, hp⟩

/-- A task puts its connection into the channel. -/
theorem Sound.send (h : s.Sound) {c' : Connecting} (hi : s.connections[i]? = some c)
    (hstep : Connecting.Step c .send c') (hlt : s.channel.length < incomingCapacity) :
    Sound { s with connections := s.connections.set i c', channel := s.channel ++ [i] } := by
  obtain ⟨hphase, hsent⟩ : c.phase = .established ∧ c'.phase = .sent := by
    cases hstep with
    | send hphase => exact ⟨hphase, rfl⟩
  -- it has not been put there before
  have hnew : i ∉ s.offered := fun hmem ↦ by
    obtain ⟨d, hd, hp⟩ := (h.mem_offered i).mp hmem
    obtain rfl := Option.some.inj (hi.symm.trans hd)
    cases hphase.symm.trans hp
  have hoffered : s.accepted ++ (s.channel ++ [i]) = s.offered ++ [i] :=
    (List.append_assoc _ _ _).symm
  refine ⟨fun j d hj ↦ ?_, ?_, fun j ↦ ?_, ?_⟩
  · rcases (getElem?_set hi).mp hj with ⟨-, rfl⟩ | ⟨-, hj⟩
    · exact (h.sound i c hi).step hstep
    · exact h.sound j d hj
  · rw [offered, hoffered]
    exact List.nodup_append_comm.mp (List.nodup_cons.mpr ⟨hnew, h.nodup⟩)
  · rw [offered, hoffered, List.mem_append, List.mem_singleton, h.mem_offered]
    constructor
    · rintro (⟨d, hj, hp⟩ | rfl)
      · have hij : i ≠ j := fun hij ↦ hnew ((h.mem_offered i).mpr ⟨d, hij ▸ hj, hp⟩)
        exact ⟨d, (getElem?_set hi).mpr (Or.inr ⟨hij, hj⟩), hp⟩
      · exact ⟨c', (getElem?_set hi).mpr (Or.inl ⟨rfl, rfl⟩), hsent⟩
    · rintro ⟨d, hj, hp⟩
      rcases (getElem?_set hi).mp hj with ⟨rfl, -⟩ | ⟨-, hj⟩
      · exact Or.inr rfl
      · exact Or.inl ⟨d, hj, hp⟩
  · rw [List.length_append]
    exact hlt

/-- A call takes the first connection of the channel. -/
theorem Sound.take (h : s.Sound) {channel : List Nat} {waiting : Nat}
    (hchannel : s.channel = i :: channel) :
    Sound { s with channel := channel, waiting := waiting, accepted := s.accepted ++ [i] } := by
  have hoffered : s.accepted ++ [i] ++ channel = s.offered := by
    rw [offered, hchannel, List.append_assoc]
    rfl
  have hlength := h.length_le
  rw [hchannel, List.length_cons] at hlength
  refine ⟨h.sound, ?_, fun j ↦ ?_, Nat.le_of_succ_le hlength⟩
  · rw [offered, hoffered]
    exact h.nodup
  · rw [offered, hoffered]
    exact h.mem_offered j

theorem Sound.step (h : s.Sound) (hs : Step s e s') : s'.Sound := by
  cases hs with
  | «open» => exact h.create
  | connection hne hi hstep => exact h.connection hne hi hstep
  | send hi hstep hlt => exact h.send hi hstep hlt
  | call _ | close => exact ⟨h.sound, h.nodup, h.mem_offered, h.length_le⟩
  | take _ hchannel => exact h.take hchannel

theorem sound_of_reachable (h : acceptings.Reachable s) : s.Sound := by
  refine h.invariant (I := Sound) ?_ fun s e s' _ hs hstep ↦ hs.step hstep
  rintro _ rfl
  exact sound_new

/-! ### Runs -/

/-- What has gone into the channel comes out in this order, and nothing is lost. -/
theorem Step.offered (hs : Step s e s') : s.offered <+: s'.offered := by
  cases hs with
  | «open» | connection | call | close => exact List.prefix_rfl
  | send => exact ⟨_, List.append_assoc _ _ _⟩
  | take _ hchannel =>
      rw [Accepting.offered, Accepting.offered, hchannel, List.append_assoc]
      exact List.prefix_rfl

/-- A listener that is closed serves the calls that wait, and no others. -/
theorem Step.closed (hs : Step s e s') (hclosed : s.closed = true) :
    s'.closed = true ∧ s'.accepted.length + s'.waiting = s.accepted.length + s.waiting := by
  cases hs with
  | «open» | connection | send => exact ⟨hclosed, rfl⟩
  | call hopen => exact absurd (hclosed.symm.trans hopen) Bool.noConfusion
  | take hwaiting _ =>
      have hlength : s.accepted.length + 1 + (s.waiting - 1) = s.accepted.length + s.waiting := by
        omega
      refine ⟨hclosed, Eq.trans ?_ hlength⟩
      rw [List.length_append, List.length_singleton]
  | close => exact ⟨rfl, rfl⟩

theorem offered_of_run {es : List Event} (h : acceptings.Run s es s') :
    s.offered <+: s'.offered := by
  induction h with
  | nil => exact List.prefix_rfl
  | snoc _ hstep ih => exact ih.trans (Step.offered hstep)

theorem closed_of_run {es : List Event} (h : acceptings.Run s es s') (hclosed : s.closed = true) :
    s'.closed = true ∧ s'.accepted.length + s'.waiting = s.accepted.length + s.waiting := by
  induction h with
  | nil => exact ⟨hclosed, rfl⟩
  | snoc _ hstep ih =>
      obtain ⟨hclosed', hserved⟩ := Step.closed hstep ih.1
      exact ⟨hclosed', hserved.trans ih.2⟩

/-- A step of the listener is a step of a connection or leaves it as it is. -/
theorem Step.connections (hs : Step s e s') (hi : s.connections[i]? = some c) :
    ∃ c', s'.connections[i]? = some c' ∧ (c' = c ∨ ∃ event, Connecting.Step c event c') := by
  cases hs with
  | «open» =>
      exact ⟨c, getElem?_append_new.mpr (Or.inl hi), Or.inl rfl⟩
  | @connection j event d d' _ hj hstep | @send j d d' hj hstep _ =>
      by_cases hji : j = i
      · subst hji
        obtain rfl := Option.some.inj (hj.symm.trans hi)
        exact ⟨d', (getElem?_set hj).mpr (Or.inl ⟨rfl, rfl⟩), Or.inr ⟨_, hstep⟩⟩
      · exact ⟨c, (getElem?_set hj).mpr (Or.inr ⟨hji, hi⟩), Or.inl rfl⟩
  | call | take | close => exact ⟨c, hi, Or.inl rfl⟩

/-- What is lost stays so, whatever else happens. -/
theorem lost_of_run {es : List Event} (h : acceptings.Run s es s')
    (hi : s.connections[i]? = some c) (hlost : c.Lost) :
    ∃ c', s'.connections[i]? = some c' ∧ c'.Lost := by
  induction h with
  | nil => exact ⟨c, hi, hlost⟩
  | snoc _ hstep ih =>
      obtain ⟨c', hi', hlost'⟩ := ih
      obtain ⟨c'', hi'', rfl | ⟨event, hevent⟩⟩ := Step.connections hstep hi'
      · exact ⟨c'', hi'', hlost'⟩
      · exact ⟨c'', hi'', hlost'.step hevent⟩

/-- A connection can step on its own. -/
theorem exists_connection {event : Connecting.Event} {c' : Connecting} (hne : event ≠ .send)
    (hi : s.connections[i]? = some c) (hstep : Connecting.Step c event c') :
    ∃ s', acceptings.step s (.connection i event) s' ∧ s'.connections[i]? = some c' :=
  ⟨_, .connection hne hi hstep, (getElem?_set hi).mpr (Or.inl ⟨rfl, rfl⟩)⟩

/-- The notification reaches a future that exists. -/
theorem exists_established {future : Notified} (hi : s.connections[i]? = some c)
    (hphase : c.phase = .parked future) (hexists : future.Exists c.notify)
    (hmarking : c.marking = true) :
    ∃ es s' c', acceptings.Run s es s' ∧ s'.connections[i]? = some c' ∧
      c'.phase = .established := by
  obtain ⟨s₁, h₁, hi₁⟩ := exists_connection Connecting.Event.noConfusion hi (.notify hmarking)
  obtain ⟨s₂, h₂, hi₂⟩ := exists_connection Connecting.Event.noConfusion hi₁
    (.wake hphase hexists.ready)
  exact ⟨_, s₂, _, (Lts.Run.single h₁).append (.single h₂), hi₂, rfl⟩

/-! ## What `accept` returns -/

/-- A connection is returned once at most and in the order in which the channel got it.  It has
been marked as connected, and one that went into the channel is not lost.  Once the listener is
closed, only the calls that wait already get one. -/
theorem accepted_once (h : acceptings.Reachable s) :
    s.offered.Nodup ∧ s.channel.length ≤ incomingCapacity ∧
      (∀ i, i ∈ s.offered ↔
        ∃ c, s.connections[i]? = some c ∧ c.phase = .sent ∧ c.connected = true) ∧
      ∀ es s', acceptings.Run s es s' → s.offered <+: s'.offered ∧
        (s.closed = true →
          s'.accepted.length + s'.waiting = s.accepted.length + s.waiting) := by
  have hsound := sound_of_reachable h
  refine ⟨hsound.nodup, hsound.length_le, fun i ↦ (hsound.mem_offered i).trans ?_, ?_⟩
  · constructor
    · rintro ⟨c, hi, hp⟩
      exact ⟨c, hi, hp, (hsound.sound i c hi).established (Or.inr hp)⟩
    · rintro ⟨c, hi, hp, -⟩
      exact ⟨c, hi, hp⟩
  · exact fun es s' hrun ↦ ⟨offered_of_run hrun, fun hclosed ↦ (closed_of_run hrun hclosed).2⟩

/-- A connection is created, marked as connected, put into the channel and returned. -/
theorem accepted_once_first :
    offered ⟨false, [⟨true, false, ⟨1⟩, .sent⟩], [0], 0, []⟩ <+:
        offered ⟨false, [⟨true, false, ⟨1⟩, .sent⟩], [], 0, [0]⟩ ∧
      (offered ⟨false, [⟨true, false, ⟨1⟩, .sent⟩], [], 0, [0]⟩).Nodup := by
  have hopen : acceptings.Reachable ⟨false, [.new], [], 0, []⟩ := .step (.init rfl) .open
  have hmark : acceptings.Reachable ⟨false, [⟨true, true, ⟨0⟩, .begun⟩], [], 0, []⟩ :=
    .step hopen (.connection (i := 0) Connecting.Event.noConfusion rfl .mark)
  have hnotify : acceptings.Reachable ⟨false, [⟨true, false, ⟨1⟩, .begun⟩], [], 0, []⟩ :=
    .step hmark (.connection (i := 0) Connecting.Event.noConfusion rfl (.notify rfl))
  have hload : acceptings.Reachable ⟨false, [⟨true, false, ⟨1⟩, .established⟩], [], 0, []⟩ :=
    .step hnotify (.connection (i := 0) Connecting.Event.noConfusion rfl (.load rfl))
  have hsend : acceptings.Reachable ⟨false, [⟨true, false, ⟨1⟩, .sent⟩], [0], 0, []⟩ :=
    .step hload (.send (i := 0) rfl (.send rfl) (by decide))
  have hcall : acceptings.step ⟨false, [⟨true, false, ⟨1⟩, .sent⟩], [0], 0, []⟩ .call
      ⟨false, [⟨true, false, ⟨1⟩, .sent⟩], [0], 1, []⟩ := .call rfl
  have htake : acceptings.step ⟨false, [⟨true, false, ⟨1⟩, .sent⟩], [0], 1, []⟩ .take
      ⟨false, [⟨true, false, ⟨1⟩, .sent⟩], [], 0, [0]⟩ := .take Nat.one_pos rfl
  exact ⟨((accepted_once hsend).2.2.2 _ _ ((Lts.Run.single hcall).append (.single htake))).1,
    (accepted_once ((hsend.step hcall).step htake)).1⟩

/-- The future of `wait_connected` is made after the flag has been looked at.  When
`mark_connected` has returned by then, the future is never woken: the task waits until its ten
seconds are over, and `accept` never returns the connection, although it is connected.  Otherwise
the task can go on. -/
theorem established_iff_timely (h : acceptings.Reachable s) (hi : s.connections[i]? = some c)
    (hs : acceptings.step s (.connection i .register) s') :
    ((∃ es s'' c'', acceptings.Run s' es s'' ∧ s''.connections[i]? = some c'' ∧
        c''.phase = .established) ↔ ¬ c.Marked) ∧
      (c.Marked → ∀ es s'', acceptings.Run s' es s'' → i ∉ s''.offered) := by
  obtain ⟨hphase, hi'⟩ : c.phase = .unmarked ∧
      s'.connections[i]? = some { c with phase := .parked c.notify.notified } := by
    cases hs with
    | connection _ hi₀ hstep =>
        obtain rfl := Option.some.inj (hi₀.symm.trans hi)
        cases hstep with
        | register hphase => exact ⟨hphase, (getElem?_set hi).mpr (Or.inl ⟨rfl, rfl⟩)⟩
  refine ⟨⟨?_, fun hmarked ↦ ?_⟩, fun hmarked es s'' hrun hmem ↦ ?_⟩
  · rintro ⟨es, s'', c'', hrun, hi'', hestablished⟩ hmarked
    obtain ⟨d, hd, hlost⟩ := lost_of_run hrun hi' (lost_register hmarked)
    obtain rfl := Option.some.inj (hd.symm.trans hi'')
    exact hlost.ne_established hestablished
  · by_cases hconnected : c.connected = true
    · -- the flag is set already, and the notification is still to come
      have hmarking : c.marking = true := by
        by_contra hmarking
        exact hmarked ⟨hconnected, eq_false_of_ne_true hmarking⟩
      exact exists_established hi' rfl (Notified.exists_notified _) hmarking
    · obtain ⟨s₁, h₁, hi₁⟩ := exists_connection Connecting.Event.noConfusion hi' .mark
      rw [if_neg hconnected] at hi₁
      obtain ⟨es, s₂, d, hrun, hi₂, hd⟩ :=
        exists_established hi₁ rfl (Notified.exists_notified _) rfl
      exact ⟨_, s₂, d, (Lts.Run.single h₁).append hrun, hi₂, hd⟩
  · obtain ⟨d, hd, hlost⟩ := lost_of_run hrun hi' (lost_register hmarked)
    have hreachable := hrun.reachable (h.step hs)
    obtain ⟨d', hd', hsent⟩ := ((sound_of_reachable hreachable).mem_offered i).mp hmem
    obtain rfl := Option.some.inj (hd.symm.trans hd')
    exact hlost.ne_sent hsent

/-- A connection whose future is made after `mark_connected` has returned. -/
theorem established_iff_timely_late :
    Connecting.Marked ⟨true, false, ⟨1⟩, .unmarked⟩ ∧
      ∀ es s', acceptings.Run ⟨false, [⟨true, false, ⟨1⟩, .parked ⟨1⟩⟩], [], 0, []⟩ es s' →
        0 ∉ s'.offered := by
  have hopen : acceptings.Reachable ⟨false, [.new], [], 0, []⟩ := .step (.init rfl) .open
  have hload : acceptings.Reachable ⟨false, [⟨false, false, ⟨0⟩, .unmarked⟩], [], 0, []⟩ :=
    .step hopen (.connection (i := 0) Connecting.Event.noConfusion rfl (.load rfl))
  have hmark : acceptings.Reachable ⟨false, [⟨true, true, ⟨0⟩, .unmarked⟩], [], 0, []⟩ :=
    .step hload (.connection (i := 0) Connecting.Event.noConfusion rfl .mark)
  have hnotify : acceptings.Reachable ⟨false, [⟨true, false, ⟨1⟩, .unmarked⟩], [], 0, []⟩ :=
    .step hmark (.connection (i := 0) Connecting.Event.noConfusion rfl (.notify rfl))
  have hregister : acceptings.step ⟨false, [⟨true, false, ⟨1⟩, .unmarked⟩], [], 0, []⟩
      (.connection 0 .register) ⟨false, [⟨true, false, ⟨1⟩, .parked ⟨1⟩⟩], [], 0, []⟩ :=
    .connection Connecting.Event.noConfusion rfl (.register rfl)
  have hmarked : Connecting.Marked ⟨true, false, ⟨1⟩, .unmarked⟩ := by decide
  exact ⟨hmarked, (established_iff_timely hnotify rfl hregister).2 hmarked⟩

end Accepting

end Ragnet

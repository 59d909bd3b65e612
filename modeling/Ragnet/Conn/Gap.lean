import Ragnet.Conn.Invariants
import Ragnet.Conn.Refusal
import Ragnet.Lib.Filling
import Ragnet.Reach

/-!
# How much one datagram makes the window hold

`receive_datagram` tests the size of the window last.  By then `missing` has put an entry into the
window for every index that is missing below one that arrived too long ago, and has reported it.
The index of the datagram itself counts: with a round-trip time of zero it is overdue at once.
-/

namespace Ragnet

open HashMap Wire

namespace DatagramWindow

/-- The map of the window when it has the most entries, while a datagram is entered: `shift` only
removes entries. -/
def fullest (self : DatagramWindow) (rtt : Duration) (clock : Clock) (seq : Uint24) :
    HashMap Nat Instant :=
  let added := (self.add seq (clock 0)).1
  if self.seen seq = false ∧ added.shift.2 = 0 then
    (missingLoop (rtt + rtt / 2) (clock 1) (fun i ↦ clock (2 + i)) added.shift.1.lowest.value
      (added.shift.1.highest.value - added.shift.1.lowest.value) false added.shift.1.queue).2
  else added.queue

/-- An index of the window that arrived at least `since` ago. -/
def Late (self : DatagramWindow) (since : Duration) (now : Instant) (j : Nat) : Prop :=
  j < self.highest.value ∧ ∃ time, self.queue.lookup j = some time ∧ since ≤ durationSince now time

/-- There is room for a datagram: the window with it has no more than `MAX_WINDOW_SIZE` entries,
and if it still waits for its lowest index, then from each late index on it has at most as many as
`MAX_WINDOW_SIZE` exceeds the distance of this index from the lowest. -/
def HasRoom (self : DatagramWindow) (rtt : Duration) (clock : Clock) (seq : Uint24) : Prop :=
  let added := (self.add seq (clock 0)).1
  added.queue.len ≤ maxWindowSize ∧
    (¬ self.Seen seq.value → added.lowest.value ∉ added.queue → ∀ j,
      added.Late (rtt + rtt / 2) (clock 1) j →
        Filling.spread added.queue.keys added.lowest.value j ≤ maxWindowSize)

variable {w : DatagramWindow} {rtt since : Duration} {now : Instant} {marked : Nat → Instant}
  {clock : Clock} {seq : Uint24}

/-- A window whose lowest index is there is shifted, unless it is empty. -/
theorem shift_ne_zero (h : w.lowest.value ∈ w.queue) (hlt : w.lowest.value < w.highest.value) :
    w.shift.2 ≠ 0 := by
  obtain ⟨k, hk⟩ := Nat.exists_eq_add_of_lt hlt
  obtain ⟨time, htime⟩ := mem_iff_lookup.mp h
  have hrange : w.highest.value - w.lowest.value = k + 1 := by omega
  change (w.queue.drain (w.highest.value - w.lowest.value) w.lowest.value).1.length ≠ 0
  rw [hrange, drain_succ_some k htime, List.length_cons]
  exact Nat.succ_ne_zero _

/-- The indices of the map once the missing ones are marked: those below a late one are filled
up. -/
theorem mem_marked {u : Nat} :
    u ∈ (missingLoop since now marked w.lowest.value (w.highest.value - w.lowest.value) false
        w.queue).2 ↔
      u ∈ w.queue ∨ w.lowest.value ≤ u ∧ ∃ j, u < j ∧ w.Late since now j := by
  have hlo := w.lowest.lt
  have hhi := w.highest.lt
  rw [mem_missingLoop_queue _ _ _ (by omega), List.mem_map]
  constructor
  · rintro (hu | ⟨v, hv, rfl⟩)
    · exact Or.inl hu
    · obtain ⟨hle, -, -, hlate⟩ := (mem_missingLoop _ _ _ (by omega)).mp hv
      obtain ⟨j, time, hj, hjk, hl, ht⟩ := hlate.resolve_left Bool.false_ne_true
      exact Or.inr ⟨hle, j, hj, by omega, time, hl, ht⟩
  · rintro (hu | ⟨hle, j, hj, hjh, time, hl, ht⟩)
    · exact Or.inl hu
    · by_cases hu : u ∈ w.queue
      · exact Or.inl hu
      · have hv : (Uint24.new u).value = u := Uint24.value_new_of_lt (by omega)
        refine Or.inr ⟨Uint24.new u, (mem_missingLoop _ _ _ (by omega)).mpr ?_, hv⟩
        rw [hv]
        exact ⟨hle, by omega, hu, Or.inr ⟨j, time, hj, by omega, hl, ht⟩⟩

/-- **The window stays small while a datagram is entered iff there is room for it.** -/
theorem fullest_len_le_iff :
    (w.fullest rtt clock seq).len ≤ maxWindowSize ↔ w.HasRoom rtt clock seq := by
  rw [fullest, HasRoom]
  generalize hadded : (w.add seq (clock 0)).1 = added
  by_cases hseen : w.seen seq = false
  swap
  · have hs : w.Seen seq.value := seen_iff.mp (Bool.eq_true_of_not_eq_false hseen)
    rw [if_neg fun h ↦ hseen h.1]
    exact (and_iff_left fun h ↦ absurd hs h).symm
  have hs : ¬ w.Seen seq.value := fun h ↦ by
    rw [seen_iff.mpr h] at hseen
    cases hseen
  by_cases hshift : added.shift.2 = 0
  · rw [if_pos ⟨hseen, hshift⟩, shift_eq_self hshift, forall_prop_of_true hs]
    by_cases hlowest : added.lowest.value ∈ added.queue
    · have hempty : added.highest.value - added.lowest.value = 0 :=
        Nat.sub_eq_zero_of_le (Nat.le_of_not_lt fun hlt ↦ shift_ne_zero hlowest hlt hshift)
      rw [hempty]
      exact (and_iff_left fun h ↦ absurd hlowest h).symm
    · rw [forall_prop_of_true hlowest]
      refine Filling.card_le_iff (fun j ⟨_, time, hl, _⟩ ↦ ?_) fun u ↦ ?_
      · exact Finmap.mem_keys.mpr (Finmap.mem_of_lookup_eq_some hl)
      · rw [Finmap.mem_keys, Finmap.mem_keys]
        exact mem_marked
  · rw [if_neg fun h ↦ hshift h.2]
    refine (and_iff_left fun _ hlowest ↦ ?_).symm
    exact absurd (shift_of_notMem hlowest) hshift

/-- What is reported has been entered into the map. -/
theorem length_enter_le (hs : ¬ w.Seen seq.value) :
    (w.enter rtt clock seq).2.length ≤ (w.fullest rtt clock seq).len := by
  have hseen : w.seen seq = false := Bool.eq_false_iff.mpr fun h ↦ hs (seen_iff.mp h)
  rw [enter, fullest]
  by_cases hshift : (w.add seq (clock 0)).1.shift.2 = 0
  · rw [if_pos hshift, if_pos ⟨hseen, hshift⟩, shift_eq_self hshift]
    generalize (w.add seq (clock 0)).1 = added
    have hlo := added.lowest.lt
    have hhi := added.highest.lt
    have hnodup := (@missing_pairwise (rtt + rtt / 2) (clock 1) (fun i ↦ clock (2 + i)) added).imp
      fun h ↦ (ne_of_lt h).symm
    rw [← List.length_map Uint24.value, ← List.toFinset_card_of_nodup hnodup]
    refine Finset.card_le_card fun u hu ↦ Finmap.mem_keys.mpr ?_
    exact (mem_missingLoop_queue _ _ _ (by omega)).mpr (Or.inr (List.mem_toFinset.mp hu))
  · rw [if_neg hshift]
    exact Nat.zero_le _

/-- Once the datagram is entered, the window has no more entries than at its fullest. -/
theorem len_enter_le (hs : ¬ w.Seen seq.value) :
    (w.enter rtt clock seq).1.queue.len ≤ (w.fullest rtt clock seq).len := by
  have hseen : w.seen seq = false := Bool.eq_false_iff.mpr fun h ↦ hs (seen_iff.mp h)
  rw [enter, fullest]
  by_cases hshift : (w.add seq (clock 0)).1.shift.2 = 0
  · rw [if_pos hshift, if_pos ⟨hseen, hshift⟩]
    exact len_drain_le _ _ _
  · rw [if_neg hshift, if_neg fun h ↦ hshift h.2]
    exact len_drain_le _ _ _

end DatagramWindow

namespace Conn

variable (build : Build) (handler : ConnectionHandler)

/-- The call for a datagram stays within the limit: it reports no more than `MAX_WINDOW_SIZE`
indices, and the window holds no more at any time. -/
structure WithinLimit (env : Env) (seq : Uint24) (c : Conn) : Prop where
  reported : ∀ missing windowError,
    (enterDatagram build handler env.clock seq c).2 = .ok (some (missing, windowError)) →
      missing.length ≤ maxWindowSize
  buffered : (c.state.win.fullest c.rtt env.clock seq).len ≤ maxWindowSize

variable {build handler} {c : Conn} {env : Env} {seq : Uint24}

theorem withinLimit_iff :
    WithinLimit build handler env seq c ↔ c.state.win.HasRoom c.rtt env.clock seq := by
  rw [← DatagramWindow.fullest_len_le_iff]
  refine ⟨WithinLimit.buffered, fun h ↦ ⟨fun missing windowError hreport ↦ ?_, h⟩⟩
  by_cases hs : c.state.win.Seen seq.value
  · rw [enterDatagram_seen build handler hs] at hreport
    cases hreport
  · rw [enterDatagram_new build handler hs] at hreport
    dsimp only at hreport
    cases hsize : (c.entered env.clock seq).state.win.size build with
    | error e =>
        rw [hsize] at hreport
        cases hreport
    | ok size =>
        rw [hsize] at hreport
        obtain ⟨rfl, -⟩ := Prod.mk.inj (Option.some.inj (Except.ok.inj hreport))
        exact (DatagramWindow.length_enter_le hs).trans h

/-- There is room for the datagram of a call. -/
def Call.HasRoom (c : Conn) (call : Call) : Prop :=
  ∀ env data body seq, call = .receive env data → datagramBody data = some body →
    loadUint24 body = .ok seq → c.state.win.HasRoom c.rtt env.clock seq

/-- A call with room leaves a small window behind. -/
theorem Call.HasRoom.len_le {call : Call} (h : call.HasRoom c)
    (hc : c.state.win.queue.len ≤ maxWindowSize) :
    (call.run build handler c).state.win.queue.len ≤ maxWindowSize := by
  have hsame {c' : Conn} (hr : c'.receiving = c.receiving) :
      c'.state.win.queue.len ≤ maxWindowSize := by
    rwa [show c'.state.win = c.state.win from congrArg Receiving.win hr]
  cases call with
  | send call => exact hsame (call.run_receiving build c)
  | flushAcks env =>
      obtain ⟨datagrams, hflush⟩ := flushAcks_eq build env c
      rw [Call.run, hflush]
      exact hc
  | close closing closed => exact hc
  | receive env data =>
      rcases @receive_arrivals build handler env data c with
        harrivals | ⟨body, seq, hbody, hl, hseen, harrivals⟩
      · have hwin : (Conn.receive build handler env data c).1.state.win = c.state.win :=
          congrArg Arrivals.win harrivals
        rw [Call.run, hwin]
        exact hc
      · have hwin : (Conn.receive build handler env data c).1.state.win =
            (c.state.win.enter c.rtt env.clock seq).1 := congrArg Arrivals.win harrivals
        have hroom := DatagramWindow.fullest_len_le_iff.mpr (h env data body seq rfl hbody hl)
        rw [Call.run, hwin]
        exact (DatagramWindow.len_enter_le hseen).trans hroom

/-- **The limit holds while there is room.**  In any state, `receive_datagram` reports no more than
`MAX_WINDOW_SIZE` missing indices and never lets the window hold more entries exactly when there is
room for the datagram.  In a run all of whose datagrams have room, no state has more. -/
theorem withinLimit_while_room (build : Build) (handler : ConnectionHandler) :
    (∀ env seq c, WithinLimit build handler env seq c ↔
      c.state.win.HasRoom c.rtt env.clock seq) ∧
      ∀ c, ((calls build handler).restrict fun c call ↦ call.HasRoom c).Reachable c →
        c.state.win.queue.len ≤ maxWindowSize := by
  refine ⟨fun env seq c ↦ withinLimit_iff, fun c hc ↦ ?_⟩
  refine hc.invariant (I := fun c ↦ c.state.win.queue.len ≤ maxWindowSize) ?_
    fun c call c' _ hi hs ↦ ?_
  · rintro _ ⟨mtu, rfl⟩
    exact Nat.zero_le _
  · obtain ⟨hroom, rfl⟩ := hs
    exact hroom.len_le hi

/-- The first datagram has the number 3. -/
theorem withinLimit_while_room_gap :
    WithinLimit .debug .forwarding .calm (Uint24.new 3) (new 1492) ∧
      ∃ c : Conn, c.state.ackSlice = [Uint24.new 3] ∧
        c.state.win.queue.len ≤ maxWindowSize := by
  obtain ⟨hiff, hrun⟩ := withinLimit_while_room .debug .forwarding
  have hroom : (new 1492).state.win.HasRoom (new 1492).rtt Env.calm.clock (Uint24.new 3) :=
    DatagramWindow.fullest_len_le_iff.mp (by decide)
  refine ⟨(hiff .calm (Uint24.new 3) (new 1492)).mpr hroom, ?_⟩
  let data := datagram (Uint24.new 3) { Packet.new with content := [7] }
  have hcall : Call.HasRoom (new 1492) (.receive .calm data) := by
    rintro env data' body seq ⟨⟩ hbody hl
    obtain rfl := Option.some.inj hbody
    obtain rfl := Except.ok.inj hl
    exact hroom
  have hr : ((calls .debug .forwarding).restrict fun c call ↦ call.HasRoom c).Reachable
      ((Call.receive .calm data).run .debug .forwarding (new 1492)) :=
    .step (a := .receive .calm data) (.init ⟨1492, rfl⟩) ⟨hcall, rfl⟩
  have hseen : ¬ (new 1492).state.win.Seen (Uint24.new 3).value := DatagramWindow.not_seen_new _
  refine ⟨_, ?_, hrun _ hr⟩
  exact @receiveDatagram_ackSlice .debug .forwarding (new 1492) .calm (data.drop 1) _ rfl hseen

/-- The first datagram of a new connection has the number 5000.  No round trip has been measured, so
the number is overdue at once, and the 5000 numbers below it are reported. -/
theorem first_datagram_exceeds :
    (calls .debug .forwarding).Reachable (new 1492) ∧
      ¬ WithinLimit .debug .forwarding .calm (Uint24.new 5000)
        (new 1492) := by
  refine ⟨.init ⟨1492, rfl⟩, fun h ↦ ?_⟩
  have hwaits : (DatagramWindow.new.add (Uint24.new 5000) 0).1.lowest.value ∉
      (DatagramWindow.new.add (Uint24.new 5000) 0).1.queue := by decide
  have hspread := (withinLimit_iff.mp h).2 (DatagramWindow.not_seen_new _) hwaits 5000
    ⟨by decide, 0, by decide, Nat.zero_le _⟩
  have hfar : 5000 ≤ maxWindowSize := (Nat.le_add_right _ _).trans hspread
  exact absurd hfar (by decide)

end Conn

end Ragnet

import Ragnet.DatagramWindow.History
import Ragnet.PacketQueue

/-!
# The bounds of the two windows

A `DatagramWindow` and a `PacketQueue` are meant to keep what they buffer between `lowest` and
`highest`.  They do exactly as long as the index `0xFFFFFF` is not used: the bound behind it needs
25 bits, and `Uint24::new` makes it 0.
-/

namespace Ragnet

open HashMap

/-- The index `0xFFFFFF`. -/
def lastIndex : Uint24 := Uint24.new (2 ^ 24 - 1)

/-- The bound behind an index, as `add` and `put` compute it. -/
theorem value_bound {index highest : Uint24} (h : index ≠ lastIndex) :
    (if index.value + 1 > highest.value then Uint24.new (index.value + 1) else highest).value =
      if index.value + 1 > highest.value then index.value + 1 else highest.value := by
  have hlt : index.value + 1 < 2 ^ 24 := by
    have hne : index.value ≠ 2 ^ 24 - 1 := fun he ↦ h (Uint24.ext he)
    have := index.lt
    omega
  split
  · exact Uint24.value_new_of_lt hlt
  · rfl

/-- The bound is never above the last index. -/
theorem not_within_lastIndex {ν : Type} {n : Nat} {highest : Uint24} {m : HashMap Nat ν}
    (h : lastIndex.value ∈ m) : ¬ Within n highest.value m := by
  intro hw
  have hlt := (hw.mem _ h).2
  have hhi := highest.lt
  have hlast : lastIndex.value = 2 ^ 24 - 1 := rfl
  omega

/-- What a run without bad calls has and no run that ends with one, all prefixes of a run have
exactly when there are none in it. -/
theorem forall_prefix_iff {ω : Type} {P : List ω → Prop} {bad : ω → Prop} {ops : List ω}
    (hgood : ∀ ops, (∀ op ∈ ops, ¬ bad op) → P ops)
    (hbad : ∀ before op, bad op → ¬ P (before ++ [op])) :
    (∀ before, before <+: ops → P before) ↔ ∀ op ∈ ops, ¬ bad op := by
  constructor
  · intro h op hop hover
    obtain ⟨before, after, rfl⟩ := List.append_of_mem hop
    refine hbad before op hover (h (before ++ [op]) ⟨after, ?_⟩)
    rw [List.append_assoc, List.singleton_append]
  · intro h before hbefore
    exact hgood before fun op hop ↦ h op (hbefore.subset hop)

/-! ## Datagrams -/

namespace DatagramWindow

variable {w : DatagramWindow}

/-- What is buffered lies in `[lowest, highest)`. -/
def Bounded (self : DatagramWindow) : Prop :=
  Within self.lowest.value self.highest.value self.queue

theorem Bounded.size (h : w.Bounded) (build : Build) :
    w.size build = .ok (w.highest.value - w.lowest.value) :=
  Checked.sub_of_le build 32 h.frontier_le

theorem Bounded.add {index : Uint24} (h : w.Bounded) (hindex : index ≠ lastIndex)
    (now : Instant) : (w.add index now).1.Bounded := by
  by_cases hs : w.Seen index.value
  · rw [add_of_seen hs]
    exact h
  · rw [add_of_not_seen hs, Bounded, value_bound hindex]
    exact h.insert (Nat.le_of_not_lt fun hlt ↦ hs (Or.inl hlt)) now

theorem Bounded.shift (h : w.Bounded) : w.shift.1.Bounded := by
  rw [Bounded, shift_lowest_value]
  exact h.drain

/-- After `shift` the index that is waited for is not buffered. -/
theorem Bounded.notMem_shift (h : w.Bounded) : w.shift.1.lowest.value ∉ w.shift.1.queue := by
  rw [shift_lowest_value]
  exact h.notMem_drain

/-- The window that `missing` shifts. -/
theorem Bounded.marked (h : w.Bounded) (since : Duration) (now : Instant)
    (marked : Nat → Instant) :
    Bounded { w with queue := (missingLoop since now marked w.lowest.value
      (w.highest.value - w.lowest.value) false w.queue).2 } := by
  have hlo := h.frontier_le
  have hhi := w.highest.lt
  refine h.of_mem fun i hi ↦ ?_
  rcases (mem_missingLoop_queue _ false w.queue (by omega)).mp hi with hi | hi
  · exact Or.inl hi
  · obtain ⟨u, hu, rfl⟩ := List.mem_map.mp hi
    obtain ⟨h₁, h₂, -⟩ := (mem_missingLoop _ false w.queue (by omega)).mp hu
    exact Or.inr ⟨h₁, by omega⟩

namespace Op

/-- The calls that shift the window. -/
def Shifts : Op → Prop
  | add _ _ => False
  | shift => True
  | missing _ _ _ => True

/-- The calls that add the index `0xFFFFFF`. -/
def Overflows : Op → Prop
  | add index _ => index = lastIndex
  | shift => False
  | missing _ _ _ => False

end Op

open History

theorem Bounded.step {h : History} {op : Op} (hb : h.window.Bounded) (hop : ¬ op.Overflows) :
    (h.step op).window.Bounded := by
  cases op with
  | add index now => exact hb.add hop now
  | shift => exact hb.shift
  | missing since now marked => exact (hb.marked since now marked).shift

theorem Bounded.notMem_step {h : History} {op : Op} (hb : h.window.Bounded) (hop : op.Shifts) :
    (h.step op).window.lowest.value ∉ (h.step op).window.queue := by
  cases op with
  | add index now => exact hop.elim
  | shift => exact hb.notMem_shift
  | missing since now marked => exact (hb.marked since now marked).notMem_shift

/-- What the window promises after a run. -/
structure Sound (ops : List Op) : Prop where
  bounded : (run ops).window.Bounded
  size : ∀ build, (run ops).window.size build ≠ panicked
  /-- Nothing that could be passed is held back. -/
  notMem : ∀ before op, ops = before ++ [op] → op.Shifts →
    (run ops).window.lowest.value ∉ (run ops).window.queue

theorem bounded_run {ops : List Op} (h : ∀ op ∈ ops, ¬ op.Overflows) :
    (run ops).window.Bounded :=
  List.foldlRecOn (motive := fun h ↦ h.window.Bounded) ops History.step (Within.empty _)
    fun _ hb op hop ↦ hb.step (h op hop)

theorem sound_run {ops : List Op} (h : ∀ op ∈ ops, ¬ op.Overflows) : Sound ops where
  bounded := bounded_run h
  size build := by
    rw [(bounded_run h).size build]
    intro he
    cases he
  notMem := by
    rintro before op rfl hop
    rw [run_append]
    refine Bounded.notMem_step (bounded_run fun o ho ↦ h o ?_) hop
    exact List.mem_append_left _ ho

/-- Adding the last index leaves it buffered above the bound. -/
theorem not_bounded_overflow {h : History} {op : Op} (hop : op.Overflows) :
    ¬ (h.step op).window.Bounded := by
  cases op with
  | add index now =>
      obtain rfl : index = lastIndex := hop
      refine not_within_lastIndex ?_
      have hseen : (h.window.add lastIndex now).1.Seen lastIndex.value := seen_add.mpr (Or.inr rfl)
      refine hseen.resolve_left fun hlt ↦ ?_
      have hlo := (h.window.add lastIndex now).1.lowest.lt
      have hlast : lastIndex.value = 2 ^ 24 - 1 := rfl
      omega
  | shift => exact hop.elim
  | missing since now marked => exact hop.elim

/-- A window is sound all along a run iff the run does not add the last index. -/
theorem sound_iff {ops : List Op} :
    (∀ before, before <+: ops → Sound before) ↔ ∀ op ∈ ops, ¬ op.Overflows := by
  refine forall_prefix_iff (fun _ ↦ sound_run) fun before op hover hsound ↦ ?_
  have hb := hsound.bounded
  rw [run_append] at hb
  exact not_bounded_overflow hover hb

end DatagramWindow

/-! ## Ordered packets -/

namespace PacketQueue

variable {q : PacketQueue}

/-- A call on a packet queue. -/
inductive Op where
  | put (index : Uint24) (packet : Wire.Bytes)
  | fetch

def step (self : PacketQueue) : Op → PacketQueue
  | .put index packet => (self.put index packet).1
  | .fetch => self.fetch.1

def run (ops : List Op) : PacketQueue := ops.foldl step new

@[simp] theorem run_append (ops : List Op) (op : Op) : run (ops ++ [op]) = (run ops).step op := by
  simp [run]

/-- What is buffered lies in `[lowest, highest)`. -/
def Bounded (self : PacketQueue) : Prop :=
  Within self.lowest.value self.highest.value self.queue

theorem Bounded.put {index : Uint24} (h : q.Bounded) (hindex : index ≠ lastIndex)
    (packet : Wire.Bytes) : (q.put index packet).1.Bounded := by
  by_cases ht : q.Taken index.value
  · rw [put_of_taken ht]
    exact h
  · rw [put_of_not_taken ht, Bounded]
    have hbound := @value_bound index q.highest hindex
    simp only [gt_iff_lt, Nat.lt_add_one_iff] at hbound
    dsimp only [ge_iff_le]
    rw [hbound]
    have hinsert := h.insert (Nat.le_of_not_lt fun hlt ↦ ht (Or.inl hlt)) packet
    simp only [gt_iff_lt, Nat.lt_add_one_iff] at hinsert
    exact hinsert

theorem Bounded.windowSize (h : q.Bounded) (build : Build) :
    q.windowSize build = .ok (q.highest.value - q.lowest.value) :=
  Checked.sub_of_le build 32 h.frontier_le

theorem Bounded.fetch (h : q.Bounded) : q.fetch.1.Bounded := by
  rw [Bounded, fetch_lowest_value]
  exact h.drain

/-- After `fetch` the packet that is waited for is not buffered. -/
theorem Bounded.notMem_fetch (h : q.Bounded) : q.fetch.1.lowest.value ∉ q.fetch.1.queue := by
  rw [fetch_lowest_value]
  exact h.notMem_drain

/-- The calls that put a packet at the index `0xFFFFFF`. -/
def Op.Overflows : Op → Prop
  | put index _ => index = lastIndex
  | fetch => False

theorem Bounded.step {op : Op} (hb : q.Bounded) (hop : ¬ op.Overflows) : (q.step op).Bounded := by
  cases op with
  | put index packet => exact hb.put hop packet
  | fetch => exact hb.fetch

/-- What the queue promises after a run. -/
structure Sound (ops : List Op) : Prop where
  bounded : (run ops).Bounded
  windowSize : ∀ build, (run ops).windowSize build ≠ panicked
  /-- Nothing that could be delivered is held back. -/
  notMem : ∀ before, ops = before ++ [.fetch] → (run ops).lowest.value ∉ (run ops).queue

theorem bounded_run {ops : List Op} (h : ∀ op ∈ ops, ¬ op.Overflows) : (run ops).Bounded :=
  List.foldlRecOn (motive := Bounded) ops step (Within.empty _)
    fun _ hb op hop ↦ hb.step (h op hop)

theorem sound_run {ops : List Op} (h : ∀ op ∈ ops, ¬ op.Overflows) : Sound ops where
  bounded := bounded_run h
  windowSize build := by
    rw [(bounded_run h).windowSize build]
    intro he
    cases he
  notMem := by
    rintro before rfl
    rw [run_append]
    refine Bounded.notMem_fetch (bounded_run fun o ho ↦ h o ?_)
    exact List.mem_append_left _ ho

/-- A packet at the last index is buffered above the bound. -/
theorem not_bounded_overflow {op : Op} (hop : op.Overflows) : ¬ (q.step op).Bounded := by
  cases op with
  | put index packet =>
      obtain rfl : index = lastIndex := hop
      refine not_within_lastIndex ?_
      have hlast : lastIndex.value = 2 ^ 24 - 1 := rfl
      have hlo := q.lowest.lt
      by_cases ht : q.Taken lastIndex.value
      · rw [step, put_of_taken ht]
        exact ht.resolve_left fun hlt ↦ by omega
      · rw [step, put_of_not_taken ht]
        exact Finmap.mem_insert.mpr (Or.inl rfl)
  | fetch => exact hop.elim

/-- A queue is sound all along a run iff the run does not put a packet at the last index. -/
theorem sound_iff {ops : List Op} :
    (∀ before, before <+: ops → Sound before) ↔ ∀ op ∈ ops, ¬ op.Overflows := by
  refine forall_prefix_iff (fun _ ↦ sound_run) fun before op hover hsound ↦ ?_
  have hb := hsound.bounded
  rw [run_append] at hb
  exact not_bounded_overflow hover hb

end PacketQueue

/-- **The bounds of the windows.**  Both keep what they buffer within `[lowest, highest)` all along
a run, their size can be taken, and nothing due is held back, exactly when the run does not use the
index `0xFFFFFF`. -/
theorem windows_sound_iff (windowOps : List DatagramWindow.Op) (queueOps : List PacketQueue.Op) :
    ((∀ before, before <+: windowOps → DatagramWindow.Sound before) ↔
      ∀ op ∈ windowOps, ¬ op.Overflows) ∧
    ((∀ before, before <+: queueOps → PacketQueue.Sound before) ↔
      ∀ op ∈ queueOps, ¬ op.Overflows) :=
  ⟨DatagramWindow.sound_iff, PacketQueue.sound_iff⟩

/-- Number 0, and then the last index: the bound is below the frontier. -/
theorem windows_underflow :
    (DatagramWindow.History.run [.add (Uint24.new 0) 0, .shift, .add lastIndex 0]).window.size
        .debug = panicked ∧
      (PacketQueue.run [.put (Uint24.new 0) [7], .fetch, .put lastIndex [8]]).windowSize .debug =
        panicked :=
  ⟨rfl, rfl⟩

end Ragnet

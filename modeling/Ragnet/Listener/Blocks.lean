import Ragnet.Lib.Lts
import Ragnet.Listener

/-!
# The count of blocks

`block` counts before it takes the lock and inserts, and `gc_blocks` reads the count before it takes
the lock and writes what is left: both take two steps, between which the other may come.  Here they
are taken one by one, for any number of calls of `block` at a time.
-/

namespace Ragnet

namespace Listener

/-- What `block` does before it takes the lock. -/
def countBlock (self : Listener) : Listener := { self with blockCount := self.blockCount + 1 }

/-- What `block` does under the lock. -/
def insertBlock (addr : SocketAddr) (now : Instant) (self : Listener) : Listener :=
  { self with blocks := self.blocks.insert (blockKey addr) now }

/-- The blocks that `gc_blocks` leaves. -/
def unexpired (now : Instant) (self : Listener) : HashMap (Octets 16) Instant :=
  self.blocks.retain fun _ t ↦ durationSince now t ≤ self.config.blockDuration

/-- What `gc_blocks` does under the lock. -/
def collectBlocks (now : Instant) (self : Listener) : Listener :=
  { self with blocks := self.unexpired now, blockCount := UInt32.ofNat (self.unexpired now).len }

variable {self : Listener} {addr : SocketAddr} {now : Instant}

/-- The two steps of `block`, one after the other. -/
theorem block_eq (h : self.config.blockDuration ≠ 0) :
    self.block addr now = self.countBlock.insertBlock addr now := if_neg h

/-- The two steps of a round of `gc_blocks`, one after the other. -/
theorem gcBlocks_eq :
    self.gcBlocks now = if self.blockCount = 0 then self else self.collectBlocks now := rfl

/-- The fast path of `is_blocked` gives what the map says. -/
def FastPathAgrees (self : Listener) : Prop :=
  (self.blockCount = 0 → self.blocks = ∅) ∧
    ∀ addr, self.isBlocked addr = self.blocks.containsKey (blockKey addr)

end Listener

/-- A listener, and where its tasks are in `block` and `gc_blocks`. -/
structure Blocking where
  listener : Listener
  /-- The calls of `block` that have counted and not yet inserted. -/
  calls : List SocketAddr
  /-- The round of `gc_blocks` that has read a count other than zero, and the time it goes by. -/
  round : Option Instant

namespace Blocking

inductive Event where
  /-- A call of `block` counts. -/
  | count (addr : SocketAddr)
  /-- The `i`-th of the calls inserts and returns. -/
  | insert (i : Nat) (now : Instant)
  /-- A round of `gc_blocks` reads the count. -/
  | read (now : Instant)
  /-- The round takes the lock and does the rest. -/
  | collect

inductive Step : Blocking → Event → Blocking → Prop
  | count {s : Blocking} {addr : SocketAddr} :
      Step s (.count addr)
        { s with listener := s.listener.countBlock, calls := s.calls ++ [addr] }
  | insert {s : Blocking} {i : Nat} {addr : SocketAddr} {now : Instant} :
      s.calls[i]? = some addr →
        Step s (.insert i now)
          { s with listener := s.listener.insertBlock addr now, calls := s.calls.eraseIdx i }
  | skip {s : Blocking} {now : Instant} :
      s.round = none → s.listener.blockCount = 0 → Step s (.read now) s
  | read {s : Blocking} {now : Instant} :
      s.round = none → s.listener.blockCount ≠ 0 →
        Step s (.read now) { s with round := some now }
  | collect {s : Blocking} {now : Instant} :
      s.round = some now →
        Step s .collect { s with listener := s.listener.collectBlocks now, round := none }

def new (config : ListenConfig) (id : Int64) (cookieSalt : UInt32) : Blocking :=
  ⟨.new config id cookieSalt, [], none⟩

/-- All interleavings on a new listener that blocks for some time. -/
def blockings : Lts Blocking Event where
  init s := ∃ config id cookieSalt, config.blockDuration ≠ 0 ∧ s = new config id cookieSalt
  step := Step

/-- With no call of `block` in progress, the fast path gives what the map says. -/
def Agrees (s : Blocking) : Prop := s.calls = [] → s.listener.FastPathAgrees

/-- The count does not become zero while there is something to count: it does not wrap around, and
a round of `gc_blocks` that finds nothing left comes between no two steps of a call of `block`. -/
def Counted (s : Blocking) : Event → Prop
  | .count _ => s.listener.blockCount + 1 ≠ 0
  | .collect => ∀ now, s.round = some now →
      UInt32.ofNat (s.listener.unexpired now).len = 0 →
        s.listener.unexpired now = ∅ ∧ s.calls = []
  | _ => True

/-- The count is zero only if nothing is blocked or about to be. -/
structure Sound (s : Blocking) : Prop where
  duration : s.listener.config.blockDuration ≠ 0
  count : s.listener.blockCount = 0 → s.listener.blocks = ∅ ∧ s.calls = []

variable {s s' s'' : Blocking} {e : Event}

theorem sound_new {config : ListenConfig} {id : Int64} {cookieSalt : UInt32}
    (h : config.blockDuration ≠ 0) : Sound (new config id cookieSalt) := ⟨h, fun _ ↦ ⟨rfl, rfl⟩⟩

/-- The answers agree once the count is sound. -/
theorem Sound.agrees (h : Sound s) : s.Agrees := by
  refine fun _ ↦ ⟨fun hzero ↦ (h.count hzero).1, fun addr ↦ ?_⟩
  rw [Listener.isBlocked]
  by_cases hzero : s.listener.blockCount = 0
  · rw [if_pos (Or.inr hzero), (h.count hzero).1]
    rfl
  · rw [if_neg (not_or.mpr ⟨h.duration, hzero⟩)]

/-- A step keeps the count sound exactly when it is counted. -/
theorem sound_step_iff (h : Sound s) (hs : Step s e s') : Sound s' ↔ Counted s e := by
  cases hs with
  | @count addr =>
      refine ⟨fun h' hzero ↦ ?_, fun hc ↦ ⟨h.duration, fun hzero ↦ absurd hzero hc⟩⟩
      exact List.concat_ne_nil _ _ (h'.count hzero).2
  | @insert i addr now hi =>
      refine iff_of_true ⟨h.duration, fun hzero ↦ ?_⟩ trivial
      -- a call in progress has been counted
      rw [(h.count hzero).2] at hi
      cases hi
  | skip _ _ => exact iff_of_true h trivial
  | read _ _ => exact iff_of_true ⟨h.duration, h.count⟩ trivial
  | @collect now hround =>
      constructor
      · intro h' now' hround' hzero
        obtain rfl := Option.some.inj (hround.symm.trans hround')
        exact h'.count hzero
      · exact fun hc ↦ ⟨h.duration, hc now hround⟩

/-- The duration is fixed. -/
theorem duration_step (hs : Step s e s') : s'.listener.config = s.listener.config := by
  cases hs <;> rfl

/-- The end of the calls in progress. -/
def inserts : Lts Blocking Event := blockings.restrict fun _ e ↦ ∃ i now, e = .insert i now

/-- They keep the count sound. -/
theorem Sound.inserts {events : List Event} (h : Sound s) (hrun : inserts.Run s events s') :
    Sound s' := by
  induction hrun with
  | nil => exact h
  | snoc _ hstep ih =>
      obtain ⟨⟨i, now, rfl⟩, hstep⟩ := hstep
      exact (sound_step_iff ih hstep).mpr trivial

/-- All of them can come to their end, with the count as it is. -/
theorem exists_inserts (s : Blocking) :
    ∃ events s', inserts.Run s events s' ∧ s'.calls = [] ∧
      s'.listener.blockCount = s.listener.blockCount ∧
      (s'.listener.blocks = ∅ → s.listener.blocks = ∅ ∧ s.calls = []) := by
  induction hn : s.calls.length generalizing s with
  | zero =>
      have hnil := List.length_eq_zero_iff.mp hn
      exact ⟨[], s, .nil s, hnil, rfl, fun h ↦ ⟨h, hnil⟩⟩
  | succ n ih =>
      obtain ⟨addr, rest, hcalls⟩ := List.exists_cons_of_length_eq_add_one hn
      have hstep : Step s (.insert 0 0)
          { s with listener := s.listener.insertBlock addr 0, calls := s.calls.eraseIdx 0 } :=
        .insert (by rw [hcalls]; rfl)
      have hlen : (s.calls.eraseIdx 0).length = n := by
        rw [hcalls] at hn ⊢
        exact Nat.succ.inj hn
      obtain ⟨events, s', hrun, hnil, hcount, hempty⟩ :=
        ih { s with listener := s.listener.insertBlock addr 0, calls := s.calls.eraseIdx 0 } hlen
      have hfirst : inserts.Run s [.insert 0 0] _ := .single ⟨⟨0, 0, rfl⟩, hstep⟩
      refine ⟨[.insert 0 0] ++ events, s', hfirst.append hrun, hnil, hcount, fun h ↦ ?_⟩
      -- what has been inserted is there
      have hmem : Listener.blockKey addr ∈ (s.listener.insertBlock addr 0).blocks :=
        (Finmap.mem_insert ..).mpr (Or.inl rfl)
      rw [(hempty h).1] at hmem
      exact absurd hmem Finmap.notMem_empty

/-- **The fast path agrees while the count is kept.**  In every run in which the count does not wrap
around and is not cleared between the two steps of a call of `block`, whenever no call is in
progress a count of zero means that nothing is blocked, and `is_blocked` gives what the map says.  A
step meets the condition exactly when this also holds after it, however the calls in progress come
to their end. -/
theorem agrees_while_counted (h : (blockings.restrict Counted).Reachable s) :
    s.Agrees ∧ ∀ e s', blockings.step s e s' →
      ((∀ events s'', inserts.Run s' events s'' → s''.Agrees) ↔ Counted s e) := by
  have hsound : Sound s := by
    refine h.invariant ?_ ?_
    · rintro _ ⟨config, id, cookieSalt, hd, rfl⟩
      exact sound_new hd
    · exact fun _ _ _ _ hi hs ↦ (sound_step_iff hi hs.2).mpr hs.1
  refine ⟨hsound.agrees, fun e s' hs ↦ ?_⟩
  rw [← sound_step_iff hsound hs]
  constructor
  · intro hagrees
    refine ⟨by rw [duration_step hs]; exact hsound.duration, fun hzero ↦ ?_⟩
    obtain ⟨events, s'', hrun, hnil, hcount, hempty⟩ := exists_inserts s'
    exact hempty ((hagrees events s'' hrun hnil).1 (hcount.trans hzero))
  · exact fun h' events s'' hrun ↦ (h'.inserts hrun).agrees

def fresh : Blocking := new .default 0 0

theorem reachable_fresh : (blockings.restrict Counted).Reachable fresh :=
  .init ⟨.default, 0, 0, by decide, rfl⟩

/-- A call of `block` has returned, and a round of `gc_blocks` has found its address too young. -/
def kept : Blocking :=
  ⟨(fresh.listener.countBlock.insertBlock .unspecified 0).collectBlocks (seconds 1), [], none⟩

theorem reachable_kept : (blockings.restrict Counted).Reachable kept := by
  have hcount : Step fresh (.count .unspecified)
      ⟨fresh.listener.countBlock, [.unspecified], none⟩ := .count
  have hinsert : Step ⟨fresh.listener.countBlock, [.unspecified], none⟩ (.insert 0 0)
      ⟨fresh.listener.countBlock.insertBlock .unspecified 0, [], none⟩ := .insert rfl
  have hread : Step ⟨fresh.listener.countBlock.insertBlock .unspecified 0, [], none⟩
      (.read (seconds 1))
      ⟨fresh.listener.countBlock.insertBlock .unspecified 0, [], some (seconds 1)⟩ :=
    .read rfl (by decide)
  have hcollect : Step
      ⟨fresh.listener.countBlock.insertBlock .unspecified 0, [], some (seconds 1)⟩ .collect kept :=
    .collect rfl
  -- one address is left
  have hone : UInt32.ofNat ((fresh.listener.countBlock.insertBlock .unspecified 0).unexpired
      (seconds 1)).len ≠ 0 := by decide
  have hcounted : Counted fresh (.count .unspecified) :=
    (by decide : fresh.listener.blockCount + 1 ≠ 0)
  refine .step (a := .collect) (.step (a := .read (seconds 1)) (.step (a := .insert 0 0)
    (.step (a := .count .unspecified) reachable_fresh ⟨hcounted, hcount⟩) ⟨trivial, hinsert⟩)
    ⟨trivial, hread⟩) ⟨?_, hcollect⟩
  rintro now ⟨⟩ hzero
  exact absurd hzero hone

theorem agrees_while_counted_kept :
    kept.listener.isBlocked .unspecified = true ∧ kept.Agrees ∧
      ∀ e s', blockings.step kept e s' →
        ((∀ events s'', inserts.Run s' events s'' → s''.Agrees) ↔ Counted kept e) :=
  ⟨by decide, agrees_while_counted reachable_kept⟩

/-- A round of `gc_blocks` that comes between the two steps of a call of `block` clears the count:
the address is in the map, and is not blocked. -/
theorem cleared_count :
    ∃ s, blockings.Reachable s ∧ s.calls = [] ∧ s.listener.blockCount = 0 ∧
      s.listener.blocks ≠ ∅ ∧ s.listener.isBlocked .unspecified = false ∧
      s.listener.blocks.containsKey (Listener.blockKey .unspecified) = true := by
  have hcount : Step fresh (.count .unspecified)
      ⟨fresh.listener.countBlock, [.unspecified], none⟩ := .count
  have hread : Step ⟨fresh.listener.countBlock, [.unspecified], none⟩ (.read 0)
      ⟨fresh.listener.countBlock, [.unspecified], some 0⟩ := .read rfl (by decide)
  have hcollect : Step ⟨fresh.listener.countBlock, [.unspecified], some 0⟩ .collect
      ⟨fresh.listener, [.unspecified], none⟩ := .collect rfl
  have hinsert : Step ⟨fresh.listener, [.unspecified], none⟩ (.insert 0 0)
      ⟨fresh.listener.insertBlock .unspecified 0, [], none⟩ := .insert rfl
  have hmem : Listener.blockKey .unspecified ∈
      (fresh.listener.insertBlock .unspecified 0).blocks :=
    (Finmap.mem_insert ..).mpr (Or.inl rfl)
  refine ⟨⟨fresh.listener.insertBlock .unspecified 0, [], none⟩, ?_, rfl, rfl, fun h ↦ ?_, rfl,
    HashMap.containsKey_iff.mpr hmem⟩
  · have hfresh : blockings.Reachable fresh := reachable_fresh.of_restrict
    have h₁ : blockings.Reachable _ := hfresh.step hcount
    have h₂ : blockings.Reachable _ := h₁.step hread
    have h₃ : blockings.Reachable _ := h₂.step hcollect
    exact h₃.step hinsert
  · rw [h] at hmem
    exact Finmap.notMem_empty hmem

end Blocking

end Ragnet

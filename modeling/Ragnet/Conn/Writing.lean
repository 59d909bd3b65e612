import Ragnet.Conn.Invariants
import Ragnet.Packet.Split

/-!
# Whether a write completes

While the sender task takes the datagrams, a write on an open connection returns the number of
bytes it was given, whatever state it finds.  `Conn::new` clamps the MTU, so no size that `split`
computes underflows; but an empty message has no fragments, and `split` takes one from their
number.
-/

namespace Ragnet.Conn

open Proc Wire

section Write

variable (build : Build) {env : Env} {data : Bytes} {c : Conn}

/-- A write completes: it returns the number of bytes it was given. -/
def Completes (env : Env) (data : Bytes) (c : Conn) : Prop :=
  (write build env data c).2 = .ok data.length

theorem write_closed (hclosed : c.closed = true) :
    write build env data c = (c, .error (.error .connectionClosed)) := by
  rw [write, get_bind, if_pos hclosed]
  rfl

theorem write_open (hopen : c.closed = false) :
    write build env data c = writeLocked build env data c := by
  rw [write, get_bind, if_neg (by rw [hopen]; decide)]

/-- An empty write panics before it changes anything. -/
theorem write_nil (hopen : c.closed = false) : write build env [] c = (c, panicked) := by
  rw [write_open build hopen]
  exact writeLocked_of_error env (split_nil_eq build c.mtu.le_effective)

theorem completes_of_ne_nil (haccepts : ∀ i, env.accepts i = true) (hopen : c.closed = false)
    (hd : data ≠ []) : Completes build env data c := by
  obtain ⟨fragments, hf, -, hflat, -⟩ := split_spec build c.mtu.le_effective hd
  have hlength := writeLocked_length haccepts hf
  rw [hflat] at hlength
  rw [Completes, write_open build hopen]
  exact hlength

/-- A write completes when it has something to write and the connection is open. -/
theorem completes_iff (haccepts : ∀ i, env.accepts i = true) :
    Completes build env data c ↔ data ≠ [] ∧ c.closed = false := by
  constructor
  · intro h
    cases hclosed : c.closed with
    | true =>
        rw [Completes, write_closed build hclosed] at h
        cases h
    | false =>
        refine ⟨?_, rfl⟩
        rintro rfl
        rw [Completes, write_nil build hclosed] at h
        cases h
  · exact fun ⟨hd, hopen⟩ ↦ completes_of_ne_nil build haccepts hopen hd

/-- It panics when it has nothing to write and the connection is open. -/
theorem write_panics_iff (haccepts : ∀ i, env.accepts i = true) :
    (write build env data c).2 = panicked ↔ data = [] ∧ c.closed = false := by
  constructor
  · intro h
    cases hclosed : c.closed with
    | true =>
        rw [write_closed build hclosed] at h
        cases h
    | false =>
        refine ⟨?_, rfl⟩
        by_contra hd
        have hcompletes := completes_of_ne_nil build haccepts hclosed hd
        rw [Completes, h] at hcompletes
        cases hcompletes
  · rintro ⟨rfl, hopen⟩
    rw [write_nil build hopen]

end Write

/-! ## Runs -/

/-- A connection, and what each write of the application was given and has returned. -/
structure Writing where
  conn : Conn
  returned : List (Bytes × Result Nat)

namespace Writing

/-- What can happen: the application writes, or anything else is called. -/
inductive Event where
  | write (env : Env) (data : Bytes)
  | call (call : Call)

/-- The connection after an event, and what has been returned by then. -/
def run (build : Build) (handler : ConnectionHandler) (s : Writing) : Event → Writing
  | .write env data =>
      let written := Conn.write build env data s.conn
      ⟨written.1, s.returned ++ [(data, written.2)]⟩
  | .call call => ⟨call.run build handler s.conn, s.returned⟩

/-- All interleavings of writes with other calls on a new connection. -/
def writings (build : Build) (handler : ConnectionHandler) : Lts Writing Event where
  init s := ∃ mtu, s = ⟨new mtu, []⟩
  step s e s' := s' = s.run build handler e

def AllComplete (s : Writing) : Prop := ∀ w ∈ s.returned, w.2 = .ok w.1.length

def ChannelOpen : Event → Prop
  | .write env _ => ∀ i, env.accepts i = true
  | .call _ => True

/-- A write has something to write, and finds the connection open. -/
def WritesSome (s : Writing) : Event → Prop
  | .write _ data => data ≠ [] ∧ s.conn.closed = false
  | .call _ => True

variable {build : Build} {handler : ConnectionHandler} {s : Writing}

theorem allComplete_run_iff (h : s.AllComplete) {e : Event} (hopen : ChannelOpen e) :
    (s.run build handler e).AllComplete ↔ s.WritesSome e := by
  cases e with
  | write env data =>
      rw [WritesSome, ← completes_iff build hopen]
      constructor
      · exact fun hall ↦ hall _ (List.mem_append_right _ (List.mem_singleton.mpr rfl))
      · intro hcompletes w hw
        rcases List.mem_append.mp hw with hw | hw
        · exact h w hw
        · rw [List.mem_singleton.mp hw]
          exact hcompletes
  | call call => exact ⟨fun _ ↦ trivial, fun _ ↦ h⟩

/-- **Writes complete.**  In any state and with an open channel, a write returns the number of bytes
it was given exactly when there are any and the connection is open, and it panics exactly when there
are none and the connection is open.  So in a run whose writes all have something to write and find
the connection open, all of them complete, and the next one ends that exactly when it has not. -/
theorem allComplete_while_some (build : Build) (handler : ConnectionHandler) :
    (∀ (env : Env) (data : Bytes) (c : Conn), (∀ i, env.accepts i = true) →
      28 ≤ c.mtu.value ∧
        (Completes build env data c ↔ data ≠ [] ∧ c.closed = false) ∧
        ((Conn.write build env data c).2 = panicked ↔ data = [] ∧ c.closed = false)) ∧
      ∀ s, ((writings build handler).restrict fun s e ↦ ChannelOpen e ∧ s.WritesSome e).Reachable
          s →
        s.AllComplete ∧ ∀ e, ChannelOpen e →
          ((s.run build handler e).AllComplete ↔ s.WritesSome e) := by
  refine ⟨fun env data c haccepts ↦ ⟨le_trans (by decide) c.mtu.min_le,
    completes_iff build haccepts, write_panics_iff build haccepts⟩, fun s hs ↦ ?_⟩
  have hall : s.AllComplete := by
    refine hs.invariant ?_ fun s e s' _ hi hstep ↦ ?_
    · rintro _ ⟨mtu, rfl⟩ w hw
      cases hw
    · obtain ⟨⟨hopen, hsome⟩, rfl⟩ := hstep
      exact (allComplete_run_iff hi hopen).mpr hsome
  exact ⟨hall, fun e hopen ↦ allComplete_run_iff hall hopen⟩

/-- A run with one write of one byte. -/
theorem allComplete_while_some_one :
    (run .debug .forwarding ⟨new 1492, []⟩
      (.write .calm [7])).AllComplete :=
  ((allComplete_while_some .debug .forwarding).2 _
    (.step (a := .write .calm [7]) (.init ⟨1492, rfl⟩)
      ⟨⟨fun _ ↦ rfl, List.cons_ne_nil _ _, rfl⟩, rfl⟩)).1

/-- A write of no bytes on a new connection panics, whether or not overflow is checked. -/
theorem empty_write_panics :
    (calls .debug .forwarding).Reachable (new 1492) ∧
      (new 1492).closed = false ∧
      (Conn.write .debug .calm [] (new 1492)).2 = panicked ∧
      (Conn.write .release .calm [] (new 1492)).2 = panicked :=
  ⟨.init ⟨1492, rfl⟩, rfl, congrArg Prod.snd (write_nil .debug rfl),
    congrArg Prod.snd (write_nil .release rfl)⟩

end Writing

end Ragnet.Conn

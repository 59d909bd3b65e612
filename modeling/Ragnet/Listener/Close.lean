import Ragnet.Listener.Registry

/-!
# Closing a listener

`Listener::close` sets a flag, takes a snapshot of the connections map and closes the connections in
it one by one.  The listen loop looks at the flag at the top of every round, and then waits for a
datagram.  Here the steps of both come in any order, with all other tasks between them.

A datagram is handled in one step.  Of what handling it does, the insertion of a new connection is
the last thing, and nobody else inserts.
-/

namespace Ragnet

open Conn Proc Wire

/-- A round that opens no connection does no more than close one. -/
theorem Listener.shrinks_listenRound {build : Build} {hash : Bytes → UInt32} {env : ListenEnv}
    {data : Bytes} {addr : SocketAddr} {self : Listener} (h : ¬ self.Opens hash env data addr) :
    self.directory.Shrinks (self.listenRound build hash env data addr).1.directory := by
  cases hl : self.connections.lookup addr with
  | none =>
      rw [directory_listenRound_unknown hl h]
      exact .refl _
  | some i =>
      rcases @directory_listenRound_known build hash env data addr self i hl with hsame | hretired
      · rw [hsame]
        exact .refl _
      · rw [hretired]
        exact Directory.shrinks_retire _ i

inductive ListenPhase where
  /-- At the top of a round. -/
  | checking
  /-- In `recv_from`. -/
  | receiving
  /-- `recv_from` has failed. -/
  | failed
  /-- With a datagram that it has not handled. -/
  | handling (data : Bytes) (addr : SocketAddr)
  /-- With a datagram that it has handled, which may have ended in a panic. -/
  | handled (panic : Bool)
  /-- It has returned. -/
  | ended

/-- Where the call of `Listener::close` is that closes. -/
inductive ClosePhase where
  /-- There has been none. -/
  | uncalled
  /-- It has set the flag. -/
  | flagged
  /-- It has these connections left to close. -/
  | closing (rest : List Nat)
  /-- It has returned. -/
  | returned

/-- A listener, its loop and the call that closes it. -/
structure ListenerClose where
  listener : Listener
  closed : Bool
  loop : ListenPhase
  close : ClosePhase

namespace ListenerClose

inductive Event where
  /-- The loop looks at the flag. -/
  | check
  /-- It receives a datagram. -/
  | receive (data : Bytes) (addr : SocketAddr)
  /-- It receives an error. -/
  | fail
  /-- It looks at the flag after the error. -/
  | recheck
  /-- It handles the datagram. -/
  | handle (env : ListenEnv)
  /-- It goes back to the top. -/
  | finish
  /-- `close` sets the flag. -/
  | flag
  /-- `close` takes the snapshot. -/
  | snapshot
  /-- `close` closes the next connection.  The removal of its entry is a step of its own, like that
  of any other task. -/
  | closeNext
  /-- `close` returns. -/
  | closeReturn
  /-- Another task runs. -/
  | task (task : Listener.Task)

section System

variable (build : Build) (hash : Bytes → UInt32)

/-- The steps.  The buffer of the loop has 1500 bytes, and a snapshot is in no particular order. -/
inductive Step : ListenerClose → Event → ListenerClose → Prop
  | check {s : ListenerClose} :
      s.loop = .checking →
        Step s .check { s with loop := if s.closed then .ended else .receiving }
  | receive {s : ListenerClose} {data : Bytes} {addr : SocketAddr} :
      s.loop = .receiving → data.length ≤ 1500 →
        Step s (.receive data addr) { s with loop := .handling data addr }
  | fail {s : ListenerClose} : s.loop = .receiving → Step s .fail { s with loop := .failed }
  | recheck {s : ListenerClose} :
      s.loop = .failed →
        Step s .recheck { s with loop := if s.closed then .ended else .checking }
  | handle {s : ListenerClose} {env : ListenEnv} {data : Bytes} {addr : SocketAddr} :
      s.loop = .handling data addr →
        Step s (.handle env)
          { s with
            listener := (s.listener.listenRound build hash env data addr).1
            loop := .handled
              (decide ((s.listener.listenRound build hash env data addr).2 = panicked)) }
  | finish {s : ListenerClose} {panic : Bool} :
      s.loop = .handled panic →
        Step s .finish { s with loop := if panic then .ended else .checking }
  | flag {s : ListenerClose} :
      s.close = .uncalled → Step s .flag { s with closed := true, close := .flagged }
  | snapshot {s : ListenerClose} {rest : List Nat} :
      s.close = .flagged → (rest : Multiset Nat) = s.listener.connections.values →
        Step s .snapshot { s with close := .closing rest }
  | closeNext {s : ListenerClose} {i : Nat} {rest : List Nat} :
      s.close = .closing (i :: rest) →
        Step s .closeNext
          { s with
            listener := s.listener.modifyPeer i Peer.closeImmediately
            close := .closing rest }
  | closeReturn {s : ListenerClose} :
      s.close = .closing [] → Step s .closeReturn { s with close := .returned }
  | task {s : ListenerClose} {task : Listener.Task} :
      Step s (.task task) { s with listener := task.run build s.listener }

def new (config : ListenConfig) (id : Int64) (cookieSalt : UInt32) : ListenerClose :=
  ⟨.new config id cookieSalt, false, .checking, .uncalled⟩

/-- All interleavings of the tasks of a new listener. -/
def closes : Lts ListenerClose Event where
  init s := ∃ config id cookieSalt, s = new config id cookieSalt
  step := Step build hash

end System

/-- `close` has returned, and the loop has finished its round. -/
def Over (s : ListenerClose) : Prop :=
  s.close = .returned ∧ (s.loop = .checking ∨ s.loop = .ended)

/-- No connection in the map is open. -/
def NoneOpen (s : ListenerClose) : Prop :=
  ∀ addr i peer, s.listener.connections.lookup addr = some i → s.listener.peers[i]? = some peer →
    peer.conn.closed = true

/-- What `close` has left of its snapshot, once it has taken one. -/
def rest (s : ListenerClose) : Option (List Nat) :=
  match s.close with
  | .closing rest => some rest
  | .returned => some []
  | _ => none

/-- After the snapshot, the loop does not handle a request that it grants. -/
def OpensNone (hash : Bytes → UInt32) (s : ListenerClose) : Event → Prop
  | .handle env => s.rest.isSome → ∀ data addr, s.loop = .handling data addr →
      ¬ s.listener.Opens hash env data addr
  | _ => True

variable {build : Build} {hash : Bytes → UInt32} {s s' : ListenerClose} {e : Event}

/-! ## The invariant -/

/-- The flag is set first, and from the snapshot on only what is left of it is open. -/
structure Valid (s : ListenerClose) : Prop where
  flag : s.close ≠ .uncalled → s.closed = true
  closedBut : ∀ rest, s.rest = some rest → s.listener.directory.ClosedBut rest

theorem noneOpen_iff : s.NoneOpen ↔ s.listener.directory.ClosedBut [] := by
  constructor
  · intro h addr i hi
    refine Or.inr fun owner howner ↦ ?_
    obtain ⟨peer, hpeer, rfl⟩ := Listener.exists_of_directory howner
    exact congrArg (!·) (h addr i peer hi hpeer)
  · intro h addr i peer hi hpeer
    have hclosed := (h addr i hi).resolve_left List.not_mem_nil
    have howner := hclosed _ (Listener.directory_owner hpeer)
    rwa [Peer.owner, Bool.not_eq_false'] at howner

/-- A snapshot has all entries. -/
theorem closedBut_values {rest : List Nat}
    (h : (rest : Multiset Nat) = s.listener.connections.values) :
    s.listener.directory.ClosedBut rest := fun addr i hi ↦ by
  refine Or.inl (Multiset.mem_coe.mp ?_)
  rw [h, HashMap.values, Multiset.mem_map]
  exact ⟨⟨addr, i⟩, Finmap.mem_lookup_iff.mp hi, rfl⟩

/-- A step that opens none, after the snapshot. -/
theorem Valid.closedBut_step (h : Valid s) (hok : OpensNone hash s e)
    (hs : Step build hash s e s') {rest : List Nat} (hrest : s'.rest = some rest) :
    s'.listener.directory.ClosedBut rest := by
  cases hs with
  | handle hloop =>
      have hnone := hok (Option.isSome_of_eq_some hrest) _ _ hloop
      exact (Listener.shrinks_listenRound hnone).closedBut (h.closedBut rest hrest)
  | flag _ => cases hrest
  | snapshot _ hvalues =>
      obtain rfl := Option.some.inj hrest
      exact closedBut_values hvalues
  | closeNext hclose =>
      obtain rfl := Option.some.inj hrest
      rw [Listener.directory_modifyPeer fun peer _ ↦ peer.owner_closeImmediately]
      exact (h.closedBut _ (by rw [ListenerClose.rest, hclose])).close
  | closeReturn hclose =>
      obtain rfl := Option.some.inj hrest
      exact h.closedBut _ (by rw [ListenerClose.rest, hclose])
  | task => exact (Listener.shrinks_run build _ _).closedBut (h.closedBut rest hrest)
  | _ => exact h.closedBut rest hrest

theorem flag_step (h : s.close ≠ .uncalled → s.closed = true) (hs : Step build hash s e s') :
    s'.close ≠ .uncalled → s'.closed = true := by
  cases hs with
  | flag _ => exact fun _ ↦ rfl
  | snapshot hclose _ => exact fun _ ↦ h (by rw [hclose]; exact fun hn ↦ by cases hn)
  | closeNext hclose => exact fun _ ↦ h (by rw [hclose]; exact fun hn ↦ by cases hn)
  | closeReturn hclose => exact fun _ ↦ h (by rw [hclose]; exact fun hn ↦ by cases hn)
  | _ => exact h

theorem Valid.step (h : Valid s) (hok : OpensNone hash s e) (hs : Step build hash s e s') :
    Valid s' := ⟨flag_step h.flag hs, fun _ ↦ h.closedBut_step hok hs⟩

theorem valid_new {config : ListenConfig} {id : Int64} {cookieSalt : UInt32} :
    Valid (new config id cookieSalt) := ⟨fun h ↦ absurd rfl h, fun rest h ↦ by cases h⟩

/-! ## After the end -/

/-- Once it is over, it stays over, and connections only close. -/
theorem Over.step (h : s.Over) (hflag : s.closed = true) (hs : Step build hash s e s') :
    s'.Over ∧ s'.closed = true ∧ s.listener.directory.Shrinks s'.listener.directory := by
  obtain ⟨hreturned, hloop⟩ := h
  cases hs with
  | check _ => exact ⟨⟨hreturned, Or.inr (if_pos hflag)⟩, hflag, .refl _⟩
  | receive hreceiving _ | fail hreceiving =>
      rw [hreceiving] at hloop
      rcases hloop with hloop | hloop <;> cases hloop
  | recheck hfailed =>
      rw [hfailed] at hloop
      rcases hloop with hloop | hloop <;> cases hloop
  | handle hhandling =>
      rw [hhandling] at hloop
      rcases hloop with hloop | hloop <;> cases hloop
  | finish hhandled =>
      rw [hhandled] at hloop
      rcases hloop with hloop | hloop <;> cases hloop
  | flag hclose | snapshot hclose _ | closeNext hclose | closeReturn hclose =>
      cases hclose.symm.trans hreturned
  | task => exact ⟨⟨hreturned, hloop⟩, hflag, Listener.shrinks_run build _ _⟩

theorem Over.run {events : List Event} (h : s.Over) (hflag : s.closed = true)
    (hrun : (closes build hash).Run s events s') :
    s'.Over ∧ s'.closed = true ∧ s.listener.directory.Shrinks s'.listener.directory := by
  induction hrun with
  | nil => exact ⟨h, hflag, .refl _⟩
  | snoc _ hstep ih =>
      obtain ⟨hover, hflag', hshrinks⟩ := ih
      obtain ⟨hover', hflag'', hshrinks'⟩ := hover.step hflag' hstep
      exact ⟨hover', hflag'', hshrinks.trans hshrinks'⟩

/-- A datagram that opens a connection leaves it open in the map. -/
theorem not_noneOpen_of_opens (build : Build) {env : ListenEnv} {data : Bytes} {addr : SocketAddr}
    (h : s.listener.Opens hash env data addr) {s' : ListenerClose}
    (hs : s'.listener = (s.listener.listenRound build hash env data addr).1) : ¬ s'.NoneOpen := by
  obtain ⟨sent, mtu, hround⟩ := h.listenRound build
  intro hnone
  have hlookup : s'.listener.connections.lookup addr = some s.listener.peers.length := by
    rw [hs, hround]
    exact Finmap.lookup_insert _
  have hpeer : s'.listener.peers[s.listener.peers.length]? =
      some ⟨addr, Conn.new mtu.toNat, false, true, 0⟩ := by
    rw [hs, hround]
    exact List.getElem?_concat_length
  cases hnone addr _ _ hlookup hpeer

/-- **None is open while none is opened.**  In every run in which the loop, after `close` has taken
its snapshot, handles no request that it grants, once `close` has returned and the loop has finished
its round no connection in the map is open, and this stays so: no later step opens one or makes a
new one.  And after `close` has returned, a step keeps the connections in the map closed exactly
when it meets the condition. -/
theorem none_open_when_over (h : ((closes build hash).restrict (OpensNone hash)).Reachable s) :
    (s.Over → s.NoneOpen ∧ ∀ events s', (closes build hash).Run s events s' →
      s'.NoneOpen ∧ s'.listener.peers.length = s.listener.peers.length) ∧
    (s.close = .returned → ∀ e s', (closes build hash).step s e s' →
      (s'.NoneOpen ↔ OpensNone hash s e)) := by
  have hvalid : Valid s := by
    refine h.invariant ?_ ?_
    · rintro _ ⟨config, id, cookieSalt, rfl⟩
      exact valid_new
    · exact fun _ _ _ _ hi hs ↦ hi.step hs.1 hs.2
  constructor
  · intro hover
    have hnone := hvalid.closedBut [] (by rw [rest, hover.1])
    have hflag : s.closed = true :=
      hvalid.flag (by rw [hover.1]; exact fun hn ↦ by cases hn)
    refine ⟨noneOpen_iff.mpr hnone, fun events s' hrun ↦ ?_⟩
    obtain ⟨-, -, hshrinks⟩ := hover.run hflag hrun
    refine ⟨noneOpen_iff.mpr (hshrinks.closedBut hnone), ?_⟩
    have hlen := hshrinks.length
    rwa [Listener.directory, Listener.directory, List.length_map, List.length_map] at hlen
  · intro hreturned e s' hs
    have hrest : s.rest = some [] := by rw [rest, hreturned]
    constructor
    · intro hnone
      cases hs with
      | handle hloop =>
          intro _ data addr hloop' hopens
          obtain ⟨rfl, rfl⟩ := ListenPhase.handling.inj (hloop.symm.trans hloop')
          exact not_noneOpen_of_opens build hopens rfl hnone
      | _ => trivial
    · intro hok
      refine noneOpen_iff.mpr (hvalid.closedBut_step hok hs ?_)
      have hkept : s'.close = .returned := by
        cases hs with
        | flag hclose | snapshot hclose _ | closeNext hclose | closeReturn hclose =>
            cases hclose.symm.trans hreturned
        | _ => exact hreturned
      rw [rest, hkept]

/-! ## A request after the snapshot -/

/-- A new listener that asks for no cookies. -/
def start : ListenerClose := new ⟨true, seconds 10⟩ 1 0

/-- It waits for a datagram, and `close` has returned. -/
def waiting : ListenerClose := { start with closed := true, loop := .receiving, close := .returned }

/-- There was no connection to close. -/
theorem reachable_waiting :
    ((closes .release fun _ ↦ 0).restrict (OpensNone fun _ ↦ 0)).Reachable waiting := by
  have hcheck : Step .release (fun _ ↦ 0) start .check { start with loop := .receiving } :=
    .check rfl
  have hflag : Step .release (fun _ ↦ 0) { start with loop := .receiving } .flag
      { start with closed := true, loop := .receiving, close := .flagged } := .flag rfl
  have hsnapshot : Step .release (fun _ ↦ 0)
      { start with closed := true, loop := .receiving, close := .flagged } .snapshot
      { start with closed := true, loop := .receiving, close := .closing [] } := .snapshot rfl rfl
  have hreturn : Step .release (fun _ ↦ 0)
      { start with closed := true, loop := .receiving, close := .closing [] } .closeReturn
      waiting := .closeReturn rfl
  have h₀ : ((closes .release fun _ ↦ 0).restrict (OpensNone fun _ ↦ 0)).Reachable start :=
    .init ⟨_, _, _, rfl⟩
  have h₁ : ((closes .release fun _ ↦ 0).restrict (OpensNone fun _ ↦ 0)).Reachable _ :=
    h₀.step (a := .check) ⟨trivial, hcheck⟩
  have h₂ : ((closes .release fun _ ↦ 0).restrict (OpensNone fun _ ↦ 0)).Reachable _ :=
    h₁.step (a := .flag) ⟨trivial, hflag⟩
  have h₃ : ((closes .release fun _ ↦ 0).restrict (OpensNone fun _ ↦ 0)).Reachable _ :=
    h₂.step (a := .snapshot) ⟨trivial, hsnapshot⟩
  exact h₃.step (a := .closeReturn) ⟨trivial, hreturn⟩

def opened : Listener :=
  (start.listener.listenRound .release (fun _ ↦ 0) .calm Service.openRequest
    Service.clientAddr).1

/-- The connection of the client is closed, `close` has returned, and the loop is at the top of a
round. -/
def finished : ListenerClose :=
  ⟨opened.modifyPeer 0 Peer.closeImmediately, true, .checking, .returned⟩

theorem reachable_finished :
    ((closes .release fun _ ↦ 0).restrict (OpensNone fun _ ↦ 0)).Reachable finished := by
  have hgo {s s' : ListenerClose} {e : Event} (h : ((closes .release fun _ ↦ 0).restrict
      (OpensNone fun _ ↦ 0)).Reachable s) (hs : Step .release (fun _ ↦ 0) s e s')
      (hok : OpensNone (fun _ ↦ 0) s e) :
      ((closes .release fun _ ↦ 0).restrict (OpensNone fun _ ↦ 0)).Reachable s' :=
    h.step (a := e) ⟨hok, hs⟩
  have hround : (start.listener.listenRound .release (fun _ ↦ 0) .calm
      Service.openRequest Service.clientAddr).2 ≠ panicked := by decide +kernel
  have hchecked := hgo (.init ⟨_, _, _, rfl⟩) (.check (s := start) rfl) trivial
  have hreceived := hgo (e := .receive Service.openRequest Service.clientAddr) hchecked
    (.receive rfl (by decide)) trivial
  have hhandled := hgo (e := .handle .calm) hreceived (.handle rfl)
    fun hrest ↦ by cases hrest
  have hfinished := hgo hhandled (.finish rfl) trivial
  have hflagged := hgo hfinished (.flag rfl) trivial
  have hsnapshot := hgo hflagged (@Step.snapshot _ _ _ [0] rfl (by decide +kernel)) trivial
  have hclosed := hgo hsnapshot (.closeNext rfl) trivial
  have hreturned := hgo hclosed (.closeReturn rfl) trivial
  rw [decide_eq_false hround] at hreturned
  exact hreturned

/-- The connection is in the map still, and closed. -/
theorem none_open_when_over_finished :
    finished.Over ∧ finished.listener.connections.lookup Service.clientAddr = some 0 ∧
      (finished.Over → finished.NoneOpen ∧ ∀ events s',
        (closes .release fun _ ↦ 0).Run finished events s' →
          s'.NoneOpen ∧ s'.listener.peers.length = finished.listener.peers.length) :=
  ⟨⟨rfl, Or.inl rfl⟩, by decide +kernel, (none_open_when_over reachable_finished).1⟩

theorem opens_openRequest :
    start.listener.Opens (fun _ ↦ 0) .calm Service.openRequest Service.clientAddr := by
  refine ⟨by decide, rfl, rfl, _, _, rfl, rfl, ?_⟩
  decide

/-- The request that comes now is granted, and the loop ends its round with an open connection in
the map. -/
theorem open_after_close :
    ∃ s, (closes .release fun _ ↦ 0).Reachable s ∧ s.Over ∧ ¬ s.NoneOpen := by
  have hreceive : Step .release (fun _ ↦ 0) waiting
      (.receive Service.openRequest Service.clientAddr)
      { waiting with loop := .handling Service.openRequest Service.clientAddr } :=
    .receive rfl (by decide)
  have hwaiting := reachable_waiting.of_restrict
  have hhandle : Step .release (fun _ ↦ 0)
      { waiting with loop := .handling Service.openRequest Service.clientAddr }
      (.handle .calm) _ := .handle rfl
  have hhandled := (hwaiting.step hreceive).step hhandle
  have hover := hhandled.step (.finish rfl)
  refine ⟨_, hover, ⟨rfl, ?_⟩, not_noneOpen_of_opens .release opens_openRequest rfl⟩
  dsimp only
  split
  · exact Or.inr rfl
  · exact Or.inl rfl

end ListenerClose

end Ragnet

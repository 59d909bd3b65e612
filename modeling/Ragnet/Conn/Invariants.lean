import Ragnet.Conn.Arrival
import Ragnet.Conn.Steps

/-!
# Invariants of receiving

A predicate about the second half of receiving, and whether the connection is closed, is an
invariant of `receive` when the blocks that work on it keep it: reading a packet, putting an ordered
packet into the queue, putting a fragment into its entry, and handling a content.
-/

namespace Ragnet.Conn

open Proc Wire

/-- Every block of the second half keeps the predicate, and it does not depend on the first. -/
structure Kept (build : Build) (handler : ConnectionHandler) (I : Conn → Prop) : Prop where
  congr : ∀ c c' : Conn, c'.delivery = c.delivery →
    (c'.closing, c'.closed) = (c.closing, c.closed) → I c → I c'
  readPacket : ∀ data, Preserves I (readPacket build data)
  orderPacket : ∀ pk, Preserves I (orderPacket build handler pk)
  reassemble : ∀ pk, Preserves I (reassemble build handler pk)
  handlePacket : ∀ content, Preserves I (handlePacket handler content)

theorem delivery_of_receiving {c c' : Conn} (h : c'.receiving = c.receiving) :
    c'.delivery = c.delivery :=
  congrArg (fun r : Receiving ↦
    (⟨r.pk, r.splits, r.packetQueue, r.packetTx, r.handled, r.reassembled⟩ : Delivery)) h

namespace Kept

variable {build : Build} {handler : ConnectionHandler} {I : Conn → Prop}

theorem handleAll (h : Kept build handler I) (contents : List Bytes) :
    Preserves I (Conn.handleAll handler contents) := by
  induction contents with
  | nil => exact .pure ()
  | cons content contents ih => exact .bind (h.handlePacket content) fun _ ↦ ih

theorem receivePacket (h : Kept build handler I) (pk : Packet) :
    Preserves I (Conn.receivePacket build handler pk) :=
  .ite (h.handlePacket pk.content) (.bind (h.orderPacket pk) h.handleAll)

theorem takePacket (h : Kept build handler I) (pk : Packet) :
    Preserves I (Conn.takePacket build handler pk) := by
  refine .ite (.bind (h.reassemble pk) fun combined ↦ ?_) (h.receivePacket pk)
  cases combined with
  | none => exact .pure ()
  | some combinedPk => exact h.receivePacket combinedPk

theorem handleDatagram (h : Kept build handler I) (data : Bytes) :
    Preserves I (Conn.handleDatagram build handler data) := by
  suffices hloop : ∀ rounds data, Preserves I (handleLoop build handler rounds data) from
    hloop data.length data
  intro rounds
  induction rounds with
  | zero => exact fun _ ↦ .pure ()
  | succ rounds ih =>
      intro data
      refine .ite (.pure ()) (.bind (h.readPacket data) fun read ↦ ?_)
      exact .bind (.ofExcept _) fun rest ↦ .bind (h.takePacket read.1) fun _ ↦ ih rest

theorem receiveDatagram (h : Kept build handler I) (env : Env) (data : Bytes) :
    Preserves I (Conn.receiveDatagram build handler env data) := by
  refine .ite (.fail _) (.bind (.ofExcept _) fun seq ↦ .bind ?_ fun arrival ↦ ?_)
  · intro c hc
    obtain ⟨hdelivery, hstanding⟩ := Prod.mk.inj (enterDatagram_keeps build handler env.clock seq c)
    exact h.congr _ _ hdelivery
      (congrArg (fun s : Standing ↦ (s.closing, s.closed)) hstanding) hc
  · rcases arrival with _ | ⟨missing, windowError⟩
    · exact .pure ()
    refine .bind (fun c hc ↦ ?_) fun _ ↦ ?_
    · obtain ⟨datagrams, hreport⟩ := reportMissing_ok build env missing c
      rw [hreport]
      exact h.congr c _ rfl rfl hc
    · rcases windowError with _ | ⟨lowest, highest⟩
      · exact .bind (.ofExcept _) h.handleDatagram
      · exact .fail _

/-- A call that leaves the receive side alone is not seen. -/
theorem of_receiving {α : Type} {x : Action α} (h : Kept build handler I)
    (hx : Keeps Conn.receiving x) : Preserves I x :=
  hx.preserves fun _ _ hc ↦ h.congr _ _ (delivery_of_receiving hc)
    (congrArg (fun r : Receiving ↦ (r.closing, r.closed)) hc)

/-- So the whole call keeps it. -/
theorem receive (h : Kept build handler I) (env : Env) (data : Bytes) :
    Preserves I (Conn.receive build handler env data) := by
  cases data with
  | nil => exact .pure ()
  | cons flags rest =>
      refine .ite (h.of_receiving fun c ↦ ?_) (.ite (h.of_receiving fun c ↦ ?_)
        (.ite (h.receiveDatagram env rest) (.pure ())))
      · exact handleAck_receiving build env.clock rest c
      · exact handleNack_receiving build env rest c

end Kept

/-! ## The calls on a connection -/

/-- The calls that change a connection. -/
inductive Call where
  | receive (env : Env) (data : Bytes)
  | send (call : SendCall)
  | flushAcks (env : Env)
  /-- The paths that close a connection only set its two flags. -/
  | close (closing : Int) (closed : Bool)

/-- The connection after a call, whether or not the call has failed. -/
def Call.run (build : Build) (handler : ConnectionHandler) (c : Conn) : Call → Conn
  | .receive env data => (Conn.receive build handler env data c).1
  | .send call => call.run build c
  | .flushAcks env => Conn.flushAcks build env c
  | .close closing closed => { c with closing := closing, closed := closed }

/-- All interleavings of the calls on a new connection. -/
def calls (build : Build) (handler : ConnectionHandler) : Lts Conn Call where
  init c := ∃ mtu, c = new mtu
  step c call c' := c' = call.run build handler c

theorem flushAcks_delivery (build : Build) (env : Env) (c : Conn) :
    (flushAcks build env c).delivery = c.delivery := by
  obtain ⟨datagrams, hflush⟩ := flushAcks_eq build env c
  rw [hflush]
  rfl

/-- Only `receive` changes the second half of receiving. -/
theorem Call.run_delivery (build : Build) (handler : ConnectionHandler) (c : Conn) (call : Call)
    (h : ∀ env data, call ≠ .receive env data) :
    (call.run build handler c).delivery = c.delivery := by
  cases call with
  | receive env data => exact absurd rfl (h env data)
  | send call => exact delivery_of_receiving (call.run_receiving build c)
  | flushAcks env => exact flushAcks_delivery build env c
  | close closing closed => rfl

/-- A predicate about the second half of receiving alone is kept by every call. -/
theorem Kept.call {build : Build} {handler : ConnectionHandler} {I : Conn → Prop}
    (h : Kept build handler I) (hI : ∀ c c' : Conn, c'.delivery = c.delivery → I c → I c')
    (call : Call) {c : Conn} (hc : I c) : I (call.run build handler c) := by
  by_cases hreceive : ∃ env data, call = .receive env data
  · obtain ⟨env, data, rfl⟩ := hreceive
    exact h.receive env data c hc
  · refine hI c _ (call.run_delivery build handler c fun env data heq ↦ ?_) hc
    exact hreceive ⟨env, data, heq⟩

/-- So it holds in every state that is reached from one where it holds. -/
theorem Kept.reachable {build : Build} {handler : ConnectionHandler} {I : Conn → Prop}
    (h : Kept build handler I) (hI : ∀ c c' : Conn, c'.delivery = c.delivery → I c → I c')
    (h₀ : ∀ mtu, I (new mtu)) {c : Conn} (hc : (calls build handler).Reachable c) : I c := by
  refine hc.invariant ?_ fun c call c' _ hi hs ↦ ?_
  · rintro _ ⟨mtu, rfl⟩
    exact h₀ mtu
  · rw [hs]
    exact h.call hI call hi

/-! ## What was sent to the application stays sent -/

theorem kept_packetTx (build : Build) (handler : ConnectionHandler) (sent : List Bytes) :
    Kept build handler fun c ↦ sent <+: c.packetTx where
  congr c c' hc _ h := by
    have hsame : c'.packetTx = c.packetTx := congrArg Delivery.packetTx hc
    rwa [hsame]
  readPacket data := ((readPacket_frame build data).comp packetTx).preserves
    fun _ _ hc h ↦ by rwa [hc]
  orderPacket pk := ((orderPacket_frame build handler pk).comp packetTx).preserves
    fun _ _ hc h ↦ by rwa [hc]
  reassemble pk := ((reassemble_frame build handler pk).comp packetTx).preserves
    fun _ _ hc h ↦ by rwa [hc]
  handlePacket content := by
    refine .bind .get fun c ↦ .bind (.modify fun _ h ↦ h) fun _ ↦ .ite (.fail _) ?_
    refine .ite (.pure ()) (.bind (.ofExcept _) fun handled ↦ .ite (.pure ()) ?_)
    exact .modify fun c h ↦ h.trans (List.prefix_append _ _)

/-- A call of `receive` only adds to what was sent to the application. -/
theorem receive_packetTx (build : Build) (handler : ConnectionHandler) (env : Env) (data : Bytes)
    (c : Conn) : c.packetTx <+: (receive build handler env data c).1.packetTx :=
  (kept_packetTx build handler c.packetTx).receive env data c (List.prefix_refl _)

/-! ## What was handled stays handled -/

theorem kept_handled (build : Build) (handler : ConnectionHandler) (log : List Bytes) :
    Kept build handler fun c ↦ log <+: c.handled where
  congr c c' hc _ h := by
    have hsame : c'.handled = c.handled := congrArg Delivery.handled hc
    rwa [hsame]
  readPacket data := ((readPacket_frame build data).comp handled).preserves
    fun _ _ hc h ↦ by rwa [hc]
  orderPacket pk := ((orderPacket_frame build handler pk).comp handled).preserves
    fun _ _ hc h ↦ by rwa [hc]
  reassemble pk := ((reassemble_frame build handler pk).comp handled).preserves
    fun _ _ hc h ↦ by rwa [hc]
  handlePacket content := by
    refine .bind .get fun c ↦ .bind (.modify fun c h ↦ h.trans (List.prefix_append _ _)) fun _ ↦ ?_
    refine .ite (.fail _) (.ite (.pure ()) (.bind (.ofExcept _) fun handled ↦ ?_))
    exact .ite (.pure ()) (.modify fun _ h ↦ h)

theorem receive_handled (build : Build) (handler : ConnectionHandler) (env : Env) (data : Bytes)
    (c : Conn) : c.handled <+: (receive build handler env data c).1.handled :=
  (kept_handled build handler c.handled).receive env data c (List.prefix_refl _)

/-! ## Whether the connection is closed -/

theorem kept_closed (build : Build) (handler : ConnectionHandler) (b : Bool) :
    Kept build handler fun c ↦ c.closed = b where
  congr _ _ _ hc h := (Prod.mk.inj hc).2.trans h
  readPacket data := ((readPacket_frame build data).comp closed).preserves
    fun _ _ hc h ↦ hc.trans h
  orderPacket pk := ((orderPacket_frame build handler pk).comp closed).preserves
    fun _ _ hc h ↦ hc.trans h
  reassemble pk := ((reassemble_frame build handler pk).comp closed).preserves
    fun _ _ hc h ↦ hc.trans h
  handlePacket content := ((handlePacket_frame handler content).comp closed).preserves
    fun _ _ hc h ↦ hc.trans h

/-- Receiving does not close a connection; its handler may have to. -/
theorem receive_closed (build : Build) (handler : ConnectionHandler) (env : Env) (data : Bytes)
    (c : Conn) : (receive build handler env data c).1.closed = c.closed :=
  (kept_closed build handler c.closed).receive env data c rfl

end Ragnet.Conn

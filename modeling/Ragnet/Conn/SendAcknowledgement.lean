import Ragnet.Acknowledge.Codec
import Ragnet.Conn.Send

/-!
# Sending acknowledgements

`send_acknowledgement` puts a list of sequence numbers into as many datagrams as it takes.  Each
round writes a first stretch of the *sorted* list and then removes as many numbers from the front
of the list *as it is*.  The two agree in every round exactly when the list falls into ascending
blocks at the places where the sorted list overflows a datagram; within a block the order is
immaterial.
-/

namespace Ragnet

open Wire

namespace Acknowledgement

/-- The loop of the writer takes at least what has been taken. -/
theorem le_writeLoop_n {build : Build} {mtu : Nat} (iter : List Uint24) {p p' : Pending}
    (h : writeLoop build mtu iter p = .ok p') : p.n ≤ p'.n := by
  induction iter generalizing p with
  | nil => exact (congrArg Pending.n (Except.ok.inj h)).le
  | cons pk iter ih =>
      rw [writeLoop] at h
      cases hl : (Checked.sub build 16 mtu 7 : Result Nat) with
      | error e =>
          rw [hl] at h
          cases h
      | ok limit =>
          rw [hl, Checked.ok_bind] at h
          split at h
          · exact (congrArg Pending.n (Except.ok.inj h)).le
          · split at h
            · exact (Nat.le_succ _).trans (ih h)
            · exact (Nat.le_succ _).trans (ih h)

/-- A non-empty list is not left as it is. -/
theorem writeToBuf_pos {build : Build} {mtu n : Nat} {packets : List Uint24} {buf buf' : Bytes}
    (hne : packets ≠ []) (h : writeToBuf build ⟨packets⟩ buf mtu = .ok (buf', n)) : 0 < n := by
  rw [writeToBuf] at h
  cases hs : sorted packets with
  | nil =>
      have hlen := (sorted_perm packets).length_eq
      rw [hs] at hlen
      exact absurd (List.length_eq_zero_iff.mp hlen.symm) hne
  | cons first iter =>
      rw [hs] at h
      dsimp only at h
      cases hw : writeLoop build mtu iter ⟨[], 0, 1, first, first⟩ with
      | error e =>
          rw [hw] at h
          cases h
      | ok p =>
          rw [hw] at h
          obtain rfl : p.n = n := congrArg Prod.snd (Except.ok.inj h)
          exact le_writeLoop_n iter hw

end Acknowledgement

namespace Conn

/-- The loop of `send_acknowledgement`.  `let _ = self.send_tx.send(..).await` ignores a channel
that is closed, and `split_off` panics beyond the end of the list. -/
def acknowledgementLoop (build : Build) (env : Env) (mtu : Nat) (bitflag : UInt8) (i : Nat)
    (packets : List Uint24) : Action Unit :=
  if _hne : packets = [] then pure ()
  else
    match hw : Acknowledgement.writeToBuf build ⟨packets⟩ [bitflag ||| bitFlagDatagram] mtu with
    | .error e => Proc.fail e
    | .ok (buf, n) =>
        if n ≤ packets.length then do
          Proc.modify (trySend (env.accepts i) buf)
          acknowledgementLoop build env mtu bitflag (i + 1) (packets.drop n)
        else Proc.fail .panic
termination_by packets.length
decreasing_by
  rw [List.length_drop]
  exact Nat.sub_lt (List.length_pos_iff.mpr _hne) (Acknowledgement.writeToBuf_pos _hne hw)

theorem acknowledgementLoop_nil (build : Build) (env : Env) (mtu : Nat) (bitflag : UInt8)
    (i : Nat) : acknowledgementLoop build env mtu bitflag i [] = pure () := by
  rw [acknowledgementLoop, dif_pos rfl]

/-- One round of the loop. -/
theorem acknowledgementLoop_round {build : Build} {env : Env} {mtu : Nat} {bitflag : UInt8}
    {i n : Nat} {packets : List Uint24} {buf : Bytes} (hne : packets ≠ [])
    (hw : Acknowledgement.writeToBuf build ⟨packets⟩ [bitflag ||| bitFlagDatagram] mtu =
      .ok (buf, n)) (hle : n ≤ packets.length) :
    acknowledgementLoop build env mtu bitflag i packets = (do
      Proc.modify (trySend (env.accepts i) buf)
      acknowledgementLoop build env mtu bitflag (i + 1) (packets.drop n)) := by
  rw [acknowledgementLoop, dif_neg hne]
  split
  · next e he =>
    rw [hw] at he
    cases he
  · next buf' n' he =>
    rw [hw] at he
    obtain ⟨rfl, rfl⟩ := Prod.mk.inj (Except.ok.inj he)
    rw [if_pos hle]

def sendAcknowledgement (build : Build) (env : Env) (packets : List Uint24) (bitflag : UInt8) :
    Action Unit := do
  let c ← Proc.get
  acknowledgementLoop build env c.mtu.effective bitflag 0 packets

/-- The loop sends some datagrams and does nothing else, however long its list. -/
theorem acknowledgementLoop_ok {build : Build} {env : Env} {mtu : Nat} {bitflag : UInt8}
    (hmtu : 7 ≤ mtu) (i : Nat) (packets : List Uint24) (c : Conn) :
    ∃ datagrams, acknowledgementLoop build env mtu bitflag i packets c =
      ({ c with sendTx := c.sendTx ++ datagrams }, .ok ()) := by
  induction hn : packets.length using Nat.strong_induction_on generalizing i packets c with
  | _ n ih =>
    subst hn
    by_cases hne : packets = []
    · subst hne
      rw [acknowledgementLoop_nil]
      exact ⟨[], by rw [List.append_nil]; rfl⟩
    · obtain ⟨p, written, hw, hcap, -⟩ := @Acknowledgement.writeToBuf_pending build mtu packets
        [bitflag ||| bitFlagDatagram] hmtu hne
      generalize [bitflag ||| bitFlagDatagram] ++ _ = datagram at hw
      have hpos := Acknowledgement.writeToBuf_pos hne hw
      have hle : p.n ≤ packets.length := by
        rw [hcap]
        exact (Acknowledgement.capacity_le _ _).trans_eq
          (Acknowledgement.sorted_perm packets).length_eq
      have hdrop : (packets.drop p.n).length < packets.length := by
        rw [List.length_drop]
        exact Nat.sub_lt (List.length_pos_iff.mpr hne) hpos
      obtain ⟨datagrams, hloop⟩ := ih _ hdrop (i + 1) (packets.drop p.n)
        (trySend (env.accepts i) datagram c) rfl
      rw [acknowledgementLoop_round hne hw hle, Proc.modify_bind, hloop]
      cases env.accepts i with
      | false => exact ⟨datagrams, rfl⟩
      | true =>
          refine ⟨datagram :: datagrams, ?_⟩
          rw [trySend, if_pos rfl, List.append_assoc, List.singleton_append]

/-- Sending an acknowledgement never fails. -/
theorem sendAcknowledgement_ok (build : Build) (env : Env) (packets : List Uint24)
    (bitflag : UInt8) (c : Conn) :
    ∃ datagrams, sendAcknowledgement build env packets bitflag c =
      ({ c with sendTx := c.sendTx ++ datagrams }, .ok ()) := by
  have hmtu := c.mtu.effective_bounds
  exact acknowledgementLoop_ok (by omega) 0 packets c

def sendAck (build : Build) (env : Env) (packets : List Uint24) : Action Unit :=
  sendAcknowledgement build env packets bitFlagAck

def sendNack (build : Build) (env : Env) (packets : List Uint24) : Action Unit :=
  sendAcknowledgement build env packets bitFlagNack

/-- `Conn::flush_acks`, which ignores how the sending went. -/
def flushAcks (build : Build) (env : Env) (self : Conn) : Conn :=
  if self.state.ackSlice = [] then self
  else (sendAck build env self.state.ackSlice { self with state.ackSlice := [] }).1

/-- Acknowledgements that fit one datagram go out in one. -/
theorem flushAcks_round {build : Build} {env : Env} {c : Conn} {buf : Bytes}
    (hne : c.state.ackSlice ≠ [])
    (hw : Acknowledgement.writeToBuf build ⟨c.state.ackSlice⟩ [bitFlagAck ||| bitFlagDatagram]
      c.mtu.effective = .ok (buf, c.state.ackSlice.length)) :
    flushAcks build env c = trySend (env.accepts 0) buf { c with state.ackSlice := [] } := by
  have hloop : acknowledgementLoop build env c.mtu.effective bitFlagAck 0 c.state.ackSlice =
      (Proc.modify (trySend (env.accepts 0) buf) >>= fun _ ↦ pure ()) := by
    rw [acknowledgementLoop_round hne hw (Nat.le_refl _), List.drop_length]
    exact congrArg _ (funext fun _ ↦ acknowledgementLoop_nil build env _ bitFlagAck 1)
  have hsend : flushAcks build env c =
      (acknowledgementLoop build env c.mtu.effective bitFlagAck 0 c.state.ackSlice
        { c with state.ackSlice := [] }).1 := by
    rw [flushAcks, if_neg hne]
    rfl
  rw [hsend, hloop]
  rfl

/-- It empties the list and sends some datagrams. -/
theorem flushAcks_eq (build : Build) (env : Env) (c : Conn) :
    ∃ datagrams, flushAcks build env c =
      { c with state.ackSlice := [], sendTx := c.sendTx ++ datagrams } := by
  rw [flushAcks]
  split
  · next hnil =>
    refine ⟨[], ?_⟩
    rw [List.append_nil, ← hnil]
  · obtain ⟨datagrams, hsend⟩ := sendAcknowledgement_ok build env c.state.ackSlice bitFlagAck
      { c with state.ackSlice := [] }
    exact ⟨datagrams, congrArg Prod.fst hsend⟩

end Conn

end Ragnet

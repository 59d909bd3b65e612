import Ragnet.Conn.Frames
import Ragnet.Conn.Intake

/-!
# The arrival of a datagram

What `receive_datagram` does up to the contents of the datagram, as equations: a number seen before
changes nothing, and a new one is entered into the window and into the pending acknowledgements
before anything else can fail.
-/

namespace Ragnet

open Wire

namespace DatagramWindow

/-- The window operations of `receive_datagram` for a new number: the window afterwards and the
numbers to report. -/
def enter (self : DatagramWindow) (rtt : Duration) (clock : Clock) (seq : Uint24) :
    DatagramWindow × List Uint24 :=
  let shifted := (self.add seq (clock 0)).1.shift
  if shifted.2 = 0 then
    shifted.1.missing (rtt + rtt / 2) (clock 1) fun i ↦ clock (2 + i)
  else (shifted.1, [])

/-- Entering a number makes it seen, along with the numbers that are reported as missing. -/
theorem seen_enter {w : DatagramWindow} {rtt : Duration} {clock : Clock} {seq : Uint24} {i : Nat} :
    (w.enter rtt clock seq).1.Seen i ↔
      w.Seen i ∨ i = seq.value ∨ i ∈ (w.enter rtt clock seq).2.map Uint24.value := by
  rw [enter]
  split
  · rw [seen_missing, seen_shift, seen_add, or_assoc]
  · rw [seen_shift, seen_add, List.map_nil]
    simp

/-- The upper bound is the one that `add` sets. -/
theorem enter_highest (w : DatagramWindow) (rtt : Duration) (clock : Clock) (seq : Uint24) :
    (w.enter rtt clock seq).1.highest = (w.add seq (clock 0)).1.highest := by
  rw [enter]
  split
  · rfl
  · rfl

/-- The lower bound does not decrease. -/
theorem lowest_le_enter (w : DatagramWindow) (rtt : Duration) (clock : Clock) (seq : Uint24) :
    w.lowest.value ≤ (w.enter rtt clock seq).1.lowest.value := by
  have hshift := lowest_le_shift (w.add seq (clock 0)).1
  rw [add_lowest] at hshift
  rw [enter]
  split
  · exact hshift.trans lowest_le_missing
  · exact hshift

end DatagramWindow

namespace Conn

open Proc

variable (build : Build) (handler : ConnectionHandler) (env : Env)

/-- A connection that has entered a datagram. -/
def entered (self : Conn) (clock : Clock) (seq : Uint24) : Conn :=
  { self with
    state.win := (self.state.win.enter self.rtt clock seq).1
    state.ackSlice := self.state.ackSlice ++ [seq] }

variable {c : Conn} {clock : Clock} {seq : Uint24}

theorem enterDatagram_seen (h : c.state.win.Seen seq.value) :
    enterDatagram build handler clock seq c = (c, .ok none) := by
  rw [enterDatagram, update_bind, DatagramWindow.add_of_seen h]
  rfl

/-- Checking the window changes nothing, and only its size can go wrong. -/
theorem checkWindow_apply (c : Conn) :
    checkWindow build handler c =
      (c, (c.state.win.size build).map fun size ↦
        if Exceeds handler size then
          some (c.state.win.lowest.value, c.state.win.highest.value)
        else none) := by
  rw [checkWindow, get_bind]
  cases c.state.win.size build with
  | error e => rfl
  | ok size =>
      rw [ofExcept_ok_bind, Except.map]
      change
        (if Exceeds handler size then pure _ else pure none : Action (Option (Nat × Nat))) c = _
      split
      · rfl
      · rfl

/-- A new datagram is entered, and only the size of the window can go wrong. -/
theorem enterDatagram_new (h : ¬ c.state.win.Seen seq.value) :
    enterDatagram build handler clock seq c =
      (c.entered clock seq,
        ((c.entered clock seq).state.win.size build).map fun size ↦
          some ((c.state.win.enter c.rtt clock seq).2,
            if Exceeds handler size then
              some ((c.entered clock seq).state.win.lowest.value,
                (c.entered clock seq).state.win.highest.value)
            else none)) := by
  have hadd := (@DatagramWindow.add_accepts_iff _ _ (clock 0)).mpr h
  have hscan : scanMissing clock (c.state.win.add seq (clock 0)).1.shift.2
      { c with
        state.win := (c.state.win.add seq (clock 0)).1.shift.1
        state.ackSlice := c.state.ackSlice ++ [seq] } =
      (c.entered clock seq, .ok (c.state.win.enter c.rtt clock seq).2) := by
    rw [scanMissing, entered, DatagramWindow.enter]
    split
    · rfl
    · rfl
  rw [enterDatagram, update_bind, if_neg (by rw [hadd]; decide), modify_bind, update_bind]
  refine (bind_ok hscan).trans ?_
  rw [bind_apply, checkWindow_apply]
  cases (c.entered clock seq).state.win.size build with
  | error e => rfl
  | ok size => rfl

/-! ## The whole call -/

section Receive

variable {data : Wire.Bytes}

theorem receiveDatagram_short (h : data.length < 3) :
    receiveDatagram build handler env data c = (c, .error (.error .unexpectedEof)) := by
  rw [receiveDatagram, if_pos h]
  rfl

/-- A datagram that arrives again is ignored. -/
theorem receiveDatagram_seen (hl : loadUint24 data = .ok seq) (h : c.state.win.Seen seq.value) :
    receiveDatagram build handler env data c = (c, .ok ()) := by
  have hlen := loadUint24_isOk.mp ⟨seq, hl⟩
  rw [receiveDatagram, if_neg (by omega), hl, ofExcept_ok_bind,
    bind_ok (enterDatagram_seen build handler h)]
  rfl

/-- A new datagram is entered, what is missing is reported, and the contents are handled if the
window is not too big. -/
theorem receiveDatagram_new (hl : loadUint24 data = .ok seq)
    (h : ¬ c.state.win.Seen seq.value) :
    ∃ nacks, receiveDatagram build handler env data c =
      match (c.entered env.clock seq).state.win.size build with
      | .error e => (c.entered env.clock seq, .error e)
      | .ok size =>
          if Exceeds handler size then
            ({ c.entered env.clock seq with sendTx := c.sendTx ++ nacks },
              .error (.error (.windowSizeTooBig (c.entered env.clock seq).state.win.lowest.value
                (c.entered env.clock seq).state.win.highest.value)))
          else
            handleDatagram build handler (data.drop 3)
              { c.entered env.clock seq with sendTx := c.sendTx ++ nacks } := by
  have hlen := loadUint24_isOk.mp ⟨seq, hl⟩
  have henter := @enterDatagram_new build handler c env.clock seq h
  obtain ⟨nacks, hreport⟩ := reportMissing_ok build env
    (c.state.win.enter c.rtt env.clock seq).2 (c.entered env.clock seq)
  refine ⟨nacks, ?_⟩
  rw [receiveDatagram, if_neg (by omega), hl, ofExcept_ok_bind]
  cases hsize : (c.entered env.clock seq).state.win.size build with
  | error e =>
      rw [hsize] at henter
      rw [bind_error henter]
  | ok size =>
      rw [hsize] at henter
      rw [bind_ok henter]
      dsimp only
      rw [bind_ok hreport]
      by_cases hbig : Exceeds handler size
      · rw [if_pos hbig, if_pos hbig]
        rfl
      · rw [if_neg hbig, if_neg hbig, Checked.sliceFrom_of_le hlen]
        rfl

end Receive

end Conn

end Ragnet

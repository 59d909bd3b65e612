import Ragnet.Conn.Receive

/-!
# Handling contents

`handle_packet` on one content and on a batch, as equations.  Whether a content is taken or refused
depends on the handler, on the closing flag and on what was handled before; a batch is handled up
to its first content that is refused.
-/

namespace Ragnet.Conn

open Proc Wire

variable (handler : ConnectionHandler) (closing : Int)

/-- A content is taken: the connection is closing, or the handler returns. -/
def ContentTaken (handled : List Bytes) (content : Bytes) : Prop :=
  content ≠ [] ∧ (closing ≠ 0 ∨ ∃ b, handler.handle handled content = .ok b)

/-- A content is refused with an error: it is empty, or the handler returns an error. -/
def ContentRefused (handled : List Bytes) (content : Bytes) : Prop :=
  content = [] ∨ (closing = 0 ∧ ∃ e, handler.handle handled content = .error (.error e))

/-- A batch is refused: some content of it is, and those before it are taken. -/
def BatchRefused : List Bytes → List Bytes → Prop
  | _, [] => False
  | handled, content :: contents =>
      ContentRefused handler closing handled content ∨
        (ContentTaken handler closing handled content ∧
          BatchRefused (handled ++ [content]) contents)

/-- What goes on to the application. -/
def forwarded (handled : List Bytes) (content : Bytes) : List Bytes :=
  if closing = 0 ∧ handler.handle handled content = .ok false then [content] else []

def forwardedAll : List Bytes → List Bytes → List Bytes
  | _, [] => []
  | handled, content :: contents =>
      forwarded handler closing handled content ++ forwardedAll (handled ++ [content]) contents

variable {handler} {closing} {c : Conn} {content : Bytes} {contents : List Bytes}

theorem ContentTaken.not_refused {handled : List Bytes}
    (h : ContentTaken handler closing handled content) :
    ¬ ContentRefused handler closing handled content := by
  obtain ⟨hne, hok⟩ := h
  rintro (he | ⟨hclosing, e, he⟩)
  · exact hne he
  · rcases hok with hok | ⟨b, hok⟩
    · exact hok hclosing
    · rw [hok] at he
      cases he

theorem handlePacket_taken (h : ContentTaken handler c.closing c.handled content) :
    handlePacket handler content c =
      ({ c with
          handled := c.handled ++ [content]
          packetTx := c.packetTx ++ forwarded handler c.closing c.handled content }, .ok ()) := by
  obtain ⟨hne, hok⟩ := h
  rw [handlePacket, get_bind, modify_bind, if_neg hne, forwarded]
  by_cases hclosing : c.closing = 0
  · obtain ⟨b, hb⟩ := hok.resolve_left (fun hn ↦ hn hclosing)
    rw [if_neg (fun hn ↦ hn hclosing), hb, ofExcept_ok_bind]
    cases b with
    | false => simp [hclosing]
    | true => simp
  · rw [if_pos hclosing, if_neg (fun hc ↦ hclosing hc.1), List.append_nil]
    rfl

/-- A content is recorded whether it is taken or refused. -/
theorem handlePacket_handled (handler : ConnectionHandler) (content : Bytes) (c : Conn) :
    (handlePacket handler content c).1.handled = c.handled ++ [content] := by
  rw [handlePacket, get_bind, modify_bind]
  split
  · rfl
  split
  · rfl
  rcases handler.handle c.handled content with e | b
  · rfl
  · cases b with
    | false => rfl
    | true => rfl

/-- Which faults a content can lead to. -/
theorem handlePacket_avoids {handler : ConnectionHandler} {e : Fault Error}
    (hzero : e ≠ .error .zeroPacket)
    (hhandler : ∀ handled content, handler.handle handled content ≠ .error e) (content : Bytes) :
    Avoids e (handlePacket handler content) := by
  refine .bind .get fun c ↦ .bind (.modify _) fun _ ↦ .ite (.fail hzero.symm) ?_
  exact .ite (.pure ()) (.bind (.ofExcept (hhandler _ _)) fun b ↦ .ite (.pure ()) (.modify _))

theorem handleAll_avoids {handler : ConnectionHandler} {e : Fault Error}
    (hzero : e ≠ .error .zeroPacket)
    (hhandler : ∀ handled content, handler.handle handled content ≠ .error e)
    (contents : List Bytes) : Avoids e (handleAll handler contents) := by
  induction contents with
  | nil => exact .pure ()
  | cons content contents ih =>
      exact .bind (handlePacket_avoids hzero hhandler content) fun _ ↦ ih

/-- The call returns an error exactly on the contents that are refused. -/
theorem handlePacket_refused_iff :
    (∃ e, (handlePacket handler content c).2 = .error (.error e)) ↔
      ContentRefused handler c.closing c.handled content := by
  rw [handlePacket, get_bind, modify_bind, ContentRefused]
  by_cases hne : content = []
  · simp [hne]
  by_cases hclosing : c.closing = 0
  · rw [if_neg hne, if_neg (fun hn ↦ hn hclosing)]
    rcases hh : handler.handle c.handled content with e | b
    · simp [hne, hclosing]
    · cases b with
      | false => simp [hne]
      | true => simp [hne]
  · rw [if_neg hne, if_pos hclosing]
    simp [hne, hclosing]

/-- A content is taken, or the call fails. -/
theorem handlePacket_ok {c' : Conn} (h : handlePacket handler content c = (c', .ok ())) :
    ContentTaken handler c.closing c.handled content := by
  rw [handlePacket, get_bind, modify_bind] at h
  by_cases hne : content = []
  · rw [if_pos hne] at h
    cases h
  · refine ⟨hne, ?_⟩
    by_cases hclosing : c.closing = 0
    · rw [if_neg hne, if_neg (fun hn ↦ hn hclosing)] at h
      rcases hh : handler.handle c.handled content with e | b
      · rw [hh] at h
        cases h
      · exact Or.inr ⟨b, rfl⟩
    · exact Or.inl hclosing

theorem handleAll_refused_iff :
    (∃ e, (handleAll handler contents c).2 = .error (.error e)) ↔
      BatchRefused handler c.closing c.handled contents := by
  induction contents generalizing c with
  | nil => exact ⟨fun ⟨e, he⟩ ↦ (by cases he), False.elim⟩
  | cons content contents ih =>
      rw [handleAll, BatchRefused]
      by_cases ht : ContentTaken handler c.closing c.handled content
      · rw [bind_ok (handlePacket_taken ht), ih]
        constructor
        · exact fun h ↦ Or.inr ⟨ht, h⟩
        · rintro (h | ⟨-, h⟩)
          · exact absurd h ht.not_refused
          · exact h
      · rw [← handlePacket_refused_iff (c := c)]
        rcases hp : handlePacket handler content c with ⟨c', e | _⟩
        · rw [bind_error hp]
          exact ⟨Or.inl, fun h ↦ h.resolve_right fun h ↦ ht h.1⟩
        · exact absurd (handlePacket_ok hp) ht

/-- A batch that is handled without an error has been handled to its end. -/
theorem handleAll_ok {c' : Conn} (h : handleAll handler contents c = (c', .ok ())) :
    c'.handled = c.handled ++ contents := by
  induction contents generalizing c with
  | nil =>
      obtain ⟨rfl, -⟩ := Prod.mk.inj h
      exact (List.append_nil _).symm
  | cons content contents ih =>
      rw [handleAll] at h
      obtain ⟨c₁, _, hp, hrest⟩ := bind_eq_ok.mp h
      have hhandled := handlePacket_handled handler content c
      rw [hp] at hhandled
      rw [ih hrest, hhandled, List.append_assoc, List.singleton_append]

/-- A batch all of whose contents are taken. -/
theorem handleAll_taken
    (h : ∀ handled, ∀ content ∈ contents, ContentTaken handler c.closing handled content) :
    handleAll handler contents c =
      ({ c with
          handled := c.handled ++ contents
          packetTx := c.packetTx ++ forwardedAll handler c.closing c.handled contents },
        .ok ()) := by
  induction contents generalizing c with
  | nil => simp [handleAll, forwardedAll]
  | cons content contents ih =>
      have ht := h c.handled content List.mem_cons_self
      rw [handleAll, bind_ok (handlePacket_taken ht)]
      refine Eq.trans (ih (c := { c with
        handled := c.handled ++ [content]
        packetTx := c.packetTx ++ forwarded handler c.closing c.handled content })
        fun handled x hx ↦ h handled x (List.mem_cons_of_mem _ hx)) ?_
      simp [forwardedAll]

end Ragnet.Conn

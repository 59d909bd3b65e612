import Ragnet.Dialer.Dialing

/-!
# The attempts of a dialer

A call that dials ends after so many attempts, whatever the network does.  Over a path that loses
only what is too long for it, the first size that fits is found, and the sizes are tried from the
largest to the smallest.
-/

namespace Ragnet

open Conn Proc Wire

namespace Dialing

/-! ## How long it takes -/

section Ends

variable {r : Route} {s s' s₀ : Dialing} {e : Event} {es : List Event}

/-- How many rounds may be to come. -/
def left (errorCount : UInt32) : Stage → Nat
  | .discovering attempts => attempts.length + max 1 errorCount.toNat
  | .opening _ errors => max 1 errorCount.toNat - errors.toNat
  | .opened _ => 0
  | .failed _ => 0

/-- There are attempts left, and the count of errors is below its bound. -/
def InTime (errorCount : UInt32) : Stage → Prop
  | .discovering attempts => attempts ≠ []
  | .opening _ errors => errors.toNat < max 1 errorCount.toNat
  | .opened _ => True
  | .failed _ => True

theorem inTime_discover (errorCount : UInt32) (attempts : List UInt16) :
    InTime errorCount (.discover attempts) ∧
      left errorCount (.discover attempts) ≤ attempts.length + max 1 errorCount.toNat := by
  cases attempts with
  | nil => exact ⟨trivial, Nat.zero_le _⟩
  | cons m attempts => exact ⟨List.cons_ne_nil m attempts, Nat.le_refl _⟩

theorem left_pos {errorCount : UInt32} {stage : Stage} (h : InTime errorCount stage)
    (hrequest : stage.request r.build r.remoteAddr r.clientGuid ≠ none) :
    0 < left errorCount stage := by
  cases stage with
  | discovering attempts =>
      rw [left]
      omega
  | opening discovery errors => exact Nat.sub_pos_of_lt h
  | opened m => exact absurd rfl hrequest
  | failed fault => exact absurd rfl hrequest

/-- Every answer takes a round. -/
theorem inTime_answer {errorCount : UInt32} {stage : Stage} (h : InTime errorCount stage)
    (received : Option Bytes) :
    InTime errorCount (stage.answer errorCount received) ∧
      left errorCount (stage.answer errorCount received) ≤ left errorCount stage - 1 := by
  cases stage with
  | discovering attempts =>
      cases attempts with
      | nil => exact absurd rfl h
      | cons m attempts =>
          rw [Stage.answer, left, List.length_cons, Nat.add_right_comm, Nat.add_sub_cancel]
          split
          · exact inTime_discover errorCount attempts
          · refine ⟨?_, ?_⟩
            · exact Nat.lt_of_lt_of_le Nat.zero_lt_one (Nat.le_max_left _ _)
            · exact (Nat.sub_le _ _).trans (Nat.le_add_left _ _)
          · exact ⟨trivial, Nat.zero_le _⟩
  | opening discovery errors =>
      rw [Stage.answer]
      split
      · split
        · exact ⟨trivial, Nat.zero_le _⟩
        · next hlt =>
          rw [ge_iff_le, UInt32.le_iff_toNat_le] at hlt
          have hnext : (errors + 1).toNat = errors.toNat + 1 := by
            have hbound := errorCount.toNat_lt
            have herrors : errors.toNat < max 1 errorCount.toNat := h
            rw [UInt32.toNat_add]
            exact Nat.mod_eq_of_lt (by change errors.toNat + 1 < _; omega)
          rw [InTime, left, left]
          omega
      · exact ⟨trivial, Nat.zero_le _⟩
      · exact ⟨trivial, Nat.zero_le _⟩
  | opened m => exact ⟨trivial, Nat.zero_le _⟩
  | failed fault => exact ⟨trivial, Nat.zero_le _⟩

/-- The dialer has made so many moves. -/
structure Paced (r : Route) (n : Nat) (s : Dialing) : Prop where
  inTime : InTime r.errorCount s.dial.stage
  waits : s.dial.waiting = true → 0 < left r.errorCount s.dial.stage
  moves : n + 2 * left r.errorCount s.dial.stage ≤
    2 * (9 + max 1 r.errorCount.toNat) + s.dial.waiting.toNat
  sent : s.dial.sent.length + left r.errorCount s.dial.stage ≤
    9 + max 1 r.errorCount.toNat + s.dial.waiting.toNat

variable {n : Nat}

/-- A call that ends takes no more than it had left. -/
theorem Paced.failed (h : Paced r n s) (fault : Fault Error) {waiting : Bool}
    (hwaiting : waiting = false) (hleft : 0 < left r.errorCount s.dial.stage) :
    Paced r (n + 1) { s with dial := ⟨.failed fault, waiting, s.dial.sent⟩ } := by
  have hmoves := h.moves
  have hsent := h.sent
  have hle : s.dial.waiting.toNat ≤ 1 := Bool.toNat_le _
  subst hwaiting
  refine ⟨trivial, fun hw ↦ (by cases hw), ?_, ?_⟩
  · change n + 1 + 2 * 0 ≤ 2 * (9 + max 1 r.errorCount.toNat) + 0
    omega
  · change s.dial.sent.length + 0 ≤ 9 + max 1 r.errorCount.toNat + 0
    omega

theorem Paced.step (h : Paced r n s) (hs : Step r s e s') :
    Paced r (n + e.dials.toNat) s' := by
  have hmoves := h.moves
  have hsent := h.sent
  cases hs with
  | @send ioError hwaiting hrequest =>
      have hpos := left_pos h.inTime hrequest
      rw [hwaiting] at hmoves hsent
      unfold Dial.send
      split
      · next hnone => exact absurd hnone hrequest
      · exact h.failed _ hwaiting hpos
      · exact h.failed _ hwaiting hpos
      · refine ⟨h.inTime, fun _ ↦ hpos, ?_, ?_⟩
        · change n + 1 + 2 * left r.errorCount s.dial.stage ≤ _ + 1
          exact Nat.add_right_comm n _ 1 ▸ Nat.succ_le_succ hmoves
        · change (s.dial.sent ++ [_]).length + left r.errorCount s.dial.stage ≤ _ + 1
          rw [List.length_append, List.length_singleton, Nat.add_right_comm]
          exact Nat.succ_le_succ hsent
  | arrive _ _ _ => exact ⟨h.inTime, h.waits, h.moves, h.sent⟩
  | @answer received hwaiting _ =>
      have hpos := h.waits hwaiting
      obtain ⟨hinTime, hleft⟩ := inTime_answer h.inTime received
      rw [hwaiting, Bool.toNat_true] at hmoves hsent
      refine ⟨hinTime, fun hw ↦ (by cases hw), ?_, ?_⟩
      · change n + 1 + 2 * left r.errorCount (s.dial.stage.answer r.errorCount received) ≤ _ + 0
        omega
      · change s.dial.sent.length + left r.errorCount
          (s.dial.stage.answer r.errorCount received) ≤ _ + 0
        omega
  | expire hrequest => exact h.failed _ rfl (left_pos h.inTime hrequest)
  | other _ _ => exact ⟨h.inTime, h.waits, h.moves, h.sent⟩

end Ends

/-! ## A path that loses nothing -/

/-- A round whose request arrives at once, if the path admits it, and so does the first reply to
it. -/
def round (r : Route) (env : ListenEnv) (s : Dialing) : Dialing :=
  match s.dial.stage.request r.build r.remoteAddr r.clientGuid with
  | some (.ok request) =>
      let listener :=
        if request.length ≤ r.limit then
          (s.listener.listenRound r.build r.hash env (request.take bufferSize) r.clientAddr).1
        else s.listener
      let replies := (listener.sent.drop s.listener.sent.length).filter fun d ↦ d.1 = r.clientAddr
      ⟨listener, (s.dial.send r.build r.remoteAddr r.clientGuid none).answer r.errorCount
        (replies.head?.map fun d ↦ d.2.take bufferSize)⟩
  | _ => s

/-- The listener has an id, and neither blocks the dialer nor has a connection with it. -/
structure Ready (r : Route) (l : Listener) : Prop where
  guid : l.id ≠ 0
  entry : l.connections.lookup r.clientAddr = none
  block : l.isBlocked r.clientAddr = false

section Round

variable {r : Route} {env : ListenEnv} {l l' : Listener} {d : Dial} {s : Dialing}
  {request reply : Bytes} {sent : List Bytes}
  {attempts : List UInt16} {m : UInt16}

theorem Ready.listenRound (h : Ready r l) {data : Bytes} (hdata : data ≠ [])
    (hhandle : Listener.handleUnconnected r.hash env data r.clientAddr l = (l', .ok ())) :
    l.listenRound r.build r.hash env data r.clientAddr = (l', .ok ()) := by
  have hround : Listener.handle r.build r.hash env data r.clientAddr l = (l', .ok ()) := by
    rw [Listener.handle, get_bind, h.entry]
    exact hhandle
  rw [Listener.listenRound, if_neg (by simp [hdata, h.block]), hround]

theorem send_request (hrequest : d.stage.request r.build r.remoteAddr r.clientGuid =
    some (.ok request)) :
    d.send r.build r.remoteAddr r.clientGuid none =
      { d with waiting := true, sent := d.sent ++ [request] } := by
  unfold Dial.send
  rw [hrequest]

theorem step_request (hwaiting : d.waiting = false)
    (hrequest : d.stage.request r.build r.remoteAddr r.clientGuid = some (.ok request)) :
    (dialings r).step ⟨l, d⟩ (.send none)
      ⟨l, { d with waiting := true, sent := d.sent ++ [request] }⟩ := by
  have hstep : Step r ⟨l, d⟩ (.send none)
      ⟨l, d.send r.build r.remoteAddr r.clientGuid none⟩ := .send hwaiting fun hn ↦ by
    rw [hrequest] at hn
    cases hn
  rwa [send_request hrequest] at hstep

/-- The request is too long for the path. -/
theorem round_lost (hwaiting : d.waiting = false)
    (hrequest : d.stage.request r.build r.remoteAddr r.clientGuid = some (.ok request))
    (hlimit : r.limit < request.length) :
    let s := ⟨l, ⟨d.stage.answer r.errorCount none, false, d.sent ++ [request]⟩⟩
    round r env ⟨l, d⟩ = s ∧ ((dialings r).Reachable ⟨l, d⟩ → (dialings r).Reachable s) := by
  refine ⟨?_, fun h ↦ ?_⟩
  · rw [round, hrequest]
    dsimp only
    rw [if_neg (Nat.not_le.mpr hlimit), List.drop_length, send_request hrequest]
    rfl
  · have hsend := h.step (step_request hwaiting hrequest)
    have hanswer : Step r ⟨l, { d with waiting := true, sent := d.sent ++ [request] }⟩
        (.answer none) ⟨l, ⟨d.stage.answer r.errorCount none, false, d.sent ++ [request]⟩⟩ :=
      .answer rfl fun _ hn ↦ by cases hn
    exact hsend.step hanswer

/-- The request is answered. -/
theorem round_answered (hwaiting : d.waiting = false) (hready : Ready r l)
    (hrequest : d.stage.request r.build r.remoteAddr r.clientGuid = some (.ok request))
    (hne : request.take bufferSize ≠ []) (hlimit : request.length ≤ r.limit)
    (hhandle : Listener.handleUnconnected r.hash env (request.take bufferSize) r.clientAddr l =
      (l', .ok ())) (hsent : l'.sent = l.sent ++ [(r.clientAddr, reply)])
    (hreply : reply.length ≤ bufferSize) :
    let s := ⟨l', ⟨d.stage.answer r.errorCount (some reply), false, d.sent ++ [request]⟩⟩
    round r env ⟨l, d⟩ = s ∧ ((dialings r).Reachable ⟨l, d⟩ → (dialings r).Reachable s) := by
  have harrives := hready.listenRound hne hhandle
  refine ⟨?_, fun h ↦ ?_⟩
  · have hfilter : [(r.clientAddr, reply)].filter (fun d ↦ d.1 = r.clientAddr) =
        [(r.clientAddr, reply)] := List.filter_eq_self.mpr fun d hd ↦ by
      simp [List.mem_singleton.mp hd]
    rw [round, hrequest]
    dsimp only
    rw [if_pos hlimit, harrives, hsent, List.drop_left, hfilter, send_request hrequest,
      List.head?_cons, Option.map_some, List.take_of_length_le hreply]
    rfl
  · have hsend := h.step (step_request hwaiting hrequest)
    have harrive := hsend.step
      (.arrive (List.mem_append_right _ (List.mem_singleton.mpr rfl)) hlimit harrives)
    have hanswer : Step r ⟨l', { d with waiting := true, sent := d.sent ++ [request] }⟩
        (.answer (some reply))
        ⟨l', ⟨d.stage.answer r.errorCount (some reply), false, d.sent ++ [request]⟩⟩ := by
      refine .answer rfl fun data hdata ↦ ?_
      obtain rfl := Option.some.inj hdata
      refine Or.inl ⟨reply, ?_, (List.take_of_length_le hreply).symm⟩
      rw [hsent]
      exact List.mem_append_right _ (List.mem_singleton.mpr rfl)
    exact harrive.step hanswer

/-! ### The sizes one after the other -/

/-- The first size among the attempts whose probes get through, if there is one. -/
def outcome (r : Route) (attempts : List UInt16) : Stage :=
  match attempts.find? fun m ↦ m.toNat - 28 ≤ r.limit with
  | some m => .opened m
  | none => .failed (.error .timeout)

/-- A probe that gets through is answered. -/
theorem round_probe (hio : env.ioError = none) (hready : Ready r l) (hm : m ∈ Dialer.mtuSizes)
    (hlimit : m.toNat - 28 ≤ r.limit) :
    ∃ reply sent', let s := ⟨l.answered r.clientAddr reply, ⟨.opening (m,
          !l.config.disableCookies, l.cookie r.hash r.clientAddr) 0, false, sent'⟩⟩
      round r env ⟨l, ⟨.discovering (m :: attempts), false, sent⟩⟩ = s ∧
        ((dialings r).Reachable ⟨l, ⟨.discovering (m :: attempts), false, sent⟩⟩ →
          (dialings r).Reachable s) := by
  have hle := le_of_mem hm
  obtain ⟨probe, hprobe, htake⟩ := Listener.discoverRequest_eq r.build hle
  have hlength := length_discoverRequest hle hprobe
  have hstage : Stage.answer r.errorCount (some (l.discoverAnswer r.hash r.clientAddr m).write)
      (.discovering (m :: attempts)) =
        .opening (m, !l.config.disableCookies, l.cookie r.hash r.clientAddr) 0 := by
    rw [Stage.answer, Option.elim_some, Listener.discoverReply_answer hready.guid,
      agreedMtu_of_mem hm, if_pos (admitted_of_mem hm)]
  have hround := @round_answered r env l _ ⟨.discovering (m :: attempts), false, sent⟩ probe _ rfl
    hready (congrArg some hprobe) (htake ▸ List.cons_ne_nil _ _) (hlength ▸ hlimit)
    (htake ▸ Listener.handle_discoverRequest hio hle) rfl (OpenConnectionReply1.length_write_le _)
  dsimp only at hround
  rw [hstage] at hround
  exact ⟨_, _, hround⟩

/-- A request that gets through is granted. -/
theorem round_request (hio : env.ioError = none) (hready : Ready r l) (hm : m ∈ Dialer.mtuSizes)
    (hlimit : m.toNat - 28 ≤ r.limit) {errors : UInt32} :
    let d : Dial := ⟨.opening (m, !l.config.disableCookies, l.cookie r.hash r.clientAddr) errors,
      false, sent⟩
    (round r env ⟨l, d⟩).dial.stage = .opened m ∧
      ((dialings r).Reachable ⟨l, d⟩ → (dialings r).Reachable (round r env ⟨l, d⟩)) := by
  have hagreed := agreedMtu_of_mem hm
  have hrequest := @Listener.openRequest_eq r.hash l r.clientAddr r.remoteAddr r.clientGuid m
  have hlength := OpenConnectionRequest2.length_write_short ⟨r.remoteAddr, m, r.clientGuid,
    !l.config.disableCookies, l.cookie r.hash r.clientAddr⟩
  have hgranted := @Listener.handle_openRequest r.hash env l r.clientAddr hio r.remoteAddr
    r.clientGuid m
  rw [hagreed] at hgranted
  rw [← hrequest] at hlength hgranted
  have htake := List.take_of_length_le (hlength.trans (by decide : 61 ≤ bufferSize))
  obtain ⟨hround, hreached⟩ := @round_answered r env l _ ⟨.opening (m, !l.config.disableCookies,
      l.cookie r.hash r.clientAddr) errors, false, sent⟩ _ _ rfl hready rfl
    (by
      rw [htake, hrequest]
      exact List.cons_ne_nil _ _)
    (by
      have hsize := admitted_of_mem hm
      omega)
    (htake.symm ▸ hgranted) rfl (OpenConnectionReply2.length_write_le _)
  dsimp only at hround hreached ⊢
  rw [hround]
  refine ⟨?_, hreached⟩
  rw [Stage.answer, Option.elim_some, Dialer.openReply_write]
  rfl

/-- The dialer discovers an MTU, and opens a connection with it. -/
theorem rounds_of_admitted (hio : env.ioError = none) (hready : Ready r l)
    (hm : m ∈ Dialer.mtuSizes) (hlimit : m.toNat - 28 ≤ r.limit)
    (h : (dialings r).Reachable ⟨l, ⟨.discovering (m :: attempts), false, sent⟩⟩) :
    let s := (round r env)^[2] ⟨l, ⟨.discovering (m :: attempts), false, sent⟩⟩
    (dialings r).Reachable s ∧ s.dial.stage = .opened m := by
  obtain ⟨reply, sent', hround, hreached⟩ :=
    @round_probe r env l sent attempts m hio hready hm hlimit
  have hready' : Ready r (l.answered r.clientAddr reply) :=
    ⟨hready.guid, hready.entry, hready.block⟩
  obtain ⟨hstage, hopened⟩ := @round_request r env (l.answered r.clientAddr reply) sent' m hio
    hready' hm hlimit 0
  rw [Function.iterate_succ_apply, Function.iterate_one, hround]
  exact ⟨hopened (hreached h), hstage⟩

theorem rounds_of_attempts (hio : env.ioError = none) (hready : Ready r l)
    (hattempts : ∀ m ∈ attempts, m ∈ Dialer.mtuSizes)
    (h : (dialings r).Reachable ⟨l, ⟨.discover attempts, false, sent⟩⟩) :
    ∃ n, let s := (round r env)^[n] ⟨l, ⟨.discover attempts, false, sent⟩⟩
      (dialings r).Reachable s ∧ s.dial.stage = outcome r attempts := by
  induction attempts generalizing sent with
  | nil => exact ⟨0, h, rfl⟩
  | cons m attempts ih =>
      have hm := hattempts m List.mem_cons_self
      by_cases hlimit : m.toNat - 28 ≤ r.limit
      · obtain ⟨hreachable, hstage⟩ := rounds_of_admitted hio hready hm hlimit h
        refine ⟨2, hreachable, hstage.trans ?_⟩
        rw [outcome, List.find?_cons_of_pos (by simpa using hlimit)]
      · have hle := le_of_mem hm
        obtain ⟨request, hrequest, -⟩ := Listener.discoverRequest_eq r.build hle
        have hlength := length_discoverRequest hle hrequest
        obtain ⟨hround, hreached⟩ := @round_lost r env l
          ⟨.discover (m :: attempts), false, sent⟩ request rfl (congrArg some hrequest) (by omega)
        obtain ⟨n, hreachable, hstage⟩ :=
          ih (fun m' hm' ↦ hattempts m' (List.mem_cons_of_mem m hm')) (hreached h)
        refine ⟨n + 1, ?_⟩
        rw [Function.iterate_succ_apply, hround, outcome,
          List.find?_cons_of_neg (by simpa using hlimit)]
        exact ⟨hreachable, hstage⟩

/-- Trying every size three times finds the same one. -/
theorem find?_attempts (p : UInt16 → Bool) :
    Dialer.attempts.find? p = Dialer.mtuSizes.find? p := by
  rw [Dialer.attempts]
  induction Dialer.mtuSizes with
  | nil => rfl
  | cons m sizes ih =>
      rw [List.flatMap_cons, List.find?_append, ih]
      cases hp : p m <;> simp [hp]

theorem outcome_of_admitted (hsorted : attempts.Pairwise (· ≥ ·)) (hm : m ∈ attempts)
    (hlimit : m.toNat - 28 ≤ r.limit) :
    ∃ m' ∈ attempts, m'.toNat - 28 ≤ r.limit ∧ m ≤ m' ∧ outcome r attempts = .opened m' := by
  induction attempts with
  | nil => exact absurd hm List.not_mem_nil
  | cons m₀ attempts ih =>
      obtain ⟨hle, hsorted⟩ := List.pairwise_cons.mp hsorted
      by_cases hfirst : m₀.toNat - 28 ≤ r.limit
      · refine ⟨m₀, List.mem_cons_self, hfirst, ?_, ?_⟩
        · rcases List.mem_cons.mp hm with rfl | hm
          · exact UInt16.le_refl m
          · exact hle m hm
        · rw [outcome, List.find?_cons_of_pos (by simpa using hfirst)]
      · obtain ⟨m', hm', hlimit', hle', houtcome⟩ := ih hsorted
          ((List.mem_cons.mp hm).resolve_left fun heq ↦ hfirst (heq ▸ hlimit))
        refine ⟨m', List.mem_cons_of_mem m₀ hm', hlimit', hle', ?_⟩
        rw [outcome, List.find?_cons_of_neg (by simpa using hfirst)]
        exact houtcome

theorem outcome_of_none (h : ∀ m ∈ attempts, r.limit < m.toNat - 28) :
    outcome r attempts = .failed (.error .timeout) := by
  rw [outcome, List.find?_eq_none.mpr fun m hm ↦ ?_]
  rw [decide_eq_true_eq]
  exact Nat.not_le.mpr (h m hm)

/-- **The largest size that fits is found.**  Over a path that loses only what is too long for it, a
call to a listener that answers opens a connection with the largest of the sizes whose datagrams get
through, and times out when there is none. -/
theorem discovers_largest (hio : env.ioError = none) (h₀ : (dialings r).init s)
    (hready : Ready r s.listener) :
    ∃ n, (dialings r).Reachable ((round r env)^[n] s) ∧
      (∀ m ∈ Dialer.mtuSizes, m.toNat - 28 ≤ r.limit → ∃ m' ∈ Dialer.mtuSizes,
        m'.toNat - 28 ≤ r.limit ∧ m ≤ m' ∧ ((round r env)^[n] s).dial.stage = .opened m') ∧
      ((∀ m ∈ Dialer.mtuSizes, r.limit < m.toNat - 28) →
        ((round r env)^[n] s).dial.stage = .failed (.error .timeout)) := by
  obtain ⟨listener, dial⟩ := s
  obtain rfl : dial = Dial.new := h₀.1
  obtain ⟨n, hreachable, hstage⟩ := @rounds_of_attempts r env listener [] Dialer.attempts hio hready
    (fun _ ↦ Dialer.mem_mtuSizes_of_mem_attempts) (.init h₀)
  rw [outcome, find?_attempts] at hstage
  refine ⟨n, hreachable, fun m hm hlimit ↦ ?_, fun hnone ↦ ?_⟩
  · obtain ⟨m', hm', hlimit', hle, houtcome⟩ := outcome_of_admitted (by decide) hm hlimit
    exact ⟨m', hm', hlimit', hle, hstage.trans houtcome⟩
  · exact hstage.trans (outcome_of_none hnone)

/-- A path for datagrams of 1200 bytes, to a listener that asks for cookies. -/
theorem discovers_largest_1200 :
    let r : Route := ⟨.debug, fun _ ↦ 5, 10, 9, .v4 ⟨[10, 0, 0, 2], rfl⟩ 19133,
      .v4 ⟨[10, 0, 0, 1], rfl⟩ 19132, 1200⟩
    ∃ s, (dialings r).Reachable s ∧ s.dial.stage = .opened 1200 := by
  intro r
  let env : ListenEnv := .calm
  let s : Dialing := ⟨.new ListenConfig.default 1 7, .new⟩
  have h₀ : (dialings r).init s :=
    ⟨rfl, fun _ ↦ List.not_mem_nil, fun _ ↦ List.not_mem_nil⟩
  have hready : Ready r s.listener := ⟨by decide, Finmap.lookup_empty _, by decide⟩
  obtain ⟨n, hreachable, hlargest, -⟩ := @discovers_largest r env s rfl h₀ hready
  obtain ⟨m, hm, hlimit, hle, hstage⟩ := hlargest 1200 (by decide) (by decide)
  obtain rfl | rfl | rfl := Dialer.mem_mtuSizes.mp hm
  · exact absurd hlimit (by decide)
  · exact ⟨_, hreachable, hstage⟩
  · exact absurd hle (by decide)

end Round

end Dialing

end Ragnet

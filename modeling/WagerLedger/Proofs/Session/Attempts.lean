import WagerLedger.Proofs.Program.Closing
import WagerLedger.Proofs.Session.Sleeping

/-! # Attempts, and what follows them

A round of a settlement makes one attempt. What follows is told by the attempt's result and by
the clock: a lack of funds is answered only if no delay is granted, and otherwise slept on,
until the delay is over or the context is; any other result is answered as it is. -/
namespace WagerLedger.Scenario

variable {α σ ρ : Type} {c : Scenario} {n : Nat} {us w : List Turn} {ctx : Context}

theorem Ran.answered {r : Request} {a : r.Answer} (h : c.Ran n w (Program.request r) us a) :
    ∃ y, w <+: y ∧ y ++ [.step n] <+: us ∧ ((c.after y).world.perform (n + 1) r).1 = some a := by
  rcases h.first_step with heq | ⟨y, p, hw, hy, hs, hruns⟩
  · cases heq
  · obtain ⟨b, hb, rfl⟩ := Option.map_eq_some_iff.mp hs
    cases hruns.of_done
    exact ⟨y, hw, hy, hb⟩

theorem Ran.elapsed {started : Nat} {elapsed : Duration}
    (h : c.Ran n w (Retry.elapsedSince started) us elapsed) :
    ∃ y, w <+: y ∧ y ++ [.step n] <+: us ∧
      elapsed = .ofMillis ((c.after y).world.clock - started) := by
  obtain ⟨m, now, hclock, h⟩ := h.bind_cases
  cases h.of_done
  obtain ⟨y, hw, hy, hnow⟩ := hclock.answered
  cases hnow
  exact ⟨y, hw, hy.trans h.isPrefix, rfl⟩

theorem Runs.tell_sleep {e : Event} {delay : Duration} {q : Program (Except SettlementError Unit)}
    (h : c.Runs n w (.ask (.emit e) fun _ => .race ctx (.sleep delay) .done) us q) :
    q = .ask (.emit e) (fun _ => .race ctx (.sleep delay) .done) ∨
      q = .race ctx (.sleep delay) .done ∨ ∃ r, q = .done r := by
  induction h with
  | refl => exact .inl rfl
  | other run hu halive ih => exact ih
  | wait run hr hs ih => exact ih
  | step run hs ih =>
    rcases ih with rfl | rfl | ⟨r, rfl⟩
    · cases hs
      exact .inr (.inl rfl)
    · rw [Program.step_race] at hs
      split at hs
      · cases hs
        exact .inr (.inr ⟨_, rfl⟩)
      · obtain ⟨a, -, rfl⟩ := Option.map_eq_some_iff.mp hs
        exact .inr (.inr ⟨_, rfl⟩)
    · cases hs

/-- The wait after a failure ends with a step of its sleep. -/
theorem Ran.woken {e : Event} {delay : Duration} {r : Except SettlementError Unit}
    {f : Except SettlementError Unit → Program (Stage ⊕ Reply)}
    (hq : c.program? w n = some ((do
      Program.request (.emit e)
      (Retry.pause ctx delay).run) >>= f))
    (h : c.Ran n w (do
      Program.request (.emit e)
      (Retry.pause ctx delay).run) us r) : c.Woken n ctx delay w us r := by
  have hwait : (do
      Program.request (.emit e)
      (Retry.pause ctx delay).run : Program _) =
        .ask (.emit e) fun _ => .race ctx (.sleep delay) .done :=
    congrArg (Program.ask (.emit e)) (funext fun _ => Program.pause_eq ctx delay)
  rw [hwait] at hq h
  rcases h.last_step with heq | ⟨y, q, hruns, hy, hs⟩
  · cases heq
  rcases hruns.tell_sleep with rfl | rfl | ⟨r', rfl⟩
  · cases hs
  · obtain ⟨z, hz, hsame, hwakes⟩ := wakes_of_step (hruns.program? hq) hs
    have hw : w <+: z := by
      rcases List.prefix_or_prefix_of_prefix hz hruns.isPrefix with hzw | hwz
      · cases hq.symm.trans (hsame w hzw hruns.isPrefix)
      · exact hwz
    refine ⟨z, y, hw, hz, hy, ?_, hwakes⟩
    rw [request?, hsame z List.prefix_rfl hz]
    rfl
  · cases hs

/-- After a lack of funds no delay is granted any more. -/
inductive Spends (c : Scenario) (n : Nat) (s : Retry) (w us : List Turn) : Prop
  | mk (elapsed : Duration) (backoff : Backoff) (words : Words)
      (clock : c.Ran n w (Retry.elapsedSince s.started) us elapsed)
      (refused : s.backoff.next elapsed s.words = .ok (none, backoff, words))

/-- After an error a delay is granted, and slept to its end or to that of the context. -/
inductive Waits (c : Scenario) (n : Nat) (ctx : Context) (s : Retry) (w : List Turn)
    (e : SettlementError) (us : List Turn) :
    Except SettlementError Unit → Backoff → Words → Prop
  | mk {m : List Turn} {elapsed delay : Duration} {backoff : Backoff} {words : Words}
      {r : Except SettlementError Unit}
      (clock : c.Ran n w (Retry.elapsedSince s.started) m elapsed)
      (granted : s.backoff.next elapsed s.words = .ok (some delay, backoff, words))
      (slept : c.Ran n m (do
        Program.request (.emit (.retrying s.attempt delay e))
        (Retry.pause ctx delay).run) us r)
      (woken : c.Woken n ctx delay m us r) :
      Waits c n ctx s w e us r backoff words

variable {backoff : Backoff} {words : Words} {k : UInt32}

theorem Waits.isPrefix {s : Retry} {e : SettlementError} {r : Except SettlementError Unit}
    (h : c.Waits n ctx s w e us r backoff words) : w <+: us := by
  obtain ⟨clock, -, slept, -⟩ := h
  exact clock.isPrefix.trans slept.isPrefix

theorem ran_afterFailure {s : Retry} {e : SettlementError} {r : Retry ⊕ Except SettlementError α}
    {f : Retry ⊕ Except SettlementError α → Program (Stage ⊕ Reply)}
    (hq : c.program? w n = some (Retry.afterFailure ctx s e >>= f))
    (h : c.Ran n w (Retry.afterFailure ctx s e) us r) :
    (∃ m, m <+: us ∧ c.Spends n s w m ∧ r = .inr (.error e)) ∨
      (∃ m e' backoff words, m <+: us ∧ c.Waits n ctx s w e m (.error e') backoff words ∧
        r = .inr (.error e')) ∨
      ∃ backoff words k, c.Waits n ctx s w e us (.ok ()) backoff words ∧
        numberAfter? s.attempt = some k ∧ r = .inl ⟨k, s.started, backoff, words⟩ := by
  obtain ⟨m, elapsed, hclock, h⟩ := h.bind_cases
  have hm := Runs.program? (Ran.bind hclock .refl) hq
  cases hnext : s.backoff.next elapsed s.words with
  | error e' =>
    rw [hnext] at h
    cases h.of_crash
  | ok x =>
    obtain ⟨d, backoff, words⟩ := x
    rw [hnext] at h hm
    -- No delay is granted, or one is told and slept, to its end or until the context is over.
    cases d with
    | none =>
      obtain ⟨m₁, _, htold, h⟩ := h.bind_cases
      obtain ⟨m₂, _, htell, h⟩ := h.bind_cases
      cases h.of_done
      exact .inl ⟨m, (htold.isPrefix.trans htell.isPrefix).trans h.isPrefix,
        ⟨elapsed, _, _, hclock, hnext⟩, rfl⟩
    | some delay =>
      change c.Ran n m ((Program.request (.emit (.retrying s.attempt delay e)) >>= fun _ =>
        (Retry.pause ctx delay).run) >>= _) us r at h
      change c.program? m n = some (((Program.request (.emit (.retrying s.attempt delay e)) >>=
        fun _ => (Retry.pause ctx delay).run) >>= _) >>= f) at hm
      rw [Program.bind_assoc] at hm
      obtain ⟨m', a, hslept, h⟩ := h.bind_cases
      cases a with
      | error e' =>
        cases h.of_done
        exact .inr (.inl ⟨m', e', backoff, words, h.isPrefix,
          ⟨hclock, hnext, hslept, hslept.woken hm⟩, rfl⟩)
      | ok u =>
        dsimp only at h
        cases hnumber : numberAfter? s.attempt with
        | none =>
          rw [hnumber] at h
          cases h.of_crash
        | some k =>
          rw [hnumber] at h
          obtain ⟨hslept, rfl⟩ := hslept.extend h
          exact .inr (.inr ⟨backoff, words, k, ⟨hclock, hnext, hslept, hslept.woken hm⟩, rfl, rfl⟩)

theorem Runs.closes {r : Option ρ} {p q : Program (σ ⊕ ρ)} (h : c.Runs n w p us q)
    (hp : p.Closes r) : q.Closes r := by
  induction h with
  | refl => exact hp
  | other run hu halive ih => exact ih
  | wait run hr hs ih => exact ih
  | step run hs ih => exact ih.step hs

/-- A settlement comes to its result: by an attempt that ends with anything but a lack of funds,
or when no delay is granted, or when the context is over before the delay is. -/
inductive Results (c : Scenario) (n : Nat) (s : Settlement) (w : List Turn) :
    Except SettlementError Spin → List Turn → Reply → Prop
  | final {r : Except SettlementError Spin} {reply : Reply}
      (enough : ∀ available required, r ≠ .error (.insufficientFunds available required))
      (answer : Settlement.reply? r = some reply) : Results c n s w r w reply
  | spent {available required : Decimal} {us : List Turn} (spends : c.Spends n s.retry w us) :
      Results c n s w (.error (.insufficientFunds available required)) us
        (.settlementError (.insufficientFunds available required))
  | interrupted {available required : Decimal} {us : List Turn} {e : SettlementError}
      {backoff : Backoff} {words : Words}
      (waits : c.Waits n s.context s.retry w (.insufficientFunds available required) us
        (.error e) backoff words) :
      Results c n s w (.error (.insufficientFunds available required)) us (.settlementError e)

variable {s : Settlement} {r : Except SettlementError Spin}

/-- What follows an attempt comes to a result or to the next attempt. -/
theorem ran_rest {z : Stage ⊕ Reply} (hq : c.program? w n = some (s.rest r))
    (h : c.Ran n w (s.rest r) us z) :
    (∃ m reply, m <+: us ∧ c.Results n s w r m reply ∧ z = .inr reply) ∨
      ∃ available required backoff words k, r = .error (.insufficientFunds available required) ∧
        c.Waits n s.context s.retry w (.insufficientFunds available required) us (.ok ())
          backoff words ∧ numberAfter? s.retry.attempt = some k ∧
        z = .inl (.settle { s with retry := ⟨k, s.retry.started, backoff, words⟩ }) := by
  have hanswer : ∀ {r' : Except SettlementError Spin} {p : Program (Stage ⊕ Reply)}
      {m : List Turn}, p.Closes (Settlement.reply? r') → c.Ran n m p us z →
      ∃ reply, z = .inr reply ∧ Settlement.reply? r' = some reply := by
    intro r' p m hp hran
    have hz := hran.closes hp
    cases z with
    | inl stage => exact hz.elim
    | inr reply => exact ⟨reply, rfl, hz⟩
  -- Only a lack of funds is tried again; after everything else the call closes.
  by_cases hlack : ∃ available required, r = .error (.insufficientFunds available required)
  · obtain ⟨available, required, rfl⟩ := hlack
    change c.Ran n w (Retry.afterFailure s.context s.retry (.insufficientFunds available required)
      >>= s.close >>= Session.settleRound) us z at h
    change c.program? w n = some (Retry.afterFailure s.context s.retry
      (.insufficientFunds available required) >>= s.close >>= Session.settleRound) at hq
    rw [Program.bind_assoc] at h hq
    obtain ⟨m, x, hfail, h⟩ := h.bind_cases
    cases x with
    | inl s' =>
      obtain ⟨hfail, rfl⟩ := hfail.extend h
      rcases ran_afterFailure hq hfail with
        ⟨_, _, _, heq⟩ | ⟨_, _, _, _, _, _, heq⟩ | ⟨backoff, words, k, hwaits, hnumber, heq⟩
      · cases heq
      · cases heq
      · cases heq
        exact .inr ⟨available, required, backoff, words, k, rfl, hwaits, hnumber, rfl⟩
    | inr r' =>
      obtain ⟨reply, rfl, hreply⟩ := hanswer (Program.closes_close s r') h
      rcases ran_afterFailure hq hfail with ⟨m', hm, hspends, heq⟩ |
        ⟨m', e, backoff, words, hm, hwaits, heq⟩ | ⟨_, _, _, _, _, heq⟩
      · cases heq
        cases hreply
        exact .inl ⟨m', _, hm.trans h.isPrefix, .spent hspends, rfl⟩
      · cases heq
        cases hreply
        exact .inl ⟨m', _, hm.trans h.isPrefix, .interrupted hwaits, rfl⟩
      · cases heq
  · have hfinal : ∀ available required, r ≠ .error (.insufficientFunds available required) :=
      fun available required heq => hlack ⟨available, required, heq⟩
    obtain ⟨reply, rfl, hreply⟩ := hanswer (Program.closes_rest s hfinal) h
    exact .inl ⟨w, reply, h.isPrefix, .final hfinal hreply, rfl⟩

/-- What follows the wait: the next attempt, if there is a number for it, or the error of the
context. -/
theorem Waits.runs {s : Retry} {e : SettlementError} {r : Except SettlementError Unit}
    (h : c.Waits n ctx s w e us r backoff words) :
    c.Runs n w (Retry.afterFailure (α := α) ctx s e) us
      (match r with
      | .ok () =>
        match numberAfter? s.attempt with
        | some k => .done (.inl ⟨k, s.started, backoff, words⟩)
        | none => .crash
      | .error e' => .done (.inr (.error e'))) := by
  obtain ⟨clock, granted, slept, -⟩ := h
  refine clock.bind ?_
  rw [granted]
  dsimp only
  rw [← Program.bind_assoc]
  refine slept.bind ?_
  cases r <;> exact .refl

theorem Waits.ran {s : Retry} {e : SettlementError}
    (h : c.Waits n ctx s w e us (.ok ()) backoff words) (hk : numberAfter? s.attempt = some k) :
    c.Ran n w (Retry.afterFailure (α := α) ctx s e) us
      (.inl ⟨k, s.started, backoff, words⟩) := by
  have hruns := h.runs (α := α)
  rw [hk] at hruns
  exact hruns

section Lacking

variable {available required : Decimal}
  (hq : c.program? w n = some (s.rest (.error (.insufficientFunds available required))))
include hq

theorem program?_afterFailure {p : Program (Retry ⊕ Except SettlementError Spin)}
    (h : c.Runs n w (Retry.afterFailure s.context s.retry (.insufficientFunds available required))
      us p) : c.program? us n = some (p >>= s.close >>= Session.settleRound) :=
  ((h.bind s.close).bind Session.settleRound).program?_eq hq

theorem Spends.closes (h : c.Spends n s.retry w us) : ∃ q, c.program? us n = some q ∧
    q.Closes (some (.settlementError (.insufficientFunds available required))) := by
  obtain ⟨elapsed, backoff, words, clock, refused⟩ := h
  refine ⟨_, program?_afterFailure hq (clock.bind .refl), ?_⟩
  rw [refused]
  exact fun _ => Program.closes_close s (.error (.insufficientFunds available required))

end Lacking

theorem Results.closes {reply : Reply} (h : c.Results n s w r us reply)
    (hq : c.program? w n = some (s.rest r)) :
    ∃ q, c.program? us n = some q ∧ q.Closes (some reply) := by
  cases h with
  | final enough answer => exact ⟨_, hq, answer ▸ Program.closes_rest s enough⟩
  | spent spends => exact spends.closes hq
  | interrupted waits =>
    exact ⟨_, program?_afterFailure hq waits.runs, Program.closes_close s (.error _)⟩

theorem tells_append {reply : Reply} (u : Turn)
    (h : ∃ t, (c.after us).list[n]? = some t ∧ t.Tells reply) :
    ∃ t, (c.after (us ++ [u])).list[n]? = some t ∧ t.Tells reply := by
  obtain ⟨t, ht, htells⟩ := h
  by_cases hother : u.task? = some n
  · cases u with
    | wait millis => cases hother
    | step m =>
      cases hother
      exact ⟨_, list_step ht, htells.step _ _ _⟩
    | drop m =>
      cases hother
      have hsome : (t.answer? (c.after us).world.clock).isSome := by
        rw [htells.answer?]
        rfl
      rw [after_append, Tasks.turn, Tasks.dropAt, ht]
      dsimp only
      rw [if_pos hsome]
      exact ⟨t, ht, htells⟩
  · exact ⟨t, (list_other hother).trans ht, htells⟩

theorem answer?_of_closes {q : Program (Stage ⊕ Reply)} {reply : Reply}
    (hq : c.program? w n = some q) (hcloses : q.Closes (some reply)) (hus : w <+: us) :
    c.answer? us n = some reply := by
  obtain ⟨limit, ht⟩ := program?_eq_some.mp hq
  obtain ⟨vs, rfl⟩ := hus
  have hkept : ∃ t, (c.after (w ++ vs)).list[n]? = some t ∧ t.Tells reply := by
    induction vs using List.reverseRecOn with
    | nil =>
      rw [List.append_nil]
      exact ⟨⟨n + 1, limit, .inl q⟩, ht, hcloses⟩
    | append_singleton vs u ih =>
      rw [← List.append_assoc]
      exact tells_append u ih
  obtain ⟨t, ht, htells⟩ := hkept
  rw [answer?, ht]
  exact htells.answer? _

end WagerLedger.Scenario

import WagerLedger.Proofs.Program.Attempting
import WagerLedger.Proofs.Session.Attempts

/-! # Calls that nothing holds up

A call that has the store to itself, and that alone makes its turns, comes to the end of a
program while the clock stands. A sleep it gets over in two steps, with its span between them. -/
namespace WagerLedger.Scenario

variable {α : Type} {c : Scenario} {n now : Nat} {us : List Turn} {g : Solo}

/-- The call has the store to itself, and no timer is set for it. -/
structure Rests (c : Scenario) (n : Nat) (us : List Turn) (g : Solo) (now : Nat) : Prop where
  shows : (c.after us).world.Shows (n + 1) c.entropy g
  clock : (c.after us).world.clock = now
  timer : (c.after us).world.timers.get? (n + 1) = none

theorem signals_of_may {r : Request} (h : g.May False r) : r.signals = false := by
  cases r
  case createSignal => exact h.elim
  case cancel => exact h.elim
  case dropHandle => exact h.elim
  all_goals rfl

theorem Rests.perform (h : c.Rests n us g now) {r : Request} (hr : g.May False r) :
    ∃ a g', ((c.after us).world.perform (n + 1) r).1 = some a ∧ g.Goes c.entropy r a g' ∧
      ((c.after (us ++ [.step n])).world = ((c.after us).world.perform (n + 1) r).2 →
        c.Rests n (us ++ [.step n]) g' now) := by
  rcases h.shows.perform hr with ⟨a, g', ha, hgoes, hshows⟩ | ⟨hsleeps, -⟩
  · refine ⟨a, g', ha, hgoes, fun hworld => ⟨hworld ▸ hshows, ?_, ?_⟩⟩
    · rw [hworld, (World.steady_perform (signals_of_may hr) _).clock]
      exact h.clock
    · rw [hworld, World.timers_perform]
      · exact h.timer
      · rintro d rfl
        exact hr
  · exact hsleeps.elim

theorem Rests.stage (h : c.Rests n us g now) {stage : Stage}
    (hq : c.program? us n = some (.done (.inl stage))) : c.Rests n (us ++ [.step n]) g now := by
  have hworld := world_stage hq
  exact ⟨hworld ▸ h.shows, hworld ▸ h.clock, hworld ▸ h.timer⟩

theorem exists_ran {p : Program α} {f : α → Program (Stage ⊕ Reply)} {Q : Solo → α → Prop}
    (h : c.Rests n us g now) (hp : p.Under (alone c.entropy False) g Q)
    (hq : c.program? us n = some (p >>= f)) :
    ∃ us' a g', c.Ran n us p us' a ∧ c.Rests n us' g' now ∧ Q g' a := by
  induction p generalizing us g with
  | done a => exact ⟨us, a, g, .refl, h, hp⟩
  | crash => exact hp.elim
  | ask r k ih =>
    obtain ⟨a, g', ha, hgoes, hrests⟩ := h.perform hp.1.2
    have hs : ((Program.ask r k).step (n + 1) (c.after us).world).1 = some (k a) := by
      rw [Program.step_ask, ha]
      rfl
    have hstep : c.Runs n us (.ask r k) (us ++ [.step n]) (k a) := .step .refl hs
    obtain ⟨us', b, g'', hran, hrests', hQ⟩ :=
      ih a (hrests (world_request hq rfl)) (hp.2 a g' hgoes) (hstep.program? hq)
    exact ⟨us', b, g'', hstep.trans hran, hrests', hQ⟩
  | race ctx r k ih =>
    obtain rfl : ctx = .background := hp.1.1 ctx rfl
    obtain ⟨a, g', ha, hgoes, hrests⟩ := h.perform hp.1.2
    have hworld : (c.after (us ++ [.step n])).world =
        ((c.after us).world.perform (n + 1) r).2 := by
      refine (world_request hq rfl).trans ?_
      change (((Program.race .background r k).bind f).step _ _).2 = _
      rw [Program.bind, Program.step_race, World.ended?_eq_none rfl]
    have hs : ((Program.race .background r k).step (n + 1) (c.after us).world).1 =
        some (k (.ok a)) := by
      rw [Program.step_race, World.ended?_eq_none rfl, ha]
      rfl
    have hstep : c.Runs n us (.race .background r k) (us ++ [.step n]) (k (.ok a)) :=
      .step .refl hs
    obtain ⟨us', b, g'', hran, hrests', hQ⟩ :=
      ih (.ok a) (hrests hworld) (hp.2.2 a g' hgoes) (hstep.program? hq)
    exact ⟨us', b, g'', hstep.trans hran, hrests', hQ⟩

theorem after_wait (c : Scenario) (us : List Turn) (millis : Nat) :
    (c.after (us ++ [.wait millis])).world =
      { (c.after us).world with clock := (c.after us).world.clock + millis } := by
  rw [after_append]
  rfl

theorem step_sleep (w : World) (span : Duration) :
    (Program.race .background (.sleep span) Program.done).step (n + 1) w =
      ((w.sleep (n + 1) span).1.map fun a => .done (.ok a), (w.sleep (n + 1) span).2) := rfl

theorem world_sleep {span : Duration} {f : Except SettlementError Unit → Program (Stage ⊕ Reply)}
    (hq : c.program? us n = some (.race .background (.sleep span) .done >>= f)) :
    (c.after (us ++ [.step n])).world = ((c.after us).world.sleep (n + 1) span).2 := by
  have hasks : ∀ a, Program.race .background (.sleep span) .done ≠ .done a := by
    rintro a ⟨⟩
  rw [world_request hq rfl, Program.step_bind_world hasks, step_sleep]

/-- With one step a sleep begins, and with another, after its span, it ends. -/
theorem exists_ran_sleep {span : Duration}
    {f : Except SettlementError Unit → Program (Stage ⊕ Reply)} (h : c.Rests n us g now)
    (hspan : 0 < span.sleepMillis)
    (hq : c.program? us n = some (.race .background (.sleep span) .done >>= f)) :
    ∃ us', c.Ran n us (.race .background (.sleep span) .done) us' (.ok ()) ∧
      c.Rests n us' g (now + span.sleepMillis) := by
  have hbegins := World.sleep_begins h.timer hspan
  -- The first step sets the timer and waits for it.
  have hbegun : c.Runs n us (.race .background (.sleep span) .done) (us ++ [.step n])
      (.race .background (.sleep span) .done) := by
    refine .wait .refl rfl ?_
    rw [step_sleep, hbegins]
    rfl
  have hclock : (Turn.wait span.sleepMillis).task? ≠ some n := by
    rintro ⟨⟩
  have hsame : c.program? (us ++ [.step n] ++ [.wait span.sleepMillis]) n =
      c.program? (us ++ [.step n]) n := by
    rw [program?, list_other hclock]
    rfl
  have halive : (c.program? (us ++ [.step n] ++ [.wait span.sleepMillis]) n).isSome := by
    rw [hsame, hbegun.program? hq]
    rfl
  have hother : Turn.wait span.sleepMillis ≠ .step n := by
    rintro ⟨⟩
  have hlasts := hbegun.other hother halive
  have hworld := c.after_wait (us ++ [.step n]) span.sleepMillis
  rw [world_sleep hq, hbegins] at hworld
  have htimer : (c.after (us ++ [.step n] ++ [.wait span.sleepMillis])).world.timers.get? (n + 1) =
      some ((c.after us).world.clock + span.sleepMillis) := by
    rw [hworld, Table.get?_put, if_pos rfl]
  have hends := World.sleep_ends htimer (by rw [hworld]) span
  -- Now the timer is due, so the next step ends the sleep and removes it.
  have hended : c.Ran n us (.race .background (.sleep span) .done)
      (us ++ [.step n] ++ [.wait span.sleepMillis] ++ [.step n]) (.ok ()) := by
    refine hlasts.step ?_
    rw [step_sleep, hends]
    rfl
  have hworld' := world_sleep (hlasts.program? hq)
  rw [hends, hworld] at hworld'
  refine ⟨_, hended, ?_, ?_, ?_⟩
  · rw [hworld']
    exact h.shows.retimed _ _
  · rw [hworld', ← h.clock]
  · rw [hworld', Table.get?_remove, if_pos rfl]

/-- An event is told, and a sleep is slept to its end. -/
theorem exists_ran_pause {e : Event} {span : Duration}
    {f : Except SettlementError Unit → Program (Stage ⊕ Reply)} (h : c.Rests n us g now)
    (hspan : 0 < span.sleepMillis)
    (hq : c.program? us n = some ((do
      Program.request (.emit e)
      (Retry.pause .background span).run) >>= f)) :
    ∃ us', c.Ran n us (do
        Program.request (.emit e)
        (Retry.pause .background span).run) us' (.ok ()) ∧
      c.Rests n us' g (now + span.sleepMillis) := by
  have hwait : (do
      Program.request (.emit e)
      (Retry.pause .background span).run : Program _) =
        .ask (.emit e) fun _ => .race .background (.sleep span) .done :=
    congrArg (Program.ask (.emit e)) (funext fun _ => Program.pause_eq .background span)
  rw [hwait] at hq ⊢
  have htold : c.Runs n us (.ask (.emit e) fun _ => .race .background (.sleep span) .done)
      (us ++ [.step n]) (.race .background (.sleep span) .done) := .step .refl rfl
  obtain ⟨-, g', -, rfl, hrests⟩ := h.perform (r := .emit e) trivial
  obtain ⟨us', hran, hrests'⟩ :=
    exists_ran_sleep (hrests (world_request hq rfl)) hspan (htold.program? hq)
  exact ⟨us', htold.trans hran, hrests'⟩

theorem Rests.elapsed (h : c.Rests n us g now) {started : Nat}
    {f : Duration → Program (Stage ⊕ Reply)}
    (hq : c.program? us n = some (Retry.elapsedSince started >>= f)) :
    c.Ran n us (Retry.elapsedSince started) (us ++ [.step n]) (.ofMillis (now - started)) ∧
      c.Rests n (us ++ [.step n]) g now := by
  obtain ⟨-, g', -, rfl, hrests⟩ := h.perform (r := .clock) trivial
  refine ⟨.step .refl ?_, hrests (world_request hq rfl)⟩
  rw [← h.clock]
  rfl

theorem exists_waits {s : Retry} {e : SettlementError} {delay : Duration} {backoff : Backoff}
    {words : Words} {f : Retry ⊕ Except SettlementError α → Program (Stage ⊕ Reply)}
    (h : c.Rests n us g now) (hdelay : 0 < delay.sleepMillis)
    (hnext : s.backoff.next (.ofMillis (now - s.started)) s.words =
      .ok (some delay, backoff, words))
    (hq : c.program? us n = some (Retry.afterFailure .background s e >>= f)) :
    ∃ us', c.Waits n .background s us e us' (.ok ()) backoff words ∧
      c.Rests n us' g (now + delay.sleepMillis) := by
  unfold Retry.afterFailure at hq
  rw [Program.bind_assoc] at hq
  obtain ⟨helapsed, hrests⟩ := h.elapsed hq
  have hq₁ := (helapsed.bind .refl).program?_eq hq
  rw [hnext] at hq₁
  change c.program? _ n = some (((Program.request (.emit (.retrying s.attempt delay e)) >>=
    fun _ => (Retry.pause .background delay).run) >>= _) >>= f) at hq₁
  rw [Program.bind_assoc] at hq₁
  obtain ⟨us', hslept, hrests'⟩ := exists_ran_pause hrests hdelay hq₁
  exact ⟨us', ⟨helapsed, hnext, hslept, hslept.woken hq₁⟩, hrests'⟩

/-- An attempt that lacks funds leaves everything as it was. -/
theorem exists_ran_lacking {ext : Identifier} {k : Stake c.entropy ext} {s : Settlement}
    {available required : Decimal} {f : Except SettlementError Spin → Program (Stage ⊕ Reply)}
    (h : c.Rests n us ⟨k.ledger, none, k.source⟩ now)
    (hs : k.Goes ⟨k.ledger, none, k.source⟩ (.inl (.settle s)))
    (hlack : adjusted k.bet.neg k.account.balance =
      .error (.insufficientFunds available required))
    (hq : c.program? us n = some (s.tries >>= f)) :
    ∃ us', c.Ran n us s.tries us' (.error (.insufficientFunds available required)) ∧
      c.Rests n us' ⟨k.ledger, none, k.source⟩ now := by
  obtain ⟨-, hcontext, hext, hbet, hodds⟩ := hs
  have htries : s.tries.Under (alone c.entropy False) ⟨k.ledger, none, k.source⟩
      fun g r => k.Attempted r g := by
    refine Program.Under.observed (alone_unprobed c.entropy False) ?_
    rw [hcontext, hext, hbet, hodds]
    refine Program.Under.mono (Program.leads_attempt_alone k s.retry.attempt) fun g r h => ?_
    cases r <;> exact h
  obtain ⟨us', r, g, hran, hrests, hattempted⟩ := exists_ran h htries hq
  obtain rfl := hattempted.insufficientFunds_iff.mpr hlack
  obtain rfl := hattempted.lacking
  exact ⟨us', hran, hrests⟩

end WagerLedger.Scenario

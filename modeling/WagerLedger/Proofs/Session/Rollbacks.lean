import WagerLedger.Proofs.Session.Veiled
import WagerLedger.Session.Scenario

/-! # Failed rollbacks are only told

Two sessions that differ in nothing but the faults at their rollbacks have the same answers,
the same committed ledger and the same events, but for one event for each rollback that has
failed. It names the error of the attempt that was to be undone, and this attempt has failed
with that error and no other. -/
namespace WagerLedger

namespace Program

variable {α : Type} {own : String → Program α → Prop} {Q : α → Prop} {p : Program α} {w : World}
  {i : ClientId}

theorem Discreet.failures_told (h : p.Discreet own Q) :
    p.told.filter (·.isRollbackFailure) = [] :=
  List.filter_eq_nil_iff.mpr fun e he hfailure => by
    rw [h.told e he] at hfailure
    cases hfailure

/-- A failed rollback is told at once, with the cause for which the program then fails. -/
theorem Discreet.tells (h : p.Discreet own Q) {f : LedgerError} (hr : p.request? = some .rollback)
    (hf : (w.rollback i).1 = some (.error f)) :
    ∃ cause q q₀, (p.step i w).1 = some q ∧ own cause q₀ ∧ q.silent = q₀.silent ∧
      q.told.filter (·.isRollbackFailure) = [.rollbackFailed cause f] := by
  cases h with
  | done _ => cases hr
  | crash => cases hr
  | ask hr' _ =>
    cases hr
    cases hr'
  | race hr' _ _ =>
    cases hr
    cases hr'
  | @rollback k cause ho herror hk =>
    refine ⟨cause, k (.error f), k (.ok ()), ?_, ho, ?_, ?_⟩
    · change Option.map k (w.rollback i).1 = _
      rw [hf]
      rfl
    · rw [herror]
      rfl
    · rw [herror]
      exact congrArg (List.cons _) hk.failures_told

/-- Any other step is not told as a failed rollback. -/
theorem Discreet.tells_nothing (h : p.Discreet own Q) (hprobes : w.probes = [])
    (hr : ∀ f, p.request? = some .rollback → (w.rollback i).1 ≠ some (.error f)) {q : Program α}
    (hq : (p.step i w).1 = some q) : q.told.filter (·.isRollbackFailure) = [] := by
  cases h with
  | done _ => cases hq
  | crash => cases hq
  | @ask r k _ hk =>
    obtain ⟨a, ha, rfl⟩ := Option.map_eq_some_iff.mp hq
    exact (hk a (World.unprobed hprobes ha)).failures_told
  | @rollback k cause _ _ hk =>
    obtain ⟨a, ha, rfl⟩ := Option.map_eq_some_iff.mp hq
    cases a with
    | ok _ => exact hk.failures_told
    | error f => exact (hr f rfl ha).elim
  | @race c r k _ he hk =>
    rw [Program.step] at hq
    cases hover : w.ended? i c r with
    | some e =>
      rw [hover] at hq
      cases hq
      exact (he e).failures_told
    | none =>
      rw [hover] at hq
      obtain ⟨a, ha, rfl⟩ := Option.map_eq_some_iff.mp hq
      exact (hk a (World.unprobed hprobes ha)).failures_told

theorem Discreet.failures_step (h : p.Discreet own Q) :
    (p.step i w).2.failures = w.failures := by
  have hperform {r : Request} (hr : r.isDiscreet = true) :
      (w.perform i r).2.failures = w.failures := by
    refine w.failures_perform i ?_
    rintro e rfl
    exact Request.unsaid hr
  cases h with
  | done _ => rfl
  | crash => rfl
  | ask hr _ => exact hperform hr
  | rollback _ _ _ _ =>
    exact congrArg (List.filter _) (w.events_perform i (r := .rollback) fun _ h => nomatch h)
  | @race c r k hr _ _ =>
    rw [Program.step]
    cases w.ended? i c r with
    | some e => exact congrArg (List.filter _) (w.events_giveUp i r)
    | none => exact hperform hr

end Program

theorem Session.Same.left {p p' : Session.RoundProgram} (h : Session.Same p p') :
    Session.Discreet p := by
  cases h with
  | discreet h => exact h
  | fault _ _ _ _ => exact .done nofun
  | inject _ _ _ _ => exact 
    Session.discreet_answer ((Program.quiet_request rfl).bind fun _ => Program.quiet_pure _)

theorem Task.step_of_request {client limit : Nat} {p : Session.RoundProgram} {r : Request}
    (hr : p.request? = some r) (w : World) (d : Desk) :
    (Task.mk client limit (.inl p)).step Session.rounds w d =
      ((p.step client w).1.map fun p => ⟨client, limit, .inl p⟩, (p.step client w).2, d) := by
  cases p with
  | done a => cases hr
  | crash => cases hr
  | ask r k => rfl
  | race c r k => rfl

namespace Tasks

variable {s s' : Tasks Stage Reply Desk} {u : Turn} {n : Nat} {f : LedgerError}

/-- In this turn the rollback that a task asks for fails. -/
def RollbackFails (s : Tasks Stage Reply Desk) (u : Turn) (n : Nat) (f : LedgerError) : Prop :=
  u = .step n ∧ ∃ t, s.list[n]? = some t ∧ t.request? = some .rollback ∧
    (s.world.rollback t.client).1 = some (.error f)

/-- What is left of the round that a task is in. -/
def program? (s : Tasks Stage Reply Desk) (n : Nat) : Option Session.RoundProgram :=
  s.list[n]?.bind (·.state.getLeft?)

theorem Same.discreet (h : s.Same s') {client limit : Nat} {p : Session.RoundProgram}
    (ht : s.list[n]? = some ⟨client, limit, .inl p⟩) : Session.Discreet p := by
  have hsame := forall₂_getElem? h.list n
  rw [ht] at hsame
  generalize s'.list[n]? = x' at hsame
  cases hsame with
  | @some t t' hsame =>
    obtain ⟨client', limit', state'⟩ := t'
    obtain ⟨-, hstate⟩ := hsame
    cases hstate with
    | inl hp => exact hp.left

/-- A failed rollback is told in its beat, once, and with the error of the attempt that it was
to undo. -/
theorem Same.tells (h : s.Same s') (hf : s.RollbackFails u n f) :
    ∃ cause p, (s.beat Session.rounds u).world.failures =
        s.world.failures ++ [.rollbackFailed cause f] ∧
      (s.beat Session.rounds u).program? n = some p ∧ Abandoned cause p := by
  obtain ⟨rfl, ⟨client, limit, state⟩, ht, hr, hf⟩ := hf
  have hn : n < s.list.length := (List.getElem?_eq_some_iff.mp ht).1
  cases state with
  | inr e => cases hr
  | inl p =>
    have hp := h.discreet ht
    obtain ⟨cause, q, q₀, hq, hown, hsilent, htold⟩ := hp.tells hr hf
    have hstep : (Task.mk client limit (.inl p)).step Session.rounds s.world s.shared =
        (some ⟨client, limit, .inl q⟩, (p.step client s.world).2, s.shared) := by
      rw [Task.step_of_request hr, hq]
      rfl
    refine ⟨cause, q₀, ?_, ?_, hown⟩
    · rw [Tasks.beat, beatAt_of_step ht hstep]
      change ((p.step client s.world).2.hear q.told).failures = _
      rw [World.failures_hear, hp.failures_step, htold]
    · rw [Tasks.beat, beatAt_of_step ht hstep, program?]
      change (s.list.set n ⟨client, limit, .inl q.silent⟩)[n]?.bind _ = _
      rw [List.getElem?_set_self hn, hsilent, hown.silent]
      rfl

theorem failures_dropAt (s : Tasks Stage Reply Desk) (n : Nat) :
    (s.dropAt n).world.failures = s.world.failures := by
  rw [Tasks.dropAt]
  split
  · rfl
  · rename_i t ht
    split
    · rfl
    · change (t.drop s.world).2.failures = _
      rw [Task.drop]
      split
      · rfl
      · exact congrArg (List.filter _) (s.world.events_leaveBehind t.client)

theorem Same.failures_beatAt (h : s.Same s') (hf : ∀ f, ¬s.RollbackFails (.step n) n f) :
    (s.beatAt Session.rounds n).world.failures = s.world.failures := by
  have hnone (w : World) {es : List Event} (hes : es.filter (·.isRollbackFailure) = []) :
      (w.hear es).failures = w.failures := by
    rw [World.failures_hear, hes, List.append_nil]
  cases ht : s.list[n]? with
  | none => rw [Tasks.beatAt, ht]
  | some t =>
    obtain ⟨client, limit, state⟩ := t
    cases state with
    | inr e =>
      rw [beatAt_of_step ht rfl]
      exact hnone s.world rfl
    | inl p =>
      have hp := h.discreet ht
      -- Only a request can fail a rollback; ends and new stages tell nothing of it.
      cases hreq : p.request? with
      | some r =>
        rw [beatAt_of_step ht (Task.step_of_request hreq _ _)]
        refine Eq.trans (hnone _ ?_) hp.failures_step
        cases hq : (p.step client s.world).1 with
        | none => exact hp.failures_told
        | some q =>
          exact hp.tells_nothing h.probes (fun f hr hfails => hf f ⟨rfl, _, ht, hr, hfails⟩) hq
      | none =>
        cases p with
        | done a =>
          rw [beatAt_of_step ht rfl]
          cases hp with
          | @done a hst =>
            cases a with
            | inl st => exact hnone _ (Session.discreet_rounds s.shared hst).failures_told
            | inr r => exact hnone _ rfl
        | crash =>
          rw [beatAt_of_step ht rfl]
          exact (hnone _ rfl).trans (congrArg (List.filter _) (s.world.events_leaveBehind client))
        | ask r k => cases hreq
        | race c r k => cases hreq

theorem Same.tells_nothing (h : s.Same s') (hf : ∀ n f, ¬s.RollbackFails u n f) :
    (s.beat Session.rounds u).world.failures = s.world.failures := by
  cases u with
  | wait millis => rfl
  | drop n => exact s.failures_dropAt n
  | step n => exact h.failures_beatAt (hf n)

end Tasks

/-- The same call, or one that injects other faults at the rollbacks. The rollback of a kept
transaction is left out: it tells the caller that it has failed. -/
inductive Operation.SameButRollbacks : Operation → Operation → Prop
  | same {op : Operation} (h : op ≠ .move .rollback) : SameButRollbacks op op
  | fault (skip times skip' times' : Nat) :
    SameButRollbacks (.fault .rollback skip times) (.fault .rollback skip' times')

namespace Scenario

/-- The sessions differ in nothing but the faults that they inject at the rollbacks. -/
structure SameButRollbacks (c c' : Scenario) : Prop where
  config : c'.config = c.config
  entropy : c'.entropy = c.entropy
  probes : c.probes = []
  probes' : c'.probes = []
  calls : List.Forall₂ Operation.SameButRollbacks c.calls c'.calls

def inBeats (c : Scenario) (us : List Turn) : Tasks Stage Reply Desk :=
  c.start.beats Session.rounds us

/-- In the beat `u` that follows `us` a rollback that fails is told once, with the error of the
attempt that it was to undo; and without one nothing is told of failed rollbacks. -/
structure TellsRollbacks (c : Scenario) (us : List Turn) (u : Turn) : Prop where
  failed : ∀ n f, (c.inBeats us).RollbackFails u n f → ∃ cause p,
    (c.inBeats (us ++ [u])).world.failures =
        (c.inBeats us).world.failures ++ [.rollbackFailed cause f] ∧
      (c.inBeats (us ++ [u])).program? n = some p ∧ Abandoned cause p
  otherwise : (∀ n f, ¬(c.inBeats us).RollbackFails u n f) →
    (c.inBeats (us ++ [u])).world.failures = (c.inBeats us).world.failures

variable {c c' : Scenario}

theorem SameButRollbacks.symm (h : c.SameButRollbacks c') : c'.SameButRollbacks c where
  config := h.config.symm
  entropy := h.entropy.symm
  probes := h.probes'
  probes' := h.probes
  calls := by
    refine .flip (h.calls.imp fun op op' hop => ?_)
    cases hop with
    | same h => exact .same h
    | fault skip times skip' times' => exact .fault skip' times' skip times

theorem SameButRollbacks.start (h : c.SameButRollbacks c') : c.start.Same c'.start where
  world := by
    simp only [Scenario.start, h.entropy, h.probes, h.probes']
  probes := h.probes
  shared := by simp only [Scenario.start, h.config]
  list := by
    refine forall₂_mapIdx h.calls fun n op op' hop => ⟨rfl, .inl ?_⟩
    cases hop with
    | same hop => exact .discreet (.done fun hst => hop (Stage.start.inj hst))
    | fault skip times skip' times' => exact .fault skip times skip' times'

theorem inBeats_append (c : Scenario) (us : List Turn) (u : Turn) :
    c.inBeats (us ++ [u]) = (c.inBeats us).beat Session.rounds u := by
  rw [inBeats, Tasks.beats, List.foldl_append]
  rfl

theorem tellsRollbacks (h : c.SameButRollbacks c') (us : List Turn) (u : Turn) :
    c.TellsRollbacks us u := by
  have hsame : (c.inBeats us).Same (c'.inBeats us) := h.start.beats us
  refine ⟨fun n f hf => ?_, fun hf => ?_⟩
  · rw [inBeats_append]
    exact hsame.tells hf
  · rw [inBeats_append]
    exact hsame.tells_nothing hf

/-- Two sessions that differ in nothing but the faults at their rollbacks, run in the same
beats: at every moment the same calls have ended, at the same moments and with the same answers
or errors; the committed ledgers are the same; and so are the events but for those of failed
rollbacks. Of these each session tells one for each rollback that fails, in its beat and with
the error of the attempt. -/
theorem failed_rollbacks_only_told (h : c.SameButRollbacks c') (us : List Turn) :
    (∃ vs vs', c.inBeats us = c.after vs ∧ c'.inBeats us = c'.after vs') ∧
      (∀ n : Nat, (c'.inBeats us).list[n]?.bind Task.ending? =
        (c.inBeats us).list[n]?.bind Task.ending?) ∧
      (c'.inBeats us).world.store.ledger = (c.inBeats us).world.store.ledger ∧
      (c'.inBeats us).world.events.filter (!·.isRollbackFailure) =
        (c.inBeats us).world.events.filter (!·.isRollbackFailure) ∧
      ∀ u, c.TellsRollbacks us u ∧ c'.TellsRollbacks us u := by
  have hsame : (c.inBeats us).Same (c'.inBeats us) := h.start.beats us
  refine ⟨?_, fun n => ?_, (World.ledger_of_veil hsame.world).symm,
    (World.events_of_veil hsame.world).symm, fun u => ⟨tellsRollbacks h us u, ?_⟩⟩
  · obtain ⟨vs, hvs⟩ := c.start.beats_turns Session.rounds us
    obtain ⟨vs', hvs'⟩ := c'.start.beats_turns Session.rounds us
    exact ⟨vs, vs', hvs, hvs'⟩
  · have ht := forall₂_getElem? hsame.list n
    generalize (c.inBeats us).list[n]? = x at ht ⊢
    generalize (c'.inBeats us).list[n]? = x' at ht ⊢
    cases ht with
    | none => rfl
    | some ht => exact ht.ending?
  · exact tellsRollbacks h.symm us u

/-- A session in which three attempts fail, of which so many cannot be rolled back. -/
def threeFailures (times : Nat) : Scenario where
  config := .standard
  entropy _ := .ofList []
  probes := []
  calls := [.fault .rollback 0 times, .settle .nil .two none, .account .nil, .openAccount .nil,
    .withdraw .nil .two, .history .nil 5]

def sixCallsTurns : List Turn :=
  (List.range 6).flatMap fun n => List.replicate 40 (.step n)

theorem failed_rollbacks_only_told_threeFailures :
    (((threeFailures 3).inBeats sixCallsTurns).world.failures.length = 3 ∧
        ((threeFailures 0).inBeats sixCallsTurns).world.failures.length = 0) ∧
      (∃ vs vs', (threeFailures 3).inBeats sixCallsTurns = (threeFailures 3).after vs ∧
        (threeFailures 0).inBeats sixCallsTurns = (threeFailures 0).after vs') ∧
      (∀ n : Nat, ((threeFailures 0).inBeats sixCallsTurns).list[n]?.bind Task.ending? =
        ((threeFailures 3).inBeats sixCallsTurns).list[n]?.bind Task.ending?) ∧
      ((threeFailures 0).inBeats sixCallsTurns).world.store.ledger =
        ((threeFailures 3).inBeats sixCallsTurns).world.store.ledger ∧
      ((threeFailures 0).inBeats sixCallsTurns).world.events.filter (!·.isRollbackFailure) =
        ((threeFailures 3).inBeats sixCallsTurns).world.events.filter (!·.isRollbackFailure) ∧
      ∀ u, (threeFailures 3).TellsRollbacks sixCallsTurns u ∧
        (threeFailures 0).TellsRollbacks sixCallsTurns u := by
  have hsame : (threeFailures 3).SameButRollbacks (threeFailures 0) := by
    refine ⟨rfl, rfl, rfl, rfl, .cons (.fault 0 3 0 0) ?_⟩
    refine .cons (.same nofun) (.cons (.same nofun) (.cons (.same nofun) ?_))
    exact .cons (.same nofun) (.cons (.same nofun) .nil)
  exact ⟨by decide +kernel, failed_rollbacks_only_told hsame sixCallsTurns⟩

end Scenario

end WagerLedger

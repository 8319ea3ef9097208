import WagerLedger.Proofs.Session.Retrying
import WagerLedger.Proofs.Session.Story

/-! # The story of a settlement

A settlement tells of each delay that it is granted, then perhaps that the budget for delays is
exhausted, and at its end how it has come out. The attempts between murmur. -/
namespace WagerLedger

namespace Event

/-- The last word of a settlement, by its result. -/
def closing (ext : Identifier) (bet : Decimal) (elapsed : Duration) :
    Except SettlementError Spin → Event
  | .ok spin => .settled spin elapsed
  | .error e => .settlementFailed ext bet elapsed e

theorem isMinor_closing (ext : Identifier) (bet : Decimal) (elapsed : Duration)
    (r : Except SettlementError Spin) : (closing ext bet elapsed r).isMinor = false := by
  cases r with
  | error e => rfl
  | ok spin =>
    rw [closing, isMinor, isRollbackFailure, settled]
    split <;> rfl

end Event

theorem Program.close_inr (s : Settlement) (r : Except SettlementError Spin) :
    s.close (.inr r) = Program.request .clock >>= fun now =>
      Program.request (.emit (.closing s.externalId s.bet (.ofMillis (now - s.started)) r)) >>=
        fun _ => .done (.inr r) := by
  cases r <;> rfl

namespace Scenario

variable {α : Type} {c : Scenario} {n : Nat} {us us₀ us' v v' w x x' : List Turn} {ctx : Context}
  {ext : Identifier} {bet : Decimal} {i j : Nat} {s s' : Settlement}
  {r : Except SettlementError Spin} {e e' : SettlementError} {t t' : Duration}
  {d d' : Option Duration}

/-- After attempt `i`, which has lacked funds, the backoff is asked for a delay with this much
time elapsed, and grants one or none. -/
inductive AsksDelay (c : Scenario) (n : Nat) (us₀ : List Turn) (ext : Identifier) (bet : Decimal)
    (ctx : Context) (us : List Turn) (i : Nat) : SettlementError → Duration → Option Duration → Prop
  | mk {v w m : List Turn} {s : Settlement} {available required : Decimal} {elapsed : Duration}
      {d : Option Duration} {backoff : Backoff} {words : Words}
      (tries : c.Tries n us₀ ext bet ctx i v s)
      (attempt : c.Attempts n s v w (.error (.insufficientFunds available required)))
      (clock : c.Ran n w (Retry.elapsedSince s.retry.started) m elapsed) (before : m <+: us)
      (asked : s.retry.backoff.next elapsed s.retry.words = .ok (d, backoff, words)) :
      AsksDelay c n us₀ ext bet ctx us i (.insufficientFunds available required) elapsed d

/-- After attempt `i`, which has lacked funds, the backoff grants no delay; that is told with the
time elapsed at another look at the clock. -/
inductive Exhausts (c : Scenario) (n : Nat) (us₀ : List Turn) (ext : Identifier) (bet : Decimal)
    (ctx : Context) (us : List Turn) (i : Nat) : SettlementError → Duration → Prop
  | mk {v w m m' : List Turn} {s : Settlement} {available required : Decimal}
      {elapsed told : Duration} {backoff : Backoff} {words : Words}
      (tries : c.Tries n us₀ ext bet ctx i v s)
      (attempt : c.Attempts n s v w (.error (.insufficientFunds available required)))
      (clock : c.Ran n w (Retry.elapsedSince s.retry.started) m elapsed)
      (asked : s.retry.backoff.next elapsed s.retry.words = .ok (none, backoff, words))
      (again : c.Ran n m (Retry.elapsedSince s.retry.started) m' told) (before : m' <+: us) :
      Exhausts c n us₀ ext bet ctx us i (.insufficientFunds available required) told

/-- A round of the call has ended with this result. -/
inductive Concludes (c : Scenario) (n : Nat) (us₀ : List Turn) (ext : Identifier) (bet : Decimal)
    (ctx : Context) (us : List Turn) (r : Except SettlementError Spin) : Prop
  | mk {i : Nat} {v : List Turn} {s : Settlement} (tries : c.Tries n us₀ ext bet ctx i v s)
      (round : c.Ran n (v ++ [.step n]) s.round.observed us (.inr r))

/-- From the second step of a call, its first look at the clock, to the last but one. -/
inductive Took (c : Scenario) (n : Nat) (us : List Turn) : Duration → Prop
  | mk {y₀ y : List Turn} (first : y₀ ++ [.step n] <+: us) (second : y₀.count (.step n) = 1)
      (looks₀ : c.request? y₀ n = some .clock) (last : y ++ [.step n] <+: us)
      (next : y.count (.step n) + 2 = us.count (.step n)) (looks : c.request? y n = some .clock) :
      Took c n us (.ofMillis ((c.after y).world.clock - (c.after y₀).world.clock))

/-- Delays that were granted, each with the error of the attempt before it. -/
def Grants (c : Scenario) (n : Nat) (us₀ : List Turn) (ext : Identifier) (bet : Decimal)
    (ctx : Context) (us : List Turn) (granted : List (Duration × SettlementError)) : Prop :=
  ∀ j delay e, granted[j]? = some (delay, e) →
    ∃ t, c.AsksDelay n us₀ ext bet ctx us (j + 1) e t (some delay)

/-- All delays that were asked for: those that were granted, and then perhaps one that was
refused, with the time elapsed and the error of the last attempt. Their attempts have numbers of
32 bits. -/
structure Delays (c : Scenario) (n : Nat) (us₀ : List Turn) (ext : Identifier) (bet : Decimal)
    (ctx : Context) (us : List Turn) (granted : List (Duration × SettlementError))
    (refused : Option (Duration × SettlementError)) : Prop where
  grants : c.Grants n us₀ ext bet ctx us granted
  refuses : ∀ t e, refused = some (t, e) →
    c.Exhausts n us₀ ext bet ctx us (granted.length + 1) e t
  all : ∀ j e t d, c.AsksDelay n us₀ ext bet ctx us (j + 1) e t d →
    (∃ delay, d = some delay ∧ granted[j]? = some (delay, e)) ∨
      (d = none ∧ j = granted.length ∧ ∃ told, refused = some (told, e))
  numbers : granted.length + refused.toList.length < UInt32.size

/-- What is told of the delays, in their order. -/
def delayEvents (granted : List (Duration × SettlementError))
    (refused : Option (Duration × SettlementError)) : List Event :=
  granted.mapIdx (fun j g => .retrying (UInt32.ofNat (j + 1)) g.1 g.2) ++
    (refused.map fun g => .budgetExhausted (UInt32.ofNat (granted.length + 1)) g.1 g.2).toList

theorem Ran.unique {p : Program α} {a a' : α} (h : c.Ran n w p x a) (h' : c.Ran n w p x' a')
    (hx : x <+: us) (hx' : x' <+: us) : a = a' := by
  have hle : ∀ {x x' : List Turn} {a a' : α}, c.Ran n w p x a → c.Ran n w p x' a' → x <+: x' →
      a = a' := by
    intro x x' a a' h h' hxx'
    obtain ⟨q, hbefore, hafter⟩ := Runs.split h' h.isPrefix hxx'
    rw [hbefore.unique h] at hafter
    cases hafter.of_done
    rfl
  rcases List.prefix_or_prefix_of_prefix hx hx' with hxx' | hxx'
  · exact hle h h' hxx'
  · exact (hle h' h hxx').symm

/-- The backoff is asked for a delay after a failure, and what it says is told. -/
inductive Asked (c : Scenario) (n : Nat) (s : Retry) (e : SettlementError) (w us : List Turn) :
    Retry ⊕ Except SettlementError α → Prop
  | refused {m m' : List Turn} {elapsed told : Duration} {backoff : Backoff} {words : Words}
      (clock : c.Ran n w (Retry.elapsedSince s.started) m elapsed)
      (asked : s.backoff.next elapsed s.words = .ok (none, backoff, words))
      (again : c.Ran n m (Retry.elapsedSince s.started) m' told) (before : m' <+: us)
      (story : c.story us n = c.story w n ++ [.budgetExhausted s.attempt told e]) :
      Asked c n s e w us (.inr (.error e))
  | granted {m : List Turn} {elapsed delay : Duration} {backoff : Backoff} {words : Words}
      {z : Retry ⊕ Except SettlementError α}
      (clock : c.Ran n w (Retry.elapsedSince s.started) m elapsed) (before : m <+: us)
      (asked : s.backoff.next elapsed s.words = .ok (some delay, backoff, words))
      (story : c.story us n = c.story w n ++ [.retrying s.attempt delay e]) :
      Asked c n s e w us z

theorem asked_of_ran {s : Retry} {z : Retry ⊕ Except SettlementError α}
    {f : Retry ⊕ Except SettlementError α → Program (Stage ⊕ Reply)}
    (hq : c.program? w n = some (Retry.afterFailure ctx s e >>= f))
    (h : c.Ran n w (Retry.afterFailure ctx s e) us z) : c.Asked n s e w us z := by
  rw [Retry.afterFailure, Program.bind_assoc] at hq
  obtain ⟨m, elapsed, hclock, h⟩ := h.bind_cases
  have hm := Runs.program? hclock hq
  have hstory := Runs.story hclock hq (Program.murmurs_elapsedSince _)
  change c.program? m n = some (_ >>= f) at hm
  cases hnext : s.backoff.next elapsed s.words with
  | error e' =>
    rw [hnext] at h
    cases h.of_crash
  | ok y =>
    obtain ⟨d, backoff, words⟩ := y
    rw [hnext] at h hm
    cases d with
    | none =>
      obtain ⟨m', told, hagain, h⟩ := h.bind_cases
      change c.program? m n = some (((Retry.elapsedSince s.started) >>= _) >>= f) at hm
      rw [Program.bind_assoc] at hm
      have hm' := Runs.program? hagain hm
      have htold := h.tells hm' rfl trivial
      rw [Runs.story hagain hm (Program.murmurs_elapsedSince _), hstory] at htold
      obtain ⟨m'', _, htell, h⟩ := h.bind_cases
      cases h.of_done
      exact .refused hclock hnext hagain (htell.isPrefix.trans h.isPrefix) htold
    | some delay =>
      have htold := h.tells hm rfl
        (Program.murmurs_bind (Program.murmurs_pause ctx delay) fun a => by
          cases a with
          | error e => trivial
          | ok _ =>
            dsimp only
            split <;> trivial)
      rw [hstory] at htold
      exact .granted hclock h.isPrefix hnext htold

/-- Nothing is told after an attempt that did not lack funds. -/
theorem story_round {z : Retry ⊕ Except SettlementError Spin}
    {f : Retry ⊕ Except SettlementError Spin → Program (Stage ⊕ Reply)}
    (hfinal : ∀ available required, r ≠ .error (.insufficientFunds available required))
    (hq : c.program? w n = some ((s.retry.round s.context fun _ => ExceptT.mk (.done r)) >>= f))
    (h : c.Ran n w (s.retry.round s.context fun _ => ExceptT.mk (.done r)) us z) :
    z = .inr r ∧ c.story us n = c.story w n := by
  cases r with
  | error e =>
    have hfatal : ¬e.isRecoverable = true := by
      rw [SettlementError.isRecoverable_iff]
      rintro ⟨available, required, rfl⟩
      exact hfinal available required rfl
    change c.Ran n w (if e.isRecoverable = true then _ else .done (.inr (.error e))) us z at h
    change c.program? w n = some ((if e.isRecoverable = true then _ else .done _) >>= f) at hq
    rw [if_neg hfatal] at h hq
    cases h.of_done
    exact ⟨rfl, Runs.story h hq trivial⟩
  | ok spin =>
    change c.Ran n w (if 1 < s.retry.attempt then _ else .done (.inr (.ok spin))) us z at h
    change c.program? w n = some ((if 1 < s.retry.attempt then _ else .done _) >>= f) at hq
    split at h
    · rename_i hattempt
      rw [if_pos hattempt] at hq
      refine ⟨?_, Runs.story h hq ?_⟩
      · obtain ⟨m, elapsed, -, h⟩ := h.bind_cases
        obtain ⟨m', _, -, h⟩ := h.bind_cases
        cases h.of_done
        rfl
      · refine Program.murmurs_bind (Program.murmurs_elapsedSince _) fun elapsed => ?_
        exact Program.murmurs_bind (Program.murmurs_request rfl) fun _ => trivial
    · rename_i hattempt
      rw [if_neg hattempt] at hq
      cases h.of_done
      exact ⟨rfl, Runs.story h hq trivial⟩

theorem Ran.of_close {z : Settlement ⊕ Except SettlementError Spin}
    (h : c.Ran n w (s.close (.inr r)) us z) : z = .inr r := by
  rw [Program.close_inr] at h
  obtain ⟨m, now, -, h⟩ := h.bind_cases
  obtain ⟨m', told, -, h⟩ := h.bind_cases
  cases h.of_done
  rfl

/-- The result is told with the time that has passed at the last look at the clock. -/
theorem story_close {z : Settlement ⊕ Except SettlementError Spin}
    {f : Settlement ⊕ Except SettlementError Spin → Program (Stage ⊕ Reply)}
    (hq : c.program? w n = some (s.close (.inr r) >>= f))
    (h : c.Ran n w (s.close (.inr r)) us z) : ∃ y, y ++ [.step n] <+: us ∧
      y.count (.step n) + 2 = us.count (.step n) ∧ c.request? y n = some .clock ∧
      c.story us n = c.story w n ++
        [.closing s.externalId s.bet (.ofMillis ((c.after y).world.clock - s.started)) r] := by
  rw [Program.close_inr] at h hq
  rw [Program.bind_assoc] at hq
  obtain ⟨m, now, hclock, h⟩ := h.bind_cases
  have hm := Runs.program? hclock hq
  have hstory := Runs.story hclock hq (Program.murmurs_request rfl)
  change c.program? m n = some (_ >>= f) at hm
  have htold := h.tells hm (Event.isMinor_closing _ _ _ _) trivial
  obtain ⟨m', _, htell, hdone⟩ := h.bind_cases
  obtain ⟨y, hy⟩ := Ran.at_once (r := .clock) (fun w => Option.some_ne_none w.clock) hclock
  obtain ⟨y', hy'⟩ := Ran.at_once (r := .emit _) (fun _ => Option.some_ne_none ()) htell
  have hcount := hdone.count_done
  cases hy.answer
  refine ⟨y, hy.turn.trans h.isPrefix, ?_, hy.waits.request? hq rfl, ?_⟩
  · rw [hcount, hy'.last, hy.last, hy.first]
  · rw [htold, hstory]

theorem AsksDelay.mono (h : c.AsksDelay n us₀ ext bet ctx x i e t d) (hx : x <+: us) :
    c.AsksDelay n us₀ ext bet ctx us i e t d := by
  obtain ⟨tries, attempt, clock, before, asked⟩ := h
  exact ⟨tries, attempt, clock, before.trans hx, asked⟩

theorem AsksDelay.lt_size (h : c.AsksDelay n us₀ ext bet ctx us i e t d)
    (hbet : Settlement.acceptsBet bet = true) : i < UInt32.size := by
  obtain ⟨tries, -⟩ := h
  exact (tries.fits hbet).attempt ▸ UInt32.toNat_lt_size _

theorem Exhausts.asks (h : c.Exhausts n us₀ ext bet ctx us i e t) :
    ∃ t', c.AsksDelay n us₀ ext bet ctx us i e t' none := by
  obtain ⟨tries, attempt, clock, asked, again, before⟩ := h
  exact ⟨_, tries, attempt, clock, again.isPrefix.trans before, asked⟩

theorem Grants.mono {granted : List (Duration × SettlementError)}
    (h : c.Grants n us₀ ext bet ctx x granted) (hx : x <+: us) :
    c.Grants n us₀ ext bet ctx us granted := by
  intro j delay e hj
  obtain ⟨t, ht⟩ := h j delay e hj
  exact ⟨t, ht.mono hx⟩

theorem Grants.concat {granted : List (Duration × SettlementError)} {delay : Duration}
    (h : c.Grants n us₀ ext bet ctx us granted)
    (hasks : c.AsksDelay n us₀ ext bet ctx us (granted.length + 1) e t (some delay)) :
    c.Grants n us₀ ext bet ctx us (granted ++ [(delay, e)]) := by
  intro j delay' e' hj
  rcases Nat.lt_or_ge j granted.length with hlt | hge
  · rw [List.getElem?_append_left hlt] at hj
    exact h j delay' e' hj
  · rw [List.getElem?_append_right hge, List.getElem?_singleton] at hj
    split at hj
    · cases hj
      obtain rfl : j = granted.length := by omega
      exact ⟨t, hasks⟩
    · cases hj

theorem delayEvents_concat (granted : List (Duration × SettlementError)) (delay : Duration)
    (e : SettlementError) : delayEvents (granted ++ [(delay, e)]) none =
      delayEvents granted none ++ [.retrying (UInt32.ofNat (granted.length + 1)) delay e] := by
  rw [delayEvents, delayEvents, List.mapIdx_concat]
  simp only [Option.map_none, Option.toList_none, List.append_nil]

theorem delayEvents_refused (granted : List (Duration × SettlementError)) (t : Duration)
    (e : SettlementError) : delayEvents granted (some (t, e)) =
      delayEvents granted none ++
        [.budgetExhausted (UInt32.ofNat (granted.length + 1)) t e] := by
  rw [delayEvents, delayEvents, Option.map_none, Option.toList_none, List.append_nil]
  rfl

theorem over_settleRound (r : Except SettlementError Spin) :
    (∃ reply, Session.settleRound (.inr r) = .done (.inr reply)) ∨
      Session.settleRound (.inr r) = .crash := by
  cases r with
  | error e => exact .inl ⟨_, rfl⟩
  | ok spin =>
    change (∃ reply, Session.answer (Session.settled spin) = _) ∨
      Session.answer (Session.settled spin) = _
    unfold Session.settled
    cases spin.net? with
    | none => exact .inr rfl
    | some net => exact .inl ⟨_, rfl⟩

section Settlements

variable (h : c.Begins n us₀ ext bet ctx) (hdrop : .drop n ∉ us₀)
include h hdrop

theorem Begins.tries_unique (htries : c.Tries n us₀ ext bet ctx i v s)
    (htries' : c.Tries n us₀ ext bet ctx i v' s') (hv : v ++ [.step n] <+: us)
    (hv' : v' ++ [.step n] <+: us) : v = v' ∧ s = s' := by
  have hle : ∀ {v v' : List Turn} {s s' : Settlement}, c.Tries n us₀ ext bet ctx i v s →
      c.Tries n us₀ ext bet ctx i v' s' → v ++ [.step n] <+: us → v' ++ [.step n] <+: us →
      v <+: v' := by
    intro v v' s s' htries htries' hv hv'
    rcases prefix_or_step ((List.prefix_append _ _).trans hv) hv' with hpre | hpre
    · exact hpre
    · exact absurd (h.earlier hdrop htries htries' hpre).1 (Nat.lt_irrefl i)
  obtain rfl := (hle htries htries' hv hv').eq_of_length_le
    (hle htries' htries hv' hv).length_le
  have hstand := h.stands hdrop htries
  rw [h.stands hdrop htries'] at hstand
  cases hstand
  exact ⟨rfl, rfl⟩

theorem Begins.asks_unique (hasks : c.AsksDelay n us₀ ext bet ctx us i e t d)
    (hasks' : c.AsksDelay n us₀ ext bet ctx us i e' t' d') : e = e' ∧ t = t' ∧ d = d' := by
  obtain @⟨v, w, m, s, _, _, t, d, _, _, tries, attempt, clock, before, asked⟩ := hasks
  obtain @⟨v', w', m', s', _, _, t', d', _, _, tries', attempt', clock', before', asked'⟩ := hasks'
  have hw := clock.isPrefix.trans before
  have hw' := clock'.isPrefix.trans before'
  obtain ⟨rfl, rfl⟩ := h.tries_unique hdrop tries tries' (attempt.isPrefix.trans hw)
    (attempt'.isPrefix.trans hw')
  have hclock : c.Ran n (v ++ [.step n])
      (s.tries >>= fun _ => Retry.elapsedSince s.retry.started) m t := attempt.bind clock
  have hclock' : c.Ran n (v ++ [.step n])
      (s.tries >>= fun _ => Retry.elapsedSince s.retry.started) m' t' := attempt'.bind clock'
  cases attempt.unique attempt' hw hw'
  obtain rfl := hclock.unique hclock' before before'
  cases asked.symm.trans asked'
  exact ⟨rfl, rfl, rfl⟩

theorem Begins.lacking (hasks : c.AsksDelay n us₀ ext bet ctx us i e t d)
    (htries : c.Tries n us₀ ext bet ctx i v s) (hattempt : c.Attempts n s v w r) (hw : w <+: us) :
    r = .error e ∧ ∃ available required, e = .insufficientFunds available required := by
  obtain ⟨tries, attempt, clock, before, asked⟩ := hasks
  have hw' := clock.isPrefix.trans before
  obtain ⟨rfl, rfl⟩ := h.tries_unique hdrop htries tries (hattempt.isPrefix.trans hw)
    (attempt.isPrefix.trans hw')
  exact ⟨hattempt.unique attempt hw hw', _, _, rfl⟩

theorem Begins.story_start : c.story (us₀ ++ [.step n]) n = [] := by
  obtain ⟨name, hop, -⟩ := h.call
  have hidle : c.request? us₀ n = none := by
    rw [request?, program?_fresh hop h.first hdrop]
    rfl
  rw [story_idle hidle, story_fresh h.first]

theorem Begins.story_attempt (htries : c.Tries n us₀ ext bet ctx i v s)
    (hattempt : c.Attempts n s v w r) : c.story w n = c.story v n := by
  have hstand := h.stands hdrop htries
  have hidle : c.request? v n = none := by
    rw [request?, hstand]
    rfl
  rw [Runs.story hattempt (program?_round hstand) (Settlement.murmurs_tries s), story_idle hidle]

theorem Begins.program?_after (htries : c.Tries n us₀ ext bet ctx i v s)
    (hattempt : c.Attempts n s v w r) :
    c.program? w n = some ((s.retry.round s.context fun _ => ExceptT.mk (.done r)) >>= fun z =>
      s.close z >>= Session.settleRound) := by
  rw [← Program.bind_assoc]
  exact (Runs.bind hattempt s.rest).program?_eq (program?_round (h.stands hdrop htries))

theorem Begins.story_tries (htries : c.Tries n us₀ ext bet ctx i us s) :
    ∃ granted, granted.length + 1 = i ∧ c.Grants n us₀ ext bet ctx us granted ∧
      c.story us n = delayEvents granted none := by
  induction htries with
  | first start =>
    refine ⟨[], rfl, nofun, ?_⟩
    rw [Runs.story start (h.started hdrop) (Settlement.murmurs_start _ _ _ _),
      h.story_start hdrop]
    rfl
  | @again i v w us s available required backoff words k before attempt waits number ih =>
    obtain ⟨granted, rfl, hgrants, hstory⟩ := ih
    have hvus := ((List.prefix_append _ _).trans attempt.isPrefix).trans waits.isPrefix
    cases asked_of_ran (h.program?_after hdrop before attempt) (waits.ran number) with
    | @granted m elapsed delay _ _ _ clock hm asked story =>
      refine ⟨granted ++ [(delay, .insufficientFunds available required)], ?_,
        (hgrants.mono hvus).concat ⟨before, attempt, clock, hm, asked⟩, ?_⟩
      · rw [List.length_append, List.length_singleton]
      · rw [story, h.story_attempt hdrop before attempt, hstory, delayEvents_concat,
          ← (before.fits h.accepted).attempt, UInt32.ofNat_toNat]

/-- As each attempt asks for one delay at most, these are all. -/
theorem Begins.delays {granted : List (Duration × SettlementError)}
    {refused : Option (Duration × SettlementError)} (hgrants : c.Grants n us₀ ext bet ctx us granted)
    (hrefuses : ∀ t e, refused = some (t, e) →
      c.Exhausts n us₀ ext bet ctx us (granted.length + 1) e t)
    (hlast : ∀ j e t d, c.AsksDelay n us₀ ext bet ctx us (j + 1) e t d →
      j < granted.length ∨ (j = granted.length ∧ refused ≠ none)) :
    c.Delays n us₀ ext bet ctx us granted refused := by
  refine ⟨hgrants, hrefuses, fun j e t d hasks => ?_, ?_⟩
  rcases hlast j e t d hasks with hj | ⟨rfl, hrefused⟩
  · obtain ⟨⟨delay, e'⟩, hj'⟩ : ∃ g, granted[j]? = some g := ⟨_, List.getElem?_eq_getElem hj⟩
    obtain ⟨t', hasks'⟩ := hgrants j delay e' hj'
    obtain ⟨rfl, -, rfl⟩ := h.asks_unique hdrop hasks hasks'
    exact .inl ⟨delay, rfl, hj'⟩
  · obtain ⟨⟨t', e'⟩, rfl⟩ := Option.ne_none_iff_exists'.mp hrefused
    obtain ⟨t'', hasks'⟩ := (hrefuses t' e' rfl).asks
    obtain ⟨rfl, -, rfl⟩ := h.asks_unique hdrop hasks hasks'
    exact .inr ⟨rfl, rfl, t', rfl⟩
  · cases refused with
    | some g =>
      obtain ⟨t, hasks⟩ := (hrefuses g.1 g.2 rfl).asks
      exact hasks.lt_size h.accepted
    | none =>
      rcases granted.eq_nil_or_concat with rfl | ⟨before, g, rfl⟩
      · decide
      · obtain ⟨t, hasks⟩ := hgrants before.length g.1 g.2 (by simp)
        simpa using hasks.lt_size h.accepted

theorem Begins.looks_first (htries : c.Tries n us₀ ext bet ctx i us s) :
    ∃ y, y ++ [.step n] <+: us ∧ y.count (.step n) = 1 ∧ c.request? y n = some .clock ∧
      s.started = (c.after y).world.clock := by
  induction htries with
  | first start =>
    have hstarted := h.started hdrop
    unfold Settlement.start at start hstarted
    rw [if_pos h.accepted] at start hstarted
    rw [Program.bind_assoc] at hstarted
    obtain ⟨m, started, hclock, hrest⟩ := start.bind_cases
    obtain ⟨y, hy⟩ := Ran.at_once (r := .clock) (fun w => Option.some_ne_none w.clock) hclock
    obtain ⟨m', retry, -, hdone⟩ := hrest.bind_cases
    cases hdone.of_done
    cases hy.answer
    refine ⟨y, hy.turn.trans hrest.isPrefix, ?_, hy.waits.request? hstarted rfl, rfl⟩
    rw [hy.first, count_step, List.count_eq_zero_of_not_mem h.first]
  | again before attempt waits number ih =>
    obtain ⟨y, hy, hrest⟩ := ih
    have hv := ((List.prefix_append _ _).trans attempt.isPrefix).trans waits.isPrefix
    exact ⟨y, hy.trans hv, hrest⟩

omit hdrop in
theorem Begins.first_delay {delay : Duration}
    (hfixed : (c.after us₀).shared.engine.retry.randomizationFactor.atMost
      (Binary64.zero false) = true)
    (hasks : c.AsksDelay n us₀ ext bet ctx us 1 e t (some delay)) :
    delay = (c.after us₀).shared.engine.retry.initialInterval := by
  obtain ⟨tries, -, -, -, asked⟩ := hasks
  cases tries with
  | first start =>
    obtain ⟨y, started, words, -, -, heq⟩ := ran_start h.accepted start
    cases heq
    obtain ⟨delay', hdraw, -, ⟨-, hnone, -⟩ | ⟨-, hsome, -⟩⟩ := Backoff.next_cases asked
    · cases hnone
    · cases hsome
      change Backoff.drawDelay _ (c.after us₀).shared.engine.retry.randomizationFactor _ = _ at hdraw
      rw [Backoff.drawDelay, if_pos hfixed] at hdraw
      cases hdraw
      rfl
  | again before => cases before

section Concluded

variable (htries : c.Tries n us₀ ext bet ctx i v s)
  (hround : c.Ran n (v ++ [.step n]) s.round.observed x (.inr r))
include htries hround

theorem Begins.program?_concluded : c.program? x n = some (Session.settleRound (.inr r)) := by
  have hstand := program?_stage (h.stands hdrop htries)
  exact (Runs.bind hround Session.settleRound).program?_eq hstand

theorem Begins.no_attempt_after (hx : x <+: us) (hj : c.Tries n us₀ ext bet ctx j v' s')
    (hv' : v' ++ [.step n] <+: us) : j ≤ i := by
  have hne : ∀ stage, Session.settleRound (.inr r) ≠ .done (.inl stage) := by
    intro stage
    rcases over_settleRound r with ⟨reply, heq⟩ | heq
    all_goals
      rw [heq]
      nofun
  have hover := h.program?_concluded hdrop htries hround
  have hstand := h.stands hdrop hj
  have hv'us : v' <+: us := (List.prefix_append _ _).trans hv'
  rcases prefix_or_step hv'us (hround.isPrefix.trans hx) with hpre | hpre
  · exact h.number_le hdrop hj htries hpre
  · rcases List.prefix_or_prefix_of_prefix hv'us hx with hbefore | hafter
    · obtain ⟨q, hq, hq'⟩ := (Runs.bind hround Session.settleRound).split hpre hbefore
      rw [hq.program?_eq (program?_stage (h.stands hdrop htries))] at hstand
      rw [Option.some.inj hstand] at hq'
      exact (hne _ hq'.of_done).elim
    · exact (hne _ (program?_of_over hafter (over_settleRound r) hover hstand).symm).elim

theorem Begins.asks_le (hx : x <+: us) (hasks : c.AsksDelay n us₀ ext bet ctx us (j + 1) e t d) :
    j + 1 ≤ i := by
  obtain ⟨tries, attempt, clock, before, -⟩ := hasks
  have hafter := attempt.isPrefix.trans (clock.isPrefix.trans before)
  exact h.no_attempt_after hdrop htries hround hx tries hafter

omit h hdrop htries in
theorem Ran.last_round : ∃ w r₀ m, c.Attempts n s v w r₀ ∧
    c.Ran n w (s.retry.round s.context fun _ => ExceptT.mk (.done r₀)) m (.inr r) ∧
    c.Ran n m (s.close (.inr r)) x (.inr r) := by
  rw [Program.round_observed] at hround
  obtain ⟨w, r₀, hattempt, hrest⟩ := hround.bind_cases
  obtain ⟨m, z, hfollows, hclose⟩ := hrest.bind_cases
  cases z with
  | inl retry => cases hclose.of_done
  | inr r' =>
    cases hclose.of_close
    exact ⟨w, r₀, m, hattempt, hfollows, hclose⟩

/-- Before the result, all delays that were asked for have been told of. -/
theorem Begins.story_delays {m : List Turn} {r₀ : Except SettlementError Spin}
    (hattempt : c.Attempts n s v w r₀)
    (hfollows : c.Ran n w (s.retry.round s.context fun _ => ExceptT.mk (.done r₀)) m (.inr r))
    (hm : m <+: us) (hx : x <+: us) :
    ∃ granted refused, c.Delays n us₀ ext bet ctx us granted refused ∧
      granted.length + refused.toList.length < UInt32.size ∧
      c.story m n = delayEvents granted refused ∧ ∀ t e, refused = some (t, e) → r = .error e := by
  have hafter := h.program?_after hdrop htries hattempt
  have hwus : w <+: us := hfollows.isPrefix.trans hm
  have hvus : v <+: us := ((List.prefix_append _ _).trans hattempt.isPrefix).trans hwus
  obtain ⟨granted, rfl, hgrants, hstory⟩ := h.story_tries hdrop htries
  rw [← h.story_attempt hdrop htries hattempt] at hstory
  have hnumber := (htries.fits h.accepted).attempt
  have hsize : granted.length + 1 < UInt32.size := hnumber ▸ s.retry.attempt.toNat_lt_size
  -- Delays are asked for after lacking attempts only, so there are no more than such attempts.
  have hle : ∀ j e t d, c.AsksDelay n us₀ ext bet ctx us (j + 1) e t d → j ≤ granted.length :=
    fun j e t d hasks => Nat.le_of_succ_le_succ (h.asks_le hdrop htries hround hx hasks)
  by_cases hlack : ∃ available required, r₀ = .error (.insufficientFunds available required)
  · obtain ⟨available, required, rfl⟩ := hlack
    generalize hz : (Sum.inr r : Retry ⊕ Except SettlementError Spin) = z at hfollows
    cases asked_of_ran hafter hfollows with
    | @refused m₁ m₂ elapsed told _ _ clock asked again hm' story =>
      refine ⟨granted, some (told, .insufficientFunds available required),
        h.delays hdrop (hgrants.mono hvus) ?_ ?_, hsize, ?_, ?_⟩
      · rintro t e ⟨⟩
        exact ⟨htries, hattempt, clock, asked, again, hm'.trans hm⟩
      · exact fun j e t d hasks =>
          (hle j e t d hasks).lt_or_eq.imp_right fun hj => ⟨hj, Option.some_ne_none _⟩
      · rw [story, hstory, delayEvents_refused, ← hnumber, UInt32.ofNat_toNat]
      · rintro t e ⟨⟩
        exact Sum.inr.inj hz
    | @granted m' elapsed delay _ _ _ clock hm' asked story =>
      have hasks := AsksDelay.mk htries hattempt clock (hm'.trans hm) asked
      refine ⟨granted ++ [(delay, .insufficientFunds available required)], none,
        h.delays hdrop ((hgrants.mono hvus).concat hasks) nofun ?_, ?_, ?_, nofun⟩
      · intro j e t d hasks
        rw [List.length_append, List.length_singleton]
        exact .inl (Nat.lt_succ_of_le (hle j e t d hasks))
      · rw [List.length_append]
        exact hsize
      · rw [story, hstory, delayEvents_concat, ← hnumber, UInt32.ofNat_toNat]
  · have hfinal : ∀ available required, r₀ ≠ .error (.insufficientFunds available required) :=
      fun available required heq => hlack ⟨available, required, heq⟩
    obtain ⟨-, htold⟩ := story_round hfinal hafter hfollows
    refine ⟨granted, none, h.delays hdrop (hgrants.mono hvus) nofun ?_, Nat.lt_of_succ_lt hsize,
      htold.trans hstory, nofun⟩
    intro j e t d hasks
    refine .inl (lt_of_le_of_ne (hle j e t d hasks) ?_)
    rintro rfl
    obtain ⟨rfl, available, required, rfl⟩ := h.lacking hdrop hasks htries hattempt hwus
    exact hfinal available required rfl

theorem Begins.tells (hx : x <+: us) : ∃ granted refused elapsed,
    c.Delays n us₀ ext bet ctx us granted refused ∧
      granted.length + refused.toList.length < UInt32.size ∧
      (∀ t e, refused = some (t, e) → r = .error e) ∧ c.Took n x elapsed ∧
      c.story us n = delayEvents granted refused ++ [.closing ext bet elapsed r] := by
  have hfits := htries.fits h.accepted
  obtain ⟨w, r₀, m, hattempt, hfollows, hclose⟩ := hround.last_round
  obtain ⟨granted, refused, hdelays, hsize, htold, herror⟩ :=
    h.story_delays hdrop htries hround hattempt hfollows (hclose.isPrefix.trans hx) hx
  have hm : c.program? m n = some (s.close (.inr r) >>= Session.settleRound) :=
    hfollows.program? (h.program?_after hdrop htries hattempt)
  obtain ⟨y, hy, hcount, hlook, hclosing⟩ := story_close hm hclose
  obtain ⟨y₀, hy₀, hcount₀, hlook₀, hstarted⟩ := h.looks_first hdrop htries
  have hvx : v <+: x := (List.prefix_append _ _).trans hround.isPrefix
  refine ⟨granted, refused, _, hdelays, hsize, herror,
    ⟨hy₀.trans hvx, hcount₀, hlook₀, hy, hcount, hlook⟩, ?_⟩
  rw [story_over hx (over_settleRound r) (h.program?_concluded hdrop htries hround), hclosing,
    htold, hfits.externalId, hfits.bet, hstarted]

end Concluded

theorem Begins.concludes (hrun : us₀ ++ [.step n] <+: us) {reply : Reply}
    (hreturned : c.Returned n us reply) : ∃ x r, x <+: us ∧
      c.Concludes n us₀ ext bet ctx x r ∧ Settlement.reply? r = some reply := by
  obtain ⟨y, hy, hdone⟩ := hreturned.program?
  have hbegan := h.began hrun hy hdone (by rintro op ⟨⟩)
  rcases h.round hdrop hbegan hdone with hruns | ⟨v, s, hv₀, -, hstand, hruns⟩
  · obtain ⟨m, r, hstart, hround⟩ := Ran.bind_cases hruns
    obtain ⟨y, started, words, -, -, rfl⟩ := ran_start h.accepted hstart
    cases hround.of_done
  · obtain ⟨i, htries⟩ := h.tries hdrop hv₀ hstand
    rw [← Program.round_eq] at hruns
    obtain ⟨x, z, hround, hanswer⟩ := Ran.bind_cases hruns
    cases z with
    | inl s' => cases hanswer.of_done
    | inr r =>
      have hcloses := hanswer.closes (Program.closes_settleRound r)
      exact ⟨x, r, hanswer.isPrefix.trans hy, ⟨htries, hround⟩, hcloses⟩

end Settlements

/-- The events of a settlement tell its story: of each delay that its backoff has granted, in
their order, with the number of the attempt before it, the delay, and the lack of funds in which
that has ended; that the budget is exhausted, after so many attempts and with the error that is
the result, exactly if a delay was refused; and at last its result, with the time from its first
look at the clock to its last one. The attempts that are told of are so few that their numbers are
of 32 bits. -/
theorem settle_tells (h : c.Begins n us₀ ext bet ctx) (hdrop : .drop n ∉ us₀)
    (hrun : us₀ ++ [.step n] <+: us) :
    (∀ reply, c.Returned n us reply → ∃ x r, x <+: us ∧
      c.Concludes n us₀ ext bet ctx x r ∧ Settlement.reply? r = some reply) ∧
    ∀ x r, x <+: us → c.Concludes n us₀ ext bet ctx x r → ∃ granted refused elapsed,
      c.Delays n us₀ ext bet ctx us granted refused ∧
        granted.length + refused.toList.length < UInt32.size ∧
        (∀ t e, refused = some (t, e) → r = .error e) ∧ c.Took n x elapsed ∧
        c.story us n = delayEvents granted refused ++ [.closing ext bet elapsed r] :=
  ⟨fun _ => h.concludes hdrop hrun, fun _ _ hx ⟨htries, hround⟩ =>
    h.tells hdrop htries hround hx⟩

theorem settle_tells_brokeSpin :
    brokeSpin.Begins 1 (List.replicate 5 (.step 0)) .nil .ten .background ∧
      .drop 1 ∉ List.replicate 5 (Turn.step 0) ∧
      List.replicate 5 (.step 0) ++ [.step 1] <+: brokeSpinTurns ∧
      brokeSpin.Returned 1 brokeSpinTurns (.settlementError (.insufficientFunds .two .ten)) ∧
      (brokeSpin.story brokeSpinTurns 1).map (·.message) =
        ["Settlement attempt failed, retrying", "Retry budget exhausted", "Settlement failed"] ∧
      ∃ x r, x <+: brokeSpinTurns ∧
        brokeSpin.Concludes 1 (List.replicate 5 (.step 0)) .nil .ten .background x r ∧
        ∃ granted refused elapsed,
          brokeSpin.Delays 1 (List.replicate 5 (.step 0)) .nil .ten .background brokeSpinTurns
            granted refused ∧
          granted.length + refused.toList.length < UInt32.size ∧
          (∀ t e, refused = some (t, e) → r = .error e) ∧ brokeSpin.Took 1 x elapsed ∧
          brokeSpin.story brokeSpinTurns 1 =
            delayEvents granted refused ++ [.closing .nil .ten elapsed r] := by
  have hbegins : brokeSpin.Begins 1 (List.replicate 5 (.step 0)) .nil .ten .background := by
    refine ⟨rfl, ⟨none, rfl, rfl⟩, ?_, ?_⟩
    · decide +kernel
    · decide
  have hdrop : .drop 1 ∉ List.replicate 5 (Turn.step 0) := by decide
  have hrun : List.replicate 5 (.step 0) ++ [.step 1] <+: brokeSpinTurns := by decide
  have hreturned : brokeSpin.Returned 1 brokeSpinTurns
      (.settlementError (.insufficientFunds .two .ten)) := by
    refine ⟨2000, ?_⟩
    decide +kernel
  have hstory : (brokeSpin.story brokeSpinTurns 1).map (·.message) =
      ["Settlement attempt failed, retrying", "Retry budget exhausted", "Settlement failed"] := by
    decide +kernel
  obtain ⟨hreturns, htells⟩ := settle_tells hbegins hdrop hrun
  obtain ⟨x, r, hx, hconcludes, -⟩ := hreturns _ hreturned
  exact ⟨hbegins, hdrop, hrun, hreturned, hstory, x, r, hx, hconcludes, htells x r hx hconcludes⟩

/-- The first delay of this plan lasts longer than 2^64 milliseconds. -/
def distantPlan : RetryPlan where
  initialInterval := .ofSeconds 18446744073709552
  multiplier := Binary64.round false 1 1
  maxElapsed := .ofSeconds 18446744073709552
  maxInterval := .ofSeconds 18446744073709552
  randomizationFactor := Binary64.zero false

/-- A settlement that gives up after ten milliseconds of such a delay. -/
def distantSpin : Scenario where
  config := { Settings.standard with retry := distantPlan }
  entropy _ := .ofList []
  probes := []
  calls := [.seed .nil .two, .context "caller" false none [.ofMillis 10] [],
    .settle .nil .ten (some "caller")]

def beforeDistantSpin : List Turn := List.replicate 5 (.step 0) ++ List.replicate 4 (.step 1)

def distantSpinTurns : List Turn :=
  beforeDistantSpin ++ List.replicate 20 (.step 2) ++ [.wait 10] ++ List.replicate 5 (.step 2)

/-- The milliseconds that are told of a delay are not always those that it has. -/
theorem told_delay_wraps :
    distantSpin.config.validate = .ok () ∧
      distantSpin.Begins 2 beforeDistantSpin .nil .ten ⟨none, some 10000000⟩ ∧
      distantSpin.Returned 2 distantSpinTurns (.settlementError .deadlineExceeded) ∧
      ∃ e t, distantSpin.AsksDelay 2 beforeDistantSpin .nil .ten ⟨none, some 10000000⟩
          distantSpinTurns 1 e t (some distantPlan.initialInterval) ∧
        ∀ event ∈ distantSpin.story distantSpinTurns 2,
          ("delay_ms", toString distantPlan.initialInterval.wholeMillis) ∉ event.fields := by
  have hbegins : distantSpin.Begins 2 beforeDistantSpin .nil .ten ⟨none, some 10000000⟩ := by
    refine ⟨rfl, ⟨some "caller", rfl, ?_⟩, ?_, ?_⟩
    · decide +kernel
    · decide +kernel
    · decide
  have hdrop : .drop 2 ∉ beforeDistantSpin := by decide
  have hrun : beforeDistantSpin ++ [.step 2] <+: distantSpinTurns := by decide
  have hreturned : distantSpin.Returned 2 distantSpinTurns
      (.settlementError .deadlineExceeded) := by
    refine ⟨10, ?_⟩
    decide +kernel
  have hmessages : (distantSpin.story distantSpinTurns 2).map (·.message) =
      ["Settlement attempt failed, retrying", "Settlement failed"] := by
    decide +kernel
  have hfields : ∀ event ∈ distantSpin.story distantSpinTurns 2,
      ("delay_ms", toString distantPlan.initialInterval.wholeMillis) ∉ event.fields := by
    decide +kernel
  obtain ⟨x, r, hx, ⟨htries, hround⟩, -⟩ := hbegins.concludes hdrop hrun hreturned
  obtain ⟨granted, refused, elapsed, hdelays, -, -, -, hstory⟩ :=
    hbegins.tells hdrop htries hround hx
  cases granted with
  | nil =>
    rw [hstory] at hmessages
    cases refused with
    | none => exact absurd (congrArg List.length hmessages) (by simp [delayEvents])
    | some g =>
      have hmessage : "Retry budget exhausted" = "Settlement attempt failed, retrying" :=
        (List.cons.inj hmessages).1
      exact absurd hmessage (by decide)
  | cons g granted =>
    obtain ⟨t, hasks⟩ := hdelays.grants 0 g.1 g.2 rfl
    have hfixed : (distantSpin.after beforeDistantSpin).shared.engine.retry.randomizationFactor.atMost
        (Binary64.zero false) = true := by decide +kernel
    have hinterval : (distantSpin.after beforeDistantSpin).shared.engine.retry.initialInterval =
        distantPlan.initialInterval := by decide +kernel
    rw [hbegins.first_delay hfixed hasks, hinterval] at hasks
    exact ⟨by decide +kernel, hbegins, hreturned, g.2, t, hasks, hfields⟩

end Scenario

end WagerLedger

import Mathlib.Logic.Basic
import WagerLedger.Interleaving
import WagerLedger.Session.Rounds

/-! # The parts of a round

A round of a settlement is an attempt and the rest of it, which is observed by nobody. What
follows an attempt that does not lack funds only reads the clock and tells events, so its answer
is settled by then, whatever the clock says and whoever else goes on. -/
namespace WagerLedger

namespace Program

variable {α β γ : Type}

theorem bind_assoc (p : Program α) (f : α → Program β) (g : β → Program γ) :
    p >>= f >>= g = p >>= fun a => f a >>= g := by
  change (p.bind f).bind g = p.bind fun a => (f a).bind g
  induction p with
  | done a => rfl
  | crash => rfl
  | ask r k ih => exact congrArg (ask r) (funext ih)
  | race c r k ih => exact congrArg (race c r) (funext ih)

theorem heldUp_bind {c : StoreCall} {wait : Duration → Program α → Program α}
    (wait' : Duration → Program β → Program β) {refuse : LedgerError → Program α}
    {go : Program α} {f : α → Program β}
    (hwait : ∀ d p, (wait d p).bind f = wait' d (p.bind f)) (ps : List Probe) :
    (heldUp c wait refuse go ps).bind f =
      heldUp c wait' (fun e => (refuse e).bind f) (go.bind f) ps := by
  induction ps with
  | nil => rfl
  | cons p ps ih =>
    rw [heldUp, heldUp, ← ih]
    cases p.delay with
    | none =>
      cases p.refusal with
      | none => rfl
      | some e => cases c.isLast <;> rfl
    | some d =>
      dsimp only
      rw [hwait]
      cases p.refusal with
      | none => rfl
      | some e => cases c.isLast <;> rfl

/-- A sequence is observed by observing its parts. -/
theorem observed_bind (p : Program α) (f : α → Program β) :
    (p >>= f).observed = p.observed >>= fun a => (f a).observed := by
  change (p.bind f).observed = p.observed.bind fun a => (f a).observed
  induction p with
  | done a => rfl
  | crash => rfl
  | ask r k ih =>
    rw [bind, observed, observed]
    cases r.observed? with
    | none => exact congrArg (ask r) (funext ih)
    | some x =>
      obtain ⟨call, refuse⟩ := x
      refine congrArg (ask (.note call)) (funext fun ps => ?_)
      rw [heldUp_bind (fun d rest => ask (.sleep d) fun _ => rest) fun _ _ => rfl]
      simp only [ih, bind]
  | race ctx r k ih =>
    rw [bind, observed, observed]
    cases r.observed? with
    | none => exact congrArg (race ctx r) (funext ih)
    | some x =>
      obtain ⟨call, refuse⟩ := x
      refine congrArg (race ctx (.note call)) (funext fun a => ?_)
      cases a with
      | error e => exact ih (.error e)
      | ok ps =>
        have hrefuse : (fun e => ((k (.ok (refuse e))).bind f).observed) =
            fun e => (k (.ok (refuse e))).observed.bind fun a => (f a).observed :=
          funext fun e => ih _
        have hgo : race ctx r (fun a => ((k a).bind f).observed) =
            (race ctx r fun a => (k a).observed).bind fun a => (f a).observed :=
          congrArg (race ctx r) (funext ih)
        refine Eq.trans ?_ (heldUp_bind ?wait ?_ ps).symm
        · exact congrArg₂ (fun refuse go => heldUp call _ refuse go ps) hrefuse hgo
        · intro d p
          refine congrArg (race ctx (.sleep d)) (funext fun a => ?_)
          cases a with
          | ok u => rfl
          | error e => exact (ih (.error e)).symm

end Program

def Request.isPassing : Request → Bool
  | .clock | .sleep _ | .emit _ => true
  | _ => false

theorem Request.observed?_of_isPassing {r : Request} (h : r.isPassing = true) :
    r.observed? = none := by
  cases r <;> first | rfl | cases h

theorem SettlementError.isRecoverable_iff {e : SettlementError} :
    e.isRecoverable = true ↔ ∃ available required, e = .insufficientFunds available required := by
  constructor
  · intro h
    cases e <;> first | exact ⟨_, _, rfl⟩ | cases h
  · rintro ⟨available, required, rfl⟩
    rfl

/-- All that is left is to read the clock and to tell events, and then to give this answer, or to
break off where there is none. -/
def Program.Closes {σ ρ : Type} (r : Option ρ) : Program (σ ⊕ ρ) → Prop
  | .done (.inr a) => r = some a
  | .crash => r = none
  | .ask .clock k => ∀ now, (k now).Closes r
  | .ask (.emit _) k => (k ()).Closes r
  | _ => False

namespace Settlement

/-- The attempt of a round, as it is made. -/
def tries (s : Settlement) : Program (Except SettlementError Spin) :=
  (attempt s.context s.odds s.externalId s.bet s.retry.attempt).run.observed

/-- The answer to a result; a spin without net has none. -/
def reply? : Except SettlementError Spin → Option Reply
  | .ok spin => spin.net?.map (.settled spin)
  | .error e => some (.settlementError e)

theorem reply?_settled {r : Except SettlementError Spin} {spin : Spin} {net : Decimal}
    (h : reply? r = some (.settled spin net)) : r = .ok spin := by
  cases r with
  | ok spin' =>
    obtain ⟨net', -, heq⟩ := Option.map_eq_some_iff.mp h
    cases heq
    rfl
  | error e => cases h

theorem reply?_error {r : Except SettlementError Spin} {reply : Reply}
    (h : reply? r = some reply) {e : SettlementError} :
    reply = .settlementError e ↔ r = .error e := by
  cases r with
  | ok spin =>
    obtain ⟨net, -, rfl⟩ := Option.map_eq_some_iff.mp h
    exact ⟨nofun, nofun⟩
  | error e' =>
    cases h
    rw [Reply.settlementError.injEq, Except.error.injEq]

/-- What a round goes on with once it has its result or the state of the next one. -/
def close (s : Settlement) :
    Retry ⊕ Except SettlementError Spin → Program (Settlement ⊕ Except SettlementError Spin)
  | .inl retry => return .inl { s with retry := retry }
  | .inr r => do
    s.report r
    return .inr r

/-- What a round goes on with after an attempt with this result. -/
def rest (s : Settlement) (r : Except SettlementError Spin) : Program (Stage ⊕ Reply) :=
  s.retry.round s.context (fun _ => ExceptT.mk (.done r)) >>= s.close >>= Session.settleRound

end Settlement

namespace Program

variable {α β : Type}

/-- It only reads the clock, sleeps and tells events. -/
def Passes : Program α → Prop
  | done _ => True
  | crash => True
  | ask r k => r.isPassing = true ∧ ∀ a, (k a).Passes
  | race _ r k => r.isPassing = true ∧ ∀ a, (k a).Passes

theorem Passes.observed {p : Program α} (h : p.Passes) : p.observed = p := by
  induction p with
  | done a => rfl
  | crash => rfl
  | ask r k ih =>
    rw [Program.observed, Request.observed?_of_isPassing h.1]
    exact congrArg (ask r) (funext fun a => ih a (h.2 a))
  | race c r k ih =>
    rw [Program.observed, Request.observed?_of_isPassing h.1]
    exact congrArg (race c r) (funext fun a => ih a (h.2 a))

theorem passes_bind {p : Program α} {f : α → Program β} (hp : p.Passes)
    (hf : ∀ a, (f a).Passes) : (p >>= f).Passes := by
  change (p.bind f).Passes
  induction p with
  | done a => exact hf a
  | crash => trivial
  | ask r k ih => exact ⟨hp.1, fun a => ih a (hp.2 a)⟩
  | race c r k ih => exact ⟨hp.1, fun a => ih a (hp.2 a)⟩

theorem passes_elapsedSince (started : Nat) : (Retry.elapsedSince started).Passes :=
  ⟨rfl, fun _ => trivial⟩

theorem pause_eq (c : Context) (delay : Duration) :
    (Retry.pause c delay).run = race c (.sleep delay) done := by
  change Program.raced c (ask (.sleep delay) fun _ => done (.ok ())) = _
  rw [raced]
  refine congrArg (race c (.sleep delay)) (funext fun a => ?_)
  cases a <;> rfl

theorem passes_afterFailure (c : Context) (s : Retry) (e : SettlementError) :
    (Retry.afterFailure (α := α) c s e).Passes := by
  refine passes_bind (passes_elapsedSince _) fun elapsed => ?_
  split
  · trivial
  · exact passes_bind (passes_elapsedSince _) fun _ => ⟨rfl, fun _ => trivial⟩
  · refine passes_bind ⟨rfl, fun _ => trivial⟩ fun _ => passes_bind ?_ fun a => ?_
    · rw [pause_eq]
      exact ⟨rfl, fun _ => trivial⟩
    · cases a with
      | error e => trivial
      | ok _ =>
        dsimp only
        split <;> trivial

theorem passes_round (c : Context) (s : Retry) (r : Except SettlementError α) :
    (s.round c fun _ => ExceptT.mk (.done r)).Passes := by
  cases r with
  | error e =>
    change Passes (if e.isRecoverable = true then _ else _)
    split
    · exact passes_afterFailure c s e
    · trivial
  | ok a =>
    change Passes (if 1 < s.attempt then _ else _)
    split
    · exact passes_bind (passes_elapsedSince _) fun _ => ⟨rfl, fun _ => trivial⟩
    · trivial

theorem passes_report (s : Settlement) (r : Except SettlementError Spin) : (s.report r).Passes := by
  refine passes_bind (passes_elapsedSince _) fun elapsed => ?_
  cases r <;> exact ⟨rfl, fun _ => trivial⟩

theorem passes_close (s : Settlement) (r : Retry ⊕ Except SettlementError Spin) :
    (s.close r).Passes := by
  cases r with
  | inl retry => trivial
  | inr r => exact passes_bind (passes_report s r) fun _ => trivial

theorem round_observed (s : Settlement) : s.round.observed = s.tries >>= fun r =>
    (s.retry.round s.context fun _ => ExceptT.mk (.done r)) >>= s.close := by
  have hround : s.round = (Settlement.attempt s.context s.odds s.externalId s.bet
      s.retry.attempt).run >>= fun r => (s.retry.round s.context fun _ => ExceptT.mk (.done r)) >>=
        s.close := by
    rw [← bind_assoc]
    refine congrArg (Program.bind _) (funext fun r => ?_)
    cases r <;> rfl
  rw [hround, observed_bind]
  refine congrArg (Program.bind _) (funext fun r => ?_)
  exact (passes_bind (passes_round _ _ r) (passes_close s)).observed

theorem round_eq (s : Settlement) :
    s.round.observed >>= Session.settleRound = s.tries >>= s.rest := by
  rw [round_observed, bind_assoc]
  rfl

theorem Closes.step {σ ρ : Type} {r : Option ρ} {p p' : Program (σ ⊕ ρ)} (h : p.Closes r)
    {i : ClientId} {w : World} (hs : (p.step i w).1 = some p') : p'.Closes r := by
  cases p with
  | done a => cases hs
  | crash => cases hs
  | race c r k => exact h.elim
  | ask r k =>
    cases r
    case clock =>
      cases hs
      exact h _
    case emit e =>
      cases hs
      exact h
    all_goals exact h.elim

theorem Closes.answer? {σ ρ : Type} {r : ρ} {p : Program (σ ⊕ ρ)} (h : p.Closes (some r))
    (clock : Nat) : p.answer? clock = some r := by
  induction p with
  | done a =>
    cases a with
    | inl s => exact h.elim
    | inr a =>
      cases h
      rfl
  | crash => cases h
  | race c r k => exact h.elim
  | ask r k ih =>
    cases r
    case clock => exact ih clock (h clock)
    case emit e => exact ih () h
    all_goals exact h.elim

theorem closes_settleRound (r : Except SettlementError Spin) :
    (Session.settleRound (.inr r)).Closes (Settlement.reply? r) := by
  cases r with
  | error e => rfl
  | ok spin =>
    change (Session.answer (Session.settled spin)).Closes (spin.net?.map _)
    unfold Session.settled
    cases spin.net? <;> rfl

theorem closes_close (s : Settlement) (r : Except SettlementError Spin) :
    (s.close (.inr r) >>= Session.settleRound).Closes (Settlement.reply? r) := by
  cases r with
  | error e => exact fun now => rfl
  | ok spin => exact fun now => closes_settleRound (.ok spin)

theorem closes_rest (s : Settlement) {r : Except SettlementError Spin}
    (h : ∀ available required, r ≠ .error (.insufficientFunds available required)) :
    (s.rest r).Closes (Settlement.reply? r) := by
  cases r with
  | error e =>
    have hfinal : ¬e.isRecoverable = true := by
      rw [SettlementError.isRecoverable_iff]
      rintro ⟨available, required, rfl⟩
      exact h available required rfl
    change ((if e.isRecoverable = true then _ else _) >>= s.close >>= Session.settleRound).Closes _
    rw [if_neg hfinal]
    exact closes_close s _
  | ok spin =>
    change ((if 1 < s.retry.attempt then _ else _) >>= s.close >>= Session.settleRound).Closes _
    split
    · exact fun now => closes_close s _
    · exact closes_close s _

end Program

/-- The task has given this answer, or has nothing left but to give it. -/
def Task.Tells {σ ρ : Type} (t : Task σ ρ) (r : ρ) : Prop :=
  match t.state with
  | .inl p => p.Closes (some r)
  | .inr (e, _) => e = .answered r

theorem Task.Tells.answer? {σ ρ : Type} {t : Task σ ρ} {r : ρ} (h : t.Tells r) (clock : Nat) :
    t.answer? clock = some r := by
  obtain ⟨client, limit, state⟩ := t
  cases state with
  | inl p => exact Program.Closes.answer? h clock
  | inr e =>
    obtain ⟨ending, moment⟩ := e
    obtain rfl : ending = .answered r := h
    rfl

theorem Task.Tells.step {σ ρ δ : Type} {t : Task σ ρ} {r : ρ} (h : t.Tells r)
    (next : Rounds σ ρ δ) (w : World) (d : δ) : ((t.step next w d).1.getD t).Tells r := by
  obtain ⟨client, limit, state⟩ := t
  cases state with
  | inr e => exact h
  | inl p =>
    cases p with
    | done a =>
      cases a with
      | inl s => exact h.elim
      | inr a =>
        cases h
        rfl
    | crash => cases h
    | race c q k => exact h.elim
    | ask q k =>
      change Task.Tells (Option.getD (Option.map _ ((Program.ask q k).step client w).1) _) r
      cases hs : ((Program.ask q k).step client w).1 with
      | none => exact h
      | some p' => exact Program.Closes.step h hs

end WagerLedger

import WagerLedger.Proofs.Ledger.Alike
import WagerLedger.Proofs.World.Contexts
import WagerLedger.Settlement.Retry

/-! # Programs that go the same way

Two programs are alike if they ask for like things in the same order and, given like answers,
go on alike to like results. The relation follows the tree of the programs, so each rule below
is one case per constructor, and what is built from like programs is alike. -/
namespace WagerLedger

/-- Requests that say nothing about amounts, accounts or the clock. -/
def Request.isPlain : Request → Bool
  | .arrive | .acquire | .commit | .rollback | .discard | .poll | .sleep _ | .never | .entropy
  | .isCancelled _ => true
  | _ => false

section Errors

variable (L : Likeness)

def Likeness.Agrees (c : Context) : Prop := c.deadline = none ∨ L.lag = 0

/-- The same error, or one with like amounts or ids in it. -/
inductive SettlementError.Alike : SettlementError → SettlementError → Prop
  | same (e : SettlementError) : Alike e e
  | insufficientFunds {a a' r r' : Decimal} (ha : L.amounts.rel a a') (hr : L.amounts.rel r r') :
    Alike (.insufficientFunds a r) (.insufficientFunds a' r')
  | invalidBet {b b' : Decimal} (h : L.amounts.rel b b') : Alike (.invalidBet b) (.invalidBet b')
  | payoutOverflow {b b' m m' : Decimal} (hb : L.amounts.rel b b') (hm : L.amounts.rel m m') :
    Alike (.payoutOverflow b m) (.payoutOverflow b' m')
  | storage {e e' : LedgerError} (h : e.Alike L e') : Alike (.storage e) (.storage e')

/-- Requests for like things, and how their answers compare. Nobody observes the calls, what
events say is not compared, and signals are only made and set where everything is compared. -/
inductive Request.Alike : (r r' : Request) → (r.Answer → r'.Answer → Prop) → Prop
  | plain {r : Request} (h : r.isPlain = true) : Alike r r Eq
  | signal {r : Request} (h : r.signals = true) (hall : L.scope = .all) : Alike r r Eq
  | data {c c' : DataCall} {A : c.Answer → c'.Answer → Prop} (h : c.Alike L c' A) :
    Alike (.data c) (.data c') (EndsAlike (LedgerError.Alike L) A)
  | seed {ext : Identifier} {b b' : Decimal} (h : L.scope.names ext) (hb : L.amounts.rel b b') :
    Alike (.seed ext b) (.seed ext b') (EndsAlike (LedgerError.Alike L) (Account.Alike L))
  | check {c : Context} (h : L.Agrees c) : Alike (.check c) (.check c) Eq
  | note (c c' : StoreCall) : Alike (.note c) (.note c') fun ps ps' => ps = [] ∧ ps' = []
  | clock : Alike .clock .clock fun n n' => n = n' + L.lag
  | emit (e e' : Event) : Alike (.emit e) (.emit e') Eq

namespace Program

/-- The programs go the same way, and their results are as `R` says. -/
inductive Alike {α α' : Type} (R : α → α' → Prop) : Program α → Program α' → Prop
  | done {a : α} {a' : α'} (h : R a a') : Alike R (.done a) (.done a')
  | crash : Alike R .crash .crash
  | ask {r r' : Request} {A : r.Answer → r'.Answer → Prop} {k : r.Answer → Program α}
    {k' : r'.Answer → Program α'} (hr : r.Alike L r' A)
    (hk : ∀ a a', A a a' → Alike R (k a) (k' a')) : Alike R (.ask r k) (.ask r' k')
  | race {c : Context} {r r' : Request} {A : r.Answer → r'.Answer → Prop}
    {k : Except SettlementError r.Answer → Program α}
    {k' : Except SettlementError r'.Answer → Program α'} (hc : L.Agrees c)
    (hr : r.Alike L r' A) (he : ∀ e, Alike R (k (.error e)) (k' (.error e)))
    (hk : ∀ a a', A a a' → Alike R (k (.ok a)) (k' (.ok a'))) :
    Alike R (.race c r k) (.race c r' k')

end Program

end Errors

variable {L : Likeness}

theorem SettlementError.Alike.isRecoverable {e e' : SettlementError} (h : e.Alike L e') :
    e.isRecoverable = e'.isRecoverable := by
  cases h <;> rfl

theorem SettlementError.alike_ofLedger {e e' : LedgerError} (h : e.Alike L e') :
    (ofLedger e).Alike L (ofLedger e') := by
  cases h with
  | same e => exact .same _
  | accountNotFound h => exact .storage (.accountNotFound h)
  | insufficientFunds ha hr => exact .insufficientFunds ha hr
  | invalidAmount h => exact .invalidBet h

theorem Request.Alike.observed? {r r' : Request} {A : r.Answer → r'.Answer → Prop}
    (h : r.Alike L r' A) : (r.observed? = none ∧ r'.observed? = none) ∨
      ∃ x x', r.observed? = some x ∧ r'.observed? = some x' := by
  cases h with
  | @plain r h | @signal r h =>
    cases hr : r.observed? with
    | none => exact .inl ⟨rfl, rfl⟩
    | some x => exact .inr ⟨x, x, rfl, rfl⟩
  | data h => exact .inr ⟨_, _, rfl, rfl⟩
  | seed h hb => exact .inl ⟨rfl, rfl⟩
  | check h => exact .inl ⟨rfl, rfl⟩
  | note c c' => exact .inl ⟨rfl, rfl⟩
  | clock => exact .inl ⟨rfl, rfl⟩
  | emit e e' => exact .inl ⟨rfl, rfl⟩

namespace Program

variable {α α' β β' ε : Type} {R : α → α' → Prop} {S : β → β' → Prop}

theorem alike_pure {a : α} {a' : α'} (h : R a a') :
    (pure a : Program α).Alike L R (pure a') := .done h

theorem Alike.bind {p : Program α} {p' : Program α'} {f : α → Program β} {f' : α' → Program β'}
    (h : p.Alike L R p') (hf : ∀ a a', R a a' → (f a).Alike L S (f' a')) :
    (p >>= f).Alike L S (p' >>= f') := by
  change (p.bind f).Alike L S (p'.bind f')
  induction h with
  | done h => exact hf _ _ h
  | crash => exact .crash
  | ask hr _ ih => exact .ask hr ih
  | race hc hr _ _ ihe ih => exact .race hc hr ihe ih

theorem Alike.map {p : Program α} {p' : Program α'} {f : α → β} {f' : α' → β'}
    (h : p.Alike L R p') (hf : ∀ a a', R a a' → S (f a) (f' a')) :
    (f <$> p).Alike L S (f' <$> p') :=
  h.bind fun _ _ ha => .done (hf _ _ ha)

theorem Alike.mono {p : Program α} {p' : Program α'} {R' : α → α' → Prop} (h : p.Alike L R p')
    (hR : ∀ a a', R a a' → R' a a') : p.Alike L R' p' := by
  induction h with
  | done h => exact .done (hR _ _ h)
  | crash => exact .crash
  | ask hr _ ih => exact .ask hr ih
  | race hc hr _ _ ihe ih => exact .race hc hr ihe ih

theorem alike_request {r r' : Request} {A : r.Answer → r'.Answer → Prop}
    (hr : r.Alike L r' A) : (request r).Alike L A (request r') :=
  .ask hr fun _ _ h => .done h

theorem alike_plain {r : Request} (hr : r.isPlain = true) :
    (request r).Alike L Eq (request r) :=
  alike_request (.plain hr)

theorem alike_emit (e e' : Event) : (request (.emit e)).Alike L Eq (request (.emit e')) :=
  alike_request (.emit e e')

theorem Alike.raced {p : Program (Except SettlementError α)}
    {p' : Program (Except SettlementError α')} {c : Context} (hc : L.Agrees c)
    (h : p.Alike L (EndsAlike (SettlementError.Alike L) R) p') :
    (p.raced c).Alike L (EndsAlike (SettlementError.Alike L) R) (p'.raced c) := by
  induction h with
  | done h => exact .done h
  | crash => exact .crash
  | ask hr _ ih =>
    rw [Program.raced, Program.raced]
    exact .race hc hr (fun e => .done (.error (.same e))) ih
  | race hc' hr _ _ ihe ih => exact .race hc' hr ihe ih

theorem Alike.against {p : Program (Except SettlementError α)}
    {p' : Program (Except SettlementError α')} {c : Context} (hc : L.Agrees c)
    (h : p.Alike L (EndsAlike (SettlementError.Alike L) R) p') :
    (p.against c).Alike L (EndsAlike (SettlementError.Alike L) R) (p'.against c) :=
  .race hc (.plain rfl) (fun e => .done (.error (.same e))) fun _ _ _ => h.raced hc

/-- Without observers, noting the calls leaves like programs alike. -/
theorem Alike.observed {p : Program α} {p' : Program α'} (h : p.Alike L R p') :
    p.observed.Alike L R p'.observed := by
  induction h with
  | done h => exact .done h
  | crash => exact .crash
  | ask hr _ ih =>
    rw [Program.observed, Program.observed]
    rcases hr.observed? with ⟨ho, ho'⟩ | ⟨⟨c, refuse⟩, ⟨c', refuse'⟩, ho, ho'⟩
    · rw [ho, ho']
      exact .ask hr ih
    · rw [ho, ho']
      refine .ask (.note c c') ?_
      rintro _ _ ⟨rfl, rfl⟩
      exact .ask hr ih
  | race hc hr _ _ ihe ih =>
    rw [Program.observed, Program.observed]
    rcases hr.observed? with ⟨ho, ho'⟩ | ⟨⟨c, refuse⟩, ⟨c', refuse'⟩, ho, ho'⟩
    · rw [ho, ho']
      exact .race hc hr ihe ih
    · rw [ho, ho']
      refine .race hc (.note c c') ihe ?_
      rintro _ _ ⟨rfl, rfl⟩
      exact .race hc hr ihe ih

def AlikeT {ε α α' : Type} (L : Likeness) (E : ε → ε → Prop) (R : α → α' → Prop)
    (p : ExceptT ε Program α) (p' : ExceptT ε Program α') : Prop :=
  p.run.Alike L (EndsAlike E R) p'.run

variable {E : ε → ε → Prop}

theorem alikeT_pure {a : α} {a' : α'} (h : R a a') :
    AlikeT L E R (pure a) (pure a') := .done (.ok h)

theorem alikeT_throw {e e' : ε} (h : E e e') :
    AlikeT L E R (throw e) (throw e') := .done (.error h)

theorem alikeT_bind {p : ExceptT ε Program α} {p' : ExceptT ε Program α'}
    {f : α → ExceptT ε Program β} {f' : α' → ExceptT ε Program β'} (h : AlikeT L E R p p')
    (hf : ∀ a a', R a a' → AlikeT L E S (f a) (f' a')) : AlikeT L E S (p >>= f) (p' >>= f') := by
  refine Alike.bind h fun r r' hr => ?_
  cases hr with
  | ok h => exact hf _ _ h
  | error h => exact .done (.error h)

theorem alikeT_lift {p : Program α} {p' : Program α'} (h : p.Alike L R p') :
    AlikeT L E R (ExceptT.lift p) (ExceptT.lift p') :=
  h.map fun _ _ ha => .ok ha

end Program

end WagerLedger

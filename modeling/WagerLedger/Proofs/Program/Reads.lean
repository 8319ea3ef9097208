import WagerLedger.Proofs.Ledger.Rows
import WagerLedger.Proofs.Program.Looks

/-! # What an attempt reads of the ledger

An attempt makes all its calls on the store in one transaction, so they read one and the same
committed ledger. A watch tells how far the attempt has come with them, and which ledger it has
read. -/
namespace WagerLedger

def DataCall.Answers (c : DataCall) (l : Ledger) (t : Transaction)
    (a : Except LedgerError c.Answer) (t' : Transaction) : Prop :=
  (∃ p, a = .error (Faults.error p) ∧ t' = t) ∨ (a = (c.run l t).1 ∧ t' = (c.run l t).2)

/-- A transaction fails to begin or to end by faults only. -/
def Request.CanFail : (r : Request) → r.Answer → Prop
  | .arrive, a => ∀ e, a = .error e → ∃ p, e = Faults.error p
  | .commit, a => ∀ e, a = .error e → ∃ p, e = Faults.error p
  | _, _ => True

/-- How far an attempt has come with the store: it has made no data call yet, outside or in its
transaction; or it is in its transaction, or has left it, after calls that all read one
ledger. -/
inductive Reading
  | fresh
  | opened
  | reading (l : Ledger) (t : Transaction)
  | left (l : Ledger)

namespace Reading

def saw? : Reading → Option Ledger
  | .reading l _ | .left l => some l
  | _ => none

def Holds : Reading → Prop
  | .opened | .reading .. => True
  | _ => False

structure May (g : Reading) (r : Request) : Prop where
  settles : r.isSettling = true
  acquires : r = .acquire → g = .fresh
  holds : ∀ c, r = .data c → g.Holds

def Goes : Reading → (r : Request) → r.Answer → Reading → Prop
  | _, .acquire, _, g' => g' = .opened
  | .opened, .data c, a, g' => ∃ l t', l.Consistent ∧ c.Answers l .empty a t' ∧ g' = .reading l t'
  | .reading l t, .data c, a, g' => ∃ t', c.Answers l t a t' ∧ g' = .reading l t'
  | .opened, .commit, _, g' | .opened, .rollback, _, g' => g' = .fresh
  | .reading l _, .commit, _, g' | .reading l _, .rollback, _, g' => g' = .left l
  | g, _, _, g' => g' = g

end Reading

def reads : Watch where
  State := Reading
  may g _ r := g.May r
  next g r a g' := r.CanAnswer a ∧ r.CanFail a ∧ g.Goes r a g'
  ended _ _ _ e _ := e.isOver = true
  idle
    | .opened => .fresh
    | .reading l _ => .left l
    | g => g
  breaks _ := True

theorem reads_unprobed : reads.Unprobed := by
  intro g x r call refuse _ _
  refine ⟨⟨rfl, nofun, nofun⟩, fun ps g' hg => ⟨hg.1, ?_⟩, fun _ _ _ h => h⟩
  have hgoes := hg.2.2
  cases g <;> exact hgoes

/-- A lack of funds is told with the bet and with the balance that was read, which is less. -/
def Short (ext : Identifier) (bet : Decimal) (g : Reading) (e : SettlementError) : Prop :=
  ∀ available required, e = .insufficientFunds available required →
    required = bet ∧ available.toRat < bet.toRat ∧
      ∃ l a, g.saw? = some l ∧ l.find? ext = some a ∧ a.balance = available

namespace Program

variable {g : Reading}

theorem ofLedger_insufficientFunds {e : LedgerError} {available required : Decimal}
    (h : SettlementError.ofLedger e = .insufficientFunds available required) :
    e = .insufficientFunds available required := by
  cases e <;> cases h
  rfl

theorem final_of_isOver {e : SettlementError} (he : e.isOver = true) :
    e.isRecoverable = false := by
  cases e <;> first | rfl | cases he

theorem goes_emit {e : Event} {a : Unit} {g' : Reading} (h : g.Goes (.emit e) a g') : g' = g := by
  cases g <;> exact h

theorem saw?_rollback {a : Except LedgerError Unit} {g' : Reading} (h : g.Goes .rollback a g') :
    g'.saw? = g.saw? := by
  cases g <;> (cases h; rfl)

end Program

end WagerLedger

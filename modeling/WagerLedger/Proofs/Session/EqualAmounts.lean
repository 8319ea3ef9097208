import WagerLedger.Proofs.Decimal.Same
import WagerLedger.Proofs.Session.Likewise

/-! # Amounts written at another scale

No answer and no committed amount depends on the scale at which an amount or a multiplier is
written: two sessions whose amounts are the same numbers go the same way, turn by turn. The
scale of a sum or a product does depend on the scales of its operands, and so do the paths on
which it is fitted and rounded; its number does not. -/
namespace WagerLedger

open Decimal in
/-- Amounts that are the same number. -/
def Amounts.numbers : Amounts where
  rel := Same
  zero := rfl
  isPositive := Same.isPositive
  isNegative := Same.isNegative
  isZero := Same.isZero
  fitsLedger := Same.fitsLedger
  neg := Same.neg
  abs := Same.abs
  add? := Same.add?
  mul? := Same.mul?
  truncate := Same.truncate

def Likeness.numbers : Likeness := ⟨.numbers, .all, 0⟩

/-- The same accounts and spins, with the same numbers for all amounts. -/
structure Ledger.SameNumbers (l l' : Ledger) : Prop where
  index : ∀ ext, l'.index.get? ext = l.index.get? ext
  balances : ∀ id, Option.Rel Decimal.Same (l.balance? id) (l'.balance? id)
  spins : ∀ id, List.Forall₂ (fun s s' => s'.id = s.id ∧ s'.accountId = s.accountId ∧
    s.bet.Same s'.bet ∧ s.win.Same s'.win) (l.spinsOf id) (l'.spinsOf id)

theorem Ledger.Alike.sameNumbers {l l' : Ledger} (h : l.Alike .numbers l') :
    l.SameNumbers l' where
  index ext := by
    have hid := h.index ext trivial
    generalize l.index.get? ext = x at hid ⊢
    generalize l'.index.get? ext = x' at hid ⊢
    cases hid with
    | none => rfl
    | some hid => exact congrArg some (Eq.symm hid)
  balances id := rel_map (h.accounts id id rfl) fun _ _ ha => ha.balance
  spins id := (h.spins id id rfl).imp fun _ _ hs =>
    ⟨Eq.symm hs.id, Eq.symm hs.wager.accountId, hs.wager.bet, hs.wager.win⟩

theorem Ledger.alike_empty (L : Likeness) (h : L.scope = .all) : Ledger.empty.Alike L .empty where
  index _ _ := .none
  accounts _ _ _ := .none
  spins _ _ _ := .nil
  fresh _ _ _ := by rw [h]; exact rfl
  lastSpinId := by rw [h]; exact rfl

namespace Scenario

variable {c c' : Scenario}

theorem alike_start (hconfig : c.config.Alike .numbers c'.config)
    (hentropy : c'.entropy = c.entropy) (hprobes : c.probes = []) (hprobes' : c'.probes = [])
    (hcalls : List.Forall₂ (Operation.Alike .numbers) c.calls c'.calls) :
    c.start.Alike .numbers c'.start where
  world :=
    { ledger := Ledger.alike_empty _ rfl
      faults := rfl
      faults' := rfl
      clock := rfl
      holder := .none
      queue := rfl
      timers := fun _ => rfl
      signals := rfl
      entropy := hentropy
      sources := rfl
      probes := hprobes
      probes' := hprobes' }
  shared := ⟨hconfig, rfl, rfl, fun _ _ h => nomatch h⟩
  list := forall₂_mapIdx hcalls fun _ _ _ hop => ⟨rfl, .inl (.done (.inl (.start hop)))⟩

def ending? (c : Scenario) (us : List Turn) (n : Nat) : Option (Ending Reply × Nat) :=
  (c.after us).list[n]?.bind Task.ending?

/-- Two sessions with the same calls, whose amounts and multipliers are the same numbers, give
the same answers up to the scale of the amounts in them, call by call and at every moment; they
end at the same moments, and have committed the same numbers. -/
theorem equal_amounts_settle_equally (hconfig : c.config.Alike .numbers c'.config)
    (hentropy : c'.entropy = c.entropy) (hprobes : c.probes = []) (hprobes' : c'.probes = [])
    (hcalls : List.Forall₂ (Operation.Alike .numbers) c.calls c'.calls) (us : List Turn) :
    (∀ n, Option.Rel (Reply.Alike .numbers) (c.answer? us n) (c'.answer? us n)) ∧
      (∀ n, Option.Rel (fun e e' => e.1.Alike .numbers e'.1 ∧ e.2 = e'.2)
        (c.ending? us n) (c'.ending? us n)) ∧
      (c.ledger us).SameNumbers (c'.ledger us) := by
  have h := (alike_start hconfig hentropy hprobes hprobes' hcalls).turns us
  refine ⟨fun n => ?_, fun n => ?_, h.world.ledger.sameNumbers⟩
  · exact rel_bind (forall₂_getElem? h.list n) fun t t' ht => ht.answer? h.world.clock
  · exact rel_bind (forall₂_getElem? h.list n) fun t t' ht => ht.ending?

def tenths : Decimal := (Decimal.ofParts? 100 1).get rfl

def longTwo : Decimal := (Decimal.ofParts? 20000000000000000000000000000 28).get rfl

/-- A bet that wins ten times itself, after a deposit and before a withdrawal. -/
def shortAmounts : Scenario where
  config := .standard
  entropy _ := .ofList []
  probes := []
  calls := [.seed .nil .ten, .deposit .nil .two, .settle .nil .two none, .withdraw .nil .ten,
    .history .nil 5]

/-- The same numbers, written with more places. -/
def longAmounts : Scenario where
  config := { Settings.standard with
    odds := { Odds.standard with threeMatchMultiplier := tenths, twoMatchMultiplier := longTwo } }
  entropy _ := .ofList []
  probes := []
  calls := [.seed .nil tenths, .deposit .nil longTwo, .settle .nil longTwo none,
    .withdraw .nil tenths, .history .nil 5]

def fiveCallsTurns : List Turn :=
  (List.range 5).flatMap fun n => List.replicate 40 (.step n)

theorem equal_amounts_settle_equally_longAmounts :
    (shortAmounts.answer? fiveCallsTurns 4).isSome = true ∧
      (∀ n, Option.Rel (Reply.Alike .numbers) (shortAmounts.answer? fiveCallsTurns n)
        (longAmounts.answer? fiveCallsTurns n)) ∧
      (∀ n, Option.Rel (fun e e' => e.1.Alike .numbers e'.1 ∧ e.2 = e'.2)
        (shortAmounts.ending? fiveCallsTurns n) (longAmounts.ending? fiveCallsTurns n)) ∧
      (shortAmounts.ledger fiveCallsTurns).SameNumbers (longAmounts.ledger fiveCallsTurns) := by
  have hten : Decimal.ten.Same tenths := by
    rw [Decimal.Same]
    decide +kernel
  have htwo : Decimal.two.Same longTwo := by
    rw [Decimal.Same]
    decide +kernel
  have hconfig : shortAmounts.config.Alike .numbers longAmounts.config :=
    ⟨⟨rfl, rfl, hten, htwo⟩, rfl⟩
  have hcalls : List.Forall₂ (Operation.Alike .numbers) shortAmounts.calls longAmounts.calls := by
    refine .cons (.seed trivial hten) (.cons (.deposit trivial htwo) ?_)
    refine .cons (.settle (L := .numbers) trivial htwo none) (.cons (.withdraw trivial hten) ?_)
    exact .cons (.history (L := .numbers) trivial 5) .nil
  exact ⟨by decide +kernel,
    equal_amounts_settle_equally hconfig rfl rfl rfl hcalls fiveCallsTurns⟩

end Scenario

end WagerLedger

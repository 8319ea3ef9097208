import WagerLedger.Proofs.Ledger.Numbering
import WagerLedger.Proofs.Session.Turns

/-! # The numbering of every reachable ledger

Whatever the calls do, also on transactions that they keep open and hand on, and whatever
faults they meet, the committed ledger has its ids without gaps, and the open transaction
continues them. -/
namespace WagerLedger

/-- The ledger has its ids without gaps, and the open transaction goes on with them. -/
structure World.Numbered (w : World) : Prop where
  ledger : w.store.ledger.Numbered
  staged : ∀ i t, w.holder = some (i, t) → t.Continues w.store.ledger

theorem World.Numbered.moves {w w' : World} (h : w.Numbered) (hw : w.Moves w') :
    w'.Numbered := by
  cases hw with
  | keeps ledger staged =>
    refine ⟨ledger ▸ h.ledger, fun i t ht => ?_⟩
    rw [ledger]
    rcases staged i t ht with rfl | ⟨j, hj⟩
    · exact Transaction.continues_empty _
    · exact h.staged j t hj
  | calls i t c before ledger after =>
    refine ⟨ledger ▸ h.ledger, fun j t' ht' => ?_⟩
    rw [after] at ht'
    cases ht'
    rw [ledger]
    exact (h.staged i t before).run c
  | applies i t before ledger after =>
    refine ⟨ledger ▸ (h.staged i t before).apply h.ledger, fun j t' ht' => ?_⟩
    rw [after j t' ht']
    exact Transaction.continues_empty _
  | seeds i ext b before ledger after =>
    refine ⟨ledger ▸ h.ledger.seed ext b, fun j t ht => ?_⟩
    rw [after, before] at ht
    cases ht
    exact Transaction.continues_empty _

namespace Scenario

theorem numbered (c : Scenario) (us : List Turn) : (c.after us).world.Numbered := by
  induction us using List.reverseRecOn with
  | nil => exact ⟨Ledger.numbered_empty, fun _ _ h => nomatch h⟩
  | append_singleton us u ih => exact ih.moves (c.moves us u)

/-- After any turns of any calls the index and the accounts name each other, account ids and spin
ids have no gaps and every spin has its account; and what the open transaction has staged
continues both numberings, with external ids that are new. -/
theorem ids_numbered (c : Scenario) (us : List Turn) :
    (c.ledger us).Numbered ∧
      ∀ i t, (c.after us).world.holder = some (i, t) → t.Continues (c.ledger us) :=
  ⟨(c.numbered us).ledger, (c.numbered us).staged⟩

end Scenario

end WagerLedger

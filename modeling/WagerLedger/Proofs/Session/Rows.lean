import WagerLedger.Proofs.Ledger.Rows
import WagerLedger.Proofs.Session.Atomicity

/-! # What every reachable ledger looks like

The constraints that a database would put on the rows hold of the committed ledger after any
turns of any calls, with balances of any size. Each change of the ledger keeps them, and the
phases of the calls tell that there are no other changes. -/
namespace WagerLedger

/-- Odds that pass the check of a configuration. -/
def Odds.Accepted (odds : Odds) : Prop := ∃ retry, (⟨odds, retry⟩ : Settings).validate = .ok ()

theorem Odds.Accepted.neverNegative {odds : Odds} (h : odds.Accepted) : odds.NeverNegative := by
  obtain ⟨retry, hv⟩ := h
  exact Settings.neverNegative_of_validate hv

namespace Scenario

/-- Accepted odds, seeds that a row may hold, and no calls on a transaction kept open. -/
structure Proper (c : Scenario) : Prop where
  odds : c.config.odds.Accepted
  engines : ∀ s, .engine s ∈ c.calls → s.odds.Accepted
  seeds : ∀ ext b, .seed ext b ∈ c.calls → b.Storable
  moves : ∀ m, .move m ∉ c.calls

variable {c : Scenario}

theorem Proper.mem {n : Nat} {op : Operation} (hc : c.Proper) (hop : c.calls[n]? = some op) :
    (∀ m, op ≠ .move m) ∧ ∀ ext b, op = .seed ext b → b.Storable := by
  have hmem := List.mem_of_getElem? hop
  exact ⟨fun m h => hc.moves m (h ▸ hmem), fun ext b h => hc.seeds ext b (h ▸ hmem)⟩

theorem rows_turn (hc : c.Proper) {us : List Turn} {u : Turn} {φ φ' : Nat → Phase}
    (h : (c.ledger us).Consistent ∧ (c.ledger us).Rows)
    (hturned : Tracks.Turned Odds.NeverNegative c.calls u (c.ledger us) (c.ledger (us ++ [u])) φ φ') :
    (c.ledger (us ++ [u])).Consistent ∧ (c.ledger (us ++ [u])).Rows := by
  cases hturned with
  | same hl _ => rwa [hl]
  | change n _ _ _ _ hmakes =>
    obtain ⟨op, r, hop, hm⟩ := hmakes
    obtain ⟨hmove, hseed⟩ := hc.mem hop
    exact ⟨h.1.makes hm hmove, h.2.makes hm hmove hseed⟩

theorem rows_run (hc : c.Proper) (us : List Turn) :
    (c.ledger us).Consistent ∧ (c.ledger us).Rows := by
  obtain ⟨φ, -, h⟩ := c.run_induction (P := Odds.NeverNegative)
    (M := fun us _ => (c.ledger us).Consistent ∧ (c.ledger us).Rows) hc.odds.neverNegative
    (fun s hs => (hc.engines s hs).neverNegative)
    ⟨Ledger.consistent_empty, Ledger.Rows.empty⟩ (fun _ _ _ _ => rows_turn hc) us
  exact h

/-- Every committed balance is at least zero and fits the ledger; every committed spin has a
positive bet and a win of at least zero that fit the ledger, belongs to an account, and has a
net. -/
theorem rows_hold (hc : c.Proper) (us : List Turn) :
    (∀ id b, (c.ledger us).balance? id = some b → 0 ≤ b.toRat ∧ b.fitsLedger = true) ∧
      ∀ s ∈ (c.ledger us).spins, 0 < s.bet.toRat ∧ 0 ≤ s.win.toRat ∧
        s.bet.fitsLedger = true ∧ s.win.fitsLedger = true ∧
        ((c.ledger us).accounts.get? s.accountId).isSome ∧ s.net?.isSome := by
  obtain ⟨hcons, hrows⟩ := rows_run hc us
  refine ⟨fun id b hb => ?_, fun s hs => ?_⟩
  · have hstore := hrows.balances id b hb
    exact ⟨hstore.nonneg, hstore.fits⟩
  · obtain ⟨hbet, hfits⟩ := hrows.bets s hs
    have hwin := hrows.wins s hs
    have hnet : s.net?.isSome := Decimal.sub?_isSome (Decimal.coefficient_nonneg hwin.nonneg)
      (Decimal.coefficient_nonneg hbet.le)
    exact ⟨hbet, hwin.nonneg, hfits, hwin.fits, hcons.spins s hs, hnet⟩

theorem proper_oneWin : oneWin.Proper where
  odds := ⟨.standard, by decide +kernel⟩
  engines s h := by simp [oneWin] at h
  seeds ext b h := by
    simp only [oneWin, List.mem_cons, Operation.seed.injEq, reduceCtorEq, List.not_mem_nil,
      or_false] at h
    rw [h.2]
    exact ⟨(Decimal.nonneg_iff _).mpr rfl, rfl⟩
  moves m h := by simp [oneWin] at h

theorem rows_hold_oneWin :
    (oneWin.ledger oneWinTurns).spins = [oneWinSpin] ∧
      0 < oneWinSpin.bet.toRat ∧ 0 ≤ oneWinSpin.win.toRat ∧
      oneWinSpin.bet.fitsLedger = true ∧ oneWinSpin.win.fitsLedger = true ∧
      ((oneWin.ledger oneWinTurns).accounts.get? oneWinSpin.accountId).isSome ∧
      oneWinSpin.net?.isSome := by
  have hspins : (oneWin.ledger oneWinTurns).spins = [oneWinSpin] := by decide +kernel
  exact ⟨hspins, (rows_hold proper_oneWin oneWinTurns).2 oneWinSpin (by simp [hspins])⟩

end Scenario

end WagerLedger

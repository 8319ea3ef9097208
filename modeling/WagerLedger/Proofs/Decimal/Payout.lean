import WagerLedger.Proofs.Decimal.Sum
import WagerLedger.Settlement

/-! # Wins that the ledger can hold

A win is a product that is rounded and then cut to four places. Neither takes it below zero
when bet and multiplier are not, and the cut always leaves an amount that fits. -/
namespace WagerLedger

namespace Decimal

theorem truncate_of_scale_le {d : Decimal} {p : Nat} (h : d.scale ≤ p) : d.truncate p = d :=
  dif_pos h

theorem truncate_eq {d : Decimal} {p : Nat} (h : p < d.scale) :
    (d.truncate p).coefficient = d.coefficient.tdiv (tenTo (d.scale - p)) ∧
      (d.truncate p).scale = p := by
  rw [truncate, dif_neg (not_le.mpr h)]
  exact ⟨rfl, rfl⟩

theorem fitsLedger_truncate (d : Decimal) : (d.truncate ledgerScale).fitsLedger = true := by
  refine fitsLedger_of_scale_le ?_
  unfold truncate
  split
  · assumption
  · exact le_rfl

theorem coefficient_truncate_nonneg {d : Decimal} (p : Nat) (h : 0 ≤ d.coefficient) :
    0 ≤ (d.truncate p).coefficient := by
  unfold truncate
  split
  · exact h
  · exact Int.tdiv_nonneg h (Int.natCast_nonneg _)

theorem coefficient_fitFrom_nonneg {c : Int} (hc : 0 ≤ c) {s t : Nat} {d : Decimal}
    (h : fitFrom c s t = some d) : 0 ≤ d.coefficient := by
  have hr (b : Nat) : 0 ≤ roundEvenInt c b :=
    Int.mul_nonneg (Int.sign_nonneg_iff.mpr hc) (Int.natCast_nonneg _)
  induction t with
  | zero => rw [(ofParts?_eq_some h).1]; exact hr _
  | succ t ih =>
    rw [fitFrom] at h
    split at h
    · rename_i d' hp
      cases h
      rw [(ofParts?_eq_some hp).1]
      exact hr _
    · exact ih h

theorem coefficient_mul?_nonneg {x y d : Decimal} (hx : 0 ≤ x.coefficient)
    (hy : 0 ≤ y.coefficient) (h : x.mul? y = some d) : 0 ≤ d.coefficient := by
  have hprod : ∀ e, fit? (x.coefficient * y.coefficient) (x.scale + y.scale) = some e →
      0 ≤ e.coefficient := fun e he => coefficient_fitFrom_nonneg (Int.mul_nonneg hx hy) he
  unfold mul? at h
  dsimp only at h
  split at h
  · cases h
    exact le_rfl
  · split at h
    · split at h
      · cases h
        exact le_rfl
      · exact hprod d h
    · obtain ⟨e, he, rfl⟩ := Option.map_eq_some_iff.mp h
      rw [coefficient_signZero]
      exact hprod e he

end Decimal

/-- Odds under which no outcome takes money from a winner. -/
def Odds.NeverNegative (odds : Odds) : Prop :=
  ∀ o : Outcome, 0 ≤ (o.multiplier odds).coefficient

theorem Settings.requireMultiplier_eq_ok {name : String} {m : Decimal}
    (h : Settings.requireMultiplier name m = .ok ()) : 0 ≤ m.coefficient := by
  unfold Settings.requireMultiplier at h
  split at h
  · cases h
  · rename_i hm
    rw [Decimal.isNegative, decide_eq_true_iff] at hm
    exact not_lt.mp hm

theorem Settings.neverNegative_of_validate {c : Settings} (h : c.validate = .ok ()) :
    c.odds.NeverNegative := by
  simp only [Settings.validate, bind, Except.bind] at h
  split at h
  · cases h
  split at h
  · cases h
  split at h
  · cases h
  rename_i _ h3
  split at h
  · cases h
  rename_i _ h2
  intro o
  cases o with
  | threeMatch => exact requireMultiplier_eq_ok h3
  | twoMatch => exact requireMultiplier_eq_ok h2
  | noMatch => exact le_rfl

theorem Odds.NeverNegative.multiplier_nonneg {odds : Odds} (h : odds.NeverNegative) (o : Outcome) :
    0 ≤ (o.multiplier odds).toRat := by
  rw [← not_lt, Decimal.toRat_neg_iff, not_lt]
  exact h o

theorem Settlement.acceptsBet_iff {bet : Decimal} :
    acceptsBet bet = true ↔ 0 < bet.toRat ∧ bet.fitsLedger = true := by
  rw [acceptsBet, Bool.and_eq_true, Decimal.isPositive_iff]

theorem Settlement.payout_eq_error {odds : Odds} {bet : Decimal} {o : Outcome}
    {e : SettlementError} (h : payout odds bet o = .error e) :
    e = .payoutOverflow bet (o.multiplier odds) := by
  unfold payout at h
  split at h
  · cases h
  · cases h
    rfl

theorem fitsLedger_payout {odds : Odds} {bet win : Decimal} {o : Outcome}
    (h : Settlement.payout odds bet o = .ok win) : win.fitsLedger = true := by
  unfold Settlement.payout at h
  split at h
  · cases h
    exact Decimal.fitsLedger_truncate _
  · cases h

theorem payout_win {odds : Odds} (hodds : odds.NeverNegative) {bet win : Decimal} {o : Outcome}
    (hbet : 0 ≤ bet.coefficient) (h : Settlement.payout odds bet o = .ok win) :
    win.fitsLedger = true ∧ 0 ≤ win.coefficient := by
  refine ⟨fitsLedger_payout h, ?_⟩
  unfold Settlement.payout at h
  split at h
  · rename_i w hw
    cases h
    exact Decimal.coefficient_truncate_nonneg _
      (Decimal.coefficient_mul?_nonneg hbet (hodds o) hw)
  · cases h

end WagerLedger

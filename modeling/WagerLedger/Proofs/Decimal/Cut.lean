import Mathlib.Data.Sign.Basic
import WagerLedger.Proofs.Decimal.Wins

/-! # The places of the ledger, checked and cut

An amount is refused for its places after its zeros are stripped, while a win is made to fit by
division. Both go by the number alone, and they agree: what already fits is exactly what a cut
leaves as it is. The opposite of an amount is cut to the opposite of its cut, so all about cuts is
shown on one side of zero and carried over to the other. -/
namespace WagerLedger.Decimal

theorem truncate_neg (d : Decimal) (p : Nat) : d.neg.truncate p = (d.truncate p).neg := by
  by_cases h : d.scale ≤ p
  · have hneg : d.neg.scale ≤ p := h
    rw [truncate_of_scale_le h, truncate_of_scale_le hneg]
  · have hneg : ¬d.neg.scale ≤ p := h
    rw [truncate, truncate, dif_neg h, dif_neg hneg]
    simp only [Decimal.neg, Int.neg_tdiv]

/-- The amount `t` is `a` without its places past the fourth. -/
structure CutOf (a t : Decimal) : Prop where
  fits : t.fitsLedger = true
  sign : t.toRat = 0 ∨ SignType.sign t.toRat = SignType.sign a.toRat
  near : |a.toRat - t.toRat| < 1 / 10 ^ 4
  within : |t.toRat| ≤ |a.toRat|
  eq_iff : t.toRat = a.toRat ↔ a.fitsLedger = true

variable {a t : Decimal}

theorem CutOf.neg (h : CutOf a t) : CutOf a.neg t.neg where
  fits := t.fitsLedger_neg.trans h.fits
  sign := by
    rw [toRat_neg, toRat_neg, neg_eq_zero, Left.sign_neg, Left.sign_neg]
    exact h.sign.imp_right (congrArg Neg.neg)
  near := by
    rw [toRat_neg, toRat_neg, neg_sub_neg, abs_sub_comm]
    exact h.near
  within := by
    rw [toRat_neg, toRat_neg, abs_neg, abs_neg]
    exact h.within
  eq_iff := by
    rw [toRat_neg, toRat_neg, neg_inj, fitsLedger_neg]
    exact h.eq_iff

theorem cutOf_truncate_of_nonneg (ha : 0 ≤ a.toRat) : CutOf a (a.truncate ledgerScale) := by
  have hcut := toRat_truncate ha
  have hnonneg := ledgerCut_nonneg ha
  have hle := ledgerCut_le a.toRat
  have hfits := a.fitsLedger_truncate
  refine ⟨hfits, ?_, ?_, ?_, fun heq => ?_, fun h => ?_⟩
  · rw [hcut]
    rcases hnonneg.eq_or_lt with hzero | hpos
    · exact .inl hzero.symm
    · exact .inr ((sign_pos hpos).trans (sign_pos (hpos.trans_le hle)).symm)
  · rw [hcut, abs_of_nonneg (sub_nonneg.mpr hle)]
    exact sub_ledgerCut_lt a.toRat
  · rw [hcut, abs_of_nonneg hnonneg, abs_of_nonneg ha]
    exact hle
  · rw [← Same.fitsLedger heq, hfits]
  · rw [hcut, ledgerCut_of_fits h]

theorem cutOf_truncate (a : Decimal) : CutOf a (a.truncate ledgerScale) := by
  rcases le_total 0 a.toRat with hpos | hneg
  · exact cutOf_truncate_of_nonneg hpos
  · have hpos : 0 ≤ a.neg.toRat := by
      rw [toRat_neg]
      exact neg_nonneg.mpr hneg
    have hcut := (cutOf_truncate_of_nonneg hpos).neg
    rwa [truncate_neg, neg_neg, neg_neg] at hcut

/-- The check for four places asks whether ten thousand times the amount is whole, so neither
another scale nor the opposite sign changes its answer; and a cut takes less than a
ten-thousandth off the magnitude, nothing at all exactly if the amount passes the check. -/
theorem places_checked_and_cut (a : Decimal) :
    (a.fitsLedger = true ↔ ∃ n : ℤ, a.toRat * 10 ^ 4 = n) ∧
      (∀ b : Decimal, b.Same a → b.fitsLedger = a.fitsLedger) ∧
      a.neg.fitsLedger = a.fitsLedger ∧
      CutOf a (a.truncate ledgerScale) :=
  ⟨fitsLedger_iff_toRat a, fun _ hb => hb.fitsLedger, fitsLedger_neg a, cutOf_truncate a⟩

def fineDebt : Decimal := ⟨-15, 5, false, by decide, by decide, nofun⟩

/-- It is refused also with zeros down to the last place, and the half is what a cut takes off. -/
theorem places_checked_and_cut_fineDebt :
    let spelledOut : Decimal := ⟨-1500000000000000000000000, 28, false, by decide, by decide, nofun⟩
    spelledOut.Same fineDebt ∧ spelledOut.fitsLedger = false ∧
      (fineDebt.truncate ledgerScale).toRat = -1 / 10 ^ 4 ∧
      CutOf fineDebt (fineDebt.truncate ledgerScale) := by
  intro spelledOut
  obtain ⟨-, hsame, -, hcut⟩ := places_checked_and_cut fineDebt
  have hspelled : spelledOut.Same fineDebt := by
    unfold Same
    decide +kernel
  have hrefused : fineDebt.fitsLedger = false := by decide
  refine ⟨hspelled, (hsame spelledOut hspelled).trans hrefused, ?_, hcut⟩
  decide +kernel

end WagerLedger.Decimal

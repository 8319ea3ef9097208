import Mathlib.Algebra.Order.Floor.Ring
import Mathlib.Data.Rat.Floor
import WagerLedger.Proofs.Decimal.Faithful

/-! # What a win is to the exact product

A win is cut toward zero, but what is cut is the product as a decimal, and that is rounded to the
nearest one. So the win is one of the two amounts of the ledger next to the exact product, and
the exact product cut to four places unless rounding has taken the product past the upper one. -/
namespace WagerLedger

namespace Decimal

/-- A number cut to the places of the ledger. -/
def ledgerCut (x : ℚ) : ℚ := ⌊x * 10 ^ ledgerScale⌋ / 10 ^ ledgerScale

theorem ledgerCut_le (x : ℚ) : ledgerCut x ≤ x := by
  have hfloor := Int.floor_le (x * 10 ^ ledgerScale)
  rwa [ledgerCut, div_le_iff₀ (by positivity)]

theorem ledgerCut_nonneg {x : ℚ} (hx : 0 ≤ x) : 0 ≤ ledgerCut x := by
  have hpow : (0 : ℚ) < 10 ^ ledgerScale := by positivity
  have hfloor : 0 ≤ ⌊x * 10 ^ ledgerScale⌋ := Int.floor_nonneg.mpr (mul_nonneg hx hpow.le)
  rw [ledgerCut]
  exact div_nonneg (by exact_mod_cast hfloor) hpow.le

theorem sub_ledgerCut_lt (x : ℚ) : x - ledgerCut x < 1 / 10 ^ ledgerScale := by
  have hpow : (0 : ℚ) < 10 ^ ledgerScale := by positivity
  have hfloor := Int.lt_floor_add_one (x * 10 ^ ledgerScale)
  rw [ledgerCut, lt_div_iff₀ hpow, sub_mul, div_mul_cancel₀ _ hpow.ne']
  linarith

theorem le_ledgerCut {a : Decimal} (ha : a.fitsLedger = true) {x : ℚ} (h : a.toRat ≤ x) :
    a.toRat ≤ ledgerCut x := by
  obtain ⟨n, hn⟩ := (fitsLedger_iff_toRat a).mp ha
  have hpow : (0 : ℚ) < 10 ^ ledgerScale := by positivity
  have hle : (n : ℚ) ≤ x * 10 ^ ledgerScale := by
    rw [← hn]
    exact mul_le_mul_of_nonneg_right h hpow.le
  rw [ledgerCut, le_div_iff₀ hpow, hn]
  exact_mod_cast Int.le_floor.mpr hle

theorem fitsLedger_of_eq_ledgerCut {a : Decimal} {x : ℚ} (h : a.toRat = ledgerCut x) :
    a.fitsLedger = true := by
  refine (fitsLedger_iff_toRat a).mpr ⟨⌊x * 10 ^ ledgerScale⌋, ?_⟩
  rw [h, ledgerCut]
  field_simp

theorem ledgerCut_of_fits {a : Decimal} (h : a.fitsLedger = true) :
    ledgerCut a.toRat = a.toRat :=
  le_antisymm (ledgerCut_le _) (le_ledgerCut h le_rfl)

theorem toRat_truncate {d : Decimal} (hd : 0 ≤ d.toRat) :
    (d.truncate ledgerScale).toRat = ledgerCut d.toRat := by
  by_cases hs : d.scale ≤ ledgerScale
  · rw [truncate_of_scale_le hs, ledgerCut_of_fits (fitsLedger_of_scale_le hs)]
  · obtain ⟨hcoef, hscale⟩ := truncate_eq (not_le.mp hs)
    have hsplit : (10 : ℚ) ^ d.scale = 10 ^ ledgerScale * tenTo (d.scale - ledgerScale) := by
      rw [tenTo_cast, ← pow_add]
      congr 1
      omega
    have hquot : d.toRat * 10 ^ ledgerScale =
        (d.coefficient : ℚ) / tenTo (d.scale - ledgerScale) := by
      rw [toRat_eq, hsplit]
      field_simp
    rw [toRat_eq, hcoef, hscale, ledgerCut, hquot, Rat.floor_intCast_div_natCast,
      Int.tdiv_eq_ediv_of_nonneg (coefficient_nonneg hd)]

end Decimal

/-- A win against the exact product: no amount of the ledger lies between the two, and the win
is the product cut to four places if and only if it is not past the product and the cut is a
decimal at all, above all if the product is one. -/
structure PaysFor (product : ℚ) (win : Decimal) : Prop where
  le_of_le : ∀ a : Decimal, a.fitsLedger = true → a.toRat ≤ product → a.toRat ≤ win.toRat
  ge_of_ge : ∀ a : Decimal, a.fitsLedger = true → product ≤ a.toRat → win.toRat ≤ a.toRat
  cut_iff : win.toRat = Decimal.ledgerCut product ↔
    win.toRat ≤ product ∧ ∃ a : Decimal, a.toRat = Decimal.ledgerCut product
  cut_of_exact : (∃ a : Decimal, a.toRat = product) → win.toRat = Decimal.ledgerCut product

theorem paysFor_truncate {product : ℚ} (hproduct : 0 ≤ product) {d : Decimal}
    (h : Decimal.Faithful product d) : PaysFor product (d.truncate ledgerScale) := by
  have hd : 0 ≤ d.toRat := by
    have hzero := h.le_of_le .zero (by rwa [Decimal.toRat_zero])
    rwa [Decimal.toRat_zero] at hzero
  have hwin := Decimal.toRat_truncate hd
  have hfits := d.fitsLedger_truncate
  have hle : ∀ a : Decimal, a.fitsLedger = true → a.toRat ≤ product →
      a.toRat ≤ (d.truncate ledgerScale).toRat := by
    intro a ha hap
    rw [hwin]
    exact Decimal.le_ledgerCut ha (h.le_of_le a hap)
  refine ⟨hle, fun a _ hpa => ?_, ⟨fun heq => ?_, ?_⟩, ?_⟩
  · rw [hwin]
    exact (Decimal.ledgerCut_le d.toRat).trans (h.ge_of_ge a hpa)
  · rw [heq]
    exact ⟨Decimal.ledgerCut_le product, _, heq⟩
  · rintro ⟨hwp, a, ha⟩
    have hbelow := hle a (Decimal.fitsLedger_of_eq_ledgerCut ha)
      (ha.trans_le (Decimal.ledgerCut_le product))
    exact le_antisymm (Decimal.le_ledgerCut hfits hwp) (ha ▸ hbelow)
  · rintro ⟨a, rfl⟩
    have hexact : d.toRat = a.toRat :=
      le_antisymm (h.ge_of_ge a le_rfl) (h.le_of_le a le_rfl)
    rw [hwin, hexact]

theorem paysFor_payout {odds : Odds} (hodds : odds.NeverNegative) {bet win : Decimal} {o : Outcome}
    (hbet : 0 < bet.toRat) (hfits : bet.fitsLedger = true)
    (h : Settlement.payout odds bet o = .ok win) :
    PaysFor (bet.toRat * (o.multiplier odds).toRat) win := by
  have hmul := hodds.multiplier_nonneg o
  rw [Settlement.payout] at h
  split at h
  · rename_i product hproduct
    cases h
    exact paysFor_truncate (mul_nonneg hbet.le hmul)
      (Decimal.faithful_mul? hfits hbet.le hmul hproduct)
  · cases h

end WagerLedger

import Mathlib.Data.Fintype.Fin
import Mathlib.Data.Fintype.Prod
import Mathlib.Data.Rat.Floor
import Mathlib.Tactic.FieldSimp
import WagerLedger.Config.Settings
import WagerLedger.Proofs.Binary64.Arithmetic

/-! # How often each outcome comes

A draw is one of 2^53 fractions. A probability is hit by the draws up to it, so their number is
the probability to within one draw, and the outcomes are counted over all pairs of draws: the
first draw alone decides on three matching symbols, and the second is taken only if it misses. -/
namespace WagerLedger

namespace Words

def draws : Nat := 9007199254740992

def top (w : BitVec 64) : Fin draws := ⟨w.toNat / 2048, by have := w.isLt; simp only [draws]; omega⟩

def ofTop (k : Fin draws) : BitVec 64 := BitVec.ofNat 64 (k.val * 2048)

def ofTops (k : Fin draws × Fin draws) : Words := ofList [ofTop k.1, ofTop k.2]

def tops (s : Words) : Fin draws × Fin draws := (top (s.word s.used), top (s.word (s.used + 1)))

theorem top_ofTop (k : Fin draws) : top (ofTop k) = k := by
  have hk : k.val < 9007199254740992 := k.isLt
  ext
  simp only [top, ofTop, BitVec.toNat_ofNat]
  omega

theorem tops_ofTops (k : Fin draws × Fin draws) : (ofTops k).tops = k :=
  Prod.ext (top_ofTop k.1) (top_ofTop k.2)

theorem draws_cast : (draws : ℚ) = 2 ^ 53 := by norm_num [draws]

theorem draws_pos : (0 : ℚ) < draws := by norm_num [draws]

def below (m : Nat) : Finset (Fin draws) := Finset.univ.filter fun k => k.val < m

@[simp] theorem mem_below {m : Nat} {k : Fin draws} : k ∈ below m ↔ k.val < m := by simp [below]

theorem card_below {m : Nat} (h : m ≤ draws) : (below m).card = m := by
  rw [below, Fin.card_filter_val_lt, Nat.min_eq_right h]

theorem card_below_compl {m : Nat} (h : m ≤ draws) : (below m)ᶜ.card = draws - m := by
  rw [Finset.card_compl, card_below h, Fintype.card_fin]

theorem fraction_spec (w : BitVec 64) :
    (fraction w).isFinite = true ∧ (fraction w).toRat = (top w).val / draws := by
  have hlt : (top w).val < 9007199254740992 := (top w).isLt
  have hle : ((top w).val : ℚ) ≤ draws := by exact_mod_cast hlt.le
  have hone : ((top w).val : ℚ) / draws ≤ 1 := (div_le_one draws_pos).mpr hle
  have hrounds := (Binary64.round_cases (top w).val (b := draws) (by decide)).resolve_right
    fun hbig => hbig.2.not_ge (Binary64.le_largest (hone.trans (by norm_num)))
  refine ⟨hrounds.finite, hrounds.exact ⟨(top w).val, -53, ?_, by omega, ?_⟩⟩
  · rw [Nat.abs_cast]
    exact_mod_cast hlt.le
  · rw [draws_cast, zpow_neg, div_eq_mul_inv]
    norm_cast

end Words

def Binary64.favourable (p : Binary64) : Nat :=
  if p.toRat = 0 then 0 else min Words.draws (⌊p.toRat * Words.draws⌋₊ + 1)

theorem isHit_fraction {p : Binary64} (hp : p.inUnitInterval = true) (w : BitVec 64) :
    isHit (Words.fraction w) p = true ↔ (Words.top w).val < p.favourable := by
  have hfinite := Binary64.isFinite_of_inUnitInterval hp
  obtain ⟨hnonneg, -⟩ := (Binary64.inUnitInterval_iff hfinite).mp hp
  obtain ⟨hdraw, hvalue⟩ := Words.fraction_spec w
  rw [isHit, Bool.and_eq_true, Binary64.less_iff rfl hfinite, Binary64.atMost_iff hdraw hfinite,
    Binary64.toRat_zero, hvalue, Binary64.favourable]
  by_cases hzero : p.toRat = 0
  · simp [hzero]
  · have hpos : 0 < p.toRat := lt_of_le_of_ne hnonneg (Ne.symm hzero)
    rw [if_neg hzero, lt_min_iff, Nat.lt_succ_iff, Nat.le_floor_iff (by positivity [Words.draws_pos]),
      div_le_iff₀ Words.draws_pos]
    exact ⟨fun h => ⟨(Words.top w).isLt, h.2⟩, fun h => ⟨hpos, h.2⟩⟩

theorem Binary64.favourable_le (p : Binary64) : p.favourable ≤ Words.draws := by
  unfold favourable
  split
  · exact Nat.zero_le _
  · exact Nat.min_le_left _ _

/-- The part of the draws that hit is at least the probability, and too large by at most one
draw. -/
theorem Binary64.favourable_near {p : Binary64} (hp : p.inUnitInterval = true) :
    p.toRat ≤ p.favourable / Words.draws ∧
      p.favourable / Words.draws ≤ p.toRat + 1 / Words.draws := by
  have hdraws := Words.draws_pos
  obtain ⟨hnonneg, hone⟩ := (inUnitInterval_iff (isFinite_of_inUnitInterval hp)).mp hp
  rw [le_div_iff₀ hdraws, ← sub_le_iff_le_add, ← sub_div, div_le_iff₀ hdraws, favourable]
  by_cases hzero : p.toRat = 0
  · simp [hzero]
  · have hfloor := Nat.floor_le (a := p.toRat * Words.draws) (by positivity)
    have hlt := Nat.lt_floor_add_one (p.toRat * Words.draws)
    have hall : p.toRat * Words.draws ≤ Words.draws := mul_le_of_le_one_left hdraws.le hone
    rw [if_neg hzero, Nat.cast_min, Nat.cast_add, Nat.cast_one]
    constructor
    · exact le_min hall hlt.le
    · have := min_le_right (Words.draws : ℚ) (⌊p.toRat * Words.draws⌋₊ + 1)
      linarith

namespace Odds

/-- The outcome of a spin on two given draws. -/
def landing (odds : Odds) (k : Fin Words.draws × Fin Words.draws) : Outcome :=
  (odds.spin (Words.ofTops k)).1

def count (odds : Odds) (o : Outcome) : Nat := (Finset.univ.filter fun k => odds.landing k = o).card

variable {odds : Odds}

section
variable (h3 : odds.threeMatchProbability.inUnitInterval = true)
  (h2 : odds.twoMatchProbability.inUnitInterval = true)
include h3 h2

theorem spin_eq (s : Words) :
    odds.spin s =
      if s.tops.1.val < odds.threeMatchProbability.favourable then
        (.threeMatch, { s with used := s.used + 1 })
      else (if s.tops.2.val < odds.twoMatchProbability.favourable then .twoMatch else .noMatch,
        { s with used := s.used + 2 }) := by
  simp only [spin, Words.draw, Words.next, isHit_fraction h3, isHit_fraction h2, Words.tops]
  rfl

theorem landing_eq (k : Fin Words.draws × Fin Words.draws) :
    odds.landing k =
      if k.1.val < odds.threeMatchProbability.favourable then .threeMatch
      else if k.2.val < odds.twoMatchProbability.favourable then .twoMatch else .noMatch := by
  rw [landing, spin_eq h3 h2, Words.tops_ofTops]
  split <;> rfl

theorem spin_spec (s : Words) :
    odds.spin s = (odds.landing s.tops,
      { s with used := s.used + if isHit s.draw.1 odds.threeMatchProbability then 1 else 2 }) := by
  have hfirst := isHit_fraction h3 (s.word s.used)
  rw [spin_eq h3 h2, landing_eq h3 h2]
  by_cases hlt : s.tops.1.val < odds.threeMatchProbability.favourable
  · have hhit : isHit s.draw.1 odds.threeMatchProbability = true := hfirst.mpr hlt
    rw [if_pos hlt, if_pos hlt, if_pos hhit]
  · have hmiss : ¬ isHit s.draw.1 odds.threeMatchProbability = true := mt hfirst.mp hlt
    rw [if_neg hlt, if_neg hlt, if_neg hmiss]

theorem filter_landing (o : Outcome) :
    (Finset.univ.filter fun k => odds.landing k = o) =
      match o with
      | .threeMatch => Words.below odds.threeMatchProbability.favourable ×ˢ Finset.univ
      | .twoMatch => (Words.below odds.threeMatchProbability.favourable)ᶜ ×ˢ
          Words.below odds.twoMatchProbability.favourable
      | .noMatch => (Words.below odds.threeMatchProbability.favourable)ᶜ ×ˢ
          (Words.below odds.twoMatchProbability.favourable)ᶜ := by
  ext k
  rw [Finset.mem_filter, landing_eq h3 h2]
  by_cases hfirst : k.1.val < odds.threeMatchProbability.favourable <;>
    by_cases hsecond : k.2.val < odds.twoMatchProbability.favourable <;>
    cases o <;> simp [hfirst, hsecond]

theorem count_threeMatch :
    odds.count .threeMatch = odds.threeMatchProbability.favourable * Words.draws := by
  rw [count, filter_landing h3 h2, Finset.card_product,
    Words.card_below (Binary64.favourable_le _), Finset.card_univ, Fintype.card_fin]

theorem count_twoMatch :
    odds.count .twoMatch = (Words.draws - odds.threeMatchProbability.favourable) *
      odds.twoMatchProbability.favourable := by
  rw [count, filter_landing h3 h2, Finset.card_product,
    Words.card_below_compl (Binary64.favourable_le _), Words.card_below (Binary64.favourable_le _)]

theorem count_noMatch :
    odds.count .noMatch = (Words.draws - odds.threeMatchProbability.favourable) *
      (Words.draws - odds.twoMatchProbability.favourable) := by
  rw [count, filter_landing h3 h2, Finset.card_product,
    Words.card_below_compl (Binary64.favourable_le _),
    Words.card_below_compl (Binary64.favourable_le _)]

theorem rate_threeMatch :
    (odds.count .threeMatch : ℚ) / (Words.draws * Words.draws) =
      odds.threeMatchProbability.favourable / Words.draws := by
  have hdraws := Words.draws_pos
  rw [count_threeMatch h3 h2, Nat.cast_mul]
  field_simp

theorem rate_win :
    ((odds.count .threeMatch + odds.count .twoMatch : Nat) : ℚ) / (Words.draws * Words.draws) =
      odds.threeMatchProbability.favourable / Words.draws +
        (1 - odds.threeMatchProbability.favourable / Words.draws) *
          (odds.twoMatchProbability.favourable / Words.draws) := by
  have hdraws := Words.draws_pos
  rw [count_threeMatch h3 h2, count_twoMatch h3 h2, Nat.cast_add, Nat.cast_mul, Nat.cast_mul,
    Nat.cast_sub (Binary64.favourable_le _)]
  field_simp

end

/-- Two chances that are a little larger than they should be, the second one left for where the
first misses. -/
theorem chance_near {p q a b t : ℚ} (hp : p ≤ 1) (hb : b ≤ 1) (ha0 : p ≤ a) (ha : a ≤ p + t)
    (hb0 : q ≤ b) (hbt : b ≤ q + t) (hq : 0 ≤ q) (hp0 : 0 ≤ p) :
    |a + (1 - a) * b - (p + (1 - p) * q)| ≤ 2 * t := by
  have hsplit : a + (1 - a) * b - (p + (1 - p) * q) = (a - p) * (1 - b) + (1 - p) * (b - q) := by
    ring
  have hfirst : 0 ≤ (a - p) * (1 - b) := mul_nonneg (by linarith) (by linarith)
  have hsecond : 0 ≤ (1 - p) * (b - q) := mul_nonneg (by linarith) (by linarith)
  have hfirst' : (a - p) * (1 - b) ≤ a - p := mul_le_of_le_one_right (by linarith) (by linarith)
  have hsecond' : (1 - p) * (b - q) ≤ b - q := mul_le_of_le_one_left (by linarith) (by linarith)
  rw [hsplit, abs_of_nonneg (by linarith)]
  linarith

end Odds

theorem Settings.probabilities_of_validate {c : Settings} (h : c.validate = .ok ()) :
    c.odds.threeMatchProbability.inUnitInterval = true ∧
      c.odds.twoMatchProbability.inUnitInterval = true := by
  simp only [Settings.validate, bind, Except.bind] at h
  split at h
  · cases h
  rename_i _ h3
  split at h
  · cases h
  rename_i _ h2
  unfold requireProbability at h3 h2
  split at h3
  · split at h2
    · exact ⟨‹_›, ‹_›⟩
    · cases h2
  · cases h3

/-- Of all pairs of draws, the outcomes take as many as two independent draws against the two
probabilities have; a source gives its next draw, and the one after it only if the first misses;
and the rates are those of the probabilities up to one draw of each. -/
theorem Settings.frequencies {c : Settings} (h : c.validate = .ok ()) :
    (∀ k, (Words.ofTops k).draw.1.toRat = (k.1.val : ℚ) / Words.draws ∧
      (Words.ofTops k).draw.2.draw.1.toRat = (k.2.val : ℚ) / Words.draws) ∧
    (∀ s, c.odds.spin s = (c.odds.landing s.tops,
      { s with used := s.used + if isHit s.draw.1 c.odds.threeMatchProbability then 1 else 2 })) ∧
    c.odds.count .threeMatch = c.odds.threeMatchProbability.favourable * Words.draws ∧
    c.odds.count .twoMatch = (Words.draws - c.odds.threeMatchProbability.favourable) *
      c.odds.twoMatchProbability.favourable ∧
    c.odds.count .threeMatch + c.odds.count .twoMatch + c.odds.count .noMatch =
      Words.draws * Words.draws ∧
    |(c.odds.count .threeMatch : ℚ) / (Words.draws * Words.draws) -
      c.odds.threeMatchProbability.toRat| ≤ 1 / Words.draws ∧
    |((c.odds.count .threeMatch + c.odds.count .twoMatch : Nat) : ℚ) / (Words.draws * Words.draws) -
      (c.odds.threeMatchProbability.toRat + (1 - c.odds.threeMatchProbability.toRat) *
        c.odds.twoMatchProbability.toRat)| ≤ 2 / Words.draws := by
  obtain ⟨h3, h2⟩ := probabilities_of_validate h
  obtain ⟨hlow3, hhigh3⟩ := Binary64.favourable_near h3
  obtain ⟨hlow2, hhigh2⟩ := Binary64.favourable_near h2
  obtain ⟨h30, h31⟩ :=
    (Binary64.inUnitInterval_iff (Binary64.isFinite_of_inUnitInterval h3)).mp h3
  obtain ⟨h20, -⟩ := (Binary64.inUnitInterval_iff (Binary64.isFinite_of_inUnitInterval h2)).mp h2
  have hle : (c.odds.twoMatchProbability.favourable : ℚ) / Words.draws ≤ 1 :=
    (div_le_one Words.draws_pos).mpr (by exact_mod_cast Binary64.favourable_le _)
  refine ⟨fun k => ?_, Odds.spin_spec h3 h2, Odds.count_threeMatch h3 h2, Odds.count_twoMatch h3 h2,
    ?_, ?_, ?_⟩
  · have hfirst := (Words.fraction_spec (Words.ofTop k.1)).2
    have hsecond := (Words.fraction_spec (Words.ofTop k.2)).2
    rw [Words.top_ofTop] at hfirst hsecond
    exact ⟨hfirst, hsecond⟩
  · rw [Odds.count_threeMatch h3 h2, Odds.count_twoMatch h3 h2, Odds.count_noMatch h3 h2, add_assoc,
      ← mul_add, Nat.add_sub_cancel' (Binary64.favourable_le _), ← add_mul,
      Nat.add_sub_cancel' (Binary64.favourable_le _)]
  · rw [Odds.rate_threeMatch h3 h2, abs_of_nonneg (by linarith)]
    linarith
  · rw [Odds.rate_win h3 h2, ← mul_one_div 2]
    exact Odds.chance_near h31 hle hlow3 hhigh3 hlow2 hhigh2 h20 h30

/-- At five percent, three symbols match on the draws up to the last one below a twentieth. -/
theorem Settings.frequencies_standard :
    Settings.standard.validate = .ok () ∧
      Odds.standard.count .threeMatch = 450359962737050 * Words.draws :=
  ⟨by decide +kernel, (Settings.frequencies (c := .standard) (by decide +kernel)).2.2.1.trans
    (congrArg (· * Words.draws) (by decide +kernel))⟩

end WagerLedger

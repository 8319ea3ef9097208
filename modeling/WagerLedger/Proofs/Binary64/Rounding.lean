import WagerLedger.Proofs.Binary64.Value

/-! # Rounding to a double

The unit of the last place puts 2^52 to 2^53 of itself into the number, or is the least one. A
number of the grid is a whole count of such units unless it is at most 2^52 of them, so no
number of the grid lies between a number and its double. -/
namespace WagerLedger.Binary64

def largest : ℚ := 9007199254740991 * 2 ^ (971 : ℤ)

def halfLeast : ℚ := 2 ^ (-1075 : ℤ)

/-- The finite double that a number is rounded to: no number of the grid is between the two, and
they are within half a unit of the last place. -/
structure Rounds (q : ℚ) (x : Binary64) : Prop where
  finite : x.isFinite = true
  le_of_le : ∀ y, OnGrid y → y ≤ q → y ≤ x.toRat
  ge_of_ge : ∀ y, OnGrid y → q ≤ y → x.toRat ≤ y
  near : |x.toRat - q| ≤ |q| / 2 ^ 53 + halfLeast

theorem halfLeast_pos : 0 < halfLeast := by
  rw [halfLeast]
  positivity

theorem halfLeast_le : halfLeast ≤ 1 / 2 ^ 128 := by
  have hmono : (2 : ℚ) ^ (-1075 : ℤ) ≤ 2 ^ (-128 : ℤ) :=
    zpow_le_zpow_right₀ (by norm_num) (by norm_num)
  rw [halfLeast]
  exact hmono.trans (by norm_num)

theorem Rounds.neg {q : ℚ} {x : Binary64} (h : Rounds q x) : Rounds (-q) (-x) where
  finite := by
    have hfinite := h.finite
    cases x with
    | nan n => cases hfinite
    | infinity n => cases hfinite
    | finite n m e hc => rfl
  le_of_le := by
    rintro y ⟨c, e, hc, he, rfl⟩ hy
    have hle := h.ge_of_ge (-(c * 2 ^ e)) ⟨-c, e, by rwa [abs_neg], he, by simp⟩ (by linarith)
    rw [toRat_neg]
    linarith
  ge_of_ge := by
    rintro y ⟨c, e, hc, he, rfl⟩ hy
    have hle := h.le_of_le (-(c * 2 ^ e)) ⟨-c, e, by rwa [abs_neg], he, by simp⟩ (by linarith)
    rw [toRat_neg]
    linarith
  near := by
    rw [toRat_neg, abs_neg, show -x.toRat - -q = -(x.toRat - q) by ring, abs_neg]
    exact h.near

theorem Rounds.exact {q : ℚ} {x : Binary64} (h : Rounds q x) (hq : OnGrid q) : x.toRat = q :=
  le_antisymm (h.ge_of_ge q hq le_rfl) (h.le_of_le q hq le_rfl)

theorem Rounds.nonneg {q : ℚ} {x : Binary64} (h : Rounds q x) (hq : 0 ≤ q) : 0 ≤ x.toRat :=
  h.le_of_le 0 onGrid_zero hq

theorem Rounds.le_add {q : ℚ} {x : Binary64} (h : Rounds q x) (hq : 0 ≤ q) :
    x.toRat ≤ q + q / 2 ^ 53 + halfLeast := by
  have hnear := (abs_le.mp h.near).2
  rw [abs_of_nonneg hq] at hnear
  linarith

theorem Rounds.sub_le {q : ℚ} {x : Binary64} (h : Rounds q x) (hq : 0 ≤ q) :
    q - q / 2 ^ 53 - halfLeast ≤ x.toRat := by
  have hnear := (abs_le.mp h.near).1
  rw [abs_of_nonneg hq] at hnear
  linarith

theorem inUnits_pos (a : Nat) {b : Nat} (hb : 0 < b) (e : Int) : 0 < (inUnits a b e).2 := by
  cases e with
  | ofNat k => exact Nat.mul_pos hb (twoTo_pos k)
  | negSucc k => exact hb

theorem inUnits_eq (a b : Nat) (e : Int) :
    ((inUnits a b e).1 : ℚ) / (inUnits a b e).2 = a / b / 2 ^ e := by
  cases e with
  | ofNat k => simp [inUnits, twoTo_cast, div_div]
  | negSucc k =>
    simp only [inUnits, Nat.cast_mul, twoTo_cast, zpow_negSucc, div_inv_eq_mul]
    ring

/-- The logarithms locate a quotient between two powers of two. -/
theorem quotient_bounds {a b : Nat} (ha : a ≠ 0) (hb : b ≠ 0) :
    (2 : ℚ) ^ ((Nat.log2 a : Int) - Nat.log2 b - 1) ≤ a / b ∧
      (a / b : ℚ) < 2 ^ ((Nat.log2 a : Int) - Nat.log2 b + 1) := by
  have hbq : (0 : ℚ) < b := by exact_mod_cast Nat.pos_of_ne_zero hb
  have hla : (2 : ℚ) ^ (Nat.log2 a : Int) ≤ a := by exact_mod_cast Nat.log2_self_le ha
  have hla' : (a : ℚ) < 2 ^ ((Nat.log2 a : Int) + 1) := by exact_mod_cast Nat.lt_log2_self
  have hlb : (2 : ℚ) ^ (Nat.log2 b : Int) ≤ b := by exact_mod_cast Nat.log2_self_le hb
  have hlb' : (b : ℚ) < 2 ^ ((Nat.log2 b : Int) + 1) := by exact_mod_cast Nat.lt_log2_self
  constructor
  · rw [le_div_iff₀ hbq]
    calc (2 : ℚ) ^ ((Nat.log2 a : Int) - Nat.log2 b - 1) * b
        ≤ 2 ^ ((Nat.log2 a : Int) - Nat.log2 b - 1) * 2 ^ ((Nat.log2 b : Int) + 1) :=
          mul_le_mul_of_nonneg_left hlb'.le (by positivity)
      _ = 2 ^ (Nat.log2 a : Int) := by
          rw [← zpow_add₀ (by norm_num)]
          congr 1
          omega
      _ ≤ a := hla
  · rw [div_lt_iff₀ hbq]
    calc (a : ℚ) < 2 ^ ((Nat.log2 a : Int) + 1) := hla'
      _ = 2 ^ ((Nat.log2 a : Int) - Nat.log2 b + 1) * 2 ^ (Nat.log2 b : Int) := by
          rw [← zpow_add₀ (by norm_num)]
          congr 1
          omega
      _ ≤ 2 ^ ((Nat.log2 a : Int) - Nat.log2 b + 1) * b :=
          mul_le_mul_of_nonneg_left hlb (by positivity)

theorem two_zpow_add (k : Nat) (e : Int) : (2 : ℚ) ^ (e + k) = 2 ^ k * 2 ^ e := by
  rw [zpow_add₀ (by norm_num), zpow_natCast, mul_comm]

/-- In units of its last place a number is below 2^53, and at least 2^52 unless the unit is the
least one. -/
theorem lastPlace_spec {a b : Nat} (ha : a ≠ 0) (hb : b ≠ 0) :
    -1074 ≤ lastPlace a b ∧ (a / b : ℚ) < 9007199254740992 * 2 ^ lastPlace a b ∧
      (4503599627370496 * (2 : ℚ) ^ lastPlace a b ≤ a / b ∨ lastPlace a b = -1074) := by
  obtain ⟨hlow, hhigh⟩ := quotient_bounds ha hb
  obtain ⟨e, he⟩ : ∃ e, e = (Nat.log2 a : Int) - Nat.log2 b - 52 := ⟨_, rfl⟩
  rw [show (Nat.log2 a : Int) - Nat.log2 b - 1 = e + (51 : Nat) by omega, two_zpow_add] at hlow
  rw [show (Nat.log2 a : Int) - Nat.log2 b + 1 = e + (53 : Nat) by omega, two_zpow_add] at hhigh
  have hd := inUnits_pos a (Nat.pos_of_ne_zero hb) e
  have hdq : (0 : ℚ) < (inUnits a b e).2 := by exact_mod_cast hd
  have hsmall : (inUnits a b e).1 / (inUnits a b e).2 < 4503599627370496 ↔
      (a / b : ℚ) < 4503599627370496 * 2 ^ e := by
    rw [Nat.div_lt_iff_lt_mul hd, ← div_lt_iff₀ (by positivity : (0 : ℚ) < 2 ^ e), ← inUnits_eq,
      div_lt_iff₀ hdq]
    exact_mod_cast Iff.rfl
  -- The unit that the quotient of the logarithms gives, or the one below it.
  obtain ⟨e', he', hlow', hhigh'⟩ : ∃ e', lastPlace a b = max (-1074) e' ∧
      4503599627370496 * (2 : ℚ) ^ e' ≤ a / b ∧ (a / b : ℚ) < 9007199254740992 * 2 ^ e' := by
    by_cases h : (a / b : ℚ) < 4503599627370496 * 2 ^ e
    · refine ⟨e - 1, ?_, ?_, ?_⟩
      · simp only [lastPlace, ← he, if_pos (hsmall.mpr h)]
      · rw [zpow_sub_one₀ (by norm_num)]
        linarith
      · rw [zpow_sub_one₀ (by norm_num)]
        linarith
    · refine ⟨e, ?_, not_lt.mp h, by linarith⟩
      simp only [lastPlace, ← he, if_neg (mt hsmall.mp h)]
  rcases le_total (-1074) e' with hmin | hmin
  · rw [he', max_eq_right hmin]
    exact ⟨hmin, hhigh', .inl hlow'⟩
  · rw [he', max_eq_left hmin]
    refine ⟨le_rfl, hhigh'.trans_le ?_, .inr rfl⟩
    exact mul_le_mul_of_nonneg_left (zpow_le_zpow_right₀ (by norm_num) hmin) (by norm_num)

theorem OnGrid.inUnits {y : ℚ} {e : Int} (h : OnGrid y) :
    (∃ k : ℤ, y = k * 2 ^ e) ∨ (-1074 < e ∧ |y| ≤ 4503599627370496 * 2 ^ e) := by
  obtain ⟨c, f, hc, hf, rfl⟩ := h
  rcases le_or_gt e f with hef | hfe
  · obtain ⟨k, rfl⟩ := Int.le.dest hef
    refine .inl ⟨c * 2 ^ k, ?_⟩
    rw [two_zpow_add]
    push_cast
    ring
  · refine .inr ⟨by omega, ?_⟩
    have hcq : |(c : ℚ)| ≤ 9007199254740992 := by exact_mod_cast hc
    have hpow : (2 : ℚ) ^ f ≤ 2 ^ (e - 1) := zpow_le_zpow_right₀ (by norm_num) (by omega)
    rw [abs_mul, abs_of_pos (by positivity : (0 : ℚ) < 2 ^ f)]
    calc |(c : ℚ)| * 2 ^ f ≤ 9007199254740992 * 2 ^ (e - 1) :=
          mul_le_mul hcq hpow (by positivity) (by norm_num)
      _ = 4503599627370496 * 2 ^ e := by
          rw [zpow_sub_one₀ (by norm_num)]
          ring

theorem roundEven_near (a : Nat) {b : Nat} (hb : 0 < b) :
    |(roundEven a b : ℚ) - a / b| ≤ 1 / 2 := by
  obtain ⟨hle, hge⟩ := roundEven_spec a hb
  have hbq : (0 : ℚ) < b := by exact_mod_cast hb
  have hle' : 2 * ((roundEven a b : ℚ) * b) ≤ 2 * a + b := by exact_mod_cast hle
  have hge' : 2 * (a : ℚ) ≤ 2 * (roundEven a b * b) + b := by exact_mod_cast hge
  have hlow : (a / b : ℚ) ≤ roundEven a b + 1 / 2 := by
    rw [div_le_iff₀ hbq]
    linarith
  have hhigh : (roundEven a b - 1 / 2 : ℚ) ≤ a / b := by
    rw [le_div_iff₀ hbq]
    linarith
  rw [abs_le]
  constructor <;> linarith

theorem intCast_le_roundEven {a b : Nat} {k : ℤ} (hb : 0 < b) (h : (k : ℚ) ≤ a / b) :
    k ≤ roundEven a b := by
  rcases le_or_gt k 0 with hk | hk
  · omega
  · obtain ⟨n, rfl⟩ := Int.eq_ofNat_of_zero_le hk.le
    rw [le_div_iff₀ (by exact_mod_cast hb)] at h
    exact_mod_cast le_roundEven hb (by exact_mod_cast h)

theorem roundEven_le_intCast {a b : Nat} {k : ℤ} (hb : 0 < b) (h : (a / b : ℚ) ≤ k) :
    roundEven a b ≤ k := by
  have hk : (0 : ℚ) ≤ k := le_trans (by positivity) h
  obtain ⟨n, rfl⟩ := Int.eq_ofNat_of_zero_le (by exact_mod_cast hk)
  rw [div_le_iff₀ (by exact_mod_cast hb)] at h
  exact_mod_cast roundEven_le hb (by exact_mod_cast h)

/-- A double of the nearest count of units is what the number is rounded to. -/
theorem rounds_of_units {a b : Nat} {e : Int} {x : Binary64} (hb : 0 < b) (he : -1074 ≤ e)
    (hunit : (4503599627370496 : ℚ) ≤ a / b ∨ e = -1074) (hfinite : x.isFinite = true)
    (hx : x.toRat = roundEven a b * 2 ^ e) : Rounds (a / b * 2 ^ e) x := by
  have hpow : (0 : ℚ) < 2 ^ e := by positivity
  -- Where the grid is finer than the unit, the number and its count are past that part of it.
  have hfull : -1074 < e → (4503599627370496 : ℚ) ≤ a / b := fun hlt =>
    hunit.resolve_right hlt.ne'
  refine ⟨hfinite, ?_, ?_, ?_⟩
  · intro y hy hle
    rw [hx]
    rcases hy.inUnits (e := e) with ⟨k, rfl⟩ | ⟨hlt, habs⟩
    · have hk := intCast_le_roundEven hb (le_of_mul_le_mul_right hle hpow)
      exact mul_le_mul_of_nonneg_right (by exact_mod_cast hk) hpow.le
    · have hk := intCast_le_roundEven (k := 4503599627370496) hb (by exact_mod_cast hfull hlt)
      have hkq : (4503599627370496 : ℚ) ≤ roundEven a b := by exact_mod_cast hk
      exact ((le_abs_self y).trans habs).trans (mul_le_mul_of_nonneg_right hkq hpow.le)
  · intro y hy hge
    rw [hx]
    rcases hy.inUnits (e := e) with ⟨k, rfl⟩ | ⟨hlt, habs⟩
    · have hk := roundEven_le_intCast hb (le_of_mul_le_mul_right hge hpow)
      exact mul_le_mul_of_nonneg_right (by exact_mod_cast hk) hpow.le
    · have hhigh := (hge.trans (le_abs_self y)).trans habs
      have hk := roundEven_le_intCast (k := 4503599627370496) hb
        (by exact_mod_cast le_of_mul_le_mul_right hhigh hpow)
      have hkq : (roundEven a b : ℚ) ≤ 4503599627370496 := by exact_mod_cast hk
      exact (mul_le_mul_of_nonneg_right (hkq.trans (hfull hlt)) hpow.le).trans hge
  · have hnear := mul_le_mul_of_nonneg_right (roundEven_near a hb) hpow.le
    rw [hx, ← sub_mul, abs_mul, abs_mul, abs_of_pos hpow,
      abs_of_nonneg (by positivity : (0 : ℚ) ≤ a / b)]
    rcases hunit with hfull | rfl
    · have hq := mul_le_mul_of_nonneg_right hfull hpow.le
      have hleast := halfLeast_pos
      linarith
    · have hleast : (2 : ℚ) ^ (-1074 : ℤ) = 2 ^ (-1075 : ℤ) * 2 := by
        rw [← zpow_add_one₀ (by norm_num)]
        rfl
      have hq : (0 : ℚ) ≤ a / b * 2 ^ (-1074 : ℤ) / 2 ^ 53 := by positivity
      rw [halfLeast]
      linarith

theorem toRat_pack {m : Nat} {e : Int} (h : Canonical m e) :
    (pack false m e).isFinite = true ∧ (pack false m e).toRat = m * 2 ^ e := by
  rw [pack, dif_pos h, toRat_finite]
  exact ⟨rfl, by simp [coefficient]⟩

theorem largest_lt {t : ℚ} {e : Int} (he : 971 ≤ e) (ht : 9007199254740991 < t) :
    largest < t * 2 ^ e := by
  have hmono : (2 : ℚ) ^ (971 : ℤ) ≤ 2 ^ e := zpow_le_zpow_right₀ (by norm_num) he
  rw [largest]
  exact mul_lt_mul ht hmono (by positivity) (by linarith)

/-- A quotient is rounded to a finite double unless it is past the largest one. -/
theorem round_cases (a : Nat) {b : Nat} (hb : 0 < b) :
    Rounds (a / b) (round false a b) ∨
      (round false a b = .infinity false ∧ largest < a / b) := by
  by_cases ha : a = 0
  · refine .inl ⟨?_, ?_, ?_, ?_⟩ <;> simp [round, ha, halfLeast_pos.le]
  obtain ⟨he, hhigh, hunit⟩ := lastPlace_spec ha hb.ne'
  have hpow : (0 : ℚ) < 2 ^ lastPlace a b := by positivity
  have hd := inUnits_pos a hb (lastPlace a b)
  have hq : (a / b : ℚ) = (inUnits a b (lastPlace a b)).1 / (inUnits a b (lastPlace a b)).2 *
      2 ^ lastPlace a b := by
    rw [inUnits_eq]
    field_simp
  rw [round, if_neg ha]
  dsimp only
  rw [hq] at hhigh hunit ⊢
  generalize lastPlace a b = e at *
  generalize (inUnits a b e).1 = c at *
  generalize (inUnits a b e).2 = d at *
  have hunit' : (4503599627370496 : ℚ) ≤ c / d ∨ e = -1074 :=
    hunit.imp_left fun h => le_of_mul_le_mul_right h hpow
  have hle := roundEven_le_intCast (k := 9007199254740992) hd
    (by exact_mod_cast (lt_of_mul_lt_mul_right hhigh hpow.le).le)
  have hge : 4503599627370496 ≤ roundEven c d ∨ e = -1074 := hunit'.imp_left fun h => by
    exact_mod_cast intCast_le_roundEven (k := 4503599627370496) hd (by exact_mod_cast h)
  -- Rounding in units of the last place can carry into the next power of two.
  by_cases hm : roundEven c d < 9007199254740992
  · rw [if_pos hm]
    by_cases hmax : e ≤ 971
    · obtain ⟨hfinite, hvalue⟩ := toRat_pack ⟨hm, he, hmax, hge⟩
      exact .inl (rounds_of_units hd he hunit' hfinite hvalue)
    · refine .inr ⟨dif_neg fun h => hmax h.2.2.1, ?_⟩
      have hfull := hunit'.resolve_right (by omega)
      rw [show e = e - 1 + (1 : Nat) by omega, two_zpow_add, ← mul_assoc]
      exact largest_lt (by omega) (by linarith)
  · rw [if_neg hm]
    have hcarry : roundEven c d = 9007199254740992 := by omega
    by_cases hmax : e + 1 ≤ 971
    · obtain ⟨hfinite, hvalue⟩ := toRat_pack (m := 4503599627370496) (e := e + 1)
        ⟨by omega, by omega, hmax, .inl le_rfl⟩
      refine .inl (rounds_of_units hd he hunit' hfinite ?_)
      rw [hvalue, hcarry, zpow_add_one₀ (by norm_num)]
      push_cast
      ring
    · refine .inr ⟨dif_neg fun h => hmax h.2.2.1, ?_⟩
      have hnear := (abs_le.mp (roundEven_near c hd)).2
      rw [hcarry, Nat.cast_ofNat] at hnear
      exact largest_lt (by omega) (by linarith)

end WagerLedger.Binary64

import WagerLedger.Number.Decimal.Text
import WagerLedger.Proofs.Text.Digits

/-! # Decimals are read back

The text of a decimal shows its sign, its digits and every place of its scale. A reader meets at
most as many digits as fit, and at most as many places as a scale has, so it neither rounds nor
stops before the end. -/
namespace WagerLedger.Decimal

open Digits

variable {negative : Bool} {m s : Nat} {ds rest : List Char} {c : Char}

theorem ne_of_isDigit {d : Char} (hc : c.isDigit = true) (hd : d.isDigit = false) : c ≠ d := by
  rintro rfl
  exact Bool.false_ne_true (hd.symm.trans hc)

theorem readFrom_digit (r : Reading) (hc : c.isDigit = true) (hs : r.scale < maxScale)
    (hm : 10 * r.magnitude + value c < limit) (cs : List Char) :
    readFrom negative r (c :: cs) =
      readFrom negative ⟨10 * r.magnitude + value c, if r.point then r.scale + 1 else 0, r.point,
        true⟩ cs := by
  have hfault : fault? r.point r.digit c = none := by rw [fault?, if_pos hc]
  rw [readFrom, hfault]
  dsimp only
  rw [if_neg (ne_of_isDigit hc (by decide)), if_neg (ne_of_isDigit hc (by decide)),
    if_pos ⟨hs, hm⟩]

theorem readFrom_whole (hds : IsRun ds) (hm : m * 10 ^ ds.length + toNat ds < limit) :
    readFrom negative ⟨m, 0, false, true⟩ (ds ++ rest) =
      readFrom negative ⟨m * 10 ^ ds.length + toNat ds, 0, false, true⟩ rest := by
  induction ds generalizing m with
  | nil =>
    rw [List.nil_append, List.length_nil, Nat.pow_zero, Nat.mul_one]
    rfl
  | cons c ds ih =>
    rw [extend_eq] at hm ⊢
    have hnext : 10 * m + value c < limit := lt_of_le_of_lt (le_extend _ _ _) hm
    have hspace : 0 < maxScale := by decide
    rw [List.cons_append, readFrom_digit _ hds.head hspace hnext]
    exact ih hds.tail hm

theorem readFrom_fraction (hds : IsRun ds) (hs : s + ds.length ≤ maxScale)
    (hm : m * 10 ^ ds.length + toNat ds < limit) :
    readFrom negative ⟨m, s, true, true⟩ (ds ++ rest) =
      readFrom negative ⟨m * 10 ^ ds.length + toNat ds, s + ds.length, true, true⟩ rest := by
  induction ds generalizing m s with
  | nil =>
    rw [List.nil_append, List.length_nil, Nat.pow_zero, Nat.mul_one]
    rfl
  | cons c ds ih =>
    rw [extend_eq] at hm ⊢
    rw [List.length_cons, ← Nat.succ_add_eq_add_succ] at hs ⊢
    have hnext : 10 * m + value c < limit := lt_of_le_of_lt (le_extend _ _ _) hm
    have hspace : s < maxScale := by omega
    rw [List.cons_append, readFrom_digit _ hds.head hspace hnext]
    exact ih hds.tail hs hm

/-- Digits with a point among them are read as their number at the scale of its places. -/
theorem readFrom_pointed (hm : m < limit) (hs : s ≤ maxScale) :
    readFrom negative ⟨0, 0, false, false⟩ (pointed m s) = ofMagnitude negative m s := by
  obtain ⟨whole, fraction, hwhole, hfraction, hne, hlength, hnat, heq⟩ := pointed_eq m s
  obtain ⟨c, ds, rfl⟩ := List.exists_cons_of_ne_nil hne
  have hsplit : toNat (c :: ds) * 10 ^ fraction.length + toNat fraction = m := by
    rw [← toNat_append, hnat]
  have hwhole_lt : 0 * 10 ^ (c :: ds).length + toNat (c :: ds) < limit := by
    rw [Nat.zero_mul, Nat.zero_add]
    exact lt_of_le_of_lt (le_extend _ _ _) (hsplit ▸ hm)
  rw [extend_eq] at hwhole_lt
  have hfirst : 10 * 0 + value c < limit := lt_of_le_of_lt (le_extend _ _ _) hwhole_lt
  have hspace : 0 < maxScale := by decide
  have hstart : ∀ rest, readFrom negative ⟨0, 0, false, false⟩ (c :: ds ++ rest) =
      readFrom negative ⟨toNat (c :: ds), 0, false, true⟩ rest := by
    intro rest
    rw [List.cons_append, readFrom_digit _ hwhole.head hspace hfirst]
    refine (readFrom_whole hwhole.tail hwhole_lt).trans ?_
    rw [← extend_eq, Nat.zero_mul, Nat.zero_add]
  rw [heq, hstart]
  by_cases hzero : s = 0
  · rw [if_pos hzero]
    rw [hzero] at hlength
    rw [List.length_eq_zero_iff.mp hlength, List.length_nil, Nat.pow_zero, Nat.mul_one] at hsplit
    rw [readFrom, if_pos rfl, hzero, ← hsplit]
    rfl
  · have hpoint : fault? false true '.' = none := rfl
    rw [if_neg hzero, readFrom, hpoint]
    dsimp only
    rw [if_pos rfl, ← List.append_nil fraction]
    refine (readFrom_fraction hfraction (by omega) (hsplit.symm ▸ hm)).trans ?_
    rw [hsplit, Nat.zero_add, hlength, readFrom, if_pos rfl]

theorem ofParts?_self {d : Decimal} (hd : d.minusZero = false) :
    ofParts? d.coefficient d.scale = some d := by
  obtain ⟨coefficient, scale, minusZero, hlt, hle, hzero⟩ := d
  obtain rfl : minusZero = false := hd
  exact dif_pos ⟨hlt, hle⟩

theorem signed_natAbs (c : Int) : signed (decide (c < 0)) c.natAbs = c := by
  unfold signed
  split
  · rename_i hneg
    have hlt := of_decide_eq_true hneg
    omega
  · rename_i hneg
    have hle : ¬c < 0 := fun hlt => hneg (decide_eq_true hlt)
    omega

theorem ofMagnitude_eq {d : Decimal} (hd : d.minusZero = false) :
    ofMagnitude d.isNegative d.coefficient.natAbs d.scale = .ok d := by
  rw [ofMagnitude, isNegative, signed_natAbs, ofParts?_self hd]

theorem readPlain_unsigned (hc : c.isDigit = true) (ds : List Char) :
    readPlain (c :: ds) = readFrom false ⟨0, 0, false, false⟩ (c :: ds) := by
  unfold readPlain
  split
  · rename_i heq
    cases heq
  · rename_i heq
    cases heq
    exact absurd hc Bool.false_ne_true
  · rename_i heq
    cases heq
    exact absurd hc Bool.false_ne_true
  · rfl

theorem ofChars_chars {d : Decimal} (hd : d.minusZero = false) : ofChars d.chars = .ok d := by
  have hread : ∀ negative, readFrom negative ⟨0, 0, false, false⟩
      (pointed d.coefficient.natAbs d.scale) =
        ofMagnitude negative d.coefficient.natAbs d.scale :=
    fun _ => readFrom_pointed d.coefficient_lt d.scale_le
  have hplain : readPlain d.chars = .ok d := by
    rw [chars, hd, Bool.or_false, ← ofMagnitude_eq hd]
    cases hneg : d.isNegative with
    | true => exact hread true
    | false =>
      obtain ⟨whole, fraction, hwhole, -, hne, -, -, heq⟩ :=
        pointed_eq d.coefficient.natAbs d.scale
      obtain ⟨c, ds, rfl⟩ := List.exists_cons_of_ne_nil hne
      have hfirst := readPlain_unsigned hwhole.head
        (ds ++ if d.scale = 0 then [] else '.' :: fraction)
      rw [← List.cons_append, ← heq] at hfirst
      exact hfirst.trans (hread false)
  rw [ofChars, hplain]

end WagerLedger.Decimal

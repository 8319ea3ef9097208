import WagerLedger.Date.Text
import WagerLedger.Proofs.Text.Digits

/-! # Moments are read back

In the years of four digits the text of a moment has a fixed form up to its fraction. Each field
is a run of as many digits as a reader takes at most, and the fraction ends at the mark of
universal time, so every field is read as the number that was written. -/
namespace WagerLedger.Timestamp

open Digits

variable {ds rest : List Char} {c : Char} {most n : Nat}

theorem isBlank_of_isDigit (hc : c.isDigit = true) : isBlank c = false := by
  have hdigit : 48 ≤ c.toNat ∧ c.toNat ≤ 57 := by
    rw [Char.isDigit, Bool.and_eq_true, decide_eq_true_iff, decide_eq_true_iff] at hc
    exact hc
  simp only [isBlank, CharClass.has, blanks, List.any_cons, List.any_nil, Bool.or_false,
    Bool.or_eq_false_iff, decide_eq_false_iff_not]
  omega

theorem trimLeft_cons (hc : isBlank c = false) (rest : List Char) :
    trimLeft (c :: rest) = c :: rest := by
  rw [trimLeft, List.dropWhile_cons_of_neg]
  rw [hc]
  exact Bool.false_ne_true

theorem expect_cons (hc : isBlank c = false) (rest : List Char) :
    expect c (c :: rest) = some rest := by
  rw [expect, trimLeft_cons hc]
  exact if_pos rfl

/-- A run that a reader may not take all of, or behind which no digit follows. -/
theorem readDigits_run (hds : IsRun ds) (hne : ds ≠ []) (hmost : ds.length ≤ most)
    (hrest : ds.length = most ∨ Ends rest) :
    readDigits most (ds ++ rest) = some (toNat ds, rest) := by
  have hends : Ends (rest.take (most - ds.length)) := by
    rcases hrest with hfull | hrest
    · rw [hfull, Nat.sub_self, List.take_zero]
      exact ends_nil
    · intro d hd
      refine hrest d ?_
      cases rest with
      | nil => rw [List.take_nil] at hd; exact hd
      | cons e rest =>
        cases hk : most - ds.length with
        | zero =>
          rw [hk, List.take_zero] at hd
          cases hd
        | succ k =>
          rw [hk, List.take_succ_cons] at hd
          exact hd
  have htake : ((ds ++ rest).take most).takeWhile Char.isDigit = ds := by
    rw [List.take_append, List.take_of_length_le hmost]
    exact takeWhile_run hds hends
  have hnonempty : ¬ds.isEmpty = true := fun hempty => hne (List.isEmpty_iff.mp hempty)
  rw [readDigits, htake, if_neg hnonempty, List.drop_left]

theorem readDigits_padded {width : Nat} (hwidth : 0 < width) (hn : n < 10 ^ width)
    (rest : List Char) : readDigits width (padded width n ++ rest) = some (n, rest) := by
  have hlength := length_padded hwidth hn
  rw [readDigits_run (isRun_padded width n) (padded_ne_nil width n) hlength.le (.inl hlength),
    toNat_padded]

theorem trimLeft_padded (width n : Nat) (rest : List Char) :
    trimLeft (padded width n ++ rest) = padded width n ++ rest := by
  obtain ⟨d, ds, hds, hd⟩ := exists_padded width n
  rw [hds, List.cons_append, trimLeft_cons (isBlank_of_isDigit hd)]

theorem readField_padded (hn : n < 100) (rest : List Char) :
    readField 2 (padded 2 n ++ rest) = some (n, rest) := by
  rw [readField, trimLeft_padded, readDigits_padded (by decide) hn]

theorem readYear_padded {y : Nat} (hy : y < 10000) (rest : List Char) :
    readYear (padded 4 y ++ rest) = some ((y : Int), rest) := by
  obtain ⟨d, ds, hds, hd⟩ := exists_padded 4 y
  have hread : readDigits 4 (padded 4 y ++ rest) = some (y, rest) :=
    readDigits_padded (by decide) hy rest
  rw [readYear, trimLeft_padded]
  rw [hds, List.cons_append] at hread ⊢
  split
  · rename_i heq
    cases heq
    exact absurd hd Bool.false_ne_true
  · rename_i heq
    cases heq
    exact absurd hd Bool.false_ne_true
  · rw [hread]
    rfl

theorem ofParts?_self (d : Date) : Date.ofParts? d.year d.month d.day = some d :=
  dif_pos ⟨d.month_mem, d.day_mem⟩

theorem day_lt (d : Date) : d.day < 100 := by
  have hday := d.day_mem.2
  unfold daysInMonth at hday
  split at hday
  · split at hday <;> omega
  · split at hday <;> omega

theorem readDate_written {d : Date} (hyear : 0 ≤ d.year ∧ d.year ≤ 9999) (rest : List Char) :
    readDate (yearText d.year ++ '-' :: (padded 2 d.month ++ '-' :: (padded 2 d.day ++ rest))) =
      some (d, rest) := by
  have hmonth := d.month_mem.2
  have hcast : (d.year.toNat : Int) = d.year := Int.toNat_of_nonneg hyear.1
  rw [yearText, if_pos hyear, readDate, readYear_padded (by omega), hcast]
  simp only [Option.bind_eq_bind, Option.bind_some, expect_cons (c := '-') rfl,
    readField_padded (by omega : d.month < 100), readField_padded (day_lt d), ofParts?_self]
  rfl

theorem readFraction_point {q : Nat} {width : Nat} (hwidth : 0 < width) (hle : width ≤ 9)
    (hq : q < 10 ^ width) (hrest : Ends rest) :
    readFraction ('.' :: padded width q ++ rest) = some (q * 10 ^ (9 - width), rest) := by
  have hlength := length_padded hwidth hq
  have hrun := isRun_padded width q
  rw [List.cons_append, readFraction,
    readDigits_run hrun (padded_ne_nil width q) (hlength.le.trans hle) (.inr hrest), toNat_padded]
  simp only [Option.bind_eq_bind, Option.bind_some, takeWhile_run hrun hrest,
    dropWhile_run hrun hrest, hlength, Nat.min_eq_right hle]
  rfl

/-- The places that are left out are zeros. -/
theorem readFraction_written (hn : n < 1000000000) (hrest : Ends rest)
    (hpoint : ∀ r, rest ≠ '.' :: r) :
    readFraction (fractionText n ++ rest) = some (n, rest) := by
  unfold fractionText
  split
  · rename_i hzero
    rw [hzero, List.nil_append]
    unfold readFraction
    split
    · rename_i r
      exact absurd rfl (hpoint r)
    · rfl
  · split
    · rename_i hmod
      rw [readFraction_point (by decide) (by decide) (by omega) hrest]
      refine congrArg (fun k => some (k, rest)) ?_
      omega
    · split
      · rename_i hmod
        rw [readFraction_point (by decide) (by decide) (by omega) hrest]
        refine congrArg (fun k => some (k, rest)) ?_
        omega
      · rw [readFraction_point (by decide) (by decide) hn hrest, Nat.sub_self, Nat.pow_zero,
          Nat.mul_one]

theorem readTime_written {h m s : Nat} (hh : h < 24) (hm : m < 60) (hs : s < 60)
    (hn : n < 1000000000) (hrest : Ends rest) (hpoint : ∀ r, rest ≠ '.' :: r) :
    readTime (padded 2 h ++ ':' :: (padded 2 m ++ ':' :: (padded 2 s ++
      (fractionText n ++ rest)))) = some (h * 3600 + m * 60 + s, n, rest) := by
  rw [readTime, readField_padded (by omega)]
  simp only [Option.bind_eq_bind, Option.bind_some, expect_cons (c := ':') rfl,
    readField_padded (by omega : m < 100), readField_padded (by omega : s < 100),
    readFraction_written hn hrest hpoint]
  rw [if_pos ⟨hh, hm, hs.le⟩, if_neg hs.ne]
  rfl

/-- A moment of a year of four digits that is no leap second. -/
structure IsPlain (t : Timestamp) : Prop where
  year_mem : 1 ≤ t.date.year ∧ t.date.year ≤ 9999
  nanos_lt : t.nanos < 1000000000

theorem ofLocal?_self {t : Timestamp} (hrange : inRange t.date = true) :
    ofLocal? t.date t.second t.nanos 0 = some t := by
  have hsecond := t.second_lt
  have hday : ¬(86400 : Int) ≤ (t.second : Int) - 0 := by omega
  have hpast : ¬(t.second : Int) - 0 < 0 := by omega
  have hsame : ((t.second : Int) - 0).toNat = t.second := by omega
  rw [ofLocal?, if_neg hpast, if_neg hday]
  simp only [Option.bind_eq_bind, Option.bind_some, hsame]
  rw [if_pos hrange]
  exact dif_pos ⟨t.second_lt, t.nanos_lt⟩

theorem chars_eq {t : Timestamp} (ht : t.IsPlain) :
    t.chars = yearText t.date.year ++ '-' :: (padded 2 t.date.month ++
      '-' :: (padded 2 t.date.day ++ 'T' :: (padded 2 (t.second / 3600) ++
        ':' :: (padded 2 (t.second / 60 % 60) ++ ':' :: (padded 2 (t.second % 60) ++
          (fractionText t.nanos ++ ['Z'])))))) := by
  simp only [chars, Nat.div_eq_of_lt ht.nanos_lt, Nat.add_zero, Nat.mod_eq_of_lt ht.nanos_lt,
    List.append_assoc, List.cons_append]

theorem readTime_second {t : Timestamp} (ht : t.IsPlain) :
    readTime (padded 2 (t.second / 3600) ++ ':' :: (padded 2 (t.second / 60 % 60) ++
      ':' :: (padded 2 (t.second % 60) ++ (fractionText t.nanos ++ ['Z'])))) =
        some (t.second, t.nanos, ['Z']) := by
  have hsecond := t.second_lt
  have hrest : Ends ['Z'] := ends_cons (by decide)
  have hpoint : ∀ r, ['Z'] ≠ '.' :: r := by
    intro r heq
    cases heq
  have hsum : t.second / 3600 * 3600 + t.second / 60 % 60 * 60 + t.second % 60 = t.second := by
    omega
  have hread := readTime_written (by omega : t.second / 3600 < 24)
    (Nat.mod_lt (t.second / 60) (by decide)) (Nat.mod_lt t.second (by decide)) ht.nanos_lt hrest
    hpoint
  rwa [hsum] at hread

theorem ofChars?_chars {t : Timestamp} (ht : t.IsPlain) : ofChars? t.chars = some t := by
  have hyear := ht.year_mem
  have hrange : inRange t.date = true := by
    rw [inRange, decide_eq_true_iff, firstYear, lastYear]
    omega
  have hmark : Option.any isDateEnd (some 'T') = true := rfl
  have hoffset : readOffset (trimLeft ['Z']) = some (0, []) := rfl
  have hend : ((trimLeft []).isEmpty && decide ((0 : Int).natAbs < 86400) &&
      inRange t.date) = true := by
    rw [hrange]
    rfl
  rw [chars_eq ht, ofChars?, readDate_written (by omega)]
  simp only [Option.bind_eq_bind, Option.bind_some, List.head?_cons, List.drop_succ_cons,
    List.drop_zero, readTime_second ht]
  rw [if_pos hmark, hoffset, Option.bind_some, if_pos hend]
  exact ofLocal?_self hrange

end WagerLedger.Timestamp

import WagerLedger.Proofs.Text.Digits
import WagerLedger.Wire.Value

/-! # Numbers and texts of an object are read back

Every text is read back from its quoted form, whatever has to be escaped in it, and every whole
number from its digits, which end where a value of an object ends. -/
namespace WagerLedger.Wire

open Digits

variable {c : Char} {cs rest : List Char}

namespace Value

theorem exists_four {ds : List Char} (h : ds.length = 4) : ∃ a b c d, ds = [a, b, c, d] := by
  obtain ⟨a, ds, rfl⟩ := List.exists_cons_of_length_eq_add_one h
  obtain ⟨b, ds, rfl⟩ := List.exists_cons_of_length_eq_add_one (Nat.succ.inj h)
  obtain ⟨c, ds, rfl⟩ := List.exists_cons_of_length_eq_add_one (Nat.succ.inj (Nat.succ.inj h))
  obtain ⟨d, ds, rfl⟩ :=
    List.exists_cons_of_length_eq_add_one (Nat.succ.inj (Nat.succ.inj (Nat.succ.inj h)))
  refine ⟨a, b, c, d, ?_⟩
  simp only [List.length_cons] at h
  rw [List.length_eq_zero_iff.mp (by omega : ds.length = 0)]

def consUnit (c : Char) (p : List TextUnit × List Char) : List TextUnit × List Char :=
  (.char c :: p.1, p.2)

theorem readUnits_short {mark : Char} (h : shortEscape? mark = some c) (hu : mark ≠ 'u') :
    readUnits ('\\' :: mark :: rest) = (readUnits rest).map (consUnit c) := by
  rw [readUnits]
  · rw [h]
    cases readUnits rest <;> rfl
  · intro a b c d cs heq
    exact fun _ => hu heq

theorem readUnits_code {a b c d : Char} {n : Nat} (h : hexNat? [a, b, c, d] = some n)
    (hn : n < 0xD800) (rest : List Char) :
    readUnits ('\\' :: 'u' :: a :: b :: c :: d :: rest) =
      (readUnits rest).map (consUnit (Char.ofNat n)) := by
  have hunit : unitOf n = .char (Char.ofNat n) := if_neg fun hmem => by omega
  rw [readUnits, h]
  cases readUnits rest with
  | none => rfl
  | some p => exact congrArg (fun u => some (u :: p.1, p.2)) hunit

theorem readUnits_plain (hquote : c ≠ '"') (hslash : c ≠ '\\') (hlow : ¬c.toNat < 32) :
    readUnits (c :: rest) = (readUnits rest).map (consUnit c) := by
  have hplain : ¬(c = '\\' ∨ c.toNat < 32) := fun h => h.elim hslash hlow
  rw [readUnits]
  · rw [if_neg hplain]
    cases readUnits rest <;> rfl
  · exact fun heq => hquote heq
  · intro a b c d cs heq
    exact fun _ => hslash heq
  · intro c cs heq
    exact fun _ => hslash heq

theorem ofNat_eq {n : Nat} (h : c.toNat = n) : Char.ofNat n = c := h ▸ c.ofNat_toNat

/-- A character is read back from how it is escaped. -/
theorem readUnits_escape (c : Char) (rest : List Char) :
    readUnits (escape c ++ rest) = (readUnits rest).map (consUnit c) := by
  unfold escape
  split_ifs with hquote hslash hline hreturn htab hback hfeed hlow
  · subst hquote
    exact readUnits_short rfl (by decide)
  · subst hslash
    exact readUnits_short rfl (by decide)
  · subst hline
    exact readUnits_short rfl (by decide)
  · subst hreturn
    exact readUnits_short rfl (by decide)
  · subst htab
    exact readUnits_short rfl (by decide)
  · exact readUnits_short (congrArg some (ofNat_eq hback)) (by decide)
  · exact readUnits_short (congrArg some (ofNat_eq hfeed)) (by decide)
  · have hlength : (hex 4 c.toNat).length = 4 := length_hex (by decide) (by omega)
    have hcode := hexNat?_hex 4 c.toNat
    obtain ⟨x, y, z, w, heq⟩ := exists_four hlength
    rw [heq] at hcode ⊢
    have hread := readUnits_code hcode (by omega) rest
    rwa [c.ofNat_toNat] at hread
  · exact readUnits_plain hquote hslash hlow

theorem readUnits_written (s rest : List Char) :
    readUnits (s.flatMap escape ++ '"' :: rest) = some (s.map .char, rest) := by
  induction s with
  | nil => rfl
  | cons c s ih =>
    rw [List.flatMap_cons, List.append_assoc, readUnits_escape, ih]
    rfl

theorem joinUnits_chars (s : List Char) : joinUnits (s.map .char) = some s := by
  induction s with
  | nil => rfl
  | cons c s ih =>
    rw [List.map_cons, joinUnits, ih]
    rfl

theorem readText_written (s rest : List Char) :
    readText (s.flatMap escape ++ '"' :: rest) = some (some (String.ofList s), rest) := by
  rw [readText, readUnits_written, Option.map_some]
  dsimp only
  rw [joinUnits_chars, Option.map_some]

def Follows (rest : List Char) : Prop := ∃ c r, rest = c :: r ∧ (c = ',' ∨ c = '\x7d')

theorem Follows.ends (h : Follows rest) : Ends rest := by
  obtain ⟨c, r, rfl, rfl | rfl⟩ := h
  · exact ends_cons (by decide)
  · exact ends_cons (by decide)

theorem readPlaces_follows (h : Follows rest) : readPlaces rest = some ([], rest) := by
  obtain ⟨c, r, rfl, rfl | rfl⟩ := h
  · rfl
  · rfl

theorem readExponent_follows (h : Follows rest) : readExponent rest = some (none, rest) := by
  obtain ⟨c, r, rfl, rfl | rfl⟩ := h
  · rfl
  · rfl

theorem readWhole_written (n : Nat) (h : Follows rest) :
    readWhole (ofNat n ++ rest) = some (ofNat n, rest) := by
  have htake := takeWhile_run (isRun_ofNat n) h.ends
  have hdrop := dropWhile_run (isRun_ofNat n) h.ends
  unfold readWhole
  split
  · rename_i r heq
    obtain ⟨d, ds, hds, -⟩ := exists_ofNat n
    rw [hds, List.cons_append] at heq
    obtain ⟨rfl, rfl⟩ := List.cons.inj heq
    rw [hds, ofNat_eq_zero_cons hds]
    rfl
  · dsimp only
    rw [htake, hdrop]
    exact if_neg fun hempty => Nat.toDigits_ne_nil (List.isEmpty_iff.mp hempty)

theorem readUnsigned_written (negative : Bool) (n : Nat) (h : Follows rest) :
    (do
      let (whole, r) ← readWhole (ofNat n ++ rest)
      let (places, r) ← readPlaces r
      let (exponent, r) ← readExponent r
      return (Numeral.mk negative whole places exponent, r)) =
        some (⟨negative, ofNat n, [], none⟩, rest) := by
  rw [readWhole_written n h]
  simp only [Option.bind_eq_bind, Option.bind_some, readPlaces_follows h, readExponent_follows h]
  rfl

theorem chars_ofInt (k : Int) :
    (Numeral.ofInt k).chars = (if k < 0 then ['-'] else []) ++ ofNat k.natAbs := by
  simp [Numeral.chars, Numeral.ofInt]

def isStart (c : Char) : Bool := c == '-' || c.isDigit

theorem exists_chars (k : Int) :
    ∃ c cs, (Numeral.ofInt k).chars = c :: cs ∧ isStart c = true := by
  obtain ⟨d, ds, hds, hd⟩ := exists_ofNat k.natAbs
  rw [chars_ofInt, hds]
  split
  · exact ⟨'-', d :: ds, rfl, rfl⟩
  · refine ⟨d, ds, rfl, ?_⟩
    rw [isStart, hd, Bool.or_true]

theorem readNumeral_written (k : Int) (h : Follows rest) :
    readNumeral ((Numeral.ofInt k).chars ++ rest) = some (Numeral.ofInt k, rest) := by
  rw [chars_ofInt, Numeral.ofInt]
  by_cases hk : k < 0
  · rw [if_pos hk, decide_eq_true hk]
    exact readUnsigned_written true _ h
  · rw [if_neg hk, decide_eq_false hk, List.nil_append, readNumeral]
    · exact readUnsigned_written false _ h
    · obtain ⟨d, ds, hds, hd⟩ := exists_ofNat k.natAbs
      rintro r heq
      rw [hds, List.cons_append] at heq
      cases heq
      exact Bool.false_ne_true hd

theorem gather_run {largest m : Nat} {ds : List Char}
    (h : m * 10 ^ ds.length + toNat ds ≤ largest) :
    Numeral.gather largest m ds = (m * 10 ^ ds.length + toNat ds, []) := by
  induction ds generalizing m with
  | nil =>
    rw [List.length_nil, Nat.pow_zero, Nat.mul_one]
    rfl
  | cons c ds ih =>
    rw [extend_eq] at h ⊢
    rw [Numeral.gather, if_pos ((le_extend _ _ _).trans h)]
    exact ih h

theorem toWhole?_ofInt {k : Int} (hlow : -9223372036854775808 ≤ k)
    (hhigh : k ≤ Numeral.largestWord) : (Numeral.ofInt k).toWhole? = some k := by
  have hle : 0 * 10 ^ (ofNat k.natAbs).length + toNat (ofNat k.natAbs) ≤ Numeral.largestWord := by
    rw [Nat.zero_mul, Nat.zero_add, toNat_ofNat]
    change k ≤ (18446744073709551615 : Int) at hhigh
    change k.natAbs ≤ 18446744073709551615
    omega
  have hgather := gather_run hle
  rw [Nat.zero_mul, Nat.zero_add, toNat_ofNat] at hgather
  have hplain : ((Numeral.ofInt k).places.isEmpty && (Numeral.ofInt k).exponent.isNone) = true :=
    rfl
  rw [Numeral.toWhole?, if_pos hplain, Numeral.ofInt, hgather]
  dsimp only
  by_cases hk : k < 0
  · have hsmall : ¬(k.natAbs = 0 ∨ 9223372036854775808 < k.natAbs) := by omega
    have hsame : -(k.natAbs : Int) = k := by omega
    rw [decide_eq_true hk, Bool.not_true, if_neg Bool.false_ne_true, if_neg hsmall, hsame]
  · have hsame : (k.natAbs : Int) = k := by omega
    rw [decide_eq_false hk, Bool.not_false, if_pos rfl, hsame]

end Value

end WagerLedger.Wire

import Mathlib.Data.Nat.Basic
import Mathlib.Tactic.Ring
import WagerLedger.Text.Digits

/-! # Runs of digits are read back

A number that is written in base ten or sixteen, with zeros in front or with a point among its
digits, is the number that its run of digits stands for. A reader that takes all digits in front
of a text takes just such a run, where no digit follows it. -/
namespace WagerLedger.Digits

def IsRun (ds : List Char) : Prop := ∀ c ∈ ds, c.isDigit = true

def Ends (rest : List Char) : Prop := ∀ c ∈ rest.head?, c.isDigit = false

variable {ds es rest : List Char} {m n width places : Nat} {c : Char}

theorem IsRun.head (h : IsRun (c :: ds)) : c.isDigit = true := h c List.mem_cons_self

theorem IsRun.tail (h : IsRun (c :: ds)) : IsRun ds :=
  fun d hd => h d (List.mem_cons_of_mem c hd)

theorem IsRun.exists_cons (h : IsRun ds) (hne : ds ≠ []) :
    ∃ d es, ds = d :: es ∧ d.isDigit = true := by
  obtain ⟨d, es, rfl⟩ := List.exists_cons_of_ne_nil hne
  exact ⟨d, es, rfl, h.head⟩

theorem IsRun.append (hds : IsRun ds) (hes : IsRun es) : IsRun (ds ++ es) := by
  intro c hc
  rcases List.mem_append.mp hc with hc | hc
  · exact hds c hc
  · exact hes c hc

theorem IsRun.take (hds : IsRun ds) (k : Nat) : IsRun (ds.take k) :=
  fun c hc => hds c (List.mem_of_mem_take hc)

theorem IsRun.drop (hds : IsRun ds) (k : Nat) : IsRun (ds.drop k) :=
  fun c hc => hds c (List.mem_of_mem_drop hc)

theorem toNat_append (ds es : List Char) :
    toNat (ds ++ es) = toNat ds * 10 ^ es.length + toNat es := by
  rw [toNat, Nat.ofDigitChars_append, Nat.ofDigitChars_eq_ofDigitChars_zero, Nat.mul_comm]
  rfl

theorem toNat_cons (c : Char) (cs : List Char) :
    toNat (c :: cs) = value c * 10 ^ cs.length + toNat cs := by
  have hone : toNat [c] = value c := by
    rw [toNat, Nat.ofDigitChars_cons, Nat.ofDigitChars_nil, Nat.mul_zero, Nat.zero_add, value]
  rw [← List.singleton_append, toNat_append, hone]

theorem extend_eq (m : Nat) (c : Char) (ds : List Char) :
    m * 10 ^ (c :: ds).length + toNat (c :: ds) =
      (10 * m + value c) * 10 ^ ds.length + toNat ds := by
  rw [toNat_cons, List.length_cons]
  ring

theorem le_extend (m k n : Nat) : m ≤ m * 10 ^ k + n :=
  (Nat.le_mul_of_pos_right m (Nat.pow_pos (by decide))).trans (Nat.le_add_right _ n)

theorem value_lt (hc : c.isDigit = true) : value c < 10 := by
  rw [Char.isDigit, Bool.and_eq_true, decide_eq_true_iff, decide_eq_true_iff] at hc
  have hle : c.toNat ≤ 57 := hc.2
  change c.toNat - 48 < 10
  omega

theorem toNat_lt (hds : IsRun ds) : toNat ds < 10 ^ ds.length := by
  induction ds with
  | nil => decide
  | cons c ds ih =>
    have hvalue := value_lt hds.head
    have hrest := ih hds.tail
    have hle : (value c + 1) * 10 ^ ds.length ≤ 10 * 10 ^ ds.length :=
      Nat.mul_le_mul_right _ hvalue
    rw [toNat_cons, List.length_cons, Nat.pow_succ]
    rw [Nat.add_mul, Nat.one_mul] at hle
    omega

theorem toNat_ofNat (n : Nat) : toNat (ofNat n) = n := Nat.ofDigitChars_ten_toDigits

theorem isRun_ofNat (n : Nat) : IsRun (ofNat n) :=
  fun _ hc => Nat.isDigit_of_mem_toDigits (by decide) (by decide) hc

theorem exists_ofNat (n : Nat) : ∃ d ds, ofNat n = d :: ds ∧ d.isDigit = true :=
  (isRun_ofNat n).exists_cons Nat.toDigits_ne_nil

theorem ofNat_eq_zero_cons (h : ofNat n = '0' :: ds) : ds = [] := by
  by_contra hds
  have hrun := h ▸ isRun_ofNat n
  have hsame : toNat ds = n := by
    have hcons := toNat_cons '0' ds
    rwa [← h, toNat_ofNat, show value '0' = 0 from rfl, Nat.zero_mul, Nat.zero_add,
      eq_comm] at hcons
  have hlt : n < 10 ^ ds.length := hsame ▸ toNat_lt hrun.tail
  have hle := (Nat.length_toDigits_le_iff (by decide) (List.length_pos_iff.mpr hds)).mpr hlt
  rw [← ofNat, h, List.length_cons] at hle
  omega

theorem isRun_replicate (k : Nat) : IsRun (List.replicate k '0') := by
  intro c hc
  rw [List.eq_of_mem_replicate hc]
  decide

theorem isRun_padded (width n : Nat) : IsRun (padded width n) :=
  (isRun_replicate _).append (isRun_ofNat n)

theorem toNat_padded (width n : Nat) : toNat (padded width n) = n := by
  have hzeros : ∀ k, toNat (List.replicate k '0') = 0 := fun k => by
    rw [toNat, Nat.ofDigitChars_replicate_zero, Nat.mul_zero]
  rw [padded, toNat_append, hzeros, Nat.zero_mul, Nat.zero_add, toNat_ofNat]

theorem padded_ne_nil (width n : Nat) : padded width n ≠ [] :=
  List.append_ne_nil_of_right_ne_nil _ Nat.toDigits_ne_nil

theorem exists_padded (width n : Nat) :
    ∃ d ds, padded width n = d :: ds ∧ d.isDigit = true :=
  (isRun_padded width n).exists_cons (padded_ne_nil width n)

theorem le_length_padded (width n : Nat) : width ≤ (padded width n).length := by
  rw [padded, List.length_append, List.length_replicate]
  omega

theorem length_padded (hwidth : 0 < width) (h : n < 10 ^ width) :
    (padded width n).length = width := by
  have hle : (ofNat n).length ≤ width := (Nat.length_toDigits_le_iff (by decide) hwidth).mpr h
  rw [padded, List.length_append, List.length_replicate, Nat.sub_add_cancel hle]

/-- A point stands among the digits: those in front of it, of which there is at least one, and
those behind it, as many as there are places. -/
theorem pointed_eq (m places : Nat) :
    ∃ whole fraction, IsRun whole ∧ IsRun fraction ∧ whole ≠ [] ∧ fraction.length = places ∧
      toNat (whole ++ fraction) = m ∧
      pointed m places = whole ++ if places = 0 then [] else '.' :: fraction := by
  by_cases hplaces : places = 0
  · subst hplaces
    refine ⟨ofNat m, [], isRun_ofNat m, ?_, Nat.toDigits_ne_nil, rfl, ?_, ?_⟩
    · intro c hc
      cases hc
    · rw [List.append_nil, toNat_ofNat]
    · rw [pointed, if_pos rfl, if_pos rfl, List.append_nil]
  · let ds := padded (places + 1) m
    have hrun : IsRun ds := isRun_padded _ m
    have hlength : places + 1 ≤ ds.length := le_length_padded _ m
    refine ⟨ds.take (ds.length - places), ds.drop (ds.length - places), hrun.take _, hrun.drop _,
      ?_, ?_, ?_, ?_⟩
    · intro hnil
      have hzero := congrArg List.length hnil
      rw [List.length_take, List.length_nil] at hzero
      omega
    · rw [List.length_drop]
      omega
    · rw [List.take_append_drop, toNat_padded]
    · rw [pointed, if_neg hplaces, if_neg hplaces]

theorem ends_nil : Ends [] := by
  intro c hc
  cases hc

theorem Ends.not_isDigit (h : Ends (c :: rest)) : ¬c.isDigit = true := by
  rw [h c rfl]
  exact Bool.false_ne_true

theorem ends_cons (hc : c.isDigit = false) : Ends (c :: rest) := by
  intro d hd
  cases hd
  exact hc

theorem takeWhile_run (hds : IsRun ds) (hrest : Ends rest) :
    (ds ++ rest).takeWhile Char.isDigit = ds := by
  have hnone : rest.takeWhile Char.isDigit = [] := by
    cases rest with
    | nil => rfl
    | cons c cs => exact List.takeWhile_cons_of_neg hrest.not_isDigit
  rw [List.takeWhile_append_of_pos hds, hnone, List.append_nil]

theorem dropWhile_run (hds : IsRun ds) (hrest : Ends rest) :
    (ds ++ rest).dropWhile Char.isDigit = rest := by
  rw [List.dropWhile_append_of_pos hds]
  cases rest with
  | nil => rfl
  | cons c cs => exact List.dropWhile_cons_of_neg hrest.not_isDigit

theorem hexValue?_digitChar (h : n < 16) : hexValue? n.digitChar = some n := by
  have hall : ∀ k : Fin 16, hexValue? (Nat.digitChar k) = some k.val := by decide
  exact hall ⟨n, h⟩

theorem hexNat?_append (ds es : List Char) :
    hexNat? (ds ++ es) =
      hexNat? ds >>= fun n => es.foldlM (fun n c => (hexValue? c).map (16 * n + ·)) n :=
  List.foldlM_append

theorem hexNat?_concat (h : hexNat? ds = some m) (hn : n < 16) :
    hexNat? (ds ++ [n.digitChar]) = some (16 * m + n) := by
  rw [hexNat?_append, h, Option.bind_eq_bind, Option.bind_some, List.foldlM_cons,
    hexValue?_digitChar hn]
  rfl

theorem hexNat?_toDigits (n : Nat) : hexNat? (Nat.toDigits 16 n) = some n := by
  induction n using Nat.strongRecOn with
  | ind n ih =>
    by_cases hn : n < 16
    · rw [Nat.toDigits_of_lt_base hn]
      have hone : hexNat? ([] ++ [n.digitChar]) = some (16 * 0 + n) := hexNat?_concat rfl hn
      rwa [Nat.mul_zero, Nat.zero_add] at hone
    · have hlast := hexNat?_concat (ih (n / 16) (by omega)) (Nat.mod_lt n (by decide))
      rwa [← Nat.toDigits_of_base_le (by decide) (not_lt.mp hn), Nat.div_add_mod] at hlast

theorem hexNat?_replicate (k : Nat) : hexNat? (List.replicate k '0') = some 0 := by
  induction k with
  | zero => rfl
  | succ k ih => exact List.replicate_succ' ▸ hexNat?_concat (n := 0) ih (by decide)

theorem hexNat?_hex (width n : Nat) : hexNat? (hex width n) = some n := by
  rw [hex, hexNat?_append, hexNat?_replicate, Option.bind_eq_bind, Option.bind_some]
  exact hexNat?_toDigits n

theorem length_hex (hwidth : 0 < width) (h : n < 16 ^ width) : (hex width n).length = width := by
  have hle : (Nat.toDigits 16 n).length ≤ width :=
    (Nat.length_toDigits_le_iff (by decide) hwidth).mpr h
  rw [hex, List.length_append, List.length_replicate, Nat.sub_add_cancel hle]

theorem mem_toDigits {b : Nat} (hb : 1 < b) (hc : c ∈ Nat.toDigits b n) :
    ∃ d < b, c = d.digitChar := by
  induction n using Nat.strongRecOn with
  | ind n ih =>
    rw [Nat.toDigits_eq_if hb] at hc
    split at hc
    · rename_i hn
      exact ⟨n, hn, List.mem_singleton.mp hc⟩
    · rename_i hn
      rcases List.mem_append.mp hc with hc | hc
      · exact ih (n / b) (Nat.div_lt_self (by omega) hb) hc
      · exact ⟨n % b, Nat.mod_lt n (by omega), List.mem_singleton.mp hc⟩

theorem mem_hex (hc : c ∈ hex width n) : ∃ d < 16, c = d.digitChar := by
  rcases List.mem_append.mp hc with hc | hc
  · exact ⟨0, by decide, List.eq_of_mem_replicate hc⟩
  · exact mem_toDigits (by decide) hc

end WagerLedger.Digits

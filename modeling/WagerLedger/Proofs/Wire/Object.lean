import WagerLedger.Proofs.Wire.Scalar

/-! # Objects are read back

A written object is read as its members in their order, each with its name and its value. -/
namespace WagerLedger.Wire.Value

variable {c : Char} {cs rest : List Char} {fuel : Nat}

def Scalar.value : Scalar → Value
  | .number n => .number (Numeral.ofInt n)
  | .text s => .text (some (String.ofList s))

def written (ms : List (String × Scalar)) : List (Option String × Value) :=
  ms.map fun m => (some m.1, m.2.value)

theorem skip_cons (hc : isSpace c = false) (cs : List Char) : skip (c :: cs) = c :: cs := by
  rw [skip, List.dropWhile_cons_of_neg]
  rw [hc]
  exact Bool.false_ne_true

theorem quoted_append (s rest : List Char) :
    quoted s ++ rest = '"' :: (s.flatMap escape ++ '"' :: rest) := by
  rw [quoted, List.append_assoc, List.cons_append, List.singleton_append]

theorem read_text (s rest : List Char) :
    read (fuel + 1) (quoted s ++ rest) = some (.text (some (String.ofList s)), rest) := by
  have hread : ∀ r, read (fuel + 1) ('"' :: r) =
      (readText r).map fun p => (.text p.1, p.2) := by
    intro r
    rw [read, skip_cons rfl]
    rfl
  rw [quoted_append, hread, readText_written, Option.map_some]

theorem isSpace_of_isStart (hc : isStart c = true) : isSpace c = false := by
  rw [Bool.eq_false_iff]
  intro hspace
  simp only [isSpace, Bool.or_eq_true, beq_iff_eq] at hspace
  obtain ((rfl | rfl) | rfl) | rfl := hspace
  all_goals exact absurd hc (by decide)

theorem read_number (k : Int) (h : Follows rest) :
    read (fuel + 1) ((Numeral.ofInt k).chars ++ rest) =
      some (.number (Numeral.ofInt k), rest) := by
  have hread := readNumeral_written k h
  obtain ⟨c, cs, hchars, hc⟩ := exists_chars k
  rw [hchars, List.cons_append] at hread ⊢
  rw [read, skip_cons (isSpace_of_isStart hc)]
  split
  case h_7 => rw [hread, Option.map_some]
  -- No other value begins as a number does.
  all_goals
    rename_i heq
    obtain ⟨rfl, -⟩ := List.cons.inj heq
    exact absurd hc (by decide)

theorem read_scalar (v : Scalar) (h : Follows rest) :
    read (fuel + 1) (v.chars ++ rest) = some (v.value, rest) := by
  cases v with
  | number n => exact read_number n h
  | text s => exact read_text s rest

theorem readMembers_member (m : String × Scalar) (h : Follows rest) :
    readMembers (fuel + 2) (memberChars m ++ rest) =
      match skip rest with
      | '\x7d' :: r => some ([(some m.1, m.2.value)], r)
      | ',' :: r => (readMembers (fuel + 1) r).map fun p => ((some m.1, m.2.value) :: p.1, p.2)
      | _ => none := by
  have hchars : memberChars m ++ rest =
      '"' :: (m.1.toList.flatMap escape ++ '"' :: ':' :: (m.2.chars ++ rest)) := by
    rw [memberChars, List.append_assoc, quoted_append, List.cons_append]
  rw [hchars, readMembers, skip_cons rfl]
  change (readText _ >>= _) = _
  rw [readText_written, String.ofList_toList, Option.bind_eq_bind, Option.bind_some]
  dsimp only
  rw [skip_cons rfl]
  change (read (fuel + 1) (m.2.chars ++ rest) >>= _) = _
  rw [read_scalar m.2 h, Option.bind_eq_bind, Option.bind_some]
  obtain ⟨c, r, rfl, rfl | rfl⟩ := h
  · rw [skip_cons rfl]
    change (readMembers (fuel + 1) r >>= _) = (readMembers (fuel + 1) r).map _
    cases readMembers (fuel + 1) r <;> rfl
  · rfl

theorem follows_comma (rest : List Char) : Follows (',' :: rest) := ⟨',', rest, rfl, .inl rfl⟩

theorem follows_end (rest : List Char) : Follows ('\x7d' :: rest) := ⟨'\x7d', rest, rfl, .inr rfl⟩

theorem members_cons (m n : String × Scalar) (ms : List (String × Scalar)) :
    [','].intercalate ((m :: n :: ms).map memberChars) =
      memberChars m ++ ',' :: [','].intercalate ((n :: ms).map memberChars) := by
  rw [List.map_cons, List.map_cons, List.intercalate_cons_cons, List.append_assoc]
  rfl

theorem readMembers_written (m : String × Scalar) (ms : List (String × Scalar))
    (hfuel : ms.length + 2 ≤ fuel) (rest : List Char) :
    readMembers fuel ([','].intercalate ((m :: ms).map memberChars) ++ '\x7d' :: rest) =
      some (written (m :: ms), rest) := by
  induction ms generalizing m fuel with
  | nil =>
    obtain ⟨fuel, rfl⟩ : ∃ k, fuel = k + 2 := Nat.exists_eq_add_of_le' hfuel
    rw [List.map_singleton, List.intercalate_singleton, readMembers_member m (follows_end rest),
      skip_cons rfl]
    rfl
  | cons n ms ih =>
    obtain ⟨fuel, rfl⟩ := Nat.exists_eq_add_of_le' (le_trans (Nat.le_add_left 2 _) hfuel)
    rw [members_cons, List.append_assoc, List.cons_append, readMembers_member m (follows_comma _),
      skip_cons rfl]
    rw [List.length_cons] at hfuel
    change (readMembers (fuel + 1) _).map _ = _
    rw [ih n (by omega)]
    rfl

theorem length_le_members (ms : List (String × Scalar)) :
    ms.length ≤ ([','].intercalate (ms.map memberChars)).length := by
  induction ms with
  | nil => exact Nat.zero_le _
  | cons m ms ih =>
    cases ms with
    | nil =>
      rw [List.map_singleton, List.intercalate_singleton, List.length_singleton, memberChars,
        List.length_append, List.length_cons]
      omega
    | cons n ms =>
      rw [members_cons, List.length_append, List.length_cons, List.length_cons (a := ',')]
      omega

theorem exists_members (m : String × Scalar) (ms : List (String × Scalar)) :
    ∃ cs, [','].intercalate ((m :: ms).map memberChars) = '"' :: cs := by
  cases ms with
  | nil =>
    rw [List.map_singleton, List.intercalate_singleton]
    exact ⟨_, quoted_append _ _⟩
  | cons n ms =>
    rw [members_cons, memberChars, List.append_assoc]
    exact ⟨_, quoted_append _ _⟩

theorem read_object (ms : List (String × Scalar)) (hfuel : ms.length + 1 ≤ fuel)
    (rest : List Char) :
    read (fuel + 1) (objectChars ms ++ rest) = some (.object (written ms), rest) := by
  have hchars : objectChars ms ++ rest =
      '\x7b' :: ([','].intercalate (ms.map memberChars) ++ '\x7d' :: rest) := by
    rw [objectChars, List.append_assoc, List.cons_append, List.singleton_append]
  rw [hchars]
  cases ms with
  | nil => rfl
  | cons m ms =>
    have hopen : ∀ cs, read (fuel + 1) ('\x7b' :: '"' :: cs) =
        (readMembers fuel ('"' :: cs)).map fun p => (.object p.1, p.2) := by
      intro cs
      rw [read, skip_cons rfl]
      rfl
    have hread := readMembers_written m ms hfuel rest
    obtain ⟨cs, hcs⟩ := exists_members m ms
    rw [hcs, List.cons_append] at hread ⊢
    rw [hopen, hread, Option.map_some]

theorem ofChars?_objectChars (ms : List (String × Scalar)) :
    ofChars? (objectChars ms) = some (.object (written ms)) := by
  have hlength := length_le_members ms
  have hfuel : ms.length + 1 ≤ 2 * (objectChars ms).length + 1 := by
    rw [objectChars, List.length_append, List.length_cons, List.length_singleton]
    omega
  have hread := read_object ms hfuel []
  rw [List.append_nil] at hread
  rw [ofChars?, hread]
  rfl

end WagerLedger.Wire.Value

import WagerLedger.Identifier
import WagerLedger.Proofs.Text.Digits

/-! # Identifiers are read back

The grouped form of an identifier is one of the forms that are read, and stands for the same
number. -/
namespace WagerLedger.Identifier

variable {ds : List Char}

theorem groups_eq (ds : List Char) :
    ds.take 8 ++ ((ds.drop 8).take 4 ++ ((ds.drop 12).take 4 ++
      ((ds.drop 16).take 4 ++ ds.drop 20))) = ds := by
  have hgroup : ∀ k j, (ds.drop k).take j ++ ds.drop (k + j) = ds.drop k := by
    intro k j
    rw [← List.drop_drop, List.take_append_drop]
  rw [hgroup 16 4, hgroup 12 4, hgroup 8 4, List.take_append_drop]

theorem length_grouped (h : ds.length = 32) : (grouped ds).length = 36 := by
  simp only [grouped, List.length_append, List.length_cons, List.length_take, List.length_drop, h]
  decide

theorem filter_grouped (h : '-' ∉ ds) : (grouped ds).filter (· != '-') = ds := by
  have hkeep : ds.filter (· != '-') = ds := by
    refine List.filter_eq_self.mpr fun c hc => ?_
    rw [bne_iff_ne]
    rintro rfl
    exact h hc
  calc (grouped ds).filter (· != '-')
      = (ds.take 8 ++ ((ds.drop 8).take 4 ++ ((ds.drop 12).take 4 ++
          ((ds.drop 16).take 4 ++ ds.drop 20)))).filter (· != '-') := by
        simp [grouped, List.filter_append]
    _ = ds := by rw [groups_eq, hkeep]

theorem hyphens_grouped (h : ds.length = 32) :
    hyphens.all (fun i => (grouped ds)[i]? == some '-') = true := by
  simp [hyphens, grouped, List.getElem?_append, List.getElem?_cons, h]

theorem ofChars?_chars (u : Identifier) : ofChars? u.chars = some u := by
  have hlength : (Digits.hex 32 u.value).length = 32 := by
    refine Digits.length_hex (by decide) ?_
    have hvalue := u.value_lt
    omega
  have hhyphen : '-' ∉ Digits.hex 32 u.value := by
    intro hmem
    obtain ⟨d, hd, hdigit⟩ := Digits.mem_hex hmem
    exact Nat.digitChar_ne '-' (by decide) hdigit.symm
  have hgrouped := length_grouped hlength
  rw [chars, ofChars?, if_neg (by rw [hgrouped]; decide), if_pos hgrouped, readGrouped?,
    if_pos ⟨hgrouped, hyphens_grouped hlength⟩, filter_grouped hhyphen, readDigits?,
    if_pos hlength, Digits.hexNat?_hex, Option.bind_eq_bind, Option.bind_some]
  exact dif_pos u.value_lt

end WagerLedger.Identifier

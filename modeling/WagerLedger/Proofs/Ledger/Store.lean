import WagerLedger.Ledger.Store

/-! # What a fault leaves alone

A call that hits a fault comes back with the error of its point, before it has looked at the
ledger or the transaction. All that it changes is the window that it went through. -/
namespace WagerLedger

theorem DataCall.run_of_error {c : DataCall} {l : Ledger} {t : Transaction} {e : LedgerError}
    (h : (c.run l t).1 = .error e) : (c.run l t).2 = t := by
  cases c with
  | find ext => rfl
  | lockBalance id => rfl
  | list id limit => rfl
  | insert ext =>
    simp only [run, Transaction.insert] at h ⊢
    split at h
    · rfl
    · cases h
  | writeBalance id b =>
    simp only [run, Transaction.writeBalance] at h ⊢
    split at h
    · rfl
    · cases h
  | append s =>
    simp only [run, Transaction.append] at h ⊢
    split at h
    · rfl
    · cases h

theorem DataCall.run_ne_fault {c : DataCall} {l : Ledger} {t : Transaction} (p : FaultPoint) :
    (c.run l t).1 ≠ .error (Faults.error p) := by
  intro h
  cases c with
  | find ext => cases h
  | lockBalance id => cases h
  | list id limit => cases h
  | insert ext =>
    simp only [run, Transaction.insert] at h
    split at h <;> cases h
  | writeBalance id b =>
    simp only [run, Transaction.writeBalance] at h
    split at h <;> cases h
  | append s =>
    simp only [run, Transaction.append] at h
    split at h <;> cases h

theorem Faults.error_injective {p q : FaultPoint} (h : error p = error q) : p = q := by
  revert h
  cases p <;> cases q <;> decide

theorem Faults.pass_eq_true {w : FaultWindow} (h : (pass w).1 = true) :
    ∃ k, w = ⟨0, k + 1⟩ ∧ (pass w).2 = ⟨0, k⟩ := by
  obtain ⟨skip, remaining⟩ := w
  unfold pass at h ⊢
  dsimp only at h ⊢
  split at h
  · cases h
  · rename_i hleft
    split at h
    · rename_i hskip
      obtain ⟨k, rfl⟩ := Nat.exists_eq_succ_of_ne_zero hleft
      subst hskip
      exact ⟨k, rfl, by simp⟩
    · cases h

theorem Faults.visit_none (p : FaultPoint) : none.visit p = (.ok (), none) := by
  have hf : none.inject p 0 0 = none := by
    refine congrArg mk (funext fun q => ?_)
    split <;> rfl
  exact Prod.ext rfl hf

namespace Store

theorem visit_cases (s : Store) (p : FaultPoint) :
    (∃ f, s.visit p = (.error (Faults.error p), ⟨s.ledger, f⟩)) ∨
      ∃ f, s.visit p = (.ok (), ⟨s.ledger, f⟩) := by
  rcases hw : Faults.pass (s.faults.window p) with ⟨fails, win⟩
  have hv : s.visit p = (if fails then .error (Faults.error p) else .ok (),
      ⟨s.ledger, s.faults.inject p win.skip win.remaining⟩) := by
    rw [visit, Faults.visit, hw]
  cases fails with
  | true => exact .inl ⟨_, hv⟩
  | false => exact .inr ⟨_, hv⟩

/-- The injected fault of a point trips: its window has nothing left to skip, and one failure
fewer after it. -/
def Trips (s : Store) (p : FaultPoint) (s' : Store) : Prop :=
  ∃ k, s.faults.window p = ⟨0, k + 1⟩ ∧ s'.faults.window p = ⟨0, k⟩

theorem visit_trips {s : Store} {p : FaultPoint} {e : LedgerError}
    (h : (s.visit p).1 = .error e) : e = Faults.error p ∧ s.Trips p (s.visit p).2 := by
  have hfails : (Faults.pass (s.faults.window p)).1 = true := by
    unfold visit Faults.visit at h
    dsimp only at h
    split at h
    · assumption
    · cases h
  obtain ⟨k, hbefore, hafter⟩ := Faults.pass_eq_true hfails
  have herror : (s.visit p).1 = .error (Faults.error p) := by
    simp only [visit, Faults.visit, hfails, if_true]
  refine ⟨Except.error.inj (h.symm.trans herror), k, hbefore, ?_⟩
  simp only [visit, Faults.visit, Faults.inject, hafter, if_true]

theorem call_trips {s : Store} {t : Transaction} {c : DataCall} {p : FaultPoint}
    (h : (s.call t c).1 = .error (Faults.error p)) :
    c.point? = some p ∧ s.Trips p (s.call t c).2.2 := by
  unfold call at h ⊢
  cases hc : c.point? with
  | none =>
    rw [hc] at h
    exact (DataCall.run_ne_fault p h).elim
  | some q =>
    rw [hc] at h
    dsimp only [visit?] at h ⊢
    have htrips (e : LedgerError) (he : (s.visit q).1 = .error e) := visit_trips he
    rcases hv : s.visit q with ⟨⟨e⟩ | ⟨⟩, s'⟩
    · rw [hv] at h htrips
      cases h
      obtain ⟨heq, htrips⟩ := htrips _ rfl
      obtain rfl := Faults.error_injective heq
      exact ⟨rfl, htrips⟩
    · rw [hv] at h
      exact (DataCall.run_ne_fault p h).elim

theorem commit_trips {s : Store} {t : Transaction} {e : LedgerError}
    (h : (s.commit t).1 = .error e) : e = Faults.error .commit ∧ s.Trips .commit (s.commit t).2 := by
  unfold commit at h ⊢
  have htrips (e' : LedgerError) (he : (s.visit .commit).1 = .error e') := visit_trips he
  rcases hv : s.visit .commit with ⟨⟨e'⟩ | ⟨⟩, s'⟩
  · rw [hv] at h htrips
    exact htrips e h
  · rw [hv] at h
    cases h

theorem call_cases (s : Store) (t : Transaction) (c : DataCall) :
    (s.trips c = true ∧ ∃ p f, c.point? = some p ∧
        s.call t c = (.error (Faults.error p), t, ⟨s.ledger, f⟩)) ∨
      (s.trips c = false ∧
        ∃ f, s.call t c = ((c.run s.ledger t).1, (c.run s.ledger t).2, ⟨s.ledger, f⟩)) := by
  unfold call trips
  cases hp : c.point? with
  | none => exact .inr ⟨rfl, s.faults, rfl⟩
  | some p =>
    rcases s.visit_cases p with ⟨f, hv⟩ | ⟨f, hv⟩
    · exact .inl ⟨by rw [visit?, hv], p, f, rfl, by rw [visit?, hv]⟩
    · exact .inr ⟨by rw [visit?, hv], f, by rw [visit?, hv]⟩

/-- A call goes through the window of its own point only. -/
theorem trips_call (s : Store) (t : Transaction) {c d : DataCall} (h : c.point? ≠ d.point?) :
    (s.call t c).2.2.trips d = s.trips d := by
  have htrips : ∀ s : Store, s.trips d =
      (d.point?.map fun p => (Faults.pass (s.faults.window p)).1).getD false := by
    intro s
    unfold trips
    cases d.point? with
    | none => rfl
    | some p =>
      simp only [visit?, visit, Faults.visit, Option.map_some, Option.getD_some]
      cases (Faults.pass (s.faults.window p)).1 <;> rfl
  have hfaults : (s.call t c).2.2.faults = (s.visit? c.point?).2.faults := by
    unfold call
    rcases hv : s.visit? c.point? with ⟨⟨e⟩ | ⟨⟩, s'⟩ <;> rfl
  rw [htrips, htrips, hfaults]
  cases hd : d.point? with
  | none => rfl
  | some q =>
    cases hc : c.point? with
    | none => rfl
    | some p =>
      have hpq : q ≠ p := by
        rintro rfl
        exact h (hc.trans hd.symm)
      simp [visit?, visit, Faults.visit, Faults.inject, hpq]

theorem commit_cases (s : Store) (t : Transaction) :
    (∃ f, s.commit t = (.error (Faults.error .commit), ⟨s.ledger, f⟩)) ∨
      ∃ f, s.commit t = (.ok (), ⟨t.apply s.ledger, f⟩) := by
  unfold commit
  rcases s.visit_cases .commit with ⟨f, hv⟩ | ⟨f, hv⟩
  · exact .inl ⟨f, by rw [hv]⟩
  · exact .inr ⟨f, by rw [hv]⟩

theorem visit_quiet (l : Ledger) (p : FaultPoint) :
    visit ⟨l, .none⟩ p = (.ok (), ⟨l, .none⟩) := by
  rw [visit, Faults.visit_none]

theorem visit?_quiet (l : Ledger) (p : Option FaultPoint) :
    visit? ⟨l, .none⟩ p = (.ok (), ⟨l, .none⟩) := by
  cases p with
  | none => rfl
  | some p => exact visit_quiet l p

theorem call_quiet (l : Ledger) (t : Transaction) (c : DataCall) :
    call ⟨l, .none⟩ t c = ((c.run l t).1, (c.run l t).2, ⟨l, .none⟩) := by
  rw [call, visit?_quiet]

theorem trips_quiet (l : Ledger) (c : DataCall) : trips ⟨l, .none⟩ c = false := by
  rw [trips, visit?_quiet]

theorem commit_quiet (l : Ledger) (t : Transaction) :
    commit ⟨l, .none⟩ t = (.ok (), ⟨t.apply l, .none⟩) := by
  rw [commit, visit_quiet]

theorem rollback_ledger (s : Store) : s.rollback.2.ledger = s.ledger := by
  unfold rollback
  rcases s.visit_cases .rollback with ⟨f, hv⟩ | ⟨f, hv⟩ <;> rw [hv]

end Store

end WagerLedger

import WagerLedger.Proofs.World.Requests

/-! # Timers

A client has a timer only from the first step of a sleep to the step that ends it or gives it
up, and no other client changes it. -/
namespace WagerLedger

theorem Table.get?_remove {κ υ : Type} [DecidableEq κ] (t : Table κ υ) (k j : κ) :
    (t.remove k).get? j = if j = k then none else t.get? j := by
  obtain ⟨es⟩ := t
  change lookup j (es.filter (·.1 ≠ k)) = if j = k then none else lookup j es
  induction es with
  | nil => simp [lookup]
  | cons e rest ih =>
    obtain ⟨i, v⟩ := e
    by_cases hi : i = k
    · subst hi
      rw [List.filter_cons_of_neg (by simp), ih, lookup]
      by_cases hj : i = j
      · simp [hj]
      · simp [hj]
    · rw [List.filter_cons_of_pos (by simpa using hi), lookup, lookup, ih]
      by_cases hj : i = j
      · subst hj
        simp [hi]
      · simp [hj]

namespace World

variable {w : World} {i j : ClientId}

theorem timers_release (w : World) : w.release.timers = w.timers := by
  unfold release
  split <;> rfl

theorem timers_discard (w : World) (i : ClientId) : (w.discard i).timers = w.timers := by
  unfold discard
  split
  · exact w.timers_release
  · rfl

theorem timers_handOver (w : World) (i j : ClientId) : (w.handOver i j).2.timers = w.timers := by
  unfold handOver
  split <;> rfl

/-- Only sleeps set timers. -/
theorem timers_perform {r : Request} (hr : ∀ d, r ≠ .sleep d) (i : ClientId) :
    (w.perform i r).2.timers = w.timers := by
  cases r
  case sleep d => exact (hr d rfl).elim
  case acquire =>
    change (w.acquire i).2.timers = _
    unfold acquire
    split
    · rfl
    · split
      · rfl
      · split <;> rfl
  case data c =>
    change (w.data i c).2.timers = _
    unfold data
    split <;> rfl
  case commit =>
    change (w.commit i).2.timers = _
    unfold commit
    split
    · rfl
    · exact timers_release _
  case rollback =>
    change (w.rollback i).2.timers = _
    unfold rollback
    split
    · rfl
    · exact timers_release _
  case discard => exact w.timers_discard i
  case leave => exact w.timers_handOver i 0
  case takeUp => exact w.timers_handOver 0 i
  all_goals rfl

theorem sleep_cases (w : World) (i : ClientId) (d : Duration) :
    (((w.timers.get? i).getD (w.clock + d.sleepMillis) ≤ w.clock ∧
        (w.perform i (.sleep d)).1 = some ()) ∧
      (w.perform i (.sleep d)).2.timers = w.timers.remove i) ∨
    ((w.perform i (.sleep d)).1 = none ∧ (w.perform i (.sleep d)).2.timers =
      w.timers.put i ((w.timers.get? i).getD (w.clock + d.sleepMillis))) := by
  change _ ∨ ((w.sleep i d).1 = none ∧ _)
  unfold perform sleep
  dsimp only
  split
  · rename_i hdue
    exact .inl ⟨⟨hdue, rfl⟩, rfl⟩
  · exact .inr ⟨rfl, rfl⟩

theorem sleep_begins {d : Duration} (ht : w.timers.get? i = none) (hd : 0 < d.sleepMillis) :
    w.sleep i d = (none, { w with timers := w.timers.put i (w.clock + d.sleepMillis) }) := by
  unfold sleep
  dsimp only
  rw [ht, Option.getD_none]
  split
  · omega
  · rfl

theorem sleep_ends {due : Nat} (ht : w.timers.get? i = some due) (hdue : due ≤ w.clock)
    (d : Duration) : w.sleep i d = (some (), { w with timers := w.timers.remove i }) := by
  simp only [sleep, ht, Option.getD_some, if_pos hdue]

theorem timer_perform_other (hij : j ≠ i) (r : Request) :
    (w.perform i r).2.timers.get? j = w.timers.get? j := by
  by_cases hr : ∃ d, r = .sleep d
  · obtain ⟨d, rfl⟩ := hr
    rcases w.sleep_cases i d with ⟨-, ht⟩ | ⟨-, ht⟩
    · rw [ht, Table.get?_remove, if_neg hij]
    · rw [ht, Table.get?_put, if_neg hij]
  · rw [timers_perform fun d hd => hr ⟨d, hd⟩]

theorem timers_giveUp {r : Request} (hr : ∀ d, r ≠ .sleep d) (i : ClientId) :
    (w.giveUp i r).timers = w.timers := by
  cases r
  case sleep d => exact (hr d rfl).elim
  case acquire => exact timers_discard _ i
  all_goals rfl

theorem timer_giveUp_other (hij : j ≠ i) (r : Request) :
    (w.giveUp i r).timers.get? j = w.timers.get? j := by
  by_cases hr : ∃ d, r = .sleep d
  · obtain ⟨d, rfl⟩ := hr
    exact (Table.get?_remove _ _ _).trans (if_neg hij)
  · rw [timers_giveUp fun d hd => hr ⟨d, hd⟩]

theorem timer_leaveBehind_other (hij : j ≠ i) :
    (w.leaveBehind i).timers.get? j = w.timers.get? j := by
  rw [leaveBehind, timers_discard, Table.get?_remove, if_neg hij]

end World

end WagerLedger

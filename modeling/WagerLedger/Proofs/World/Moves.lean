import WagerLedger.Proofs.World.Requests

/-! # What one request does to the ledger and the open transaction

Of all that a request can change, the committed ledger and the transaction that is open are
changed in four ways only. What is kept by these is kept by every run, whoever holds the lock
and whoever it is handed to. -/
namespace WagerLedger

namespace World

/-- Nothing, or a new transaction, or another holder; a data call on the open transaction; the
open transaction applied; or an account created while nothing is staged. -/
inductive Moves (w w' : World) : Prop
  | keeps (ledger : w'.store.ledger = w.store.ledger)
      (staged : ∀ i t, w'.holder = some (i, t) → t = .empty ∨ ∃ j, w.holder = some (j, t))
  | calls (i : ClientId) (t : Transaction) (c : DataCall) (before : w.holder = some (i, t))
      (ledger : w'.store.ledger = w.store.ledger)
      (after : w'.holder = some (i, (c.run w.store.ledger t).2))
  | applies (i : ClientId) (t : Transaction) (before : w.holder = some (i, t))
      (ledger : w'.store.ledger = t.apply w.store.ledger)
      (after : ∀ j t', w'.holder = some (j, t') → t' = .empty)
  | seeds (i : ClientId) (ext : Identifier) (b : Decimal)
      (before : w.holder = some (i, .empty))
      (ledger : w'.store.ledger = (w.store.ledger.seed ext b).2) (after : w'.holder = w.holder)

variable {w w' : World}

theorem Moves.of_holder (hl : w'.store.ledger = w.store.ledger) (hh : w'.holder = w.holder) :
    w.Moves w' :=
  .keeps hl fun i _ ht => .inr ⟨i, hh.symm.trans ht⟩

theorem Moves.congr {w₀ : World} (h : w₀.Moves w') (hl : w₀.store.ledger = w.store.ledger)
    (hh : w₀.holder = w.holder) : w.Moves w' := by
  cases h with
  | keeps ledger staged => exact .keeps (ledger.trans hl) (hh ▸ staged)
  | calls i t c before ledger after =>
    exact .calls i t c (hh.symm.trans before) (ledger.trans hl) (hl ▸ after)
  | applies i t before ledger after =>
    exact .applies i t (hh.symm.trans before) (hl ▸ ledger) after
  | seeds i ext b before ledger after =>
    exact .seeds i ext b (hh.symm.trans before) (hl ▸ ledger) (after.trans hh)

theorem moves_release (w : World) : w.Moves w.release :=
  .keeps (congrArg Store.ledger w.release_store) fun i t ht => .inl ((release_frame w i).1 t ht).2

theorem moves_discard (w : World) (i : ClientId) : w.Moves (w.discard i) := by
  rcases discard_cases w i with ⟨t, -, hd⟩ | ⟨-, hd⟩
  · rw [hd]
    exact w.moves_release
  · rw [hd]
    exact .of_holder rfl rfl

theorem moves_acquire (w : World) (i : ClientId) : w.Moves (w.acquire i).2 := by
  unfold acquire
  split
  · refine .keeps rfl fun j t ht => ?_
    cases ht
    exact .inl rfl
  · split
    · exact .of_holder rfl rfl
    · split
      · exact .of_holder rfl rfl
      · exact .of_holder rfl rfl

theorem moves_handOver (w : World) (i j : ClientId) : w.Moves (w.handOver i j).2 := by
  unfold handOver
  split
  · rename_i t ht
    refine .keeps rfl fun k t' ht' => ?_
    cases ht'
    exact .inr ⟨i, transaction?_eq_some ht⟩
  · exact .of_holder rfl rfl

theorem moves_data (w : World) (i : ClientId) (c : DataCall) : w.Moves (w.data i c).2 := by
  unfold data
  split
  · exact .of_holder rfl rfl
  · rename_i t ht
    have hholder := transaction?_eq_some ht
    rcases w.store.call_cases t c with ⟨-, p, f, -, hc⟩ | ⟨-, f, hc⟩
    · rw [hc]
      exact .of_holder rfl hholder.symm
    · rw [hc]
      exact .calls i t c hholder rfl rfl

theorem moves_commit (w : World) (i : ClientId) : w.Moves (w.commit i).2 := by
  unfold commit
  split
  · exact .of_holder rfl rfl
  · rename_i t ht
    rcases w.store.commit_cases t with ⟨f, hc⟩ | ⟨f, hc⟩
    · rw [hc]
      exact (moves_release _).congr rfl rfl
    · rw [hc]
      refine .applies i t (transaction?_eq_some ht) (congrArg Store.ledger (release_store _)) ?_
      exact fun j t' ht' => ((release_frame _ j).1 t' ht').2

theorem moves_rollback (w : World) (i : ClientId) : w.Moves (w.rollback i).2 := by
  unfold rollback
  split
  · exact .of_holder rfl rfl
  · exact (moves_release _).congr w.store.rollback_ledger rfl

theorem moves_giveUp (w : World) (i : ClientId) (r : Request) : w.Moves (w.giveUp i r) := by
  cases r
  case acquire => exact (moves_discard _ i).congr rfl rfl
  all_goals exact .of_holder rfl rfl

theorem moves_leaveBehind (w : World) (i : ClientId) : w.Moves (w.leaveBehind i) :=
  (moves_discard _ i).congr rfl rfl

theorem moves_perform {φ : Nat → Phase} {waits : Nat → Prop} {n : Nat} (h : w.Agrees φ waits)
    {r : Request} {P : r.Answer → Phase → Prop} (hr : (φ n).Allows r P) :
    w.Moves (w.perform (n + 1) r).2 := by
  cases r
  case arrive =>
    change w.Moves { w with store := (w.store.visit .begin).2 }
    rcases w.store.visit_cases .begin with ⟨f, hv⟩ | ⟨f, hv⟩ <;> rw [hv]
    · exact .of_holder rfl rfl
    · exact .of_holder rfl rfl
  case acquire => exact w.moves_acquire (n + 1)
  case data c => exact w.moves_data (n + 1) c
  case commit => exact w.moves_commit (n + 1)
  case rollback => exact w.moves_rollback (n + 1)
  case discard => exact w.moves_discard (n + 1)
  case leave => exact w.moves_handOver (n + 1) 0
  case takeUp => exact w.moves_handOver 0 (n + 1)
  case seed ext b =>
    obtain ⟨l, hφ, -⟩ := hr
    exact .seeds (n + 1) ext b (h.holder_of_inside hφ).1 rfl rfl
  case sleep d => exact .of_holder (like_sleep w _ d).ledger (like_sleep w _ d).holder
  all_goals exact .of_holder rfl rfl

/-- Who holds the lock and the ledger are as they were. -/
structure Held (w w' : World) : Prop where
  holder : w'.holder = w.holder
  ledger : w'.store.ledger = w.store.ledger

variable {i j : ClientId} {t : Transaction}

theorem transaction?_of_ne (h : w.holder = some (j, t)) (hne : j ≠ i) :
    w.transaction? i = none := by
  rw [transaction?, h]
  exact if_neg hne

theorem held_discard (h : w.holder = some (j, t)) (hne : j ≠ i) : w.Held (w.discard i) := by
  rw [discard, transaction?_of_ne h hne]
  exact ⟨rfl, rfl⟩

theorem held_giveUp (h : w.holder = some (j, t)) (hne : j ≠ i) (r : Request) :
    w.Held (w.giveUp i r) := by
  cases r
  case acquire =>
    have hheld := held_discard (w := { w with queue := w.queue.erase i }) h hne
    exact ⟨hheld.holder, hheld.ledger⟩
  all_goals exact ⟨rfl, rfl⟩

theorem held_leaveBehind (h : w.holder = some (j, t)) (hne : j ≠ i) :
    w.Held (w.leaveBehind i) := by
  have hheld := held_discard
    (w := { w with queue := w.queue.erase i, timers := w.timers.remove i }) h hne
  exact ⟨hheld.holder, hheld.ledger⟩

/-- Those who do not have the lock change neither its holder nor the ledger; only a seed, which
is made with the lock, is not checked for it. -/
theorem held_perform (h : w.holder = some (j, t)) (hne : j ≠ i) (hj : j ≠ 0) {r : Request}
    (hr : ∀ ext b, r ≠ .seed ext b) : w.Held (w.perform i r).2 := by
  have hnone := transaction?_of_ne h hne
  -- Client `i` has no transaction, so its requests miss the one that `j` holds.
  cases r
  case arrive =>
    change w.Held { w with store := (w.store.visit .begin).2 }
    rcases w.store.visit_cases .begin with ⟨f, hv⟩ | ⟨f, hv⟩ <;> rw [hv]
    · exact ⟨rfl, rfl⟩
    · exact ⟨rfl, rfl⟩
  case acquire =>
    change w.Held (w.acquire i).2
    unfold acquire
    split
    · rename_i hfree
      rw [h] at hfree
      cases hfree
    · rename_i k t' hk
      rw [h] at hk
      cases hk
      rw [if_neg hne]
      split <;> exact ⟨rfl, rfl⟩
  case data c =>
    change w.Held (w.data i c).2
    rw [data, hnone]
    exact ⟨rfl, rfl⟩
  case commit =>
    change w.Held (w.commit i).2
    rw [commit, hnone]
    exact ⟨rfl, rfl⟩
  case rollback =>
    change w.Held (w.rollback i).2
    rw [rollback, hnone]
    exact ⟨rfl, rfl⟩
  case discard => exact held_discard h hne
  case leave =>
    change w.Held (w.handOver i 0).2
    rw [handOver, hnone]
    exact ⟨rfl, rfl⟩
  case takeUp =>
    change w.Held (w.handOver 0 i).2
    rw [handOver, transaction?_of_ne h hj]
    exact ⟨rfl, rfl⟩
  case seed ext b => exact (hr ext b rfl).elim
  case sleep d => exact ⟨(like_sleep w i d).holder, (like_sleep w i d).ledger⟩
  all_goals exact ⟨rfl, rfl⟩

end World

end WagerLedger

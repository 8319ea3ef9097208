import WagerLedger.Proofs.Session.Sleeping

/-! # One client alone

While one client is the only one that holds the lock, waits for it or sleeps, it stays so with
every request of it that does not leave its transaction to others; and it has a timer only
while it sleeps. So a client that has ended outside of any transaction leaves no trace of
itself but what it has committed. -/
namespace WagerLedger

namespace World

/-- Nobody but client `i` has the lock, waits for it or sleeps. -/
structure Lone (i : ClientId) (w : World) : Prop where
  holder : ∀ j t, w.holder = some (j, t) → j = i
  queue : ∀ j ∈ w.queue, j = i
  timers : ∀ j, j ≠ i → w.timers.get? j = none

variable {w : World} {i : ClientId} {r : Request}

theorem Lone.release (h : w.Lone i) : w.release.Lone i where
  holder j t ht := h.queue j ((w.release_frame j).1 t ht).1
  queue j hj := h.queue j ((w.release_frame j).2 hj)
  timers j hj := by rw [timers_release, h.timers j hj]

theorem Lone.discard (h : w.Lone i) : (w.discard i).Lone i := by
  rcases discard_cases w i with ⟨t, -, hd⟩ | ⟨-, hd⟩
  · rw [hd]
    exact h.release
  · rw [hd]
    exact h

theorem Lone.withStore (h : w.Lone i) (s : Store) : World.Lone i { w with store := s } :=
  ⟨h.holder, h.queue, h.timers⟩

theorem Lone.acquire (h : w.Lone i) : (w.acquire i).2.Lone i := by
  unfold World.acquire
  split
  · refine ⟨fun j t ht => ?_, h.queue, h.timers⟩
    cases ht
    rfl
  · split
    · exact h
    · dsimp only
      split
      · exact h
      · refine ⟨h.holder, fun j hj => ?_, h.timers⟩
        rcases List.mem_append.mp hj with hj | hj
        · exact h.queue j hj
        · exact List.mem_singleton.mp hj

theorem Lone.perform (h : w.Lone i) (hr : r ≠ .leave) : (w.perform i r).2.Lone i := by
  have htimers (j : ClientId) (hj : j ≠ i) : (w.perform i r).2.timers.get? j = none :=
    (timer_perform_other hj r).trans (h.timers j hj)
  by_cases hquiet : r.isQuiet = true
  · have hlike : w.Like (w.perform i r).2 := like_perform hquiet
    exact ⟨hlike.holder ▸ h.holder, hlike.queue ▸ h.queue, htimers⟩
  · cases r
    case acquire => exact h.acquire
    case data c =>
      change (w.data i c).2.Lone i
      unfold World.data
      split
      · exact h
      · refine ⟨fun j t ht => ?_, h.queue, h.timers⟩
        cases ht
        rfl
    case commit =>
      change (w.commit i).2.Lone i
      unfold World.commit
      split
      · exact h
      · exact (h.withStore _).release
    case rollback =>
      change (w.rollback i).2.Lone i
      unfold World.rollback
      split
      · exact h
      · exact (h.withStore _).release
    case discard => exact h.discard
    case leave => exact (hr rfl).elim
    case takeUp =>
      change (w.handOver 0 i).2.Lone i
      unfold handOver
      split
      · refine ⟨fun j t ht => ?_, h.queue, h.timers⟩
        cases ht
        rfl
      · exact h
    case seed ext b => exact h.withStore _
    all_goals exact (hquiet rfl).elim

theorem Lone.giveUp (h : w.Lone i) (r : Request) : (w.giveUp i r).Lone i := by
  by_cases hr : r = .acquire
  · subst hr
    have herase : World.Lone i { w with queue := w.queue.erase i } :=
      ⟨h.holder, fun j hj => h.queue j (List.mem_of_mem_erase hj), h.timers⟩
    exact herase.discard
  · have hlike : w.Like (w.giveUp i r) := giveUp_like hr
    exact ⟨hlike.holder ▸ h.holder, hlike.queue ▸ h.queue,
      fun j hj => (timer_giveUp_other hj r).trans (h.timers j hj)⟩

theorem Lone.leaveBehind (h : w.Lone i) : (w.leaveBehind i).Lone i := by
  have herase : World.Lone i
      { w with queue := w.queue.erase i, timers := w.timers.remove i } := by
    refine ⟨h.holder, fun j hj => h.queue j (List.mem_of_mem_erase hj), fun j hj => ?_⟩
    exact (Table.get?_remove _ _ _).trans ((if_neg hj).trans (h.timers j hj))
  exact herase.discard

end World

variable {σ ρ δ : Type}

def Task.Timed (t : Task σ ρ) (w : World) : Prop :=
  w.timers.get? t.client = none ∨ ∃ d, t.request? = some (.sleep d)

namespace Task.Timed

variable {t : Task σ ρ} {w : World} {d : δ} {next : Rounds σ ρ δ}

theorem none_of_request? (h : t.Timed w) (hr : ∀ d, t.request? ≠ some (.sleep d)) :
    w.timers.get? t.client = none :=
  h.resolve_right fun ⟨d, hd⟩ => hr d hd

theorem leaveBehind (i : ClientId) (w : World) : (w.leaveBehind i).timers.get? i = none := by
  rw [World.leaveBehind, World.timers_discard]
  exact (Table.get?_remove _ _ _).trans (if_pos rfl)

theorem drop (h : t.Timed w) : (t.drop w).1.Timed (t.drop w).2 := by
  unfold Task.drop
  split
  · exact h
  · exact .inl (leaveBehind t.client w)

theorem request {client limit : Nat} {p : Program (σ ⊕ ρ)} {r : Request}
    (hr : p.request? = some r) (h : Task.Timed (⟨client, limit, .inl p⟩ : Task σ ρ) w) :
    Task.Timed (((p.step client w).1.map fun p => (⟨client, limit, .inl p⟩ : Task σ ρ)).getD
      ⟨client, limit, .inl p⟩) (p.step client w).2 := by
  by_cases hsleep : ∃ d, r = .sleep d
  · obtain ⟨d, rfl⟩ := hsleep
    rcases Program.step_sleep hr with htimers | ⟨hnone, -⟩
    · cases (p.step client w).1 with
      | none => exact .inr ⟨d, hr⟩
      | some p' =>
        refine .inl ?_
        rw [htimers]
        exact (Table.get?_remove _ _ _).trans (if_pos rfl)
    · rw [hnone]
      exact .inr ⟨d, hr⟩
  · have hnone := h.none_of_request? fun d hd => hsleep ⟨d, Option.some.inj (hr.symm.trans hd)⟩
    refine .inl ?_
    rw [Program.step_timers hr fun d hd => hsleep ⟨d, hd⟩]
    cases (p.step client w).1 with
    | none => exact hnone
    | some p' => exact hnone

theorem step (h : t.Timed w) :
    ((t.step next w d).1.getD t).Timed (t.step next w d).2.1 := by
  obtain ⟨client, limit, state⟩ := t
  cases state with
  | inr e => exact h
  | inl p =>
    cases p with
    | done a =>
      have hnone := h.none_of_request? nofun
      cases a with
      | inl s => exact .inl hnone
      | inr r => exact .inl hnone
    | crash => exact .inl (leaveBehind client w)
    | ask r k => exact request rfl h
    | race c r k => exact request rfl h

end Task.Timed

end WagerLedger

import WagerLedger.Session.Scenario

/-! # What the scheduler does is a list of turns

The scheduler lets each task run as far as it comes, drops the tasks that are late and moves the
clock when all wait. All of this are turns, so what holds after every list of turns holds of the
runs that it makes. -/
namespace WagerLedger

namespace Tasks

variable {σ ρ δ : Type} {next : Rounds σ ρ δ} {s s' s'' : Tasks σ ρ δ} {w : World} {d : δ}
  {t : Task σ ρ} {before ts : List (Task σ ρ)} {n : Nat}

/-- The second state is the first one after some turns. -/
def Reaches (next : Rounds σ ρ δ) (s s' : Tasks σ ρ δ) : Prop :=
  ∃ us, s.turns next us = s'

theorem reaches_self (next : Rounds σ ρ δ) (s : Tasks σ ρ δ) : Reaches next s s := ⟨[], rfl⟩

theorem reaches_turn (next : Rounds σ ρ δ) (s : Tasks σ ρ δ) (u : Turn) :
    Reaches next s (s.turn next u) := ⟨[u], rfl⟩

theorem Reaches.trans (h : Reaches next s s') (h' : Reaches next s' s'') :
    Reaches next s s'' := by
  obtain ⟨us, rfl⟩ := h
  obtain ⟨vs, rfl⟩ := h'
  exact ⟨us ++ vs, List.foldl_append⟩

theorem stepAt_eq (next : Rounds σ ρ δ) (w : World) (d : δ) (t : Task σ ρ)
    (before ts : List (Task σ ρ)) :
    stepAt next ⟨w, d, before ++ t :: ts⟩ before.length =
      ⟨(t.step next w d).2.1, (t.step next w d).2.2,
        before ++ ((t.step next w d).1.getD t) :: ts⟩ := by
  simp [stepAt]

theorem dropAt_eq (hans : t.answer? w.clock = none) :
    dropAt (⟨w, d, before ++ t :: ts⟩ : Tasks σ ρ δ) before.length =
      ⟨(t.drop w).2, d, before ++ (t.drop w).1 :: ts⟩ := by
  simp [dropAt, hans]

theorem reaches_run {fuel : Nat} {moved moved' : Bool} {t' : Task σ ρ} {w' : World} {d' : δ}
    (h : t.run next fuel w d moved = (moved', t', w', d')) :
    Reaches next ⟨w, d, before ++ t :: ts⟩ ⟨w', d', before ++ t' :: ts⟩ := by
  induction fuel generalizing t w d moved with
  | zero =>
    cases h
    exact reaches_self next _
  | succ fuel ih =>
    have hstep := reaches_turn next ⟨w, d, before ++ t :: ts⟩ (.step before.length)
    rw [turn, stepAt_eq] at hstep
    rw [Task.run] at h
    split at h
    · rename_i heq
      rw [heq] at hstep
      exact hstep.trans (ih h)
    · rename_i heq
      rw [heq] at hstep
      cases h
      exact hstep

theorem reaches_late (next : Rounds σ ρ δ) (h : t.isLate w = true) :
    Reaches next (⟨w, d, before ++ t :: ts⟩ : Tasks σ ρ δ)
      ⟨(t.drop w).2, d, before ++ (t.drop w).1 :: ts⟩ := by
  have hans : t.answer? w.clock = none := by
    simp only [Task.isLate, Bool.and_eq_true, Option.isNone_iff_eq_none] at h
    exact h.1.2
  have hdrop := reaches_turn next ⟨w, d, before ++ t :: ts⟩ (.drop before.length)
  rwa [turn, dropAt_eq hans] at hdrop

theorem reaches_pass {moved : Bool} {w' : World} {d' : δ} {ts' : List (Task σ ρ)}
    (h : pass next w d ts = (moved, w', d', ts')) :
    Reaches next ⟨w, d, before ++ ts⟩ ⟨w', d', before ++ ts'⟩ := by
  induction ts generalizing w d before moved ts' with
  | nil =>
    cases h
    exact reaches_self next _
  | cons t ts ih =>
    rw [pass] at h
    rcases hrun : t.run next plenty w d false with ⟨ran, t₁, w₁, d₁⟩
    rw [hrun] at h
    have hran : Reaches next ⟨w, d, before ++ t :: ts⟩ ⟨w₁, d₁, before ++ t₁ :: ts⟩ :=
      reaches_run hrun
    have hdropped : ∃ t₂ w₂, (if t₁.isLate w₁ then t₁.drop w₁ else (t₁, w₁)) = (t₂, w₂) ∧
        Reaches next ⟨w₁, d₁, before ++ t₁ :: ts⟩ ⟨w₂, d₁, before ++ t₂ :: ts⟩ := by
      split
      · exact ⟨_, _, rfl, reaches_late next ‹_›⟩
      · exact ⟨_, _, rfl, reaches_self next _⟩
    obtain ⟨t₂, w₂, hlate, hdropped⟩ := hdropped
    dsimp only at h
    rw [hlate] at h
    rcases hrest : pass next w₂ d₁ ts with ⟨others, w₃, d₂, ts₂⟩
    simp only [hrest] at h
    cases h
    have hothers : Reaches next ⟨w₂, d₁, before ++ [t₂] ++ ts⟩ ⟨w', d', before ++ [t₂] ++ ts₂⟩ :=
      ih hrest
    rw [List.append_assoc, List.append_assoc] at hothers
    exact (hran.trans hdropped).trans hothers

theorem reaches_dropAll {w' : World} {ts' : List (Task σ ρ)} (h : dropAll w ts = (w', ts')) :
    Reaches next ⟨w, d, before ++ ts⟩ ⟨w', d, before ++ ts'⟩ := by
  induction ts generalizing w before ts' with
  | nil =>
    cases h
    exact reaches_self next _
  | cons t ts ih =>
    rw [dropAll] at h
    have hdropped : ∃ t₁ w₁, (if (t.answer? w.clock).isSome then (t, w) else t.drop w) = (t₁, w₁) ∧
        Reaches next ⟨w, d, before ++ t :: ts⟩ ⟨w₁, d, before ++ t₁ :: ts⟩ := by
      split
      · exact ⟨_, _, rfl, reaches_self next _⟩
      · rename_i hans
        have hdrop := reaches_turn next ⟨w, d, before ++ t :: ts⟩ (.drop before.length)
        rw [turn, dropAt_eq (Option.not_isSome_iff_eq_none.mp hans)] at hdrop
        exact ⟨_, _, rfl, hdrop⟩
    obtain ⟨t₁, w₁, hdrop, hdropped⟩ := hdropped
    rw [hdrop] at h
    rcases hrest : dropAll w₁ ts with ⟨w₂, ts₂⟩
    simp only [hrest] at h
    cases h
    have hothers : Reaches next ⟨w₁, d, before ++ [t₁] ++ ts⟩ ⟨w', d, before ++ [t₁] ++ ts₂⟩ :=
      ih hrest
    rw [List.append_assoc, List.append_assoc] at hothers
    exact hdropped.trans hothers

theorem reaches_alarm (next : Rounds σ ρ δ) (s : Tasks σ ρ δ) :
    Reaches next s { s with world := { s.world with clock := s.nextAlarm } } := by
  have hwait := reaches_turn next s (.wait (s.nextAlarm - s.world.clock))
  have hclock : s.world.clock + (s.nextAlarm - s.world.clock) = s.nextAlarm :=
    Nat.add_sub_cancel' (Nat.le_max_left _ _)
  rwa [turn, hclock] at hwait

/-- Whatever the scheduler does, its runs are lists of turns. -/
theorem reaches_runAll (next : Rounds σ ρ δ) (fuel : Nat) (s : Tasks σ ρ δ) :
    Reaches next s (s.runAll next fuel) := by
  induction fuel generalizing s with
  | zero =>
    have hdropped : Reaches next ⟨s.world, s.shared, [] ++ s.list⟩
        ⟨(dropAll s.world s.list).1, s.shared, [] ++ (dropAll s.world s.list).2⟩ :=
      reaches_dropAll rfl
    exact hdropped
  | succ fuel ih =>
    rcases hpass : pass next s.world s.shared s.list with ⟨moved, w, d, ts⟩
    have hpassed : Reaches next ⟨s.world, s.shared, [] ++ s.list⟩ ⟨w, d, [] ++ ts⟩ :=
      reaches_pass hpass
    rw [runAll, hpass]
    dsimp only
    split
    · exact hpassed
    · split
      · exact hpassed.trans (ih _)
      · exact (hpassed.trans (reaches_alarm next ⟨w, d, ts⟩)).trans (ih _)

end Tasks

theorem Session.exists_turns (s : Session) (ts : List (Duration × Operation)) :
    ∃ us, s.runTasks ts = Tasks.turns Session.rounds ⟨s.world, s.desk,
      ts.mapIdx fun n t => Session.task s.world.clock (n + 1) t.1 t.2⟩ us := by
  obtain ⟨us, hus⟩ := Tasks.reaches_runAll Session.rounds Tasks.plenty ⟨s.world, s.desk,
    ts.mapIdx fun n t => Session.task s.world.clock (n + 1) t.1 t.2⟩
  exact ⟨us, hus.symm⟩

/-- The calls of a scenario, run to their ends, are as after some turns. -/
theorem Scenario.exists_after (c : Scenario) (fuel : Nat) :
    ∃ us, c.start.runAll Session.rounds fuel = c.after us := by
  obtain ⟨us, hus⟩ := Tasks.reaches_runAll Session.rounds fuel c.start
  exact ⟨us, hus.symm⟩

end WagerLedger

import WagerLedger.Proofs.Session.Turns

/-! # Following one call

A call is followed from one moment of a run to a later one by what is left of its program. The
other calls and the clock go on between its steps, so the same program may come to different
ends; but a sequence of two programs is always run by running the first and then the second. -/
namespace WagerLedger

namespace Program

variable {α β : Type} {p : Program α} {f : α → Program β} {i : ClientId} {w : World}

theorem step_bind (hp : ∀ a, p ≠ done a) :
    ((p >>= f).step i w).1 = ((p.step i w).1).map (· >>= f) := by
  change ((p.bind f).step i w).1 = _
  cases p with
  | done a => exact (hp a rfl).elim
  | crash => rfl
  | ask r k =>
    change Option.map _ _ = Option.map _ (Option.map _ _)
    rw [Option.map_map]
    rfl
  | race c r k =>
    rw [bind, step_race, step_race]
    split
    · rfl
    · change Option.map _ _ = Option.map _ (Option.map _ _)
      rw [Option.map_map]
      rfl

theorem step_bind_world (hp : ∀ a, p ≠ done a) : ((p >>= f).step i w).2 = (p.step i w).2 := by
  change ((p.bind f).step i w).2 = _
  cases p with
  | done a => exact (hp a rfl).elim
  | crash => rfl
  | ask r k => rfl
  | race c r k =>
    rw [bind, step_race, step_race]
    split <;> rfl

theorem bind_done (p : Program α) : p >>= done = p := by
  change p.bind done = p
  induction p with
  | done a => rfl
  | crash => rfl
  | ask r k ih => exact congrArg (ask r) (funext ih)
  | race c r k ih => exact congrArg (race c r) (funext ih)

theorem request?_bind {r : Request} (hr : p.request? = some r) :
    (p >>= f).request? = some r := by
  change (p.bind f).request? = _
  cases p with
  | done a => cases hr
  | crash => cases hr
  | ask r' k => exact hr
  | race c r' k => exact hr

theorem request?_of_bind {r : Request} (hp : ∀ a, p ≠ done a)
    (hr : (p >>= f).request? = some r) : p.request? = some r := by
  change (p.bind f).request? = _ at hr
  cases p with
  | done a => exact (hp a rfl).elim
  | crash => cases hr
  | ask r' k => exact hr
  | race c r' k => exact hr

theorem request?_of_step {p' : Program α} (hs : (p.step i w).1 = some p') :
    ∃ r, p.request? = some r := by
  cases p with
  | done a => cases hs
  | crash => cases hs
  | ask r k => exact ⟨r, rfl⟩
  | race c r k => exact ⟨r, rfl⟩

theorem ne_done_of_request? {r : Request} (hr : p.request? = some r) (a : α) : p ≠ done a := by
  rintro rfl
  cases hr

end Program

namespace Scenario

variable {c : Scenario} {n : Nat} {us us' : List Turn} {u : Turn}

/-- What is left of the round that a call is in. -/
def program? (c : Scenario) (us : List Turn) (n : Nat) : Option (Program (Stage ⊕ Reply)) :=
  (c.after us).list[n]?.bind (·.state.getLeft?)

/-- The request that a call waits with. -/
def request? (c : Scenario) (us : List Turn) (n : Nat) : Option Request :=
  (c.program? us n).bind (·.request?)

theorem program?_eq_some {q : Program (Stage ⊕ Reply)} :
    c.program? us n = some q ↔ ∃ limit, (c.after us).list[n]? = some ⟨n + 1, limit, .inl q⟩ := by
  rw [program?, Option.bind_eq_some_iff]
  constructor
  · rintro ⟨⟨client, limit, state⟩, ht, hq⟩
    obtain ⟨φ, htracks⟩ := c.tracked us
    obtain ⟨op, -, hclient, -⟩ := htracks.keeps n _ ht
    cases hclient
    cases state with
    | inl q' =>
      cases hq
      exact ⟨limit, ht⟩
    | inr e => cases hq
  · rintro ⟨limit, ht⟩
    exact ⟨_, ht, rfl⟩

theorem list_other (hu : u.task? ≠ some n) :
    (c.after (us ++ [u])).list[n]? = (c.after us).list[n]? := by
  rw [after_append]
  cases u with
  | wait millis => rfl
  | step m =>
    have hm : m ≠ n := fun h => hu (h ▸ rfl)
    unfold Tasks.turn Tasks.stepAt
    dsimp only
    split
    · rfl
    · exact List.getElem?_set_ne hm
  | drop m =>
    have hm : m ≠ n := fun h => hu (h ▸ rfl)
    unfold Tasks.turn Tasks.dropAt
    dsimp only
    split
    · rfl
    · split
      · rfl
      · exact List.getElem?_set_ne hm

theorem list_step {t : Task Stage Reply} (ht : (c.after us).list[n]? = some t) :
    (c.after (us ++ [.step n])).list[n]? =
      some ((t.step Session.rounds (c.after us).world (c.after us).shared).1.getD t) := by
  have hn : n < (c.after us).list.length := (List.getElem?_eq_some_iff.mp ht).1
  rw [after_append]
  unfold Tasks.turn Tasks.stepAt
  simp only [ht]
  exact List.getElem?_set_self hn

theorem list_drop {t : Task Stage Reply} (ht : (c.after us).list[n]? = some t) :
    (c.after (us ++ [.drop n])).list[n]? = some t ∨
      ∃ clock, (c.after (us ++ [.drop n])).list[n]? =
        some { t with state := .inr (.blocked, clock) } := by
  have hn : n < (c.after us).list.length := (List.getElem?_eq_some_iff.mp ht).1
  rw [after_append]
  unfold Tasks.turn Tasks.dropAt
  simp only [ht]
  split
  · exact .inl ht
  · simp only [List.getElem?_set_self hn]
    unfold Task.drop
    split
    · exact .inl rfl
    · exact .inr ⟨_, rfl⟩

/-- No turn but its own steps changes what is left of a call, unless it drops the call. -/
theorem program?_other (c : Scenario) (us : List Turn) (hu : u ≠ .step n) :
    c.program? (us ++ [u]) n = c.program? us n ∨ c.program? (us ++ [u]) n = none := by
  by_cases hother : u.task? = some n
  · obtain rfl : u = .drop n := by
      cases u with
      | step m => exact (hu (by cases hother; rfl)).elim
      | drop m =>
        cases hother
        rfl
      | wait millis => cases hother
    cases ht : (c.after us).list[n]? with
    | none =>
      have hsame : (c.after (us ++ [.drop n])).list[n]? = none := by
        rw [after_append]
        unfold Tasks.turn Tasks.dropAt
        simp only [ht]
      exact .inl (by rw [program?, program?, ht, hsame])
    | some t =>
      rcases list_drop ht with h | ⟨e, h⟩
      · exact .inl (by rw [program?, program?, ht, h])
      · exact .inr (by rw [program?, h]; rfl)
  · exact .inl (by rw [program?, program?, list_other hother])

theorem program?_of_other {q : Program (Stage ⊕ Reply)} (hu : u ≠ .step n)
    (h : c.program? (us ++ [u]) n = some q) : c.program? us n = some q := by
  rcases c.program?_other us hu with hsame | hnone
  · rw [← hsame, h]
  · rw [hnone] at h
    cases h

theorem program?_stage {stage : Stage} (h : c.program? us n = some (.done (.inl stage))) :
    c.program? (us ++ [.step n]) n = some (Session.rounds stage (c.after us).shared).1 := by
  obtain ⟨limit, ht⟩ := program?_eq_some.mp h
  rw [program?, list_step ht]
  rfl

theorem program?_request {q : Program (Stage ⊕ Reply)} (h : c.program? us n = some q) {r : Request}
    (hr : q.request? = some r) :
    c.program? (us ++ [.step n]) n = some ((q.step (n + 1) (c.after us).world).1.getD q) := by
  obtain ⟨limit, ht⟩ := program?_eq_some.mp h
  rw [program?, list_step ht]
  have hstep : ((⟨n + 1, limit, .inl q⟩ : Task Stage Reply).step Session.rounds (c.after us).world
      (c.after us).shared).1 =
        (q.step (n + 1) (c.after us).world).1.map fun q' => ⟨n + 1, limit, .inl q'⟩ := by
    cases q with
    | done a => cases hr
    | crash => cases hr
    | ask r' k => rfl
    | race c' r' k => rfl
  rw [hstep]
  cases (q.step (n + 1) (c.after us).world).1 with
  | none => rfl
  | some q' => rfl

theorem world_request {q : Program (Stage ⊕ Reply)} (h : c.program? us n = some q) {r : Request}
    (hr : q.request? = some r) :
    (c.after (us ++ [.step n])).world = (q.step (n + 1) (c.after us).world).2 := by
  obtain ⟨limit, ht⟩ := program?_eq_some.mp h
  rw [after_append]
  unfold Tasks.turn Tasks.stepAt
  simp only [ht]
  cases q with
  | done a => cases hr
  | crash => cases hr
  | ask r' k => rfl
  | race c' r' k => rfl

theorem program?_none (h : c.program? us n = none) : c.program? (us ++ [u]) n = none := by
  by_cases hu : u = .step n
  · subst hu
    cases ht : (c.after us).list[n]? with
    | none =>
      have hsame : (c.after (us ++ [.step n])).list[n]? = none := by
        rw [after_append]
        unfold Tasks.turn Tasks.stepAt
        simp only [ht]
      rw [program?, hsame]
      rfl
    | some t =>
      rw [program?, ht] at h
      rw [program?, list_step ht]
      obtain ⟨client, limit, state⟩ := t
      cases state with
      | inl q => cases h
      | inr e => rfl
  · rcases c.program?_other us hu with hsame | hnone
    · rw [hsame, h]
    · exact hnone

/-- A step after which a call goes on is one that installs its next round, or one of its
program. -/
theorem program?_of_step {q : Program (Stage ⊕ Reply)}
    (h : c.program? (us ++ [.step n]) n = some q) :
    (∃ stage, c.program? us n = some (.done (.inl stage)) ∧
        q = (Session.rounds stage (c.after us).shared).1) ∨
      ∃ q₀ r, c.program? us n = some q₀ ∧ q₀.request? = some r ∧
        q = (q₀.step (n + 1) (c.after us).world).1.getD q₀ := by
  cases hq : c.program? us n with
  | none =>
    rw [program?_none hq] at h
    cases h
  | some q₀ =>
    cases q₀ with
    | done a =>
      cases a with
      | inl stage =>
        rw [program?_stage hq] at h
        cases h
        exact .inl ⟨stage, rfl, rfl⟩
      | inr r =>
        obtain ⟨limit, ht⟩ := program?_eq_some.mp hq
        rw [program?, list_step ht] at h
        cases h
    | crash =>
      obtain ⟨limit, ht⟩ := program?_eq_some.mp hq
      rw [program?, list_step ht] at h
      cases h
    | ask r k =>
      rw [program?_request hq rfl] at h
      cases h
      exact .inr ⟨_, r, rfl, rfl, rfl⟩
    | race c' r k =>
      rw [program?_request hq rfl] at h
      cases h
      exact .inr ⟨_, r, rfl, rfl, rfl⟩

variable {α β : Type} {p p' : Program α}

/-- Made by call `n` from the first moment on, the program has come to the second one at the
second moment. -/
inductive Runs (c : Scenario) (n : Nat) (us : List Turn) (p : Program α) :
    List Turn → Program α → Prop
  | refl : Runs c n us p us p
  | other {us' : List Turn} {p' : Program α} {u : Turn} (run : Runs c n us p us' p')
      (turn : u ≠ .step n) (alive : (c.program? (us' ++ [u]) n).isSome) :
      Runs c n us p (us' ++ [u]) p'
  | wait {us' : List Turn} {p' : Program α} {r : Request} (run : Runs c n us p us' p')
      (request : p'.request? = some r) (step : (p'.step (n + 1) (c.after us').world).1 = none) :
      Runs c n us p (us' ++ [.step n]) p'
  | step {us' : List Turn} {p' p'' : Program α} (run : Runs c n us p us' p')
      (step : (p'.step (n + 1) (c.after us').world).1 = some p'') :
      Runs c n us p (us' ++ [.step n]) p''

/-- Made by call `n` from the first moment on, the program has ended at the second one. -/
def Ran (c : Scenario) (n : Nat) (us : List Turn) (p : Program α) (us' : List Turn) (a : α) :
    Prop :=
  c.Runs n us p us' (.done a)

theorem Runs.isPrefix (h : c.Runs n us p us' p') : us <+: us' := by
  induction h with
  | refl => exact List.prefix_rfl
  | other _ _ _ ih => exact ih.trans (List.prefix_append _ _)
  | wait _ _ _ ih => exact ih.trans (List.prefix_append _ _)
  | step _ _ ih => exact ih.trans (List.prefix_append _ _)

theorem Runs.trans {us'' : List Turn} {p'' : Program α} (h : c.Runs n us p us' p')
    (h' : c.Runs n us' p' us'' p'') : c.Runs n us p us'' p'' := by
  induction h' with
  | refl => exact h
  | other _ hu halive ih => exact ih.other hu halive
  | wait _ hr hs ih => exact ih.wait hr hs
  | step _ hs ih => exact ih.step hs

theorem Runs.bind (h : c.Runs n us p us' p') (f : α → Program β) :
    c.Runs n us (p >>= f) us' (p' >>= f) := by
  induction h with
  | refl => exact .refl
  | other _ hu halive ih => exact ih.other hu halive
  | wait _ hr hs ih =>
    refine ih.wait (Program.request?_bind hr) ?_
    rw [Program.step_bind (Program.ne_done_of_request? hr), hs]
    rfl
  | step _ hs ih =>
    obtain ⟨r, hr⟩ := Program.request?_of_step hs
    refine ih.step ?_
    rw [Program.step_bind (Program.ne_done_of_request? hr), hs]
    rfl

theorem Ran.bind {a : α} {us'' : List Turn} {f : α → Program β} {q : Program β}
    (h : c.Ran n us p us' a) (h' : c.Runs n us' (f a) us'' q) : c.Runs n us (p >>= f) us'' q :=
  (Runs.bind h f).trans h'

/-- A sequence is still in its first program, or that one has ended and the rest runs from
there. -/
theorem Runs.bind_cases {f : α → Program β} {q : Program β}
    (h : c.Runs n us (p >>= f) us' q) :
    (∃ p', c.Runs n us p us' p' ∧ q = p' >>= f) ∨
      ∃ m a, c.Ran n us p m a ∧ c.Runs n m (f a) us' q := by
  induction h with
  | refl => exact .inl ⟨p, .refl, rfl⟩
  | other _ hu halive ih =>
    rcases ih with ⟨p', hp', rfl⟩ | ⟨m, a, hm, hq⟩
    · exact .inl ⟨p', hp'.other hu halive, rfl⟩
    · exact .inr ⟨m, a, hm, hq.other hu halive⟩
  | wait _ hr hs ih =>
    rcases ih with ⟨p', hp', rfl⟩ | ⟨m, a, hm, hq⟩
    · by_cases hdone : ∃ a, p' = .done a
      · obtain ⟨a, rfl⟩ := hdone
        exact .inr ⟨_, a, hp', Runs.refl.wait hr hs⟩
      · rw [Program.step_bind (not_exists.mp hdone), Option.map_eq_none_iff] at hs
        exact .inl ⟨p', hp'.wait (Program.request?_of_bind (not_exists.mp hdone) hr) hs, rfl⟩
    · exact .inr ⟨m, a, hm, hq.wait hr hs⟩
  | step _ hs ih =>
    rcases ih with ⟨p', hp', rfl⟩ | ⟨m, a, hm, hq⟩
    · by_cases hdone : ∃ a, p' = .done a
      · obtain ⟨a, rfl⟩ := hdone
        exact .inr ⟨_, a, hp', Runs.refl.step hs⟩
      · rw [Program.step_bind (not_exists.mp hdone), Option.map_eq_some_iff] at hs
        obtain ⟨p'', hs, rfl⟩ := hs
        exact .inl ⟨p'', hp'.step hs, rfl⟩
    · exact .inr ⟨m, a, hm, hq.step hs⟩

theorem Ran.bind_cases {f : α → Program β} {b : β} (h : c.Ran n us (p >>= f) us' b) :
    ∃ m a, c.Ran n us p m a ∧ c.Ran n m (f a) us' b := by
  rcases Runs.bind_cases h with ⟨p', hp', hq⟩ | h
  · cases p' with
    | done a =>
      change Program.done b = f a at hq
      refine ⟨us', a, hp', ?_⟩
      rw [← hq]
      exact .refl
    | crash => cases hq
    | ask r k => cases hq
    | race c' r k => cases hq
  · exact h

theorem Runs.first_step (h : c.Runs n us p us' p') :
    p' = p ∨ ∃ x p₁, us <+: x ∧ x ++ [.step n] <+: us' ∧
      (p.step (n + 1) (c.after x).world).1 = some p₁ ∧ c.Runs n (x ++ [.step n]) p₁ us' p' := by
  induction h with
  | refl => exact .inl rfl
  | other run hu halive ih =>
    rcases ih with rfl | ⟨x, p₁, hx, hx', hs, hruns⟩
    · exact .inl rfl
    · exact .inr ⟨x, p₁, hx, hx'.trans (List.prefix_append _ _), hs, hruns.other hu halive⟩
  | wait run hr hs ih =>
    rcases ih with rfl | ⟨x, p₁, hx, hx', hs₁, hruns⟩
    · exact .inl rfl
    · exact .inr ⟨x, p₁, hx, hx'.trans (List.prefix_append _ _), hs₁, hruns.wait hr hs⟩
  | step run hs ih =>
    rcases ih with rfl | ⟨x, p₁, hx, hx', hs₁, hruns⟩
    · exact .inr ⟨_, _, run.isPrefix, List.prefix_rfl, hs, .refl⟩
    · exact .inr ⟨x, p₁, hx, hx'.trans (List.prefix_append _ _), hs₁, hruns.step hs⟩

theorem Ran.last_step {a : α} (h : c.Ran n us p us' a) :
    p = .done a ∨ ∃ y q, c.Runs n us p y q ∧ y ++ [.step n] <+: us' ∧
      (q.step (n + 1) (c.after y).world).1 = some (.done a) := by
  unfold Ran at h
  generalize hq : Program.done a = q at h
  induction h with
  | refl => exact .inl rfl
  | other run hu halive ih =>
    exact (ih hq).imp_right fun ⟨y, q, hruns, hy, hs⟩ =>
      ⟨y, q, hruns, hy.trans (List.prefix_append _ _), hs⟩
  | wait run hr hs ih =>
    rw [← hq] at hr
    cases hr
  | step run hs ih => exact .inr ⟨_, _, run, List.prefix_rfl, hs⟩

theorem Runs.split {m : List Turn} (h : c.Runs n us p us' p') (hm : us <+: m) (hm' : m <+: us') :
    ∃ q, c.Runs n us p m q ∧ c.Runs n m q us' p' := by
  induction h with
  | refl =>
    obtain rfl := hm.eq_of_length_le hm'.length_le
    exact ⟨p, .refl, .refl⟩
  | other run hu halive ih =>
    rcases List.prefix_concat_iff.mp hm' with rfl | hm'
    · exact ⟨_, run.other hu halive, .refl⟩
    · obtain ⟨q, hq, hq'⟩ := ih hm'
      exact ⟨q, hq, hq'.other hu halive⟩
  | wait run hr hs ih =>
    rcases List.prefix_concat_iff.mp hm' with rfl | hm'
    · exact ⟨_, run.wait hr hs, .refl⟩
    · obtain ⟨q, hq, hq'⟩ := ih hm'
      exact ⟨q, hq, hq'.wait hr hs⟩
  | step run hs ih =>
    rcases List.prefix_concat_iff.mp hm' with rfl | hm'
    · exact ⟨_, run.step hs, .refl⟩
    · obtain ⟨q, hq, hq'⟩ := ih hm'
      exact ⟨q, hq, hq'.step hs⟩

theorem Runs.last_turn {m : List Turn} (h : c.Runs n us p us' p') (hm : us' = m ++ [u]) :
    us = m ++ [u] ∨ ∃ q, c.Runs n us p m q ∧
      p' = if u = .step n then (q.step (n + 1) (c.after m).world).1.getD q else q := by
  cases h with
  | refl => exact .inl hm
  | other run hu halive =>
    obtain ⟨rfl, hu'⟩ := List.append_inj' hm rfl
    cases hu'
    exact .inr ⟨_, run, (if_neg hu).symm⟩
  | wait run hr hs =>
    obtain ⟨rfl, hu'⟩ := List.append_inj' hm rfl
    cases hu'
    refine .inr ⟨_, run, ?_⟩
    rw [if_pos rfl, hs]
    rfl
  | step run hs =>
    obtain ⟨rfl, hu'⟩ := List.append_inj' hm rfl
    cases hu'
    refine .inr ⟨_, run, ?_⟩
    rw [if_pos rfl, hs]
    rfl

theorem Runs.eq_of_same (h : c.Runs n us p us' p') (hm : us' = us) : p' = p := by
  subst hm
  cases h.first_step.imp_right id with
  | inl heq => exact heq
  | inr h =>
    obtain ⟨x, p₁, hx, hx', -⟩ := h
    have hlt : x.length < (x ++ [Turn.step n]).length := by simp
    exact absurd (hlt.trans_le hx'.length_le) hx.length_le.not_gt

theorem Runs.unique {q : Program α} (h : c.Runs n us p us' p') (h' : c.Runs n us p us' q) :
    p' = q := by
  induction us' using List.reverseRecOn generalizing p' q with
  | nil =>
    have hnil : ([] : List Turn) = us := (List.prefix_nil.mp h.isPrefix).symm
    rw [h.eq_of_same hnil, h'.eq_of_same hnil]
  | append_singleton m u ih =>
    rcases h.last_turn rfl with heq | ⟨q₁, hq₁, rfl⟩
    · rw [h.eq_of_same heq.symm, h'.eq_of_same heq.symm]
    · rcases h'.last_turn rfl with heq | ⟨q₂, hq₂, rfl⟩
      · have hle := hq₁.isPrefix.length_le
        rw [heq, List.length_append] at hle
        exact absurd hle (by simp)
      · rw [ih hq₁ hq₂]

theorem Runs.of_done {a : α} (h : c.Runs n us (.done a) us' p') : p' = .done a := by
  rcases h.first_step with heq | ⟨x, p₁, -, -, hs, -⟩
  · exact heq
  · cases hs

theorem Runs.of_crash (h : c.Runs n us (.crash : Program α) us' p') : p' = .crash := by
  rcases h.first_step with heq | ⟨x, p₁, -, -, hs, -⟩
  · exact heq
  · cases hs

theorem Runs.idle {a : α} {x : List Turn} (h : c.Runs n us (.done a) us' p') (hx : us <+: x) :
    ¬x ++ [.step n] <+: us' := by
  intro hx'
  induction h with
  | refl =>
    have hlt : x.length < (x ++ [Turn.step n]).length := by simp
    exact absurd (hlt.trans_le hx'.length_le) hx.length_le.not_gt
  | other run hu halive ih =>
    rcases List.prefix_concat_iff.mp hx' with heq | hx'
    · obtain ⟨-, hu'⟩ := List.append_inj' heq rfl
      cases hu'
      exact hu rfl
    · exact ih hx'
  | wait run hr hs ih =>
    rw [run.of_done] at hr
    cases hr
  | step run hs ih =>
    rw [run.of_done] at hs
    cases hs

theorem Runs.done_any {a : α} (h : c.Runs n us (.done a) us' p') (b : β) :
    c.Runs n us (.done b) us' (.done b) := by
  induction h with
  | refl => exact .refl
  | other run hu halive ih => exact ih.other hu halive
  | wait run hr hs ih =>
    rw [run.of_done] at hr
    cases hr
  | step run hs ih =>
    rw [run.of_done] at hs
    cases hs

theorem Ran.extend {m : List Turn} {a : α} {b b' : β} (h : c.Ran n us p m a)
    (h' : c.Ran n m (.done b) us' b') : c.Ran n us p us' a ∧ b' = b := by
  cases h'.of_done
  exact ⟨h.trans (h'.done_any a), rfl⟩

theorem Runs.program? {f : α → Program (Stage ⊕ Reply)} (h : c.Runs n us p us' p')
    (hq : c.program? us n = some (p >>= f)) : c.program? us' n = some (p' >>= f) := by
  induction h with
  | refl => exact hq
  | other _ hu halive ih =>
    rcases c.program?_other _ hu with hsame | hnone
    · rw [hsame, ih]
    · rw [hnone] at halive
      cases halive
  | wait _ hr hs ih =>
    rw [program?_request ih (Program.request?_bind hr),
      Program.step_bind (Program.ne_done_of_request? hr), hs]
    rfl
  | step _ hs ih =>
    obtain ⟨r, hr⟩ := Program.request?_of_step hs
    rw [program?_request ih (Program.request?_bind hr),
      Program.step_bind (Program.ne_done_of_request? hr), hs]
    rfl

theorem Runs.program?_eq {p p' : Program (Stage ⊕ Reply)} (h : c.Runs n us p us' p')
    (hq : c.program? us n = some p) : c.program? us' n = some p' := by
  rw [← p.bind_done] at hq
  rw [h.program? hq, p'.bind_done]

theorem Runs.world {f : α → Program (Stage ⊕ Reply)} (h : c.Runs n us p us' p')
    (hq : c.program? us n = some (p >>= f)) {r : Request} (hr : p'.request? = some r) :
    (c.after (us' ++ [.step n])).world = (p'.step (n + 1) (c.after us').world).2 := by
  rw [world_request (h.program? hq) (Program.request?_bind hr),
    Program.step_bind_world (Program.ne_done_of_request? hr)]

theorem Runs.request? {f : α → Program (Stage ⊕ Reply)} (h : c.Runs n us p us' p')
    (hq : c.program? us n = some (p >>= f)) {r : Request} (hr : p'.request? = some r) :
    c.request? us' n = some r := by
  rw [Scenario.request?, h.program? hq]
  exact Program.request?_bind hr

/-- The round that a call is in, if it has begun. -/
theorem round_of {q : Program (Stage ⊕ Reply)} (hq : c.program? us n = some q) :
    (∃ op, c.calls[n]? = some op ∧ q = .done (.inl (.start op)) ∧ .step n ∉ us) ∨
      ∃ us₀ stage, us₀ ++ [.step n] <+: us ∧ c.program? us₀ n = some (.done (.inl stage)) ∧
        c.Runs n (us₀ ++ [.step n]) (Session.rounds stage (c.after us₀).shared).1 us q := by
  induction us using List.reverseRecOn generalizing q with
  | nil =>
    obtain ⟨limit, ht⟩ := program?_eq_some.mp hq
    have ht' : (c.calls.mapIdx task)[n]? = some ⟨n + 1, limit, .inl q⟩ := ht
    rw [List.getElem?_mapIdx] at ht'
    obtain ⟨op, hop, h⟩ := Option.map_eq_some_iff.mp ht'
    cases h
    exact .inl ⟨op, hop, rfl, List.not_mem_nil⟩
  | append_singleton us u ih =>
    by_cases hu : u = .step n
    · subst hu
      rcases program?_of_step hq with ⟨stage, hstage, rfl⟩ | ⟨q₀, r, hq₀, hr, rfl⟩
      · exact .inr ⟨us, stage, List.prefix_rfl, hstage, .refl⟩
      · rcases ih hq₀ with ⟨op, -, rfl, -⟩ | ⟨us₀, stage, hpre, hstage, hruns⟩
        · cases hr
        · refine .inr ⟨us₀, stage, hpre.trans (List.prefix_append _ _), hstage, ?_⟩
          cases hs : (q₀.step (n + 1) (c.after us).world).1 with
          | none => exact hruns.wait hr hs
          | some q' => exact hruns.step hs
    · rcases ih (program?_of_other hu hq) with ⟨op, hop, rfl, hnone⟩ |
        ⟨us₀, stage, hpre, hstage, hruns⟩
      · refine .inl ⟨op, hop, rfl, fun hmem => ?_⟩
        rcases List.mem_append.mp hmem with hmem | hmem
        · exact hnone hmem
        · exact hu (List.mem_singleton.mp hmem).symm
      · refine .inr ⟨us₀, stage, hpre.trans (List.prefix_append _ _), hstage, ?_⟩
        exact hruns.other hu (by rw [hq]; rfl)

theorem exists_task (us : List Turn) (hn : n < c.calls.length) :
    ∃ t, (c.after us).list[n]? = some t := by
  obtain ⟨φ, htracks⟩ := c.tracked us
  exact ⟨_, List.getElem?_eq_getElem (htracks.length ▸ hn)⟩

/-- How a call came to its end. -/
inductive Ended (c : Scenario) (n : Nat) (us : List Turn) : Ending Reply → Prop
  | answered (us₀ : List Turn) (r : Reply) (before : us₀ <+: us)
      (program : c.program? us₀ n = some (.done (.inr r))) : Ended c n us (.answered r)
  | crashed (us₀ : List Turn) (before : us₀ <+: us)
      (program : c.program? us₀ n = some .crash) : Ended c n us .crashed
  | dropped (turn : .drop n ∈ us) : Ended c n us .blocked

theorem Ended.append {e : Ending Reply} (h : c.Ended n us e) (u : Turn) :
    c.Ended n (us ++ [u]) e := by
  cases h with
  | answered us₀ r before program =>
    exact .answered us₀ r (before.trans (List.prefix_append _ _)) program
  | crashed us₀ before program => exact .crashed us₀ (before.trans (List.prefix_append _ _)) program
  | dropped turn => exact .dropped (List.mem_append_left _ turn)

/-- A call that is over had nothing left but its answer once, or broke off, or was dropped. -/
theorem ended {client : ClientId} {limit clock : Nat} {e : Ending Reply}
    (ht : (c.after us).list[n]? = some ⟨client, limit, .inr (e, clock)⟩) : c.Ended n us e := by
  have hn : n < c.calls.length := by
    obtain ⟨φ, htracks⟩ := c.tracked us
    exact htracks.length ▸ (List.getElem?_eq_some_iff.mp ht).1
  induction us using List.reverseRecOn generalizing client limit clock with
  | nil =>
    have ht' : (c.calls.mapIdx task)[n]? = some ⟨client, limit, .inr (e, clock)⟩ := ht
    rw [List.getElem?_mapIdx] at ht'
    obtain ⟨op, -, h⟩ := Option.map_eq_some_iff.mp ht'
    cases h
  | append_singleton us u ih =>
    obtain ⟨t, ht₀⟩ := c.exists_task us hn
    -- The task stood so before the turn, or the turn is the one that ends it.
    have hsame : (c.after (us ++ [u])).list[n]? = some t → c.Ended n (us ++ [u]) e := by
      intro h
      rw [ht] at h
      cases h
      exact (ih ht₀).append u
    by_cases hother : u.task? = some n
    · cases u with
      | wait millis => cases hother
      | drop m =>
        cases hother
        rcases list_drop ht₀ with h | ⟨moment, h⟩
        · exact hsame h
        · rw [ht] at h
          cases h
          exact .dropped (List.mem_append_right _ (List.mem_singleton_self _))
      | step m =>
        cases hother
        have hstep := list_step ht₀
        obtain ⟨client₀, limit₀, state⟩ := t
        cases state with
        | inr e => exact hsame hstep
        | inl q =>
          have hq : c.program? us n = some q := by
            rw [program?, ht₀]
            rfl
          cases q with
          | done a =>
            cases a with
            | inl stage =>
              rw [ht] at hstep
              cases hstep
            | inr r' =>
              rw [ht] at hstep
              cases hstep
              exact .answered us r' (List.prefix_append _ _) hq
          | crash =>
            rw [ht] at hstep
            cases hstep
            exact .crashed us (List.prefix_append _ _) hq
          | ask r k =>
            have halive := program?_request hq rfl
            rw [program?, ht] at halive
            cases halive
          | race c' r k =>
            have halive := program?_request hq rfl
            rw [program?, ht] at halive
            cases halive
    · rw [list_other hother] at ht
      exact (ih ht).append u

theorem program?_or_ended (us : List Turn) (hn : n < c.calls.length) :
    (∃ q, c.program? us n = some q) ∨
      ∃ e, c.Ended n us e ∧ ∀ r, e = .answered r → c.answer? us n = some r := by
  obtain ⟨⟨client, limit, state⟩, ht⟩ := c.exists_task us hn
  cases state with
  | inl q => exact .inl ⟨q, by rw [program?, ht]; rfl⟩
  | inr x =>
    obtain ⟨e, moment⟩ := x
    refine .inr ⟨e, ended ht, ?_⟩
    rintro r rfl
    rw [answer?, ht]
    rfl

theorem answer_cases {r : Reply} (h : c.answer? us n = some r) :
    (∃ q, c.program? us n = some q ∧ q.answer? (c.after us).world.clock = some r) ∨
      ∃ us₀, us₀ <+: us ∧ c.program? us₀ n = some (.done (.inr r)) := by
  obtain ⟨⟨client, limit, state⟩, ht, ha⟩ := Option.bind_eq_some_iff.mp h
  cases state with
  | inl q => exact .inl ⟨q, by rw [program?, ht]; rfl, ha⟩
  | inr e =>
    obtain ⟨ending, moment⟩ := e
    cases ending with
    | answered r' =>
      cases ha
      cases ended ht with
      | answered us₀ _ before program => exact .inr ⟨us₀, before, program⟩
    | crashed => cases ha
    | blocked => cases ha

end Scenario

end WagerLedger

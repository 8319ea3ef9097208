import WagerLedger.Proofs.Session.Course
import WagerLedger.Proofs.World.Contexts

/-! # What goes on in the meantime

Between two moments of a run time may pass and contexts may end, but none begins again. The
turns of the others leave a call where it is, and what it asks for since one of its steps can be
told from its own steps. -/
namespace WagerLedger.Scenario

open World

variable {c : Scenario} {n : Nat} {us vs v x y : List Turn} {u : Turn} {S : Request → Prop}

theorem prefix_or_step (hx : x <+: us) (hv : v ++ [u] <+: us) : x <+: v ∨ v ++ [u] <+: x := by
  rcases Nat.lt_or_ge v.length x.length with h | h
  · refine .inr (List.prefix_of_prefix_length_le hv hx ?_)
    rw [List.length_append]
    exact h
  · exact .inl (List.prefix_of_prefix_length_le hx ((List.prefix_append _ _).trans hv) h)

theorem later_turn (c : Scenario) (us : List Turn) (u : Turn) :
    (c.after us).world.Later (c.after (us ++ [u])).world := by
  rw [after_append]
  exact Tasks.later_turn Session.rounds (c.after us) u

theorem later (c : Scenario) (h : us <+: vs) : (c.after us).world.Later (c.after vs).world := by
  obtain ⟨ws, rfl⟩ := h
  induction ws using List.reverseRecOn with
  | nil =>
    rw [List.append_nil]
    exact .refl _
  | append_singleton ws u ih =>
    rw [← List.append_assoc]
    exact ih.trans (c.later_turn _ u)

theorem probes_eq (c : Scenario) (us : List Turn) : (c.after us).world.probes = c.probes :=
  (c.later us.nil_prefix).probes

theorem request?_of_task {t : Task Stage Reply} (ht : (c.after us).list[n]? = some t) :
    c.request? us n = t.request? := by
  rw [request?, program?, ht]
  rfl

/-- A step of a call asks its request of the world, or gives it up; or nothing happens. -/
theorem world_step (c : Scenario) (us : List Turn) (n : Nat)
    (hcrash : c.program? us n ≠ some .crash) :
    (c.after (us ++ [.step n])).world = (c.after us).world ∨
      ∃ r, c.request? us n = some r ∧
        ((c.after (us ++ [.step n])).world = ((c.after us).world.perform (n + 1) r).2 ∨
          (c.after (us ++ [.step n])).world = (c.after us).world.giveUp (n + 1) r) := by
  obtain ⟨φ, htracks⟩ := c.tracked us
  rw [after_append]
  cases (c.after us).touches Session.rounds (.step n) with
  | nothing world => exact .inl world
  | performs m t r turn task request world =>
    cases turn
    rw [(htracks.allows task request).1] at world
    exact .inr ⟨r, (request?_of_task task).trans request, .inl world⟩
  | givesUp m t r turn task request world =>
    cases turn
    rw [(htracks.allows task request).1] at world
    exact .inr ⟨r, (request?_of_task task).trans request, .inr world⟩
  | leaves m t task left world =>
    rcases left with h | ⟨h, hstate⟩
    · cases h
    · cases h
      refine (hcrash ?_).elim
      rw [program?, task, Option.bind_some, hstate]
      rfl
  | waits millis turn world => cases turn

theorem ledger_step
    (h : ∀ r, c.request? us n = some r → (r.isSettling = true ∨ r = .discard) ∧ r ≠ .commit) :
    c.ledger (us ++ [.step n]) = c.ledger us := by
  unfold ledger
  rw [after_append]
  cases (c.after us).touches Session.rounds (.step n) with
  | nothing world => rw [world]
  | performs m t r turn task request world =>
    cases turn
    obtain ⟨hr | rfl, hc⟩ := h r ((request?_of_task task).trans request)
    · rw [world]
      exact ledger_perform hr hc _
    · rw [world]
      exact ledger_discard _ _
  | givesUp m t r turn task request world =>
    rw [world]
    exact ledger_giveUp _ _ _
  | leaves m t task left world =>
    rw [world]
    exact ledger_discard _ _
  | waits millis turn world => cases turn

theorem suspends_of_wait {r : Request} (hr : c.request? us n = some r)
    (ha : ((c.after us).world.perform (n + 1) r).1 = none) : r.suspends = true := by
  obtain ⟨φ, htracks⟩ := c.tracked us
  obtain ⟨q, hq, hqr⟩ := Option.bind_eq_some_iff.mp hr
  obtain ⟨limit, ht⟩ := program?_eq_some.mp hq
  obtain ⟨-, Q, hallows⟩ := htracks.allows ht hqr
  exact suspends_of_none htracks.agrees hallows ha

theorem world_drop (halive : (c.program? (us ++ [.drop n]) n).isSome) :
    (c.after (us ++ [.drop n])).world = (c.after us).world := by
  cases ht : (c.after us).list[n]? with
  | none =>
    rw [after_append, Tasks.turn, Tasks.dropAt, ht]
  | some t =>
    have hn : n < (c.after us).list.length := (List.getElem?_eq_some_iff.mp ht).1
    rw [program?, after_append, Tasks.turn, Tasks.dropAt, ht] at halive
    rw [after_append, Tasks.turn, Tasks.dropAt, ht]
    dsimp only at halive ⊢
    split
    · rfl
    · rename_i ha
      rw [if_neg ha] at halive
      cases hover : t.isOver with
      | true =>
        rw [Task.drop, if_pos hover]
      | false =>
        rw [Task.drop, hover, if_neg Bool.false_ne_true, List.getElem?_set_self hn] at halive
        cases halive

/-- What a turn of another call, or of the clock, does to the world. -/
inductive Elsewhere (c : Scenario) (n : Nat) (us : List Turn) (w : World) : Prop
  | nothing (world : w = (c.after us).world)
  | performs (m : Nat) (r : Request) (other : n + 1 ≠ m + 1) (request : c.request? us m = some r)
      (world : w = ((c.after us).world.perform (m + 1) r).2)
  | givesUp (m : Nat) (r : Request) (other : n + 1 ≠ m + 1)
      (world : w = (c.after us).world.giveUp (m + 1) r)
  | leaves (m : Nat) (other : n + 1 ≠ m + 1) (world : w = (c.after us).world.leaveBehind (m + 1))
  | waits (millis : Nat)
      (world : w = { (c.after us).world with clock := (c.after us).world.clock + millis })

theorem elsewhere (hu : u ≠ .step n) (halive : (c.program? (us ++ [u]) n).isSome) :
    c.Elsewhere n us (c.after (us ++ [u])).world := by
  obtain ⟨φ, htracks⟩ := c.tracked us
  by_cases hdrop : u = .drop n
  · subst hdrop
    exact .nothing (world_drop halive)
  have hclient : ∀ {m t}, (c.after us).list[m]? = some t → t.client = m + 1 := by
    intro m t htask
    obtain ⟨op, -, hclient, -⟩ := htracks.keeps m t htask
    exact hclient
  have hother : ∀ {m : Nat}, u = .step m ∨ u = .drop m → n + 1 ≠ m + 1 := by
    rintro m hm heq
    cases heq
    rcases hm with rfl | rfl
    · exact hu rfl
    · exact hdrop rfl
  rw [after_append]
  cases (c.after us).touches Session.rounds u with
  | nothing world => exact .nothing world
  | performs m t r turn task request world =>
    rw [hclient task] at world
    exact .performs m r (hother (.inl turn)) ((request?_of_task task).trans request) world
  | givesUp m t r turn task request world =>
    rw [hclient task] at world
    exact .givesUp m r (hother (.inl turn)) world
  | leaves m t task left world =>
    rw [hclient task] at world
    exact .leaves m (hother (left.symm.imp_left And.left)) world
  | waits millis turn world => exact .waits millis world

/-- While a call that goes on has the lock, the others leave the lock and the ledger alone. -/
theorem held_other {t : Transaction} (ht : (c.after us).world.holder = some (n + 1, t))
    (hu : u ≠ .step n) (halive : (c.program? (us ++ [u]) n).isSome) :
    (c.after us).world.Held (c.after (us ++ [u])).world := by
  cases elsewhere hu halive with
  | nothing world =>
    rw [world]
    exact ⟨rfl, rfl⟩
  | performs m r other request world =>
    rw [world]
    refine held_perform ht other (Nat.succ_ne_zero n) fun ext b hr => ?_
    subst hr
    obtain ⟨φ, htracks⟩ := c.tracked us
    obtain ⟨q, hq, hqr⟩ := Option.bind_eq_some_iff.mp request
    obtain ⟨limit, htask⟩ := program?_eq_some.mp hq
    obtain ⟨-, Q, l, hφ, -⟩ := htracks.allows htask hqr
    have hholder := (htracks.agrees.holder_of_inside hφ).1
    rw [ht] at hholder
    cases hholder
    exact other rfl
  | givesUp m r other world =>
    rw [world]
    exact held_giveUp ht other r
  | leaves m other world =>
    rw [world]
    exact held_leaveBehind ht other
  | waits millis world =>
    rw [world]
    exact ⟨rfl, rfl⟩

/-- What is left of a call is left of it from an earlier moment on, up to its next step. -/
theorem program?_since (hx : x <+: us) {q : Program (Stage ⊕ Reply)}
    (hq : c.program? us n = some q) :
    c.program? x n = some q ∨
      ∃ y, x <+: y ∧ y ++ [.step n] <+: us ∧ c.program? y n = c.program? x n := by
  obtain ⟨ws, rfl⟩ := hx
  induction ws using List.reverseRecOn generalizing q with
  | nil =>
    rw [List.append_nil] at hq
    exact .inl hq
  | append_singleton ws u ih =>
    rw [← List.append_assoc] at hq ⊢
    have hback : ∀ {y}, y ++ [.step n] <+: x ++ ws → y ++ [.step n] <+: x ++ ws ++ [u] :=
      fun h => h.trans (List.prefix_append _ _)
    by_cases hu : u = .step n
    · subst hu
      cases hq₀ : c.program? (x ++ ws) n with
      | none =>
        rw [program?_none hq₀] at hq
        cases hq
      | some q₀ =>
        rcases ih hq₀ with h | ⟨y, hy, hy', h⟩
        · exact .inr ⟨x ++ ws, List.prefix_append _ _, List.prefix_rfl, hq₀.trans h.symm⟩
        · exact .inr ⟨y, hy, hback hy', h⟩
    · rcases ih (program?_of_other hu hq) with h | ⟨y, hy, hy', h⟩
      · exact .inl h
      · exact .inr ⟨y, hy, hback hy', h⟩

theorem program?_none_since (hx : x <+: us) (h : c.program? x n = none) :
    c.program? us n = none := by
  obtain ⟨ws, rfl⟩ := hx
  induction ws using List.reverseRecOn with
  | nil => rwa [List.append_nil]
  | append_singleton ws u ih =>
    rw [← List.append_assoc]
    exact program?_none ih

theorem begun {q : Program (Stage ⊕ Reply)} (hq : c.program? us n = some q)
    (hstart : ∀ op, q ≠ .done (.inl (.start op))) : .step n ∈ us := by
  rcases round_of hq with ⟨op, -, hop, -⟩ | ⟨us₀, stage, hpre, -⟩
  · exact (hstart op hop).elim
  · exact hpre.mem (List.mem_append_right _ (List.mem_singleton_self _))

theorem program?_of_over (hx : x <+: us) {q₀ q : Program (Stage ⊕ Reply)}
    (hover : (∃ r, q₀ = .done (.inr r)) ∨ q₀ = .crash) (h : c.program? x n = some q₀)
    (hq : c.program? us n = some q) : q = q₀ := by
  rcases program?_since hx hq with hsame | ⟨y, hy, hy', hsame⟩
  · rw [h] at hsame
    exact (Option.some.inj hsame).symm
  · obtain ⟨limit, ht⟩ := program?_eq_some.mp (hsame.trans h)
    have hnone : c.program? (y ++ [.step n]) n = none := by
      rw [program?, list_step ht]
      rcases hover with ⟨r, rfl⟩ | rfl <;> rfl
    rw [program?_none_since hy' hnone] at hq
    cases hq

theorem program?_of_answer (hx : x <+: us) {r : Reply}
    (h : c.program? x n = some (.done (.inr r))) {q : Program (Stage ⊕ Reply)}
    (hq : c.program? us n = some q) : q = .done (.inr r) :=
  program?_of_over hx (.inl ⟨r, rfl⟩) h hq

theorem request?_of_answer (hx : x <+: us) {r : Reply}
    (h : c.program? x n = some (.done (.inr r))) : c.request? us n = none := by
  cases hq : c.program? us n with
  | none => rw [request?, hq, Option.bind_none]
  | some q =>
    rw [request?, hq, program?_of_answer hx h hq]
    rfl

/-- The call has made its step after `v`, and since then has asked only for requests of a
kind. -/
structure Since (c : Scenario) (n : Nat) (S : Request → Prop) (v us : List Turn) : Prop where
  turn : v ++ [.step n] <+: us
  asks : ∀ x r, v ++ [.step n] <+: x → x ++ [.step n] <+: us → c.request? x n = some r → S r

theorem since_step (c : Scenario) (n : Nat) (S : Request → Prop) (v : List Turn) :
    c.Since n S v (v ++ [.step n]) where
  turn := List.prefix_rfl
  asks x r hx hx' _ := by
    have hlt : x.length < (x ++ [Turn.step n]).length := by simp
    exact absurd (hx.length_le.trans_lt hlt) hx'.length_le.not_gt

theorem Since.append (h : c.Since n S v us)
    (hu : u = .step n → ∀ r, c.request? us n = some r → S r) : c.Since n S v (us ++ [u]) where
  turn := h.turn.trans (List.prefix_append _ _)
  asks x r hx hx' hr := by
    rcases List.prefix_concat_iff.mp hx' with heq | hx'
    · obtain ⟨rfl, hu'⟩ := List.append_inj' heq rfl
      cases hu'
      exact hu rfl r hr
    · exact h.asks x r hx hx' hr

theorem Since.extend (h : c.Since n S v x) (hx : x <+: us)
    (hasks : ∀ y r, x <+: y → y ++ [.step n] <+: us → c.request? y n = some r → S r) :
    c.Since n S v us where
  turn := h.turn.trans hx
  asks y r hy hy' hr := by
    rcases prefix_or_step hx hy' with hxy | hxy
    · exact hasks y r hxy hy' hr
    · exact h.asks y r hy hxy hr

end WagerLedger.Scenario

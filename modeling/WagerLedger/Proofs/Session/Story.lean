import WagerLedger.Proofs.Program.Closing
import WagerLedger.Proofs.Program.Murmurs
import WagerLedger.Proofs.Session.Meanwhile
import WagerLedger.Proofs.World.Veil

/-! # What a call tells

The story of a call is what its own steps tell, minor events left out. The turns of others add
nothing to it, nor does a program that only murmurs; where the call tells an event, that one is
added at the end. -/
namespace WagerLedger

theorem Program.Murmurs.step {α : Type} {p p' : Program α} (h : p.Murmurs) {i : ClientId}
    {w : World} (hs : (p.step i w).1 = some p') : p'.Murmurs := by
  cases p with
  | done a => cases hs
  | crash => cases hs
  | ask r k =>
    obtain ⟨a, -, rfl⟩ := Option.map_eq_some_iff.mp hs
    exact h.2 a
  | race c r k =>
    rw [step_race] at hs
    split at hs
    · cases hs
      exact h.2 _
    · obtain ⟨a, -, rfl⟩ := Option.map_eq_some_iff.mp hs
      exact h.2 _

theorem Program.Murmurs.minor {α : Type} {p : Program α} (h : p.Murmurs) {e : Event}
    (hr : p.request? = some (.emit e)) : e.isMinor = true := by
  cases p with
  | done a => cases hr
  | crash => cases hr
  | ask r k =>
    cases hr
    exact h.1
  | race c r k =>
    cases hr
    exact h.1

namespace Scenario

variable {α : Type} {c : Scenario} {n : Nat} {us w x : List Turn} {u : Turn} {e : Event}
  {p q : Program α}

/-- The events that the steps of a call have told, in their order. -/
def told (c : Scenario) (us : List Turn) (n : Nat) : List Event :=
  (List.range us.length).flatMap fun k =>
    if us[k]? = some (.step n) then
      (c.after (us.take (k + 1))).world.events.drop (c.after (us.take k)).world.events.length
    else []

/-- What a call has told, minor events left out. -/
def story (c : Scenario) (us : List Turn) (n : Nat) : List Event :=
  (c.told us n).filter (!·.isMinor)

theorem told_append (c : Scenario) (us : List Turn) (u : Turn) (n : Nat) :
    c.told (us ++ [u]) n = c.told us n ++
      if u = .step n then
        (c.after (us ++ [u])).world.events.drop (c.after us).world.events.length
      else [] := by
  have hbefore : ∀ k ∈ List.range us.length,
      (if (us ++ [u])[k]? = some (.step n) then
        (c.after ((us ++ [u]).take (k + 1))).world.events.drop
          (c.after ((us ++ [u]).take k)).world.events.length
      else []) =
        if us[k]? = some (.step n) then
          (c.after (us.take (k + 1))).world.events.drop (c.after (us.take k)).world.events.length
        else [] := by
    intro k hk
    have hlt : k < us.length := List.mem_range.mp hk
    rw [List.getElem?_append_left hlt, List.take_append_of_le_length hlt,
      List.take_append_of_le_length hlt.le]
  unfold told
  rw [List.length_append, List.length_singleton, List.range_succ, List.flatMap_append,
    List.flatMap_congr hbefore, List.flatMap_singleton, List.getElem?_concat_length,
    List.take_left, List.take_of_length_le (by simp)]
  simp only [Option.some.injEq]

theorem story_other (hu : u ≠ .step n) : c.story (us ++ [u]) n = c.story us n := by
  rw [story, told_append, if_neg hu, List.append_nil]
  rfl

theorem story_step {es : List Event}
    (hes : (c.after (us ++ [.step n])).world.events = (c.after us).world.events ++ es) :
    c.story (us ++ [.step n]) n = c.story us n ++ es.filter (!·.isMinor) := by
  rw [story, told_append, if_pos rfl, hes, List.drop_left, List.filter_append]
  rfl

/-- A step of a call tells the event that it asks to tell, or nothing. -/
theorem events_step (c : Scenario) (us : List Turn) (n : Nat) :
    (c.after (us ++ [.step n])).world.events = (c.after us).world.events ∨
      ∃ e, c.request? us n = some (.emit e) ∧
        (c.after (us ++ [.step n])).world.events = (c.after us).world.events ++ [e] := by
  rw [after_append]
  cases (c.after us).touches Session.rounds (.step n) with
  | nothing world =>
    rw [world]
    exact .inl rfl
  | performs m t r turn task request world =>
    cases turn
    rw [world]
    by_cases he : ∃ e, r = .emit e
    · obtain ⟨e, rfl⟩ := he
      exact .inr ⟨e, (request?_of_task task).trans request, rfl⟩
    · exact .inl (World.events_perform _ _ fun e hr => he ⟨e, hr⟩)
  | givesUp m t r turn task request world =>
    rw [world]
    exact .inl (World.events_giveUp _ _ _)
  | leaves m t task left world =>
    rw [world]
    exact .inl (World.events_leaveBehind _ _)
  | waits millis turn world => cases turn

theorem story_murmur (h : ∀ e, c.request? us n = some (.emit e) → e.isMinor = true) :
    c.story (us ++ [.step n]) n = c.story us n := by
  rcases c.events_step us n with hes | ⟨e, hr, hes⟩
  · rw [story_step (hes.trans (List.append_nil _).symm), List.filter_nil, List.append_nil]
  · have hminor : [e].filter (!·.isMinor) = [] := by
      rw [List.filter_cons, h e hr]
      rfl
    rw [story_step hes, hminor, List.append_nil]

theorem story_idle (h : c.request? us n = none) :
    c.story (us ++ [.step n]) n = c.story us n := by
  refine story_murmur fun e he => ?_
  rw [h] at he
  cases he

theorem story_eq_of_count (hx : w <+: us) (hcount : us.count (.step n) = w.count (.step n)) :
    c.story us n = c.story w n := by
  obtain ⟨vs, rfl⟩ := hx
  rw [List.count_append, Nat.add_eq_left, List.count_eq_zero] at hcount
  induction vs using List.reverseRecOn with
  | nil => rw [List.append_nil]
  | append_singleton vs u ih =>
    rw [List.mem_append, List.mem_singleton, not_or] at hcount
    rw [← List.append_assoc, story_other (Ne.symm hcount.2), ih hcount.1]

theorem story_fresh (h : .step n ∉ us) : c.story us n = [] := by
  rw [story_eq_of_count us.nil_prefix]
  · rfl
  · rw [List.count_eq_zero_of_not_mem h]
    rfl

theorem story_over (hx : x <+: us) {q₀ : Program (Stage ⊕ Reply)}
    (hover : (∃ r, q₀ = .done (.inr r)) ∨ q₀ = .crash) (h : c.program? x n = some q₀) :
    c.story us n = c.story x n := by
  have hsilent : ∀ y, x <+: y → c.request? y n = none := by
    intro y hy
    cases hq : c.program? y n with
    | none => rw [request?, hq, Option.bind_none]
    | some q =>
      rw [request?, hq, program?_of_over hy hover h hq]
      rcases hover with ⟨r, rfl⟩ | rfl <;> rfl
  obtain ⟨vs, rfl⟩ := hx
  induction vs using List.reverseRecOn with
  | nil => rw [List.append_nil]
  | append_singleton vs u ih =>
    rw [← List.append_assoc]
    by_cases hu : u = .step n
    · subst hu
      rw [story_idle (hsilent _ (List.prefix_append _ _)), ih]
    · rw [story_other hu, ih]

theorem Runs.murmurs (h : c.Runs n w p us q) (hp : p.Murmurs) : q.Murmurs := by
  induction h with
  | refl => exact hp
  | other _ _ _ ih => exact ih
  | wait _ _ _ ih => exact ih
  | step _ hs ih => exact ih.step hs

theorem Runs.story (h : c.Runs n w p us q) {f : α → Program (Stage ⊕ Reply)}
    (hq : c.program? w n = some (p >>= f)) (hp : p.Murmurs) : c.story us n = c.story w n := by
  have hstep : ∀ {us' : List Turn} {p' : Program α} {r : Request}, c.Runs n w p us' p' →
      p'.request? = some r → c.story (us' ++ [.step n]) n = c.story us' n := by
    intro us' p' r hrun hr
    refine story_murmur fun e he => ?_
    rw [hrun.request? hq hr] at he
    cases he
    exact (hrun.murmurs hp).minor hr
  induction h with
  | refl => rfl
  | other _ hu _ ih => rw [story_other hu, ih]
  | wait run hr _ ih => rw [hstep run hr, ih]
  | step run hs ih =>
    obtain ⟨r, hr⟩ := Program.request?_of_step hs
    rw [hstep run hr, ih]

/-- With its step after `y` the call has its request answered, and it makes no other step. -/
structure AnsweredAt (c : Scenario) (n : Nat) (w : List Turn) (r : Request) (us y : List Turn)
    (a : r.Answer) : Prop where
  waits : c.Runs n w (Program.request r) y (Program.request r)
  turn : y ++ [.step n] <+: us
  answer : ((c.after y).world.perform (n + 1) r).1 = some a
  first : y.count (.step n) = w.count (.step n)
  last : us.count (.step n) = w.count (.step n) + 1

theorem count_other (hu : u ≠ .step n) : (us ++ [u]).count (.step n) = us.count (.step n) := by
  have hnone : [u].count (.step n) = 0 :=
    List.count_eq_zero.mpr fun h => hu (List.mem_singleton.mp h).symm
  rw [List.count_append, hnone, Nat.add_zero]

theorem count_step (us : List Turn) (n : Nat) :
    (us ++ [Turn.step n]).count (.step n) = us.count (.step n) + 1 := by
  rw [List.count_append, List.count_singleton_self]

theorem Runs.at_once {r : Request} {q : Program r.Answer}
    (hready : ∀ w : World, (w.perform (n + 1) r).1 ≠ none)
    (h : c.Runs n w (Program.request r) us q) :
    (q = Program.request r ∧ us.count (.step n) = w.count (.step n)) ∨
      ∃ a y, q = .done a ∧ c.AnsweredAt n w r us y a := by
  induction h with
  | refl => exact .inl ⟨rfl, rfl⟩
  | other run hu _ ih =>
    rcases ih with ⟨rfl, hus⟩ | ⟨a, y, rfl, hy⟩
    · exact .inl ⟨rfl, (count_other hu).trans hus⟩
    · exact .inr ⟨a, y, rfl, hy.waits, hy.turn.trans (List.prefix_append _ _), hy.answer, hy.first,
        (count_other hu).trans hy.last⟩
  | wait run hr hs ih =>
    rcases ih with ⟨rfl, -⟩ | ⟨a, y, rfl, -⟩
    · exact (hready _ (Option.map_eq_none_iff.mp hs)).elim
    · cases hr
  | step run hs ih =>
    rcases ih with ⟨rfl, hus⟩ | ⟨a, y, rfl, -⟩
    · obtain ⟨a, ha, rfl⟩ := Option.map_eq_some_iff.mp hs
      exact .inr ⟨a, _, rfl, run, List.prefix_rfl, ha, hus,
        (count_step _ n).trans (congrArg (· + 1) hus)⟩
    · cases hs

theorem Ran.at_once {r : Request} {a : r.Answer}
    (hready : ∀ w : World, (w.perform (n + 1) r).1 ≠ none)
    (h : c.Ran n w (Program.request r) us a) : ∃ y, c.AnsweredAt n w r us y a := by
  rcases Runs.at_once hready h with ⟨heq, -⟩ | ⟨a', y, heq, hy⟩
  · cases heq
  · cases heq
    exact ⟨y, hy⟩

theorem Runs.count_done {a : α} (h : c.Runs n w (.done a) us q) :
    us.count (.step n) = w.count (.step n) := by
  induction h with
  | refl => rfl
  | other _ hu _ ih => exact (count_other hu).trans ih
  | wait run hr _ _ =>
    rw [run.of_done] at hr
    cases hr
  | step run hs _ =>
    rw [run.of_done] at hs
    cases hs

theorem Ran.tells {g : Unit → Program α} {a : α}
    (h : c.Ran n w (Program.request (.emit e) >>= g) us a) {f : α → Program (Stage ⊕ Reply)}
    (hq : c.program? w n = some (Program.request (.emit e) >>= g >>= f)) (he : e.isMinor = false)
    (hg : (g ()).Murmurs) : c.story us n = c.story w n ++ [e] := by
  rw [Program.bind_assoc] at hq
  obtain ⟨m, _, htell, h⟩ := h.bind_cases
  have hm : c.program? m n = some (g () >>= f) := htell.program? hq
  obtain ⟨y, hy⟩ := Ran.at_once (r := .emit e) (fun _ => Option.some_ne_none ()) htell
  have hevents : (c.after (y ++ [.step n])).world.events = (c.after y).world.events ++ [e] := by
    rw [hy.waits.world hq rfl]
    rfl
  have hloud : [e].filter (!·.isMinor) = [e] := by
    rw [List.filter_cons, he]
    rfl
  have hcount : m.count (.step n) = (y ++ [Turn.step n]).count (.step n) := by
    rw [hy.last, count_step, hy.first]
  rw [Runs.story h hm hg, story_eq_of_count hy.turn hcount,
    story_step hevents, hloud, story_eq_of_count hy.waits.isPrefix hy.first]

end Scenario

end WagerLedger

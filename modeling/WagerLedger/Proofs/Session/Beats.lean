import WagerLedger.Proofs.Session.Turns
import WagerLedger.Proofs.World.Veil

/-! # Steps with all that is told after them

Telling an event never waits, so nothing comes between a step and the events that follow it. A
beat is a step of a task together with them; runs in beats are runs. -/
namespace WagerLedger

namespace Program

variable {α : Type}

/-- The events that the program tells before it asks for anything else. -/
def told : Program α → List Event
  | .ask (.emit e) k => e :: (k ()).told
  | _ => []

def silent : Program α → Program α
  | .ask (.emit _) k => (k ()).silent
  | p => p

end Program

variable {σ ρ δ : Type}

namespace Task

def told (t : Task σ ρ) : List Event :=
  match t.state with
  | .inl p => p.told
  | .inr _ => []

def silent (t : Task σ ρ) : Task σ ρ :=
  match t.state with
  | .inl p => { t with state := .inl p.silent }
  | .inr _ => t

end Task

namespace Tasks

def beatAt (next : Rounds σ ρ δ) (s : Tasks σ ρ δ) (n : Nat) : Tasks σ ρ δ :=
  match s.list[n]? with
  | none => s
  | some t =>
    let (stepped, w, d) := t.step next s.world s.shared
    ⟨w.hear (stepped.getD t).told, d, s.list.set n (stepped.getD t).silent⟩

def beat (next : Rounds σ ρ δ) (s : Tasks σ ρ δ) : Turn → Tasks σ ρ δ
  | .step n => s.beatAt next n
  | u => s.turn next u

def beats (next : Rounds σ ρ δ) (s : Tasks σ ρ δ) (us : List Turn) : Tasks σ ρ δ :=
  us.foldl (beat next) s

theorem beatAt_of_step {next : Rounds σ ρ δ} {s : Tasks σ ρ δ} {n : Nat} {t : Task σ ρ}
    (ht : s.list[n]? = some t) {x : Option (Task σ ρ)} {w : World} {d : δ}
    (hx : t.step next s.world s.shared = (x, w, d)) :
    s.beatAt next n = ⟨w.hear (x.getD t).told, d, s.list.set n (x.getD t).silent⟩ := by
  rw [beatAt, ht]
  dsimp only
  rw [hx]

theorem stepAt_emit (next : Rounds σ ρ δ) {client limit n : Nat} {e : Event}
    {k : Unit → Program (σ ⊕ ρ)} {l : List (Task σ ρ)} (hn : n < l.length) (w : World) (d : δ) :
    stepAt next ⟨w, d, l.set n ⟨client, limit, .inl (.ask (.emit e) k)⟩⟩ n =
      ⟨w.hear [e], d, l.set n ⟨client, limit, .inl (k ())⟩⟩ := by
  rw [stepAt, List.getElem?_set_self hn]
  change Tasks.mk (w.hear [e]) d ((l.set n _).set n _) = _
  rw [List.set_set]
  rfl

theorem turns_tell (next : Rounds σ ρ δ) {client limit n : Nat} (p : Program (σ ⊕ ρ))
    {l : List (Task σ ρ)} (hn : n < l.length) (w : World) (d : δ) :
    turns next ⟨w, d, l.set n ⟨client, limit, .inl p⟩⟩ (List.replicate p.told.length (.step n)) =
      ⟨w.hear p.told, d, l.set n ⟨client, limit, .inl p.silent⟩⟩ := by
  induction p generalizing w with
  | done a => exact congrArg (Tasks.mk · d _) w.hear_nil.symm
  | crash => exact congrArg (Tasks.mk · d _) w.hear_nil.symm
  | race c r k => exact congrArg (Tasks.mk · d _) w.hear_nil.symm
  | ask r k ih =>
    cases r
    case emit e =>
      change turns next (stepAt next _ n) (List.replicate (k ()).told.length (.step n)) = _
      rw [stepAt_emit next hn, ih (), World.hear_append]
      rfl
    all_goals exact congrArg (Tasks.mk · d _) w.hear_nil.symm

theorem beatAt_turns (next : Rounds σ ρ δ) (s : Tasks σ ρ δ) (n : Nat) :
    ∃ vs, s.beatAt next n = s.turns next vs := by
  rw [beatAt]
  cases ht : s.list[n]? with
  | none => exact ⟨[], rfl⟩
  | some t =>
    have hn : n < s.list.length := (List.getElem?_eq_some_iff.mp ht).1
    have hstep : s.turn next (.step n) = ⟨(t.step next s.world s.shared).2.1,
        (t.step next s.world s.shared).2.2,
        s.list.set n ((t.step next s.world s.shared).1.getD t)⟩ := by
      rw [turn, stepAt, ht]
    dsimp only
    generalize (t.step next s.world s.shared).1.getD t = t' at hstep ⊢
    obtain ⟨client, limit, state⟩ := t'
    cases state with
    | inr e =>
      refine ⟨[.step n], ?_⟩
      change _ = s.turn next (.step n)
      rw [hstep]
      exact congrArg (Tasks.mk · _ _) (World.hear_nil _)
    | inl p =>
      refine ⟨.step n :: List.replicate p.told.length (.step n), ?_⟩
      change _ = turns next (s.turn next (.step n)) (List.replicate p.told.length (.step n))
      rw [hstep, turns_tell next p hn]
      rfl

theorem beats_turns (next : Rounds σ ρ δ) (s : Tasks σ ρ δ) (us : List Turn) :
    ∃ vs, s.beats next us = s.turns next vs := by
  induction us generalizing s with
  | nil => exact ⟨[], rfl⟩
  | cons u us ih =>
    obtain ⟨vs, hvs⟩ := ih (s.beat next u)
    obtain ⟨xs, hxs⟩ : ∃ xs, s.beat next u = s.turns next xs := by
      cases u with
      | step n => exact s.beatAt_turns next n
      | drop n => exact ⟨[.drop n], rfl⟩
      | wait millis => exact ⟨[.wait millis], rfl⟩
    refine ⟨xs ++ vs, ?_⟩
    rw [turns, List.foldl_append]
    change (s.beat next u).beats next us = _
    rw [hvs, hxs]
    rfl

end Tasks

end WagerLedger

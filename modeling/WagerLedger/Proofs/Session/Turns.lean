import WagerLedger.Proofs.Session.Tracks
import WagerLedger.Proofs.World.Contexts
import WagerLedger.Proofs.World.Moves

/-! # What a turn does to the world

A turn leaves the world alone, asks one request of it or gives that up, takes a client out of
it, or lets time pass. Whatever a request may do in the phase of its call, a turn may do. -/
namespace WagerLedger

namespace Tasks

variable {σ ρ δ : Type}

/-- How the world goes on with a turn. -/
inductive Touches (s : Tasks σ ρ δ) (u : Turn) (w' : World) : Prop
  | nothing (world : w' = s.world)
  | performs (n : Nat) (t : Task σ ρ) (r : Request) (turn : u = .step n)
      (task : s.list[n]? = some t) (request : t.request? = some r)
      (world : w' = (s.world.perform t.client r).2)
  | givesUp (n : Nat) (t : Task σ ρ) (r : Request) (turn : u = .step n)
      (task : s.list[n]? = some t) (request : t.request? = some r)
      (world : w' = s.world.giveUp t.client r)
  | leaves (n : Nat) (t : Task σ ρ) (task : s.list[n]? = some t)
      (left : u = .drop n ∨ (u = .step n ∧ t.state = .inl .crash))
      (world : w' = s.world.leaveBehind t.client)
  | waits (millis : Nat) (turn : u = .wait millis)
      (world : w' = { s.world with clock := s.world.clock + millis })

theorem touches_request {s : Tasks σ ρ δ} {n : Nat} {t : Task σ ρ} {p : Program (σ ⊕ ρ)}
    {r : Request} (ht : s.list[n]? = some t) (hr : t.request? = some r) (hp : p.request? = some r) :
    s.Touches (.step n) (p.step t.client s.world).2 := by
  cases p with
  | done a => cases hp
  | crash => cases hp
  | ask r' k =>
    cases hp
    exact .performs n t r rfl ht hr rfl
  | race c r' k =>
    cases hp
    rw [Program.step_race]
    split
    · exact .givesUp n t r rfl ht hr rfl
    · exact .performs n t r rfl ht hr rfl

theorem touches (next : Rounds σ ρ δ) (s : Tasks σ ρ δ) (u : Turn) :
    s.Touches u (s.turn next u).world := by
  cases u with
  | wait millis => exact .waits millis rfl rfl
  | drop n =>
    unfold turn dropAt
    dsimp only
    split
    · exact .nothing rfl
    · rename_i t ht
      split
      · exact .nothing rfl
      · change s.Touches (.drop n) (t.drop s.world).2
        unfold Task.drop
        split
        · exact .nothing rfl
        · exact .leaves n t ht (.inl rfl) rfl
  | step n =>
    unfold turn stepAt
    dsimp only
    split
    · exact .nothing rfl
    · rename_i t ht
      change s.Touches (.step n) (t.step next s.world s.shared).2.1
      obtain ⟨client, limit, state⟩ := t
      cases state with
      | inr e => exact .nothing rfl
      | inl p =>
        cases p with
        | done a =>
          cases a with
          | inl stage => exact .nothing rfl
          | inr r => exact .nothing rfl
        | crash => exact .leaves n _ ht (.inr ⟨rfl, rfl⟩) rfl
        | ask r k => exact touches_request (p := .ask r k) ht rfl rfl
        | race c r k => exact touches_request (p := .race c r k) ht rfl rfl

theorem later_turn (next : Rounds σ ρ δ) (s : Tasks σ ρ δ) (u : Turn) :
    s.world.Later (s.turn next u).world := by
  cases s.touches next u with
  | nothing world =>
    rw [world]
    exact .refl _
  | performs m t r turn task request world =>
    rw [world]
    exact World.later_perform _ _ _
  | givesUp m t r turn task request world =>
    rw [world]
    exact (World.steady_giveUp _ _ _).later
  | leaves m t task left world =>
    rw [world]
    exact (World.steady_leaveBehind _ _).later
  | waits millis turn world =>
    rw [world]
    exact ⟨Nat.le_add_right _ _, fun _ => id, rfl⟩

theorem later_turns (next : Rounds σ ρ δ) (s : Tasks σ ρ δ) (us : List Turn) :
    s.world.Later (s.turns next us).world := by
  induction us generalizing s with
  | nil => exact .refl _
  | cons u us ih => exact (s.later_turn next u).trans (ih (s.turn next u))

end Tasks

theorem Program.Ensures.allows {α : Type} {B : Bounds} {φ : Phase} {p : Program α}
    {Q : Phase → α → Prop} (h : p.Ensures B φ Q) {r : Request} (hr : p.request? = some r) :
    ∃ P, φ.Allows r P := by
  cases p with
  | done a => cases hr
  | crash => cases hr
  | ask r' k =>
    cases hr
    exact ⟨_, h.2⟩
  | race c r' k =>
    cases hr
    exact ⟨_, h.2.2⟩

namespace Tracks

variable {P : Odds → Prop} {ops : List Operation} {s : Tasks Stage Reply Desk} {φ : Nat → Phase}
  {n : Nat} {t : Task Stage Reply}

theorem allows (h : Tracks P ops s φ) (ht : s.list[n]? = some t) {r : Request}
    (hr : t.request? = some r) : t.client = n + 1 ∧ ∃ Q, (φ n).Allows r Q := by
  obtain ⟨op, -, hclient, hkeeps⟩ := h.keeps n t ht
  obtain ⟨client, limit, state⟩ := t
  cases state with
  | inr e => cases hr
  | inl p => exact ⟨hclient, Program.Ensures.allows hkeeps hr⟩

theorem moves (h : Tracks P ops s φ) (u : Turn) :
    s.world.Moves (s.turn Session.rounds u).world := by
  cases s.touches Session.rounds u with
  | nothing world =>
    rw [world]
    exact .of_holder rfl rfl
  | performs n t r turn task request world =>
    obtain ⟨hclient, Q, hr⟩ := h.allows task request
    rw [world, hclient]
    exact World.moves_perform h.agrees hr
  | givesUp n t r turn task request world =>
    rw [world]
    exact World.moves_giveUp _ _ _
  | leaves n t task left world =>
    rw [world]
    exact World.moves_leaveBehind _ _
  | waits millis turn world =>
    rw [world]
    exact .of_holder rfl rfl

end Tracks

namespace Scenario

theorem tracked (c : Scenario) (us : List Turn) :
    ∃ φ, Tracks (fun _ => True) c.calls (c.after us) φ := by
  obtain ⟨φ, htracks, -⟩ := c.run_induction (P := fun _ => True) (M := fun _ _ => True) trivial
    (fun _ _ => trivial) trivial (fun _ _ _ _ _ _ => trivial) us
  exact ⟨φ, htracks⟩

theorem moves (c : Scenario) (us : List Turn) (u : Turn) :
    (c.after us).world.Moves (c.after (us ++ [u])).world := by
  obtain ⟨φ, htracks⟩ := c.tracked us
  rw [after_append]
  exact htracks.moves u

end Scenario

end WagerLedger

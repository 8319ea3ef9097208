import WagerLedger.Scheduler

/-! # Any order of steps

A turn lets one task make a step, drops one or lets time pass. What holds after every list of
turns holds however the tasks are scheduled: a task that starts late is there from the outset
and makes its first step late. A task that only has its answer left to give is not dropped,
because nothing in it waits any more. -/
namespace WagerLedger

variable {σ ρ δ : Type}

inductive Turn where
  | step (n : Nat)
  | drop (n : Nat)
  | wait (millis : Nat)
deriving DecidableEq

def Turn.task? : Turn → Option Nat
  | .step n | .drop n => some n
  | .wait _ => none

namespace Tasks

def stepAt (next : Rounds σ ρ δ) (s : Tasks σ ρ δ) (n : Nat) : Tasks σ ρ δ :=
  match s.list[n]? with
  | none => s
  | some t =>
    let (stepped, w, d) := t.step next s.world s.shared
    ⟨w, d, s.list.set n (stepped.getD t)⟩

def dropAt (s : Tasks σ ρ δ) (n : Nat) : Tasks σ ρ δ :=
  match s.list[n]? with
  | none => s
  | some t =>
    if (t.answer? s.world.clock).isSome then s
    else
      let (t, w) := t.drop s.world
      { s with world := w, list := s.list.set n t }

def turn (next : Rounds σ ρ δ) (s : Tasks σ ρ δ) : Turn → Tasks σ ρ δ
  | .step n => s.stepAt next n
  | .drop n => s.dropAt n
  | .wait millis => { s with world := { s.world with clock := s.world.clock + millis } }

def turns (next : Rounds σ ρ δ) (s : Tasks σ ρ δ) (us : List Turn) : Tasks σ ρ δ :=
  us.foldl (turn next) s

end Tasks

end WagerLedger

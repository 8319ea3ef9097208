import WagerLedger.World

/-! # Running programs side by side

Tasks run in their order, each until it has to wait; then again, until all wait. Only then
does the clock move on, to the next moment at which one of them can go on. A task that has
to wait at its limit is dropped there. A task may go by rounds: at the end of one, `next`
makes the program of the following round, and may change what the tasks share. -/
namespace WagerLedger

/-- How a task ended. -/
inductive Ending (ρ : Type) where
  | answered (r : ρ)
  | crashed
  | blocked
deriving DecidableEq

/-- A task is a program of a client, or has ended at some moment. -/
structure Task (σ ρ : Type) where
  client : ClientId
  limit : Nat
  state : Program (σ ⊕ ρ) ⊕ Ending ρ × Nat

/-- Tasks in their world, with what else they share. -/
structure Tasks (σ ρ δ : Type) where
  world : World
  shared : δ
  list : List (Task σ ρ)

variable {σ ρ δ : Type}

/-- The programs of the rounds. -/
abbrev Rounds (σ ρ δ : Type) := σ → δ → Program (σ ⊕ ρ) × δ

/-- The answer of a program that has nothing left to wait for: it only asks for the clock, to
tell events and to let go of the lock. -/
def Program.answer? (clock : Nat) : Program (σ ⊕ ρ) → Option ρ
  | .done (.inr r) => some r
  | .ask (.emit _) k => (k ()).answer? clock
  | .ask .clock k => (k clock).answer? clock
  | .ask .discard k => (k ()).answer? clock
  | _ => none

namespace Task

/-- The answer that a task has given, or only has left to give. -/
def answer? (clock : Nat) (t : Task σ ρ) : Option ρ :=
  match t.state with
  | .inl p => p.answer? clock
  | .inr (.answered r, _) => some r
  | .inr _ => none

def isOver (t : Task σ ρ) : Bool := t.state.isRight

def ending? (t : Task σ ρ) : Option (Ending ρ × Nat) := t.state.getRight?

def stop (t : Task σ ρ) (e : Ending ρ) (clock : Nat) : Task σ ρ := { t with state := .inr (e, clock) }

/-- One step of a task, unless it is over or has to wait. -/
def step (next : Rounds σ ρ δ) (t : Task σ ρ) (w : World) (d : δ) :
    Option (Task σ ρ) × World × δ :=
  match t.state with
  | .inr _ => (none, w, d)
  | .inl (.done (.inr r)) => (some (t.stop (.answered r) w.clock), w, d)
  | .inl (.done (.inl s)) => let (p, d) := next s d; (some { t with state := .inl p }, w, d)
  | .inl .crash => (some (t.stop .crashed w.clock), w.leaveBehind t.client, d)
  | .inl p => let (p, w) := p.step t.client w; (p.map fun p => { t with state := .inl p }, w, d)

/-- Steps a task until it is over or has to wait, at most `fuel` times. The flag tells
whether it got on at all. -/
def run (next : Rounds σ ρ δ) :
    Nat → Task σ ρ → World → δ → Bool → Bool × Task σ ρ × World × δ
  | 0, t, w, d, moved => (moved, t, w, d)
  | fuel + 1, t, w, d, moved =>
    match t.step next w d with
    | (some t, w, d) => run next fuel t w d true
    | (none, w, d) => (moved, t, w, d)

/-- Drops a task that is not over. -/
def drop (t : Task σ ρ) (w : World) : Task σ ρ × World :=
  if t.isOver then (t, w) else (t.stop .blocked w.clock, w.leaveBehind t.client)

/-- The next moment at which a waiting task goes on or is dropped. -/
def alarm? (w : World) (t : Task σ ρ) : Option Nat :=
  match t.state with
  | .inl p => some (((p.alarm? t.client w).map (min t.limit)).getD t.limit)
  | .inr _ => none

/-- A task waits at its limit: it is not over, and has more left to do than to answer. -/
def isLate (w : World) (t : Task σ ρ) : Bool :=
  !t.isOver && (t.answer? w.clock).isNone && decide (t.limit ≤ w.clock)

end Task

namespace Tasks

/-- More steps than any run takes. -/
def plenty : Nat := 1000000000000

/-- Lets each task run in turn, and drops it where it waits at its limit. The flag tells
whether one of them got on. -/
def pass (next : Rounds σ ρ δ) (w : World) (d : δ) :
    List (Task σ ρ) → Bool × World × δ × List (Task σ ρ)
  | [] => (false, w, d, [])
  | t :: ts =>
    let (moved, t, w, d) := t.run next plenty w d false
    let late := t.isLate w
    let (t, w) := if late then t.drop w else (t, w)
    let (others, w, d, ts) := pass next w d ts
    (moved || late || others, w, d, t :: ts)

/-- Drops all tasks that wait. -/
def dropAll (w : World) : List (Task σ ρ) → World × List (Task σ ρ)
  | [] => (w, [])
  | t :: ts =>
    let (t, w) := if (t.answer? w.clock).isSome then (t, w) else t.drop w
    let (w, ts) := dropAll w ts
    (w, t :: ts)

/-- The moment to which the clock moves when all wait. -/
def nextAlarm (s : Tasks σ ρ δ) : Nat :=
  max s.world.clock (((s.list.filterMap (·.alarm? s.world)).min?).getD s.world.clock)

/-- Runs the tasks to their ends; those that are not over after `fuel` passes are dropped. -/
def runAll (next : Rounds σ ρ δ) : Nat → Tasks σ ρ δ → Tasks σ ρ δ
  | 0, s => let (w, ts) := dropAll s.world s.list; { s with world := w, list := ts }
  | fuel + 1, s =>
    let (moved, w, d, ts) := pass next s.world s.shared s.list
    let s : Tasks σ ρ δ := ⟨w, d, ts⟩
    if ts.all (·.isOver) then s
    else if moved then runAll next fuel s
    else runAll next fuel { s with world := { w with clock := s.nextAlarm } }

end Tasks

end WagerLedger

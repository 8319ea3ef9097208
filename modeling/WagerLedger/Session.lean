import WagerLedger.Session.Rounds

/-! # Sessions

A session is a list of steps on one new ledger, each an operation or several side by side.
Each step tells its result, the clock after it, and the calls and events since the step
before. -/
namespace WagerLedger

/-- One operation, or several side by side, each after a delay. -/
inductive Step
  | one (op : Operation)
  | together (tasks : List (Duration × Operation))

/-- What a step came to: one ending, or one for each of its operations. -/
inductive StepEnding
  | one (e : Ending Reply)
  | together (es : List (Ending Reply × Nat))

structure StepResult where
  ending : StepEnding
  clock : Nat
  calls : List StoreCall
  events : List Event

structure Session where
  world : World
  desk : Desk

namespace Session

/-- How long an operation may wait, in milliseconds. -/
def patience : Nat := 3600000

/-- The task of an operation that starts after a delay, and is given up a while after that. -/
def task (start : Nat) (client : ClientId) (delay : Duration) (op : Operation) :
    Task Stage Reply where
  client := client
  limit := start + delay.sleepMillis + patience
  state := .inl (do
    Program.request (.sleep delay)
    return .inl (.start op))

def runTasks (s : Session) (ts : List (Duration × Operation)) : Tasks Stage Reply Desk :=
  let tasks := ts.mapIdx fun n (delay, op) => task s.world.clock (n + 1) delay op
  Tasks.runAll rounds Tasks.plenty ⟨s.world, s.desk, tasks⟩

def endingOf (endings : List (Ending Reply × Nat)) : Step → StepEnding
  | .one _ => .one ((endings.head?.map (·.1)).getD .blocked)
  | .together _ => .together endings

def operations : Step → List (Duration × Operation)
  | .one op => [(.zero, op)]
  | .together ts => ts

def step (s : Session) (p : Step) : StepResult × Session :=
  let ts := s.runTasks (operations p)
  let w := ts.world
  ({ ending := endingOf (ts.list.filterMap (·.ending?)) p
     clock := w.clock
     calls := w.calls.drop s.world.calls.length
     events := w.events.drop s.world.events.length }, ⟨w, ts.shared⟩)

def steps (s : Session) : List Step → List StepResult × Session
  | [] => ([], s)
  | p :: ps =>
    let (r, s) := s.step p
    let (rs, s) := s.steps ps
    (r :: rs, s)

def new (config : Settings) (probes : List Probe) : Session where
  world := .start (fun _ => .ofList []) probes
  desk := ⟨config, .empty, .empty⟩

/-- What an operation comes to on a ledger that refuses to begin a transaction. -/
def refused (config : Settings) (e : LedgerError) (op : Operation) : StepEnding :=
  ((new config [⟨StoreCall.begin.name, 1, none, some e⟩]).step (.one op)).1.ending

/-- The committed balance and spins of each account, in the order of their ids. -/
def accounts (s : Session) : List (Decimal × List Spin) :=
  let l := s.world.store.ledger
  let ids : List AccountId := (List.range l.lastAccountId.toNat).map fun n => Int.ofNat (n + 1)
  ids.filterMap fun id => (l.balance? id).map fun b => (b, l.spinsOf id)

end Session

end WagerLedger

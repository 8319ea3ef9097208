import WagerLedger.Interleaving
import WagerLedger.Session

/-! # Calls on a new ledger

Any number of calls, each of which makes its first step when its turn comes, on one new
ledger, with any source of random words and any probes on the calls of the store. -/
namespace WagerLedger

structure Scenario where
  config : Settings
  entropy : Nat → Words
  probes : List Probe
  calls : List Operation

namespace Scenario

/-- The call with number `n` is made by client `n + 1`. -/
def task (n : Nat) (op : Operation) : Task Stage Reply where
  client := n + 1
  limit := Session.patience
  state := .inl (.done (.inl (.start op)))

def start (c : Scenario) : Tasks Stage Reply Desk where
  world := .start c.entropy c.probes
  shared := ⟨c.config, .empty, .empty⟩
  list := c.calls.mapIdx task

def after (c : Scenario) (us : List Turn) : Tasks Stage Reply Desk :=
  c.start.turns Session.rounds us

def ledger (c : Scenario) (us : List Turn) : Ledger := (c.after us).world.store.ledger

/-- The turn with number `k` leaves the ledger as it was. -/
def Still (c : Scenario) (us : List Turn) (k : Nat) : Prop :=
  c.ledger (us.take (k + 1)) = c.ledger (us.take k)

/-- The answer of a call, if it has one after the turns. -/
def answer? (c : Scenario) (us : List Turn) (n : Nat) : Option Reply :=
  (c.after us).list[n]?.bind (·.answer? (c.after us).world.clock)

end Scenario

end WagerLedger

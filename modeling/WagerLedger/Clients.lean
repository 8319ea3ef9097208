import WagerLedger.World

/-! # Clients of the store

Any number of clients that make single calls on one store, each when its turn comes: they open
transactions, make data calls in them and end them, and they seed accounts, while windows of
faults are opened and closed. What goes into the ledger is noted in the order in which it does. -/
namespace WagerLedger

instance : (c : DataCall) → DecidableEq c.Answer
  | .find _ => inferInstanceAs (DecidableEq (Option Account))
  | .insert _ => inferInstanceAs (DecidableEq Account)
  | .lockBalance _ => inferInstanceAs (DecidableEq (Option Decimal))
  | .writeBalance .. => inferInstanceAs (DecidableEq Unit)
  | .append _ => inferInstanceAs (DecidableEq Spin)
  | .list .. => inferInstanceAs (DecidableEq (List Spin))

/-- A data call that has come back, if it has tripped with the error of a fault. -/
structure AnsweredCall where
  call : DataCall
  answer : Except LedgerError call.Answer
  tripped : Bool
deriving DecidableEq

/-- What a client waits for the lock for. -/
inductive Purpose
  | transaction
  | seed (externalId : Identifier) (balance : Decimal)

inductive Client
  | idle
  | waiting (purpose : Purpose)
  /-- It has a transaction open, and these calls on it have come back. -/
  | inside (calls : List AnsweredCall)

/-- What goes into the ledger at one moment. -/
inductive Block
  | transaction (calls : List AnsweredCall)
  | seed (externalId : Identifier) (balance : Decimal) (account : Account)
deriving DecidableEq

inductive ClientStep
  | begin
  | seed (externalId : Identifier) (balance : Decimal)
  /-- Asks for the lock, for the first time or again. -/
  | poll
  | giveUp
  | data (call : DataCall)
  | commit
  | rollback
  | drop
  | inject (point : FaultPoint) (skip times : Nat)
  | clearFaults

/-- The call with number `n` is made by client `n + 1` of the world. -/
structure Clients where
  world : World
  client : Nat → Client
  committed : List Block

namespace Clients

def on (s : Store) : Clients where
  world := { World.start (fun _ => .ofList []) [] with store := s }
  client _ := .idle
  committed := []

def put (c : Clients) (n : Nat) (a : Client) (w : World) : Clients :=
  { c with world := w, client := fun m => if m = n then a else c.client m }

def note (c : Clients) (b : Block) : Clients := { c with committed := c.committed ++ [b] }

def arrive (c : Clients) (n : Nat) : Clients :=
  match c.world.perform (n + 1) .arrive with
  | (some (.ok ()), w) => c.put n (.waiting .transaction) w
  | (_, w) => c.put n .idle w

/-- The lock has come; a seed lets go of it at once. -/
def enter (c : Clients) (n : Nat) (w : World) : Purpose → Clients
  | .transaction => c.put n (.inside []) w
  | .seed ext b =>
    match w.perform (n + 1) (.seed ext b) with
    | (some (.ok a), w) => (c.put n .idle (w.discard (n + 1))).note (.seed ext b a)
    | (_, w) => c.put n .idle (w.discard (n + 1))

def poll (c : Clients) (n : Nat) (p : Purpose) : Clients :=
  match c.world.perform (n + 1) .acquire with
  | (some (), w) => c.enter n w p
  | (none, w) => c.put n (.waiting p) w

def data (c : Clients) (n : Nat) (calls : List AnsweredCall) (d : DataCall) : Clients :=
  match c.world.perform (n + 1) (.data d) with
  | (some a, w) => c.put n (.inside (calls ++ [⟨d, a, c.world.store.trips d⟩])) w
  | (none, w) => c.put n (.inside calls) w

/-- The handle is gone whatever comes of the commit. -/
def commit (c : Clients) (n : Nat) (calls : List AnsweredCall) : Clients :=
  match c.world.perform (n + 1) .commit with
  | (some (.ok ()), w) => (c.put n .idle w).note (.transaction calls)
  | (_, w) => c.put n .idle w

/-- A step of client `n`; one that it cannot take where it stands changes nothing. -/
def step (c : Clients) (n : Nat) (s : ClientStep) : Clients :=
  match c.client n, s with
  | a, .inject p skip times => c.put n a (c.world.perform (n + 1) (.inject p skip times)).2
  | a, .clearFaults => c.put n a (c.world.perform (n + 1) .clearFaults).2
  | .idle, .begin => c.arrive n
  | .idle, .seed ext b => c.put n (.waiting (.seed ext b)) c.world
  | .waiting p, .poll => c.poll n p
  | .waiting _, .giveUp => c.put n .idle (c.world.giveUp (n + 1) .acquire)
  | .inside calls, .data d => c.data n calls d
  | .inside calls, .commit => c.commit n calls
  | .inside _, .rollback => c.put n .idle (c.world.perform (n + 1) .rollback).2
  | .inside _, .drop => c.put n .idle (c.world.perform (n + 1) .discard).2
  | _, _ => c

def run (c : Clients) (steps : List (Nat × ClientStep)) : Clients :=
  steps.foldl (fun c x => c.step x.1 x.2) c

end Clients

namespace Block

/-- A block as it would be without the calls that hit a fault. -/
def untripped : Block → Block
  | .transaction calls => .transaction (calls.filter (!·.tripped))
  | .seed ext b a => .seed ext b a

/-- The steps that a client takes to make a block. -/
def steps : Block → List ClientStep
  | .transaction calls =>
    .begin :: .poll :: ((calls.filter (!·.tripped)).map (.data ·.call) ++ [.commit])
  | .seed ext b _ => [.seed ext b, .poll]

end Block

namespace Clients

/-- One client alone makes all blocks, one after the other, where no call fails by a fault. -/
def alone (l : Ledger) (bs : List Block) : Clients :=
  (on ⟨l, .none⟩).run ((bs.flatMap Block.steps).map (0, ·))

end Clients

end WagerLedger

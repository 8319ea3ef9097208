import WagerLedger.Program

/-! # The world of the clients

The store with its one lock, a clock in whole milliseconds, timers, signals, a source of
randomness, and what observers have seen. `perform` answers a request of a client or lets it
wait; a client that waits asks again. The lock goes to those who wait for it in their order. -/
namespace WagerLedger

/-- Clients are numbered; number zero stands for whoever takes up a transaction that was left. -/
abbrev ClientId := Nat

structure World where
  store : Store
  clock : Nat
  /-- Who holds the lock, and the transaction that is open under it. -/
  holder : Option (ClientId × Transaction)
  queue : List ClientId
  timers : Table ClientId Nat
  signals : Signals
  entropy : Nat → Words
  sources : Nat
  probes : List Probe
  calls : List StoreCall
  events : List Event

namespace World

/-- An empty ledger at the start of the clock. -/
def start (entropy : Nat → Words) (probes : List Probe) : World where
  store := .empty
  clock := 0
  holder := none
  queue := []
  timers := .empty
  signals := .empty
  entropy := entropy
  sources := 0
  probes := probes
  calls := []
  events := []

def transaction? (w : World) (i : ClientId) : Option Transaction :=
  match w.holder with
  | some (j, t) => if j = i then some t else none
  | none => none

/-- Hands the lock to the first who waits for it. -/
def release (w : World) : World :=
  match w.queue with
  | [] => { w with holder := none }
  | j :: rest => { w with holder := some (j, .empty), queue := rest }

def acquire (w : World) (i : ClientId) : Option Unit × World :=
  match w.holder with
  | none => (some (), { w with holder := some (i, .empty) })
  | some (j, _) =>
    if j = i then (some (), w)
    else (none, if i ∈ w.queue then w else { w with queue := w.queue ++ [i] })

/-- A data call of the client that holds the lock; others wait. -/
def data (w : World) (i : ClientId) (c : DataCall) :
    Option (Except LedgerError c.Answer) × World :=
  match w.transaction? i with
  | none => (none, w)
  | some t =>
    let (r, t, s) := w.store.call t c
    (some r, { w with store := s, holder := some (i, t) })

def commit (w : World) (i : ClientId) : Option (Except LedgerError Unit) × World :=
  match w.transaction? i with
  | none => (none, w)
  | some t =>
    let (r, s) := w.store.commit t
    (some r, { w with store := s }.release)

def rollback (w : World) (i : ClientId) : Option (Except LedgerError Unit) × World :=
  match w.transaction? i with
  | none => (none, w)
  | some _ =>
    let (r, s) := w.store.rollback
    (some r, { w with store := s }.release)

def discard (w : World) (i : ClientId) : World :=
  if (w.transaction? i).isSome then w.release else w

def handOver (w : World) (i j : ClientId) : Bool × World :=
  match w.transaction? i with
  | some t => (true, { w with holder := some (j, t) })
  | none => (false, w)

/-- A sleep ends at the first whole millisecond that is not before its end. -/
def sleep (w : World) (i : ClientId) (d : Duration) : Option Unit × World :=
  let due := (w.timers.get? i).getD (w.clock + d.sleepMillis)
  if due ≤ w.clock then (some (), { w with timers := w.timers.remove i })
  else (none, { w with timers := w.timers.put i due })

/-- Notes a call, and finds the probes that wait for it. -/
def note (w : World) (c : StoreCall) : List Probe × World :=
  let w := { w with calls := w.calls ++ [c] }
  let n := (w.calls.filter (·.name == c.name)).length
  (w.probes.filter fun p => p.name == c.name && p.nth == n, w)

def mapLedger {α : Type} (w : World) (f : Ledger → α × Ledger) : α × World :=
  let (a, l) := f w.store.ledger
  (a, { w with store := { w.store with ledger := l } })

def setFaults (w : World) (f : Faults) : World := { w with store := { w.store with faults := f } }

/-- Answers a request of client `i`, or has it wait. -/
def perform (w : World) (i : ClientId) : (r : Request) → Option r.Answer × World
  | .arrive => let (a, s) := w.store.visit .begin; (some a, { w with store := s })
  | .acquire => w.acquire i
  | .data c => w.data i c
  | .commit => w.commit i
  | .rollback => w.rollback i
  | .discard => (some (), w.discard i)
  | .leave => (some (), (w.handOver i 0).2)
  | .takeUp => let (a, w) := w.handOver 0 i; (some a, w)
  | .seed ext b => let (a, w) := w.mapLedger (·.seed ext b); (some a, w)
  | .balanceOf id => (some (w.store.ledger.balance? id), w)
  | .spinsOf id => (some (w.store.ledger.spinsOf id), w)
  | .inject p skip times => (some (), w.setFaults (w.store.faults.inject p skip times))
  | .clearFaults => (some (), w.setFaults .none)
  | .createSignal =>
    let (a, s) := w.signals.create
    (some a, { w with signals := s })
  | .isCancelled s => (some (w.signals.isCancelled s), w)
  | .cancel s => (some (), { w with signals := w.signals.cancel s })
  | .dropHandle s => (some (), { w with signals := w.signals.drop s })
  | .check c => (some (c.check w.signals (w.clock * Duration.nanosPerMilli)), w)
  | .poll => (some (), w)
  | .note c => let (a, w) := w.note c; (some a, w)
  | .sleep d => w.sleep i d
  | .never => (none, w)
  | .clock => (some w.clock, w)
  | .entropy => (some (w.entropy w.sources), { w with sources := w.sources + 1 })
  | .emit e => (some (), { w with events := w.events ++ [e] })

def giveUp (w : World) (i : ClientId) : Request → World
  | .acquire => { w with queue := w.queue.erase i }.discard i
  | .sleep _ => { w with timers := w.timers.remove i }
  | _ => w

/-- Client `i` goes away: it waits no longer, and its open transaction is dropped. -/
def leaveBehind (w : World) (i : ClientId) : World :=
  { w with queue := w.queue.erase i, timers := w.timers.remove i }.discard i

/-- Tells whether a context that somebody waits for is over. -/
def over? (w : World) (c : Context) : Option SettlementError := c.done? w.signals w.clock

/-- Whether client `i` looks at its context before it makes a request of a race: where the race
begins, where time is to pass, and where it goes on after it has waited for the lock. -/
def looks (w : World) (i : ClientId) : Request → Bool
  | .poll | .sleep _ | .never => true
  | .acquire => decide (i ∈ w.queue) || (w.transaction? i).isSome
  | _ => false

/-- The error that ends a race before a request. -/
def ended? (w : World) (i : ClientId) (c : Context) (r : Request) : Option SettlementError :=
  if w.looks i r then w.over? c else none

theorem over?_of_ended? {w : World} {i : ClientId} {c : Context} {r : Request}
    {e : SettlementError} (h : w.ended? i c r = some e) : w.over? c = some e := by
  rw [ended?] at h
  split at h
  · exact h
  · cases h

theorem ended?_sleep (w : World) (i : ClientId) (c : Context) (d : Duration) :
    w.ended? i c (.sleep d) = w.over? c := rfl

theorem ended?_eq_none {w : World} {c : Context} (h : w.over? c = none) (i : ClientId)
    (r : Request) : w.ended? i c r = none := by
  rw [ended?, h, ite_self]

end World

namespace Program

/-- One step of client `i`: what its program becomes, unless it has ended or has to wait. -/
def step {α : Type} (i : ClientId) (w : World) : Program α → Option (Program α) × World
  | done _ => (none, w)
  | crash => (none, w)
  | ask r k => let (a, w) := w.perform i r; (a.map k, w)
  | race c r k =>
    match w.ended? i c r with
    | some e => (some (k (.error e)), w.giveUp i r)
    | none => let (a, w) := w.perform i r; (a.map fun a => k (.ok a), w)

/-- The next moment at which time alone lets a waiting program go on. -/
def alarm? {α : Type} (i : ClientId) (w : World) : Program α → Option Nat
  | done _ | crash => none
  | ask .. => w.timers.get? i
  | race c .. => [w.timers.get? i, c.alarm?].reduceOption.min?

end Program

end WagerLedger

import WagerLedger.Scheduler
import WagerLedger.Session.Operation
import WagerLedger.Settlement
import WagerLedger.Wallet

/-! # Operations as rounds

Each operation starts with a program. A settlement or another retried operation goes by
rounds, one for each attempt; a new context is named in a round of its own. -/
namespace WagerLedger

/-- A scripted operation under a retry policy, between two attempts. -/
structure ScriptedRetry where
  context : Context
  retry : Retry
  attempts : List ScriptedAttempt
  log : List (UInt32 × Nat)

/-- What a task goes on with at the end of a round. -/
inductive Stage
  | start (op : Operation)
  | settle (s : Settlement)
  | retry (s : ScriptedRetry)
  | name (name : String) (context : Context) (handle : Option SignalId)

namespace Session

abbrev RoundProgram := Program (Stage ⊕ Reply)

def answer (p : Program Reply) : RoundProgram := Sum.inr <$> p

def wallet {α : Type} (p : LedgerProgram α) (f : α → Reply) : RoundProgram :=
  answer (Reply.ofLedger f <$> p.run.observed)

/-- Works with the lock of the ledger held, outside any transaction. -/
def locked {α : Type} (r : Request) (f : r.Answer → α) : Program α := do
  Program.request .acquire
  let a ← Program.request r
  Program.request .discard
  return f a

def beginKept : RoundProgram := do
  match ← LedgerProgram.begin.run.observed with
  | .ok () => do
    Program.request .leave
    return .inr .nothing
  | .error e => return .inr (.ledgerError e)

def dataReply : (c : DataCall) → c.Answer → Reply
  | .find _, a => .ofOption .account a
  | .insert _, a => .account a
  | .lockBalance _, a => .ofOption .amount a
  | .writeBalance .., () => .nothing
  | .append _, a => .spin a
  | .list .., a => .spins a

/-- A move on the transaction taken up, and whether it stays open. -/
def moveBody : Move → Program Reply × Bool
  | .data c => (Reply.ofLedger (dataReply c) <$> (LedgerProgram.call c).run, true)
  | .adjust id a => (Reply.ofLedger .amount <$> (LedgerProgram.adjust id a).run, true)
  | .credit id a => (Reply.ofLedger .amount <$> (LedgerProgram.credit id a).run, true)
  | .debit id a => (Reply.ofLedger .amount <$> (LedgerProgram.debit id a).run, true)
  | .commit => (Reply.ofLedger (fun _ => .nothing) <$> LedgerProgram.commit.run, false)
  | .rollback => (Reply.ofLedger (fun _ => .nothing) <$> Program.request .rollback, false)
  | .drop => ((fun _ => .nothing) <$> Program.request .discard, false)

def move (m : Move) : Program Reply := do
  if ← Program.request .takeUp then
    let (body, stays) := moveBody m
    let r ← body.observed
    if stays then
      Program.request .leave
      return r
    else return r
  else return .noTransaction

/-- The deadlines of a context, those from now first. -/
def addDeadlines (now : Instant) (timeouts deadlines : List Duration) (c : Context) :
    Option Context := do
  let c ← timeouts.foldlM (fun c d => c.withDeadline <$> instantAfter? now d) c
  deadlines.foldlM (fun c d => c.withDeadline <$> instantAfter? 0 d) c

/-- Makes a context from another one, with a new signal, or from nothing. -/
def makeContext (d : Desk) (name : String) (cancellable : Bool) (source : Option String)
    (timeouts deadlines : List Duration) : RoundProgram := do
  let clock ← Program.request .clock
  let finish (c : Context) (handle : Option SignalId) : RoundProgram :=
    match addDeadlines (clock * Duration.nanosPerMilli) timeouts deadlines c with
    | some c => return .inl (.name name c handle)
    | none => .crash
  match source with
  | some n => finish (d.context (some n)) none
  | none =>
    if cancellable then
      let s ← Program.request .createSignal
      finish ⟨some s, none⟩ (some s)
    else finish .background none

def cancel (s : SignalId) : Program Reply := do
  let before ← Program.request (.isCancelled s)
  Program.request (.cancel s)
  let after ← Program.request (.isCancelled s)
  return .flags before after

def await (c : Context) : Program Reply := do
  match ← ((nomatch ·) <$> Program.request .never : Program (Except SettlementError Unit)).raced c with
  | .error e => return .settlementError e
  | .ok () => return .nothing

/-- Attempts past the end of the script repeat its last one. -/
def scripted (attempts : List ScriptedAttempt) (n : UInt32) : SpinProgram String :=
  match attempts[n.toNat - 1]?.or attempts.getLast? with
  | none => ExceptT.lift .crash
  | some a => do
    ExceptT.lift (Program.request (.sleep a.span))
    ExceptT.mk (pure a.outcome)

def retryRound (s : ScriptedRetry) : RoundProgram := do
  let clock ← Program.request .clock
  let log := s.log ++ [(s.retry.attempt, clock)]
  match ← s.retry.round s.context (scripted s.attempts) with
  | .inl retry => return .inl (.retry { s with retry := retry, log := log })
  | .inr r => return .inr (.retried r log)

/-- The net of a spin is part of the answer, so one without net breaks the step off. -/
def settled (s : Spin) : Program Reply :=
  match s.net? with
  | some net => return .settled s net
  | none => .crash

def settleRound (r : Settlement ⊕ Except SettlementError Spin) : RoundProgram :=
  match r with
  | .inl s => return .inl (.settle s)
  | .inr (.ok spin) => answer (settled spin)
  | .inr (.error e) => return .inr (.settlementError e)

def start (d : Desk) : Operation → RoundProgram × Desk
  | .seed ext b => (answer (locked (.seed ext b) (Reply.ofLedger .account)), d)
  | .openAccount ext => (wallet (Wallet.openAccount ext) .account, d)
  | .account ext => (wallet (Wallet.account ext) .account, d)
  | .deposit ext a => (wallet (Wallet.deposit ext a) .amount, d)
  | .withdraw ext a => (wallet (Wallet.withdraw ext a) .amount, d)
  | .settle ext bet ctx => (Settlement.start d.engine (d.context ctx) ext bet >>= settleRound, d)
  | .history ext limit =>
    (answer (Reply.ofSpin .spins <$> (Settlement.history ext limit).run.observed), d)
  | .engine config => (return .inr (.config config), { d with engine := config })
  | .balanceOf id => (answer (locked (.balanceOf id) (Reply.ofOption .amount)), d)
  | .spinsOf id => (answer (locked (.spinsOf id) .spins), d)
  | .fault p skip times =>
    (answer ((fun _ => .point p) <$> Program.request (.inject p skip times)), d)
  | .clearFaults => (answer ((fun _ => .nothing) <$> Program.request .clearFaults), d)
  | .sleep span => (answer ((fun _ => .nothing) <$> Program.request (.sleep span)), d)
  | .context name cancellable source timeouts deadlines =>
    (makeContext d name cancellable source timeouts deadlines, d)
  | .checkContext name =>
    (answer (Reply.ofOption .settlementError <$> Program.request (.check (d.context (some name)))), d)
  | .awaitContext name => (answer (await (d.context (some name))), d)
  | .cancel name =>
    match d.handles.get? name with
    | some s => (answer (cancel s), d)
    | none => (return .inr .nothing, d)
  | .dropHandle name =>
    match d.handles.get? name with
    | some s =>
      (answer ((fun _ => .flag true) <$> Program.request (.dropHandle s)),
        { d with handles := d.handles.remove name })
    | none => (return .inr (.flag false), d)
  | .retry config attempts ctx =>
    ((fun r => .inl (.retry ⟨d.context ctx, r, attempts, []⟩)) <$> Retry.start config, d)
  | .begin => (beginKept, d)
  | .move m => (answer (move m), d)

/-- The context gets its name; its deadline, in whole milliseconds, is the answer. -/
def named (d : Desk) (name : String) (c : Context) (handle : Option SignalId) : Reply × Desk :=
  (.ofOption (fun t => .millis (t / Duration.nanosPerMilli)) c.deadline,
    { d with
      contexts := d.contexts.put name c
      handles := (handle.map (d.handles.put name)).getD d.handles })

def rounds : Rounds Stage Reply Desk
  | .start op, d => start d op
  | .settle s, d => (s.round.observed >>= settleRound, d)
  | .retry s, d => (retryRound s, d)
  | .name name c handle, d => let (r, d) := named d name c handle; (return .inr r, d)

end Session

end WagerLedger

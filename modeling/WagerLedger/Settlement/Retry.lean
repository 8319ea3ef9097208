import WagerLedger.Program
import WagerLedger.Settlement.Backoff

/-! # Retries

A failed attempt is made again, after a delay, while its error is recoverable, the backoff
grants a delay and the context is not over. The loop goes by rounds: a round is one attempt
and the wait after it, and hands on the state of the next round or the result. Attempts are
numbered from one with words of 32 bits; where there is no further number the run breaks
off. -/
namespace WagerLedger

/-- A program that may end with an error of a settlement. -/
abbrev SpinProgram (α : Type) := ExceptT SettlementError Program α

/-- The number after another one, if it is a word of 32 bits. -/
def numberAfter? (n : UInt32) : Option UInt32 :=
  if n.toNat + 1 < UInt32.size then some (n + 1) else none

theorem numberAfter?_eq_some {n m : UInt32} :
    numberAfter? n = some m ↔ m.toNat = n.toNat + 1 := by
  unfold numberAfter?
  have hm := m.toNat_lt_size
  split
  · rename_i h
    have hsucc : (n + 1).toNat = n.toNat + 1 := by
      rw [UInt32.toNat_add]
      exact Nat.mod_eq_of_lt h
    rw [Option.some_inj, ← UInt32.toNat_inj, hsucc, eq_comm]
  · exact ⟨nofun, fun h => by omega⟩

theorem numberAfter?_eq_none {n : UInt32} :
    numberAfter? n = none ↔ UInt32.size ≤ n.toNat + 1 := by
  unfold numberAfter?
  split
  · exact ⟨nofun, fun h => by omega⟩
  · exact ⟨fun _ => by omega, fun _ => rfl⟩

structure Retry where
  attempt : UInt32
  started : Nat
  backoff : Backoff
  words : Words

namespace Retry

def start (config : RetryPlan) : Program Retry := do
  let started ← Program.request .clock
  let words ← Program.request .entropy
  return ⟨1, started, .start config, words⟩

def elapsedSince (started : Nat) : Program Duration := do
  let now ← Program.request .clock
  return .ofMillis (now - started)

/-- Waits out a delay, unless the context is over before. -/
def pause (c : Context) (delay : Duration) : SpinProgram Unit :=
  ExceptT.mk ((Except.ok <$> Program.request (.sleep delay)).raced c)

def afterFailure {α : Type} (c : Context) (s : Retry) (e : SettlementError) :
    Program (Retry ⊕ Except SettlementError α) := do
  let elapsed ← elapsedSince s.started
  match s.backoff.next elapsed s.words with
  | .error _ => .crash
  | .ok (none, _, _) => do
    let told ← elapsedSince s.started
    Program.request (.emit (.budgetExhausted s.attempt told e))
    return .inr (.error e)
  | .ok (some delay, backoff, words) => do
    Program.request (.emit (.retrying s.attempt delay e))
    match ← (pause c delay).run with
    | .error e => return .inr (.error e)
    | .ok () =>
      match numberAfter? s.attempt with
      | some n => return .inl { s with attempt := n, backoff := backoff, words := words }
      | none => .crash

def round {α : Type} (c : Context) (op : UInt32 → SpinProgram α) (s : Retry) :
    Program (Retry ⊕ Except SettlementError α) := do
  match ← (op s.attempt).run with
  | .error e => if e.isRecoverable then afterFailure c s e else return .inr (.error e)
  | .ok a =>
    if 1 < s.attempt then do
      let elapsed ← elapsedSince s.started
      Program.request (.emit (.succeededAfterRetry s.attempt elapsed))
      return .inr (.ok a)
    else return .inr (.ok a)

end Retry

end WagerLedger

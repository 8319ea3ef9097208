import WagerLedger.Settlement.Backoff

/-! # Delays by the clock

A backoff is asked for delays on a clock that only sleeping moves. -/
namespace WagerLedger

/-- What is done next: ask for a delay, ask and sleep it, or sleep. -/
inductive Cue
  | next
  | nextSleep
  | sleep (span : Duration)

/-- What a cue told: the delay and the words used so far, the time that has passed, or both. -/
inductive CueResult
  | asked (delay : Option Duration) (draws : Nat)
  | askedAndSlept (delay : Option Duration) (draws : Nat) (elapsed : Duration)
  | slept (elapsed : Duration)

namespace Backoff

/-- One cue at some moment of the clock, and the moment after it. -/
def cue (b : Backoff) (words : Words) (clock : Nat) :
    Cue → Except DelayError (CueResult × Backoff × Words × Nat)
  | .next => do
    let (delay, b, words) ← b.next (.ofMillis clock) words
    return (.asked delay words.used, b, words, clock)
  | .nextSleep => do
    let (delay, b, words) ← b.next (.ofMillis clock) words
    let clock := clock + (delay.getD .zero).sleepMillis
    return (.askedAndSlept delay words.used (.ofMillis clock), b, words, clock)
  | .sleep span =>
    let clock := clock + span.sleepMillis
    return (.slept (.ofMillis clock), b, words, clock)

def play (b : Backoff) (words : Words) (clock : Nat) :
    List Cue → Except DelayError (List CueResult)
  | [] => return []
  | c :: cs => do
    let (r, b, words, clock) ← b.cue words clock c
    return r :: (← b.play words clock cs)

end Backoff

end WagerLedger

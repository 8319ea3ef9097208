import WagerLedger.Number.Binary64

/-! # Random words

A source hands out 64-bit words one after the other and counts them. Draws turn a word into
a double: its top 53 bits make a fraction of one, its top 52 bits a place in a band. -/
namespace WagerLedger

structure Words where
  word : Nat → BitVec 64
  used : Nat

namespace Words

/-- The words of a list, and zeros after them. -/
def ofList (ws : List (BitVec 64)) : Words := ⟨fun i => ws.getD i 0, 0⟩

def next (s : Words) : BitVec 64 × Words := (s.word s.used, { s with used := s.used + 1 })

/-- The fraction of a word: its top 53 bits over 2^53. -/
def fraction (w : BitVec 64) : Binary64 :=
  Binary64.round false (w.toNat / 2048) 9007199254740992

/-- A uniform draw from [0, 1). -/
def draw (s : Words) : Binary64 × Words := (fraction s.next.1, s.next.2)

end Words

end WagerLedger

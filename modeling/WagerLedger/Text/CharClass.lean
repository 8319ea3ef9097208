/-! # Classes of characters

A class is given by ranges of code points. -/
namespace WagerLedger

/-- First and last code point of each range, in order. -/
abbrev CharClass := List (Nat × Nat)

def CharClass.has (k : CharClass) (c : Char) : Bool :=
  k.any fun (first, last) => decide (first ≤ c.toNat ∧ c.toNat ≤ last)

end WagerLedger

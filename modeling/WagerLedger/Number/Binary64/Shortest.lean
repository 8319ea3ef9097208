import WagerLedger.Number.Binary64.Arithmetic
import WagerLedger.Text.Digits

/-! # The shortest decimal of a double

A positive finite double is written by the fewest decimal digits that read back as it, and
among those by the nearest to it, of two the larger. The text is positional, whatever the
exponent. -/
namespace WagerLedger.Binary64

/-- The count of digits before the point of `a / b`; zero or less below one tenth. -/
def decimalExponent (a b : Nat) : Int :=
  let k : Int := (Digits.ofNat a).length - (Digits.ofNat b).length
  let atLeast := match k with
    | .ofNat j => decide (b * tenTo j ≤ a)
    | .negSucc j => decide (b ≤ a * tenTo (j + 1))
  if atLeast then k + 1 else k

/-- The fraction `a / b` in units of `10 ^ q`. -/
def inDecimalUnits (a b : Nat) : Int → Nat × Nat
  | .ofNat k => (a, b * tenTo k)
  | .negSucc k => (a * tenTo (k + 1), b)

def readsBack (x : Binary64) (d : Nat) (q : Int) : Bool := roundDecimal false d q == x

/-- The nearer of the two neighbours of `x = a / b` on the grid of `10 ^ q` that read back
as `x`; of two that are equally near the larger. -/
def onGrid? (x : Binary64) (a b : Nat) (q : Int) : Option Nat :=
  let (c, d) := inDecimalUnits a b q
  let low := c / d
  match readsBack x low q, readsBack x (low + 1) q with
  | true, true => some (roundUp c d)
  | true, false => some low
  | false, true => some (low + 1)
  | false, false => none

/-- Tries grids from coarse to fine; seventeen digits always suffice. -/
def searchGrids (x : Binary64) (a b : Nat) (k : Int) (digits : Nat) : Nat → Nat × Int
  | 0 => let q := k - digits; let (c, d) := inDecimalUnits a b q; (roundUp c d, q)
  | fuel + 1 =>
    match onGrid? x a b (k - digits) with
    | some d => (d, k - digits)
    | none => searchGrids x a b k (digits + 1) fuel

/-- Digits and exponent of the shortest decimal of the positive double `m * 2 ^ e`. -/
def shortest (x : Binary64) (m : Nat) (e : Int) : Nat × Int :=
  let (a, b) := fraction m e
  let (d, q) := searchGrids x a b (decimalExponent a b) 1 17
  if d % 10 = 0 then (d / 10, q + 1) else (d, q)

def positional (d : Nat) : Int → List Char
  | .ofNat k => Digits.ofNat (d * tenTo k)
  | .negSucc k => Digits.pointed d (k + 1)

def chars : Binary64 → List Char
  | .nan _ => ['N', 'a', 'N']
  | .infinity n => sign n ++ ['i', 'n', 'f']
  | .finite n m e h =>
    sign n ++
      if m = 0 then ['0']
      else let (d, q) := shortest (.finite false m e h) m e; positional d q
where
  sign (n : Bool) : List Char := if n then ['-'] else []

protected def toString (x : Binary64) : String := String.ofList x.chars

instance : ToString Binary64 := ⟨Binary64.toString⟩

end WagerLedger.Binary64

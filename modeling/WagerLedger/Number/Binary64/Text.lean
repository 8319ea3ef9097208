import WagerLedger.Number.Binary64
import WagerLedger.Text.Digits

/-! # Reading doubles

A double is written with an optional sign, digits with an optional point, and an optional
exponent, or by the name of an infinity or of a non-number in any case. It is read as the
double nearest to the decimal. -/
namespace WagerLedger

/-- What keeps a text from being a double. -/
inductive DoubleError
  | empty
  | invalid
deriving DecidableEq

def DoubleError.message : DoubleError → String
  | .empty => "cannot parse float from empty string"
  | .invalid => "invalid float literal"

namespace Binary64

/-- The double nearest to `d * 10 ^ q`; decimals far past either end of the range need no exact
arithmetic. -/
def ofDecimal (negative : Bool) (d : Nat) (q : Int) : Binary64 :=
  let size := (Digits.ofNat d).length + q
  if d = 0 ∨ size < -400 then zero negative
  else if 400 < size then .infinity negative
  else roundDecimal negative d q

def readSign : List Char → Bool × List Char
  | '-' :: cs => (true, cs)
  | '+' :: cs => (false, cs)
  | cs => (false, cs)

/-- The name of a value that is not finite. -/
def readName (negative : Bool) (cs : List Char) : Option Binary64 :=
  match String.ofList (cs.map Char.toLower) with
  | "inf" | "infinity" => some (.infinity negative)
  | "nan" => some (.nan negative)
  | _ => none

/-- The magnitude of an exponent. Past 65535 it grows no more: it is beyond either end of the
range of doubles. -/
def exponentMagnitude (ds : List Char) : Nat :=
  ds.foldl (fun n c => if n < 65536 then 10 * n + Digits.value c else n) 0

/-- An exponent after its mark: an optional sign and at least one digit. -/
def readExponent (cs : List Char) : Option Int :=
  let (negative, ds) := readSign cs
  if ds.isEmpty || !ds.all Char.isDigit then none
  else
    let n := exponentMagnitude ds
    some (if negative then -(n : Int) else n)

/-- Digits with an optional point, at least one digit in all, and an optional exponent. -/
def readNumber (negative : Bool) (cs : List Char) : Option Binary64 := do
  let whole := cs.takeWhile Char.isDigit
  let rest := cs.dropWhile Char.isDigit
  let (places, rest) := match rest with
    | '.' :: r => (r.takeWhile Char.isDigit, r.dropWhile Char.isDigit)
    | r => ([], r)
  if whole.isEmpty && places.isEmpty then none
  else
    let d := Digits.toNat (whole ++ places)
    match rest with
    | [] => some (ofDecimal negative d (-places.length))
    | c :: r =>
      if c == 'e' || c == 'E' then do
        let q ← readExponent r
        return ofDecimal negative d (q - places.length)
      else none

def ofChars (cs : List Char) : Except DoubleError Binary64 :=
  if cs.isEmpty then .error .empty
  else
    let (negative, rest) := readSign cs
    match (readName negative rest).or (readNumber negative rest) with
    | some x => .ok x
    | none => .error .invalid

def ofString (s : String) : Except DoubleError Binary64 := ofChars s.toList

end Binary64

end WagerLedger

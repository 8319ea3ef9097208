import WagerLedger.Number.Decimal.Arithmetic
import WagerLedger.Text.Digits

/-! # Decimals as text

Writing shows every place of the scale. Reading takes an optional sign, digits with at most
one point, and separators after the first digit; places that do not fit are rounded off
half up. What stands behind the digit that decides the rounding is checked after it. A text
that is not of this form may still be in scientific notation. -/
namespace WagerLedger

/-- What keeps a text from being a decimal. -/
inductive DecimalError
  | empty
  | noDigits
  | twoPoints
  | leadingSeparator
  | unknownCharacter
  | tooManyDigits
  | roundingOverflow
  | malformedExponent
  | exponentTooLarge (exponent : Nat)
  | outOfRange
deriving DecidableEq

def DecimalError.message : DecimalError → String
  | .empty => "Invalid decimal: empty"
  | .noDigits => "Invalid decimal: no digits found"
  | .twoPoints => "Invalid decimal: two decimal points"
  | .leadingSeparator => "Invalid decimal: must start lead with a number"
  | .unknownCharacter => "Invalid decimal: unknown character"
  | .tooManyDigits => "Invalid decimal: overflow from too many digits"
  | .roundingOverflow => "Invalid decimal: overflow from mantissa after rounding"
  | .malformedExponent => "Failed to parse"
  | .exponentTooLarge e => "Scale exceeds the maximum precision allowed: " ++ toString e ++ " > 28"
  | .outOfRange => "Number exceeds maximum value that can be represented."

namespace Decimal

def chars (d : Decimal) : List Char :=
  (if d.isNegative || d.minusZero then ['-'] else []) ++ Digits.pointed d.coefficient.natAbs d.scale

protected def toString (d : Decimal) : String := String.ofList d.chars

instance : ToString Decimal := ⟨Decimal.toString⟩

/-- What has been read of a number: its magnitude so far, the places after the point, and
whether a point and a digit have been seen. -/
structure Reading where
  magnitude : Nat
  scale : Nat
  point : Bool
  digit : Bool

def signed (negative : Bool) (m : Nat) : Int := if negative then -(m : Int) else m

/-- The decimal with this sign, magnitude and scale. -/
def ofMagnitude (negative : Bool) (m scale : Nat) : Except DecimalError Decimal :=
  match ofParts? (signed negative m) scale with
  | some d => .ok d
  | none => .error .tooManyDigits

/-- Rounds a magnitude by the first digit that no longer fits. One that grows past the
limit loses a place. -/
def roundOff (negative : Bool) (m scale digit : Nat) : Except DecimalError Decimal :=
  if digit < 5 then ofMagnitude negative m scale
  else if m + 1 < limit then ofMagnitude negative (m + 1) scale
  else if scale = 0 then .error .roundingOverflow
  else ofMagnitude negative ((m + 1 + 4) / 10) (scale - 1)

/-- The fault of a character that cannot go on a number, if it is one. -/
def fault? (point digit : Bool) (c : Char) : Option DecimalError :=
  if c.isDigit then none
  else if c = '.' then if point then some .twoPoints else none
  else if c = '_' then if digit then none else some .leadingSeparator
  else some .unknownCharacter

/-- The number is read; what is left of the text is only checked. -/
def checkRest (cs : List Char) (d : Decimal) : Except DecimalError Decimal :=
  match cs.findSome? (fault? true true) with
  | some e => .error e
  | none => .ok d

/-- A separator behind the last place ends a number below this magnitude: what follows is
not rounded. Behind a larger one it is passed over, and the next digit decides. -/
def roundingMagnitude : Nat := 18446744073709549060

/-- Reads on from `r` to the end of the text. -/
def readFrom (negative : Bool) : Reading → List Char → Except DecimalError Decimal
  | r, [] => if r.digit then ofMagnitude negative r.magnitude r.scale else .error .noDigits
  | r, c :: cs =>
    match fault? r.point r.digit c with
    | some e => .error e
    | none =>
      if c = '.' then readFrom negative { r with point := true } cs
      else if c = '_' then
        if r.scale = maxScale ∧ r.magnitude < roundingMagnitude then
          ofMagnitude negative r.magnitude r.scale >>= checkRest cs
        else readFrom negative r cs
      else
        let m := 10 * r.magnitude + Digits.value c
        if r.scale < maxScale ∧ m < limit then
          readFrom negative ⟨m, if r.point then r.scale + 1 else 0, r.point, true⟩ cs
        else if r.point then
          roundOff negative r.magnitude r.scale (Digits.value c) >>= checkRest cs
        else .error .tooManyDigits

/-- A number without exponent. -/
def readPlain (cs : List Char) : Except DecimalError Decimal :=
  match cs with
  | [] => .error .empty
  | '-' :: ds => readFrom true ⟨0, 0, false, false⟩ ds
  | '+' :: ds => readFrom false ⟨0, 0, false, false⟩ ds
  | ds => readFrom false ⟨0, 0, false, false⟩ ds

def isExponentMark (c : Char) : Bool := c == 'e' || c == 'E'

/-- Divides by ten to the `e`: the scale grows, and places past the last are rounded off,
half away from zero. What is rounded to zero keeps its sign. -/
def shiftRight (d : Decimal) (e : Nat) : Option Decimal :=
  if d.scale + e ≤ maxScale then ofParts? d.coefficient (d.scale + e)
  else
    (ofParts? (roundAwayInt d.coefficient (tenTo (d.scale + e - maxScale))) maxScale).map
      (signZero d.isNegative)

/-- Multiplies by ten to the `e`: the scale shrinks, or the number grows and ends at its
smallest scale. -/
def shiftLeft (d : Decimal) (e : Nat) : Option Decimal :=
  if e ≤ d.scale then ofParts? d.coefficient (d.scale - e)
  else do
    let power ← ofParts? (tenTo e) 0
    let product ← mul? d power
    return product.normalize

/-- An exponent is a whole number below 2^32 behind an optional minus sign. -/
def readExponent (cs : List Char) : Except DecimalError (Bool × Nat) :=
  let (negative, ds) := match cs with
    | '-' :: ds => (true, ds)
    | ds => (false, ds)
  match Digits.read 4294967295 ds with
  | .ok n => .ok (negative, n)
  | .error _ => .error .malformedExponent

/-- A number, a mark and an exponent. -/
def readScientific (cs : List Char) : Except DecimalError Decimal := do
  let base ← readPlain (cs.takeWhile (!isExponentMark ·))
  let (negative, e) ← readExponent ((cs.dropWhile (!isExponentMark ·)).drop 1)
  if maxScale < e then .error (.exponentTooLarge e)
  else match if negative then base.shiftRight e else base.shiftLeft e with
    | some d => .ok d
    | none => .error .outOfRange

def ofChars (cs : List Char) : Except DecimalError Decimal :=
  match readPlain cs with
  | .ok d => .ok d
  | .error e => if cs.any isExponentMark then readScientific cs else .error e

def ofString (s : String) : Except DecimalError Decimal := ofChars s.toList

end Decimal

end WagerLedger

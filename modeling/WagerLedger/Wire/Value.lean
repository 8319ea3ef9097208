import WagerLedger.Wire.Numeral

/-! # Values on the wire

Trees of numbers, texts, lists and objects, and their written form. A text with a surrogate
that is not half of a pair has no value; it may still stand where nobody looks. -/
namespace WagerLedger.Wire

inductive Value where
  | null
  | bool (b : Bool)
  | number (n : Numeral)
  | text (s : Option String)
  | list (vs : List Value)
  | object (members : List (Option String × Value))

def isSpace (c : Char) : Bool := c == ' ' || c == '\n' || c == '\t' || c == '\r'

def skip (cs : List Char) : List Char := cs.dropWhile isSpace

namespace Value

/-- A unit of a text: a character, or a surrogate that may be half of one. -/
inductive TextUnit
  | char (c : Char)
  | surrogate (n : Nat)

def joinUnits : List TextUnit → Option (List Char)
  | [] => some []
  | .char c :: us => (c :: ·) <$> joinUnits us
  | .surrogate h :: .surrogate l :: us =>
    if h < 0xDC00 ∧ 0xDC00 ≤ l then
      (Char.ofNat (0x10000 + (h - 0xD800) * 0x400 + (l - 0xDC00)) :: ·) <$> joinUnits us
    else none
  | .surrogate _ :: _ => none

/-- The unit of a code of four sixteen-based digits. -/
def unitOf (n : Nat) : TextUnit :=
  if 0xD800 ≤ n ∧ n ≤ 0xDFFF then .surrogate n else .char (Char.ofNat n)

def shortEscape? (c : Char) : Option Char :=
  match c with
  | '"' => some '"'
  | '\\' => some '\\'
  | '/' => some '/'
  | 'b' => some (Char.ofNat 8)
  | 'f' => some (Char.ofNat 12)
  | 'n' => some '\n'
  | 'r' => some '\r'
  | 't' => some '\t'
  | _ => none

/-- The units of a text up to its closing quote, and the rest. Control characters have to be
escaped. -/
def readUnits : List Char → Option (List TextUnit × List Char)
  | [] => none
  | '"' :: cs => some ([], cs)
  | '\\' :: 'u' :: a :: b :: c :: d :: cs => do
    let n ← Digits.hexNat? [a, b, c, d]
    let (us, rest) ← readUnits cs
    return (unitOf n :: us, rest)
  | '\\' :: c :: cs => do
    let c ← shortEscape? c
    let (us, rest) ← readUnits cs
    return (.char c :: us, rest)
  | c :: cs =>
    if c = '\\' ∨ c.toNat < 32 then none
    else do
      let (us, rest) ← readUnits cs
      return (.char c :: us, rest)

def readText (cs : List Char) : Option (Option String × List Char) :=
  (readUnits cs).map fun (us, rest) => ((joinUnits us).map String.ofList, rest)

/-- The digits of a whole part: no zero in front of another digit. -/
def readWhole (cs : List Char) : Option (List Char × List Char) :=
  match cs with
  | '0' :: r => some (['0'], r)
  | _ =>
    let ds := cs.takeWhile Char.isDigit
    if ds.isEmpty then none else some (ds, cs.dropWhile Char.isDigit)

def readPlaces (cs : List Char) : Option (List Char × List Char) :=
  match cs with
  | '.' :: r =>
    let ds := r.takeWhile Char.isDigit
    if ds.isEmpty then none else some (ds, r.dropWhile Char.isDigit)
  | _ => some ([], cs)

def readExponent (cs : List Char) : Option (Option (Bool × List Char) × List Char) :=
  match cs with
  | 'e' :: r | 'E' :: r =>
    let (below, r) := match r with
      | '-' :: r => (true, r)
      | '+' :: r => (false, r)
      | r => (false, r)
    let ds := r.takeWhile Char.isDigit
    if ds.isEmpty then none else some (some (below, ds), r.dropWhile Char.isDigit)
  | _ => some (none, cs)

def readNumeral (cs : List Char) : Option (Numeral × List Char) := do
  let (negative, r) := match cs with
    | '-' :: r => (true, r)
    | r => (false, r)
  let (whole, r) ← readWhole r
  let (places, r) ← readPlaces r
  let (exponent, r) ← readExponent r
  return (⟨negative, whole, places, exponent⟩, r)

mutual

/-- A value and the text behind it. The fuel bounds the depth and the length together. -/
def read : Nat → List Char → Option (Value × List Char)
  | 0, _ => none
  | fuel + 1, cs =>
    match skip cs with
    | 'n' :: 'u' :: 'l' :: 'l' :: r => some (.null, r)
    | 't' :: 'r' :: 'u' :: 'e' :: r => some (.bool true, r)
    | 'f' :: 'a' :: 'l' :: 's' :: 'e' :: r => some (.bool false, r)
    | '"' :: r => (readText r).map fun (s, r) => (.text s, r)
    | '[' :: r =>
      match skip r with
      | ']' :: r => some (.list [], r)
      | r => (readItems fuel r).map fun (vs, r) => (.list vs, r)
    | '\x7b' :: r =>
      match skip r with
      | '\x7d' :: r => some (.object [], r)
      | r => (readMembers fuel r).map fun (ms, r) => (.object ms, r)
    | r => (readNumeral r).map fun (n, r) => (.number n, r)

/-- The items of a list that is not empty, to its end. -/
def readItems : Nat → List Char → Option (List Value × List Char)
  | 0, _ => none
  | fuel + 1, cs => do
    let (v, r) ← read fuel cs
    match skip r with
    | ']' :: r => return ([v], r)
    | ',' :: r =>
      let (vs, r) ← readItems fuel r
      return (v :: vs, r)
    | _ => none

/-- The members of an object that is not empty, to its end. -/
def readMembers : Nat → List Char → Option (List (Option String × Value) × List Char)
  | 0, _ => none
  | fuel + 1, cs => do
    match skip cs with
    | '"' :: r =>
      let (key, r) ← readText r
      match skip r with
      | ':' :: r =>
        let (v, r) ← read fuel r
        match skip r with
        | '\x7d' :: r => return ([(key, v)], r)
        | ',' :: r =>
          let (ms, r) ← readMembers fuel r
          return ((key, v) :: ms, r)
        | _ => none
      | _ => none
    | _ => none

end

/-- The value of a whole text, with space around it. -/
def ofChars? (cs : List Char) : Option Value :=
  match read (2 * cs.length + 2) cs with
  | some (v, r) => if (skip r).isEmpty then some v else none
  | none => none

def escape (c : Char) : List Char :=
  if c = '"' then ['\\', '"']
  else if c = '\\' then ['\\', '\\']
  else if c = '\n' then ['\\', 'n']
  else if c = '\r' then ['\\', 'r']
  else if c = '\t' then ['\\', 't']
  else if c.toNat = 8 then ['\\', 'b']
  else if c.toNat = 12 then ['\\', 'f']
  else if c.toNat < 32 then '\\' :: 'u' :: Digits.hex 4 c.toNat
  else [c]

def quoted (s : List Char) : List Char := '"' :: s.flatMap escape ++ ['"']

/-- The written form of an object of numbers and texts. -/
inductive Scalar
  | number (n : Int)
  | text (s : List Char)

def Scalar.chars : Scalar → List Char
  | .number n => (Numeral.ofInt n).chars
  | .text s => quoted s

def memberChars (m : String × Scalar) : List Char := quoted m.1.toList ++ ':' :: m.2.chars

def objectChars (ms : List (String × Scalar)) : List Char :=
  '\x7b' :: [','].intercalate (ms.map memberChars) ++ ['\x7d']

end Value

end WagerLedger.Wire

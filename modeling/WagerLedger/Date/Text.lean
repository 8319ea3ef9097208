import WagerLedger.Date

/-! # Moments as text

Written as date, time and a final `Z`, the fraction in three, six or nine digits and left out
if it is zero. Reading is lenient in the counts of digits and in blanks, and takes any offset
of less than a day. -/
namespace WagerLedger.Timestamp

/-- Four digits, or a sign and at least four where these do not do. -/
def yearText (y : Int) : List Char :=
  if 0 ≤ y ∧ y ≤ 9999 then Digits.padded 4 y.toNat
  else (if y < 0 then '-' else '+') :: Digits.padded 4 y.natAbs

/-- A fraction of a second in the fewest groups of three digits. -/
def fractionText (n : Nat) : List Char :=
  if n = 0 then []
  else if n % 1000000 = 0 then '.' :: Digits.padded 3 (n / 1000000)
  else if n % 1000 = 0 then '.' :: Digits.padded 6 (n / 1000)
  else '.' :: Digits.padded 9 n

def chars (t : Timestamp) : List Char :=
  let leap := t.nanos / 1000000000
  yearText t.date.year ++ '-' :: Digits.padded 2 t.date.month ++
    '-' :: Digits.padded 2 t.date.day ++
    'T' :: Digits.padded 2 (t.second / 3600) ++
    ':' :: Digits.padded 2 (t.second / 60 % 60) ++
    ':' :: Digits.padded 2 (t.second % 60 + leap) ++
    fractionText (t.nanos % 1000000000) ++ ['Z']

/-- A number of at least one and at most `most` digits, and the rest. -/
def readDigits (most : Nat) (cs : List Char) : Option (Nat × List Char) :=
  let ds := (cs.take most).takeWhile Char.isDigit
  if ds.isEmpty then none else some (Digits.toNat ds, cs.drop ds.length)

/-- The same behind any blanks. -/
def readField (most : Nat) (cs : List Char) : Option (Nat × List Char) :=
  readDigits most (trimLeft cs)

/-- A year has a sign or at most four digits. -/
def readYear (cs : List Char) : Option (Int × List Char) :=
  match trimLeft cs with
  | '-' :: r => (readDigits r.length r).map fun (y, r) => (-(y : Int), r)
  | '+' :: r => (readDigits r.length r).map fun (y, r) => ((y : Int), r)
  | r => (readDigits 4 r).map fun (y, r) => ((y : Int), r)

/-- A mark, perhaps behind blanks. -/
def expect (c : Char) (cs : List Char) : Option (List Char) :=
  match trimLeft cs with
  | d :: r => if d = c then some r else none
  | [] => none

/-- Nanoseconds behind a point; digits past the ninth are cut off. -/
def readFraction (cs : List Char) : Option (Nat × List Char) :=
  match cs with
  | '.' :: r => do
    let (n, _) ← readDigits 9 r
    let ds := r.takeWhile Char.isDigit
    return (n * Nat.pow 10 (9 - min 9 ds.length), r.dropWhile Char.isDigit)
  | _ => some (0, cs)

def isOffsetMark (c : Char) : Bool := c == ':' || isBlank c

/-- Two digits of hours and two of minutes, in seconds. -/
def readHoursMinutes (cs : List Char) : Option (Nat × List Char) := do
  let (h, r) ← two cs
  let (m, r) ← two (r.dropWhile isOffsetMark)
  if m < 60 then return (h * 3600 + m * 60, r) else none
where
  two : List Char → Option (Nat × List Char)
    | a :: b :: r => if a.isDigit && b.isDigit then some (Digits.toNat [a, b], r) else none
    | _ => none

/-- The seconds by which local time is ahead of universal time. -/
def readOffset (cs : List Char) : Option (Int × List Char) :=
  match cs with
  | 'Z' :: r | 'z' :: r => some (0, r)
  | '+' :: r => (readHoursMinutes r).map fun (s, r) => ((s : Int), r)
  | '-' :: r | '−' :: r => (readHoursMinutes r).map fun (s, r) => (-(s : Int), r)
  | _ =>
    if (cs.take 3).map Char.toLower == ['u', 't', 'c'] then some (0, cs.drop 3) else none

def readDate (cs : List Char) : Option (Date × List Char) := do
  let (y, r) ← readYear cs
  let (m, r) ← readField 2 (← expect '-' r)
  let (d, r) ← readField 2 (← expect '-' r)
  return (← Date.ofParts? y m d, r)

/-- The second of the day and the nanoseconds. The second 60 is the leap second after 59. -/
def readTime (cs : List Char) : Option (Nat × Nat × List Char) := do
  let (h, r) ← readField 2 cs
  let (m, r) ← readField 2 (← expect ':' r)
  let (s, r) ← readField 2 (← expect ':' r)
  let (n, r) ← readFraction r
  if h < 24 ∧ m < 60 ∧ s ≤ 60 then
    if s = 60 then return (h * 3600 + m * 60 + 59, n + 1000000000, r)
    else return (h * 3600 + m * 60 + s, n, r)
  else none

def isDateEnd (c : Char) : Bool := c == 'T' || c == 't' || c == ' '

def ofChars? (cs : List Char) : Option Timestamp := do
  let (date, r) ← readDate cs
  if r.head?.any isDateEnd then
    let (second, nanos, r) ← readTime (r.drop 1)
    let (offset, r) ← readOffset (trimLeft r)
    if (trimLeft r).isEmpty && offset.natAbs < 86400 && inRange date then
      ofLocal? date second nanos offset
    else none
  else none

def ofString? (s : String) : Option Timestamp := ofChars? s.toList

end WagerLedger.Timestamp

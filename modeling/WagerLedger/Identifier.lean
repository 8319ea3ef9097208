import WagerLedger.Text.Digits

/-! # Identifiers of 128 bits

Written as thirty-two lower-case sixteen-based digits in groups of 8, 4, 4, 4 and 12. They
are read in that form, without hyphens, between braces, or behind the name of the scheme. -/
namespace WagerLedger

structure Identifier where
  value : Nat
  value_lt : value < 340282366920938463463374607431768211456
deriving DecidableEq

namespace Identifier

def ofNat? (n : Nat) : Option Identifier :=
  if h : n < 340282366920938463463374607431768211456 then some ⟨n, h⟩ else none

def nil : Identifier := ⟨0, by decide⟩

/-- Where the hyphens of the grouped form stand. -/
def hyphens : List Nat := [8, 13, 18, 23]

def grouped (ds : List Char) : List Char :=
  ds.take 8 ++ '-' :: (ds.drop 8).take 4 ++ '-' :: (ds.drop 12).take 4 ++
    '-' :: (ds.drop 16).take 4 ++ '-' :: ds.drop 20

def chars (u : Identifier) : List Char := grouped (Digits.hex 32 u.value)

protected def toString (u : Identifier) : String := String.ofList u.chars

instance : ToString Identifier := ⟨Identifier.toString⟩

def readDigits? (ds : List Char) : Option Identifier :=
  if ds.length = 32 then Digits.hexNat? ds >>= ofNat? else none

def readGrouped? (cs : List Char) : Option Identifier :=
  if cs.length = 36 ∧ hyphens.all (cs[·]? == some '-') then
    readDigits? (cs.filter (· != '-'))
  else none

def schemeName : List Char := ['u', 'r', 'n', ':', 'u', 'u', 'i', 'd', ':']

/-- Reads any of the four forms; their lengths tell them apart. -/
def ofChars? (cs : List Char) : Option Identifier :=
  if cs.length = 32 then readDigits? cs
  else if cs.length = 36 then readGrouped? cs
  else if cs.length = 38 then
    if cs[0]? == some '\x7b' && cs[37]? == some '\x7d' then readGrouped? ((cs.drop 1).take 36)
    else none
  else if (cs.take 9).map Char.toLower == schemeName then readGrouped? (cs.drop 9)
  else none

def ofString? (s : String) : Option Identifier := ofChars? s.toList

end Identifier

end WagerLedger

import WagerLedger.Text.Digits
import WagerLedger.Text.Printable

/-! # Quoted text

A text between double quotes, with quotes, backslashes, line ends and tabs escaped and every
other unprintable character given by its code point. -/
namespace WagerLedger.Quoted

def escape (c : Char) : List Char :=
  if c = '"' then ['\\', '"']
  else if c = '\\' then ['\\', '\\']
  else if c = '\n' then ['\\', 'n']
  else if c = '\r' then ['\\', 'r']
  else if c = '\t' then ['\\', 't']
  else if c.toNat = 0 then ['\\', '0']
  else if isPrintable c then [c]
  else ['\\', 'u', '\x7b'] ++ Nat.toDigits 16 c.toNat ++ ['\x7d']

def chars (cs : List Char) : List Char := '"' :: cs.flatMap escape ++ ['"']

def ofString (s : String) : String := String.ofList (chars s.toList)

end WagerLedger.Quoted

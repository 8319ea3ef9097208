import WagerLedger.Config.Error
import WagerLedger.Ledger.Table
import WagerLedger.Number.Binary64.Text
import WagerLedger.Text.Blank

/-! # Environment variables

An environment gives names byte strings, neither with a zero byte. A variable counts as set
when its bytes are text; a default stands in for one that is not set, and never for one that
is set and cannot be read. -/
namespace WagerLedger

abbrev Environment := Table String ByteArray

namespace Environment

/-- Whether a variable can be set: names and values end at a zero byte, and names at an equals
sign. -/
def admits (name : String) (value : ByteArray) : Bool :=
  !name.isEmpty && name.toList.all (fun c => c != '=' && c.toNat != 0) && value.data.all (· != 0)

def set? (env : Environment) (name : String) (value : ByteArray) : Option Environment :=
  if admits name value then some (Table.put env name value) else none

def ofList? (vs : List (String × ByteArray)) : Option Environment :=
  vs.foldlM (fun env v => set? env v.1 v.2) Table.empty

def text? (env : Environment) (name : String) : Option String :=
  (Table.get? env name).bind String.fromUTF8?

/-- Reads a variable from its text without the blanks around it. -/
def readOr {α : Type} (env : Environment) (name : String) (read : List Char → Except String α)
    (default : α) : Except ConfigError α :=
  match env.text? name with
  | none => .ok default
  | some text =>
    match read (trim text.toList) with
    | .ok v => .ok v
    | .error detail => .error (.invalid name (.unreadable text detail))

def readDouble (cs : List Char) : Except String Binary64 :=
  (Binary64.ofChars cs).mapError DoubleError.message

def readDecimal (cs : List Char) : Except String Decimal :=
  (Decimal.ofChars cs).mapError DecimalError.message

def readMillis (cs : List Char) : Except String Duration :=
  (Duration.readMillis cs).mapError WholeNumberError.message

/-- A whole number of at most `largest`. -/
def readWhole (largest : Nat) (cs : List Char) : Except String Nat :=
  (Digits.read largest cs).mapError WholeNumberError.message

end Environment

end WagerLedger

import WagerLedger.Date.Text
import WagerLedger.Ledger.Record
import WagerLedger.Number.Binary64.Shortest
import WagerLedger.Number.Decimal.Text
import WagerLedger.Odds
import WagerLedger.Wire.Value

/-! # Accounts, spins and odds on the wire

A record is an object with a member for each field, in any order and among others, or a list
of exactly its fields. Amounts are written as texts, so no place of theirs is lost; they are
also read from numbers. -/
namespace WagerLedger

structure StampedAccount extends Account where
  createdAt : Timestamp
  updatedAt : Timestamp
deriving DecidableEq

structure StampedSpin extends Spin where
  createdAt : Timestamp
deriving DecidableEq

namespace Wire

namespace Value

def toText? : Value → Option String
  | .text s => s
  | _ => none

def toNumber? : Value → Option Number
  | .number n => n.toNumber
  | _ => none

/-- An id is a whole number of 64 bits with sign. -/
def toId? (v : Value) : Option Int :=
  match v.toNumber? with
  | some (.whole n) => if n ≤ 9223372036854775807 then some n else none
  | _ => none

/-- An amount that is not exact on the wire is the shortest decimal of its double. -/
def toDecimal? (v : Value) : Option Decimal :=
  match v with
  | .text s => s.bind fun s => (Decimal.ofString s).toOption
  | .number n =>
    match n.toNumber with
    | some (.whole k) => Decimal.ofInt? k
    | some (.double x) => (Decimal.ofChars x.chars).toOption
    | none => none
  | _ => none

def toDouble? (v : Value) : Option Binary64 :=
  match v.toNumber? with
  | some (.whole n) => some (Binary64.roundScaled false n 0)
  | some (.double x) => some x
  | none => none

def toIdentifier? (v : Value) : Option Identifier := v.toText? >>= Identifier.ofString?

def toTimestamp? (v : Value) : Option Timestamp := v.toText? >>= Timestamp.ofString?

/-- The values of a field among members; a field stands there once. -/
def member? (ms : List (Option String × Value)) (name : String) : Option Value :=
  match ms.filter (·.1 == some name) with
  | [m] => some m.2
  | _ => none

/-- The values of all fields of a record, in the order of the names. -/
def fields? (names : List String) : Value → Option (List Value)
  | .object ms => if ms.all (·.1.isSome) then names.mapM (member? ms) else none
  | .list vs => if vs.length = names.length then some vs else none
  | _ => none

end Value

open Value

def accountNames : List String := ["id", "external_id", "balance", "created_at", "updated_at"]

def account? (v : Value) : Option StampedAccount := do
  match ← v.fields? accountNames with
  | [id, ext, balance, created, updated] =>
    return { id := ← id.toId?, externalId := ← ext.toIdentifier?, balance := ← balance.toDecimal?,
             createdAt := ← created.toTimestamp?, updatedAt := ← updated.toTimestamp? }
  | _ => none

def accountMembers (a : StampedAccount) : List (String × Scalar) :=
  [("id", .number a.id), ("external_id", .text a.externalId.chars),
   ("balance", .text a.balance.chars), ("created_at", .text a.createdAt.chars),
   ("updated_at", .text a.updatedAt.chars)]

def spinNames : List String := ["id", "account_id", "bet_amount", "win_amount", "created_at"]

def spin? (v : Value) : Option StampedSpin := do
  match ← v.fields? spinNames with
  | [id, account, bet, win, created] =>
    return { id := ← id.toId?, accountId := ← account.toId?, bet := ← bet.toDecimal?,
             win := ← win.toDecimal?, createdAt := ← created.toTimestamp? }
  | _ => none

def spinMembers (s : StampedSpin) : List (String × Scalar) :=
  [("id", .number s.id), ("account_id", .number s.accountId), ("bet_amount", .text s.bet.chars),
   ("win_amount", .text s.win.chars), ("created_at", .text s.createdAt.chars)]

def oddsNames : List String :=
  ["three_match_probability", "two_match_probability", "three_match_multiplier",
   "two_match_multiplier"]

def odds? (v : Value) : Option Odds := do
  match ← v.fields? oddsNames with
  | [p3, p2, m3, m2] =>
    return ⟨← p3.toDouble?, ← p2.toDouble?, ← m3.toDecimal?, ← m2.toDecimal?⟩
  | _ => none

def readAccount? (s : String) : Option StampedAccount := Value.ofChars? s.toList >>= account?

def readSpin? (s : String) : Option StampedSpin := Value.ofChars? s.toList >>= spin?

def readOdds? (s : String) : Option Odds := Value.ofChars? s.toList >>= odds?

def writeAccount (a : StampedAccount) : String := String.ofList (objectChars (accountMembers a))

def writeSpin (s : StampedSpin) : String := String.ofList (objectChars (spinMembers s))

end Wire

end WagerLedger

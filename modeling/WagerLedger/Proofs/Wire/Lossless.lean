import WagerLedger.Proofs.Date.Text
import WagerLedger.Proofs.Decimal.Text
import WagerLedger.Proofs.Text.Identifier
import WagerLedger.Proofs.Wire.Object
import WagerLedger.Wire.Record

/-! # Accounts and spins lose nothing on the wire

An account or a spin is read back from what is written of it, whole: its ids, its identifier, its
amounts with their scales and its moments. Amounts are written as texts. -/
namespace WagerLedger

def IsWordId (id : Int) : Prop := -9223372036854775808 ≤ id ∧ id ≤ 9223372036854775807

/-- All that an account holds can be written: an id of 64 bits, an amount that is no negative
zero, and moments of years of four digits. -/
structure StampedAccount.IsPlain (a : StampedAccount) : Prop where
  id : IsWordId a.id
  balance : a.balance.minusZero = false
  createdAt : a.createdAt.IsPlain
  updatedAt : a.updatedAt.IsPlain

structure StampedSpin.IsPlain (s : StampedSpin) : Prop where
  id : IsWordId s.id
  accountId : IsWordId s.accountId
  bet : s.bet.minusZero = false
  win : s.win.minusZero = false
  createdAt : s.createdAt.IsPlain

namespace Wire

open Value

theorem toId?_number {id : Int} (h : IsWordId id) : (Scalar.number id).value.toId? = some id := by
  have hwhole : (Numeral.ofInt id).toWhole? = some id := by
    refine toWhole?_ofInt h.1 (h.2.trans ?_)
    decide
  have hnumber : (Scalar.number id).value.toNumber? = some (.whole id) := by
    change (Numeral.ofInt id).toNumber = _
    rw [Numeral.toNumber, hwhole]
  rw [toId?, hnumber]
  exact if_pos h.2

theorem toDecimal?_text {d : Decimal} (hd : d.minusZero = false) :
    (Scalar.text d.chars).value.toDecimal? = some d := by
  change (Decimal.ofString (String.ofList d.chars)).toOption = some d
  rw [Decimal.ofString, String.toList_ofList, Decimal.ofChars_chars hd]
  rfl

theorem toText?_text (cs : List Char) :
    (Scalar.text cs).value.toText? = some (String.ofList cs) := rfl

theorem toIdentifier?_text (u : Identifier) :
    (Scalar.text u.chars).value.toIdentifier? = some u := by
  rw [toIdentifier?, toText?_text, Option.bind_eq_bind, Option.bind_some, Identifier.ofString?,
    String.toList_ofList, Identifier.ofChars?_chars]

theorem toTimestamp?_text {t : Timestamp} (ht : t.IsPlain) :
    (Scalar.text t.chars).value.toTimestamp? = some t := by
  rw [toTimestamp?, toText?_text, Option.bind_eq_bind, Option.bind_some, Timestamp.ofString?,
    String.toList_ofList, Timestamp.ofChars?_chars ht]

theorem fields?_account (a : StampedAccount) :
    (Value.object (written (accountMembers a))).fields? accountNames =
      some [(Scalar.number a.id).value, (Scalar.text a.externalId.chars).value,
        (Scalar.text a.balance.chars).value, (Scalar.text a.createdAt.chars).value,
        (Scalar.text a.updatedAt.chars).value] := rfl

theorem fields?_spin (s : StampedSpin) :
    (Value.object (written (spinMembers s))).fields? spinNames =
      some [(Scalar.number s.id).value, (Scalar.number s.accountId).value,
        (Scalar.text s.bet.chars).value, (Scalar.text s.win.chars).value,
        (Scalar.text s.createdAt.chars).value] := rfl

theorem ofChars?_writeAccount (a : StampedAccount) :
    Value.ofChars? (writeAccount a).toList = some (.object (written (accountMembers a))) := by
  rw [writeAccount, String.toList_ofList, ofChars?_objectChars]

theorem ofChars?_writeSpin (s : StampedSpin) :
    Value.ofChars? (writeSpin s).toList = some (.object (written (spinMembers s))) := by
  rw [writeSpin, String.toList_ofList, ofChars?_objectChars]

theorem readAccount?_write {a : StampedAccount} (h : a.IsPlain) :
    readAccount? (writeAccount a) = some a := by
  rw [readAccount?, ofChars?_writeAccount, Option.bind_eq_bind, Option.bind_some, account?,
    fields?_account]
  simp only [Option.bind_eq_bind, Option.bind_some, toId?_number h.id, toIdentifier?_text,
    toDecimal?_text h.balance, toTimestamp?_text h.createdAt, toTimestamp?_text h.updatedAt]
  rfl

theorem readSpin?_write {s : StampedSpin} (h : s.IsPlain) :
    readSpin? (writeSpin s) = some s := by
  rw [readSpin?, ofChars?_writeSpin, Option.bind_eq_bind, Option.bind_some, spin?, fields?_spin]
  simp only [Option.bind_eq_bind, Option.bind_some, toId?_number h.id, toId?_number h.accountId,
    toDecimal?_text h.bet, toDecimal?_text h.win, toTimestamp?_text h.createdAt]
  rfl

/-- What is written of an account or a spin is read back as the same, field by field, and its
amounts stand there as texts. -/
theorem records_lossless (a : StampedAccount) (s : StampedSpin) :
    (a.IsPlain → readAccount? (writeAccount a) = some a) ∧
    (s.IsPlain → readSpin? (writeSpin s) = some s) ∧
    (∃ ms, Value.ofChars? (writeAccount a).toList = some (.object ms) ∧
      member? ms "balance" = some (.text (some (toString a.balance)))) ∧
    ∃ ms, Value.ofChars? (writeSpin s).toList = some (.object ms) ∧
      member? ms "bet_amount" = some (.text (some (toString s.bet))) ∧
      member? ms "win_amount" = some (.text (some (toString s.win))) :=
  ⟨readAccount?_write, readSpin?_write, ⟨_, ofChars?_writeAccount a, rfl⟩,
    ⟨_, ofChars?_writeSpin s, rfl, rfl⟩⟩

def firstMoment : Timestamp := ((Date.ofParts? 1 1 1).bind (Timestamp.ofParts? · 0 1)).get rfl

def lastMoment : Timestamp :=
  ((Date.ofParts? 9999 12 31).bind (Timestamp.ofParts? · 86399 999999999)).get rfl

/-- The least id, the greatest identifier and as many digits and places as there can be. -/
def extremeAccount : StampedAccount where
  id := -9223372036854775808
  externalId := (Identifier.ofNat? 340282366920938463463374607431768211455).get rfl
  balance := (Decimal.ofParts? (-79228162514264337593543950335) 28).get rfl
  createdAt := firstMoment
  updatedAt := lastMoment

def extremeSpin : StampedSpin where
  id := 9223372036854775807
  accountId := -9223372036854775808
  bet := (Decimal.ofParts? 79228162514264337593543950335 0).get rfl
  win := (Decimal.ofParts? 0 28).get rfl
  createdAt := lastMoment

theorem records_lossless_extremes :
    extremeAccount.IsPlain ∧ extremeSpin.IsPlain ∧
      readAccount? (writeAccount extremeAccount) = some extremeAccount ∧
      readSpin? (writeSpin extremeSpin) = some extremeSpin := by
  have hfirst : firstMoment.IsPlain := ⟨by decide, by decide⟩
  have hlast : lastMoment.IsPlain := ⟨by decide, by decide⟩
  have ha : extremeAccount.IsPlain := ⟨⟨by decide, by decide⟩, rfl, hfirst, hlast⟩
  have hs : extremeSpin.IsPlain :=
    ⟨⟨by decide, by decide⟩, ⟨by decide, by decide⟩, rfl, rfl, hlast⟩
  obtain ⟨haccount, hspin, -⟩ := records_lossless extremeAccount extremeSpin
  exact ⟨ha, hs, haccount ha, hspin hs⟩

end Wire

end WagerLedger

import WagerLedger.Proofs.Ledger.Alike
import WagerLedger.Proofs.Ledger.Numbering

/-! # What a ledger says of one account

The passbook of an external id is its balance and its spins, without the ids that the ledger
has given out. Two ledgers with the same passbook of an external id are alike for all who only
ask for that, whatever else they hold; and a call on one external id leaves the rows of all
others alone. -/
namespace WagerLedger

def Spin.withoutIds (s : Spin) : Spin := { s with id := 0, accountId := 0 }

/-- The balance and the spins of an account, oldest first. -/
def Ledger.passbook? (l : Ledger) (ext : Identifier) : Option (Decimal × List Spin) :=
  (l.index.get? ext).bind fun id =>
    (l.balance? id).map fun b => (b, (l.spinsOf id).map Spin.withoutIds)

/-- The external id that a call works on. -/
def Operation.externalId? : Operation → Option Identifier
  | .seed ext _ | .openAccount ext | .account ext | .deposit ext _ | .withdraw ext _
  | .settle ext _ _ | .history ext _ => some ext
  | _ => none

/-- The account of the external id is as it was: its index entry, its balance and its spins. -/
structure Ledger.Leaves (l l' : Ledger) (ext : Identifier) : Prop where
  index : l'.index.get? ext = l.index.get? ext
  balance : ∀ id, l.index.get? ext = some id → l'.balance? id = l.balance? id
  spins : ∀ id, l.index.get? ext = some id → l'.spinsOf id = l.spinsOf id

/-- Amounts that are the same to the last place. -/
def Amounts.exact : Amounts where
  rel := Eq
  zero := rfl
  isPositive h := by rw [h]
  isNegative h := by rw [h]
  isZero h := by rw [h]
  fitsLedger h := by rw [h]
  neg h := by rw [h]
  abs h := by rw [h]
  add? hx hy := by
    rw [hx, hy]
    exact rel_refl (fun _ => rfl) _
  mul? _ hx hy := by
    rw [hx, hy]
    exact rel_refl (fun _ => rfl) _
  truncate h _ := by rw [h]

def Likeness.oneAccount (ext : Identifier) (id id' : AccountId) (lag : Nat) : Likeness :=
  ⟨.exact, .one ext id id', lag⟩

namespace Ledger

variable {l l' l₁ : Ledger} {ext : Identifier} {id id' : AccountId} {lag : Nat}

theorem Leaves.passbook? (h : l.Leaves l' ext) : l'.passbook? ext = l.passbook? ext := by
  rw [Ledger.passbook?, Ledger.passbook?, h.index]
  cases hid : l.index.get? ext with
  | none => rfl
  | some id => rw [Option.bind_some, Option.bind_some, h.balance id hid, h.spins id hid]

theorem withoutIds_eq {s s' : Spin}
    (h : s.Alike (.oneAccount ext id id' lag) s') : s.withoutIds = s'.withoutIds := by
  obtain ⟨⟨accountId, bet, win⟩, spinId⟩ := s
  obtain ⟨⟨accountId', bet', win'⟩, spinId'⟩ := s'
  obtain ⟨⟨-, hbet, hwin⟩, -⟩ := h
  obtain rfl : bet = bet' := hbet
  obtain rfl : win = win' := hwin
  rfl

theorem withoutIds_map {ss ss' : List Spin}
    (h : List.Forall₂ (Spin.Alike (.oneAccount ext id id' lag)) ss ss') :
    ss.map Spin.withoutIds = ss'.map Spin.withoutIds := by
  induction h with
  | nil => rfl
  | cons hs _ ih => rw [List.map_cons, List.map_cons, withoutIds_eq hs, ih]

theorem Alike.passbook? (h : l.Alike (.oneAccount ext id id' lag) l') :
    l.passbook? ext = l'.passbook? ext := by
  have hindex := h.index ext rfl
  rw [Ledger.passbook?, Ledger.passbook?]
  generalize l.index.get? ext = x at hindex ⊢
  generalize l'.index.get? ext = x' at hindex ⊢
  cases hindex with
  | none => rfl
  | @some i i' hi =>
    have haccounts := h.accounts i i' hi
    rw [Option.bind_some, Option.bind_some, balance?, balance?, withoutIds_map (h.spins i i' hi)]
    generalize l.accounts.get? i = a at haccounts ⊢
    generalize l'.accounts.get? i' = a' at haccounts ⊢
    cases haccounts with
    | none => rfl
    | @some a a' ha =>
      have hb : a.balance = a'.balance := ha.balance
      rw [Option.map_some, Option.map_some, Option.map_some, Option.map_some, hb]

theorem forall₂_spins {ss ss' : List Spin} (hid : ∀ s ∈ ss, s.accountId = id)
    (hid' : ∀ s ∈ ss', s.accountId = id')
    (h : ss.map Spin.withoutIds = ss'.map Spin.withoutIds) :
    List.Forall₂ (Spin.Alike (.oneAccount ext id id' lag)) ss ss' := by
  induction ss generalizing ss' with
  | nil =>
    cases ss' with
    | nil => exact .nil
    | cons s' ss' => cases h
  | cons s ss ih =>
    cases ss' with
    | nil => cases h
    | cons s' ss' =>
      obtain ⟨hs, hss⟩ := List.cons.inj h
      have hbet : s.bet = s'.bet := congrArg (fun s => s.bet) hs
      have hwin : s.win = s'.win := congrArg (fun s => s.win) hs
      refine .cons ⟨⟨⟨hid s ?_, hid' s' ?_⟩, hbet, hwin⟩, trivial⟩ (ih ?_ ?_ hss)
      · exact List.mem_cons_self
      · exact List.mem_cons_self
      · exact fun x hx => hid x (List.mem_cons_of_mem _ hx)
      · exact fun x hx => hid' x (List.mem_cons_of_mem _ hx)

theorem accountId_of_mem {s : Spin} (h : s ∈ l.spinsOf id) : s.accountId = id :=
  of_decide_eq_true (List.mem_filter.mp h).2

theorem Numbered.spinsOf_next (h : l.Numbered) : l.spinsOf (l.lastAccountId + 1) = [] := by
  refine List.filter_eq_nil_iff.mpr fun s hs hid => ?_
  have hsome := h.owners s hs
  rw [of_decide_eq_true hid, h.consistent.fresh] at hsome
  cases hsome

theorem Numbered.indexed (h : l.Numbered) (hid : l.index.get? ext = some id) :
    ∃ a, l.accounts.get? id = some a ∧ a.id = id ∧ a.externalId = ext ∧
      l.passbook? ext = some (a.balance, (l.spinsOf id).map Spin.withoutIds) := by
  obtain ⟨a, ha, hext⟩ := (h.index_iff ext id).mp hid
  refine ⟨a, ha, h.named id a ha, hext, ?_⟩
  rw [Ledger.passbook?, hid, Option.bind_some, balance?, ha]
  rfl

theorem alike_of_absent (h : l.Numbered) (h' : l'.Numbered) (hid : l.index.get? ext = none)
    (hid' : l'.index.get? ext = none) (lag : Nat) :
    l.Alike (.oneAccount ext (l.lastAccountId + 1) (l'.lastAccountId + 1) lag) l' := by
  refine ⟨?_, ?_, ?_, fun _ _ _ => ⟨rfl, rfl⟩, trivial⟩
  · rintro e rfl
    rw [hid, hid']
    exact .none
  · rintro i i' ⟨rfl, rfl⟩
    rw [h.consistent.fresh, h'.consistent.fresh]
    exact .none
  · rintro i i' ⟨rfl, rfl⟩
    rw [h.spinsOf_next, h'.spinsOf_next]
    exact .nil

theorem alike_of_present (h : l.Numbered) (h' : l'.Numbered) (hid : l.index.get? ext = some id)
    (hid' : l'.index.get? ext = some id') (hbook : l.passbook? ext = l'.passbook? ext) (lag : Nat) :
    l.Alike (.oneAccount ext id id' lag) l' := by
  obtain ⟨a, ha, hai, hext, hbook₁⟩ := h.indexed hid
  obtain ⟨a', ha', hai', hext', hbook₂⟩ := h'.indexed hid'
  rw [hbook₁, hbook₂, Option.some.injEq, Prod.mk.injEq] at hbook
  refine ⟨?_, ?_, ?_, ?_, trivial⟩
  · rintro e rfl
    rw [hid, hid']
    exact .some ⟨rfl, rfl⟩
  · rintro i i' ⟨rfl, rfl⟩
    rw [ha, ha']
    exact .some ⟨⟨hai, hai'⟩, hext'.trans hext.symm, hext, hbook.1⟩
  · rintro i i' ⟨rfl, rfl⟩
    exact forall₂_spins (fun s hs => accountId_of_mem hs) (fun s hs => accountId_of_mem hs) hbook.2
  · rintro e rfl hfree
    rw [hid] at hfree
    cases hfree

theorem Numbered.passbook?_isSome (h : l.Numbered) :
    (l.passbook? ext).isSome = (l.index.get? ext).isSome := by
  cases hid : l.index.get? ext with
  | none =>
    rw [Ledger.passbook?, hid]
    rfl
  | some id =>
    obtain ⟨a, -, -, -, hbook⟩ := h.indexed hid
    rw [hbook]
    rfl

theorem alike_of_passbook? (h : l.Numbered) (h' : l'.Numbered)
    (hbook : l.passbook? ext = l'.passbook? ext) (lag : Nat) :
    ∃ id id', l.Alike (.oneAccount ext id id' lag) l' := by
  have hsome : (l.index.get? ext).isSome = (l'.index.get? ext).isSome := by
    rw [← h.passbook?_isSome, ← h'.passbook?_isSome, hbook]
  cases hid : l.index.get? ext with
  | none =>
    rw [hid] at hsome
    have hid' := Option.isNone_iff_eq_none.mp (Option.isSome_eq_false_iff.mp hsome.symm)
    exact ⟨_, _, alike_of_absent h h' hid hid' lag⟩
  | some id =>
    rw [hid] at hsome
    obtain ⟨id', hid'⟩ := Option.isSome_iff_exists.mp hsome.symm
    exact ⟨id, id', alike_of_present h h' hid hid' hbook lag⟩

theorem Leaves.refl (l : Ledger) (ext : Identifier) : l.Leaves l ext :=
  ⟨rfl, fun _ _ => rfl, fun _ _ => rfl⟩

theorem leaves_addAccount (h : l.Numbered) {a : Account} (hid : a.id = l.lastAccountId + 1)
    (hext : a.externalId ≠ ext) : l.Leaves (l.addAccount a) ext where
  index := by rw [index_addAccount, if_neg hext.symm]
  balance i hi := by
    obtain ⟨b, hb, -⟩ := h.indexed hi
    rw [balance?_addAccount, if_neg]
    rintro rfl
    rw [hid, h.consistent.fresh] at hb
    cases hb
  spins _ _ := rfl

theorem leaves_setBalance (h : l.Numbered) {a : Account} {other : Identifier}
    (ha : l.find? other = some a) (hne : other ≠ ext) (b : Decimal) :
    l.Leaves (l.setBalance a.id b) ext where
  index := rfl
  balance i hi := by
    rw [balance?_setBalance, if_neg]
    rintro rfl
    exact hne (h.index_injective (h.consistent.find? ha).1 hi)
  spins _ _ := rfl

theorem leaves_addSpin (h : l.Numbered) {a : Account} {other : Identifier}
    (ha : l.find? other = some a) (hne : other ≠ ext) {s : Spin} (hs : s.accountId = a.id) :
    l.Leaves (l.addSpin s) ext where
  index := rfl
  balance _ _ := rfl
  spins i hi := by
    refine (List.filter_append ..).trans ?_
    rw [List.filter_singleton, decide_eq_false, cond_false, List.append_nil]
    · rfl
    · rintro rfl
      rw [hs] at hi
      exact hne (h.index_injective (h.consistent.find? ha).1 hi)

theorem Leaves.trans {l'' : Ledger} (h : l.Leaves l' ext) (h' : l'.Leaves l'' ext) :
    l.Leaves l'' ext where
  index := h'.index.trans h.index
  balance i hi := (h'.balance i (h.index.trans hi)).trans (h.balance i hi)
  spins i hi := (h'.spins i (h.index.trans hi)).trans (h.spins i hi)

/-- A call changes the rows of no other external id. -/
theorem Numbered.leaves (h : l.Numbered) {P : Odds → Prop} {op : Operation} {r : Option Reply}
    (hmakes : op.Makes P l l' r) {other : Identifier} (hop : op.externalId? = some other)
    (hne : other ≠ ext) : l.Leaves l' ext := by
  have hmove : ∀ m, op ≠ .move m := by
    rintro m rfl
    cases hop
  rcases hmakes.cases hmove with ⟨rfl, -⟩ | ⟨e, b, a, hcall, hseed, -⟩ |
    ⟨e, amount, delta, before, after, hcall, hmoves, -⟩ |
    ⟨e, bet, c, spin, rfl, ⟨-, -, before, between, after, hs⟩, -⟩
  · exact .refl l' ext
  · obtain rfl : e = other := by
      rcases hcall with rfl | ⟨rfl, -⟩
      · exact Option.some.inj hop
      · exact Option.some.inj hop
    obtain ⟨-, rfl, rfl⟩ := seed_eq_ok hseed
    exact leaves_addAccount h rfl hne
  · obtain rfl : e = other := by
      rcases hcall with ⟨rfl, -⟩ | ⟨rfl, -⟩
      · exact Option.some.inj hop
      · exact Option.some.inj hop
    obtain ⟨a, ha, -, rfl⟩ := hmoves.account
    exact leaves_setBalance h ha hne after
  · obtain rfl : e = other := Option.some.inj hop
    obtain ⟨a, ha, hid⟩ := hs.account
    rw [hs.ledger_eq, hid]
    have hset := leaves_setBalance h ha hne after
    refine hset.trans ⟨rfl, fun _ _ => rfl, fun i hi => ?_⟩
    exact (leaves_addSpin h ha hne hid).spins i hi

end Ledger

end WagerLedger

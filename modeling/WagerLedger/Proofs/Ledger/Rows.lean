import WagerLedger.Proofs.Decimal.Payout
import WagerLedger.Proofs.Ledger.Change

/-! # The rows of a ledger

What the tables hold is kept in order by every change that a call can make: accounts under
their own ids, none past the last id, spins only of accounts that exist, and no amount that
is negative or finer than the ledger. -/
namespace WagerLedger

namespace Ledger

theorem get?_setBalance (l : Ledger) (id j : AccountId) (b : Decimal) :
    (l.setBalance id b).accounts.get? j =
      if j = id then (l.accounts.get? id).map ({ · with balance := b })
      else l.accounts.get? j :=
  Table.get?_modify l.accounts id j _

theorem get?_addAccount (l : Ledger) (a : Account) (j : AccountId) :
    (l.addAccount a).accounts.get? j = if j = a.id then some a else l.accounts.get? j :=
  Table.get?_put l.accounts a.id j a

theorem index_addAccount (l : Ledger) (a : Account) (ext : Identifier) :
    (l.addAccount a).index.get? ext =
      if ext = a.externalId then some a.id else l.index.get? ext :=
  Table.get?_put l.index a.externalId ext a.id

theorem balance?_setBalance (l : Ledger) (id j : AccountId) (b : Decimal) :
    (l.setBalance id b).balance? j =
      if j = id then (l.balance? id).map fun _ => b else l.balance? j := by
  rw [balance?, get?_setBalance, balance?, balance?]
  split <;> simp [Option.map_map, Function.comp_def]

theorem balance?_setBalance_self {l : Ledger} {id : AccountId} {before : Decimal}
    (h : l.balance? id = some before) (b : Decimal) : (l.setBalance id b).balance? id = some b := by
  rw [balance?_setBalance, if_pos rfl, h]
  rfl

theorem balance?_addAccount (l : Ledger) (a : Account) (j : AccountId) :
    (l.addAccount a).balance? j = if j = a.id then some a.balance else l.balance? j := by
  rw [balance?, get?_addAccount, balance?]
  split <;> rfl

theorem isSome_setBalance (l : Ledger) (id j : AccountId) (b : Decimal) :
    ((l.setBalance id b).accounts.get? j).isSome = (l.accounts.get? j).isSome := by
  rw [get?_setBalance]
  split
  · rename_i h
    rw [h, Option.isSome_map]
  · rfl

theorem seed_eq_ok {l l' : Ledger} {ext : Identifier} {b : Decimal} {a : Account}
    (h : l.seed ext b = (.ok a, l')) :
    l.index.get? ext = none ∧ a = ⟨l.lastAccountId + 1, ext, b⟩ ∧ l' = l.addAccount a := by
  unfold seed at h
  split at h
  · cases h
  · rename_i hext
    cases h
    exact ⟨hext, rfl, rfl⟩

/-- The tables of a ledger fit together. -/
structure Consistent (l : Ledger) : Prop where
  named : ∀ id a, l.accounts.get? id = some a → a.id = id
  given : ∀ id a, l.accounts.get? id = some a → id ≤ l.lastAccountId
  indexed : ∀ ext id, l.index.get? ext = some id → (l.accounts.get? id).isSome
  spins : ∀ s ∈ l.spins, (l.accounts.get? s.accountId).isSome

variable {l l' : Ledger}

theorem consistent_empty : empty.Consistent where
  named _ _ h := nomatch h
  given _ _ h := nomatch h
  indexed _ _ h := nomatch h
  spins _ h := nomatch h

theorem Consistent.fresh (h : l.Consistent) : l.accounts.get? (l.lastAccountId + 1) = none := by
  cases ha : l.accounts.get? (l.lastAccountId + 1) with
  | none => rfl
  | some a =>
    exact absurd (h.given _ a ha) (Int.lt_succ l.lastAccountId).not_ge

theorem Consistent.find? (h : l.Consistent) {ext : Identifier} {a : Account}
    (ha : l.find? ext = some a) : l.index.get? ext = some a.id ∧ l.accounts.get? a.id = some a := by
  obtain ⟨id, hid, hacc⟩ := Option.bind_eq_some_iff.mp ha
  rw [h.named id a hacc]
  exact ⟨hid, hacc⟩

theorem Consistent.balance? (h : l.Consistent) {ext : Identifier} {a : Account}
    (ha : l.find? ext = some a) : l.balance? a.id = some a.balance := by
  rw [Ledger.balance?, (h.find? ha).2]
  rfl

theorem Consistent.find?_setBalance (h : l.Consistent) {ext : Identifier} {a : Account}
    (ha : l.find? ext = some a) (b : Decimal) :
    (l.setBalance a.id b).find? ext = some { a with balance := b } := by
  obtain ⟨hid, hacc⟩ := h.find? ha
  have hindex : (l.setBalance a.id b).index.get? ext = some a.id := hid
  rw [Ledger.find?, hindex, Option.bind_some, get?_setBalance, if_pos rfl, hacc]
  rfl

theorem Consistent.addAccount (h : l.Consistent) (a : Account) :
    (l.addAccount a).Consistent where
  named id a' hid := by
    rw [get?_addAccount] at hid
    split at hid
    · rename_i hj
      cases hid
      exact hj.symm
    · exact h.named id a' hid
  given id a' hid := by
    rw [get?_addAccount] at hid
    change id ≤ max l.lastAccountId a.id
    split at hid
    · rename_i hj
      rw [hj]
      exact le_max_right _ _
    · exact (h.given id a' hid).trans (le_max_left _ _)
  indexed ext id hid := by
    rw [index_addAccount] at hid
    rw [get?_addAccount]
    split
    · rfl
    · rename_i hj
      split at hid
      · cases hid
        exact (hj rfl).elim
      · exact h.indexed ext id hid
  spins s hs := by
    rw [get?_addAccount]
    split
    · rfl
    · exact h.spins s hs

theorem Consistent.setBalance (h : l.Consistent) (id : AccountId) (b : Decimal) :
    (l.setBalance id b).Consistent where
  named j a hj := by
    rw [get?_setBalance] at hj
    split at hj
    · rename_i hid
      obtain ⟨a', ha', rfl⟩ := Option.map_eq_some_iff.mp hj
      rw [hid]
      exact h.named id a' ha'
    · exact h.named j a hj
  given j a hj := by
    have hsome : (l.accounts.get? j).isSome := by
      rw [← isSome_setBalance l id j b, hj]
      rfl
    obtain ⟨a', ha'⟩ := Option.isSome_iff_exists.mp hsome
    exact h.given j a' ha'
  indexed ext j hj := by
    rw [isSome_setBalance]
    exact h.indexed ext j hj
  spins s hs := by
    rw [isSome_setBalance]
    exact h.spins s hs

theorem Consistent.addSpin (h : l.Consistent) {s : Spin}
    (hs : (l.accounts.get? s.accountId).isSome) : (l.addSpin s).Consistent where
  named := h.named
  given := h.given
  indexed := h.indexed
  spins s' hs' := by
    rcases List.mem_append.mp hs' with hs' | hs'
    · exact h.spins s' hs'
    · rw [List.mem_singleton.mp hs']
      exact hs

theorem isSome_of_balance? {id : AccountId} {b : Decimal} (h : l.balance? id = some b) :
    (l.accounts.get? id).isSome := by
  obtain ⟨a, ha, -⟩ := Option.map_eq_some_iff.mp h
  rw [ha]
  rfl

end Ledger

/-- A change of a call that does not work on a transaction kept open: none at all, a new
account, a balance that is moved, or a settled spin. -/
theorem Operation.Makes.cases {P : Odds → Prop} {op : Operation} {l l' : Ledger}
    {r : Option Reply} (h : op.Makes P l l' r) (hop : ∀ m, op ≠ .move m) :
    (l' = l ∧ ∃ ext, op = .account ext ∨ ∃ limit, op = .history ext limit) ∨
    (∃ ext b a, (op = .seed ext b ∨ op = .openAccount ext ∧ b = .zero) ∧
      l.seed ext b = (.ok a, l') ∧ r = some (.account a)) ∨
    (∃ ext amount delta before after,
      (op = .deposit ext amount ∧ delta = amount ∨ op = .withdraw ext amount ∧ delta = amount.neg) ∧
      l.Moves ext delta before after l' ∧ r = some (.amount after)) ∨
    ∃ ext bet c spin, op = .settle ext bet c ∧ l.SettlesBy P ext bet spin l' ∧
      r = spin.net?.map (.settled spin) := by
  cases op
  case seed ext b =>
    obtain ⟨a, ha, hr⟩ := h
    exact .inr (.inl ⟨ext, b, a, .inl rfl, ha, hr⟩)
  case openAccount ext =>
    obtain ⟨a, ha, hr⟩ := h
    exact .inr (.inl ⟨ext, .zero, a, .inr ⟨rfl, rfl⟩, ha, hr⟩)
  case account ext => exact .inl ⟨h.1, ext, .inl rfl⟩
  case history ext limit => exact .inl ⟨h.1, ext, .inr ⟨limit, rfl⟩⟩
  case deposit ext amount =>
    obtain ⟨-, before, after, hm, hr⟩ := h
    exact .inr (.inr (.inl ⟨ext, amount, _, before, after, .inl ⟨rfl, rfl⟩, hm, hr⟩))
  case withdraw ext amount =>
    obtain ⟨-, before, after, hm, hr⟩ := h
    exact .inr (.inr (.inl ⟨ext, amount, _, before, after, .inr ⟨rfl, rfl⟩, hm, hr⟩))
  case settle ext bet c =>
    obtain ⟨spin, hs, hr⟩ := h
    exact .inr (.inr (.inr ⟨ext, bet, c, spin, rfl, hs, hr⟩))
  case move m => exact (hop m rfl).elim
  all_goals exact h.elim

theorem Ledger.Consistent.makes {P : Odds → Prop} {op : Operation} {l l' : Ledger}
    {r : Option Reply} (h : l.Consistent) (hm : op.Makes P l l' r) (hop : ∀ m, op ≠ .move m) :
    l'.Consistent := by
  rcases hm.cases hop with ⟨rfl, -⟩ | ⟨ext, b, a, -, hseed, -⟩ | ⟨ext, amount, delta, before, after,
    -, hmoves, -⟩ | ⟨ext, bet, c, spin, -, ⟨-, -, before, between, after, hs⟩, -⟩
  · exact h
  · obtain ⟨-, rfl, rfl⟩ := Ledger.seed_eq_ok hseed
    exact h.addAccount _
  · obtain ⟨a, -, -, rfl⟩ := hmoves.account
    exact h.setBalance a.id after
  · rw [hs.ledger_eq]
    refine (h.setBalance _ _).addSpin ?_
    rw [Ledger.isSome_setBalance]
    exact Ledger.isSome_of_balance? hs.balance

/-- An amount that a row may hold. -/
structure Decimal.Storable (d : Decimal) : Prop where
  nonneg : 0 ≤ d.toRat
  fits : d.fitsLedger = true

theorem Decimal.storable_zero : Decimal.zero.Storable :=
  ⟨Decimal.toRat_zero.ge, Decimal.fitsLedger_zero⟩

/-- Rounding takes neither the sign nor the places of a sum, so a balance that was adjusted is
one that a row may hold, however large it is. -/
theorem Adjusts.storable {delta before after : Decimal} (h : Adjusts delta before after)
    (hb : before.Storable) : after.Storable where
  nonneg := by
    rw [Decimal.nonneg_iff]
    by_cases hd : delta.isNegative = true
    · exact h.covered hd
    · rw [Bool.eq_false_iff, ne_eq, Decimal.isNegative_add? h.sum, not_lt]
      rw [Bool.not_eq_true, ← Decimal.nonneg_iff] at hd
      exact add_nonneg hb.nonneg hd
  fits := Decimal.fitsLedger_add? hb.fits h.fits h.sum

/-- All amounts of a ledger are ones that its rows may hold, and every bet is positive. -/
structure Ledger.Rows (l : Ledger) : Prop where
  balances : ∀ id b, l.balance? id = some b → b.Storable
  bets : ∀ s ∈ l.spins, 0 < s.bet.toRat ∧ s.bet.fitsLedger = true
  wins : ∀ s ∈ l.spins, s.win.Storable

namespace Ledger.Rows

variable {l l' : Ledger} {ext : Identifier}

theorem empty : Ledger.empty.Rows where
  balances _ _ h := nomatch h
  bets _ h := nomatch h
  wins _ h := nomatch h

theorem setBalance (h : l.Rows) (id : AccountId) {b : Decimal} (hb : b.Storable) :
    (l.setBalance id b).Rows where
  balances j b' hj := by
    rw [balance?_setBalance] at hj
    split at hj
    · obtain ⟨_, -, rfl⟩ := Option.map_eq_some_iff.mp hj
      exact hb
    · exact h.balances j b' hj
  bets := h.bets
  wins := h.wins

theorem addSpin (h : l.Rows) {s : Spin} (hbet : 0 < s.bet.toRat ∧ s.bet.fitsLedger = true)
    (hwin : s.win.Storable) : (l.addSpin s).Rows where
  balances := h.balances
  bets s' hs' := by
    rcases List.mem_append.mp hs' with hs' | hs'
    · exact h.bets s' hs'
    · rw [List.mem_singleton.mp hs']
      exact hbet
  wins s' hs' := by
    rcases List.mem_append.mp hs' with hs' | hs'
    · exact h.wins s' hs'
    · rw [List.mem_singleton.mp hs']
      exact hwin

theorem seed (h : l.Rows) {b : Decimal} (hb : b.Storable) {a : Account}
    (hs : l.seed ext b = (.ok a, l')) : l'.Rows := by
  obtain ⟨-, rfl, rfl⟩ := seed_eq_ok hs
  refine ⟨fun j b' hj => ?_, h.bets, h.wins⟩
  rw [balance?_addAccount] at hj
  split at hj
  · cases hj
    exact hb
  · exact h.balances j b' hj

theorem moves (h : l.Rows) {delta before after : Decimal}
    (hm : l.Moves ext delta before after l') : l'.Rows := by
  obtain ⟨a, -, hb, rfl⟩ := hm.account
  exact h.setBalance a.id (hm.adjusts.storable (h.balances _ _ hb))

theorem win {odds : Odds} (hodds : odds.NeverNegative) {bet w : Decimal} {o : Outcome}
    (hbet : 0 < bet.toRat) (hw : Settlement.payout odds bet o = .ok w) : w.Storable := by
  obtain ⟨hfits, hc⟩ := payout_win hodds (Decimal.coefficient_nonneg hbet.le) hw
  refine ⟨?_, hfits⟩
  rw [Decimal.nonneg_iff, Decimal.isNegative, decide_eq_false_iff_not]
  omega

theorem after_settles (h : l.Rows) {bet before between after : Decimal} {spin : Spin}
    (hs : l.Settles ext bet spin before between after l') : after.Storable := by
  have hbetween := hs.debit.storable (h.balances _ _ hs.balance)
  have hcredit := hs.credit
  split at hcredit
  · exact hcredit.storable hbetween
  · rw [hcredit]
    exact hbetween

theorem settles (h : l.Rows) {d : Decimal} {spin : Spin}
    (hs : l.SettlesBy Odds.NeverNegative ext d spin l') : l'.Rows := by
  obtain ⟨haccepts, ⟨odds, o, hodds, hwin⟩, before, between, after, hs⟩ := hs
  have hbet := Settlement.acceptsBet_iff.mp haccepts
  rw [hs.ledger_eq]
  refine (h.setBalance _ (h.after_settles hs)).addSpin ?_ (win hodds hbet.1 hwin)
  rw [hs.bet_eq]
  exact hbet

theorem makes (h : l.Rows) {op : Operation} {r : Option Reply}
    (hm : op.Makes Odds.NeverNegative l l' r) (hop : ∀ m, op ≠ .move m)
    (hseed : ∀ ext b, op = .seed ext b → b.Storable) : l'.Rows := by
  rcases hm.cases hop with ⟨rfl, -⟩ | ⟨ext, b, a, hop, hs, -⟩ | ⟨ext, amount, delta, before, after,
    -, hmoves, -⟩ | ⟨ext, bet, c, spin, -, hs, -⟩
  · exact h
  · rcases hop with rfl | ⟨-, rfl⟩
    · exact h.seed (hseed ext b rfl) hs
    · exact h.seed Decimal.storable_zero hs
  · exact h.moves hmoves
  · exact h.settles hs

end Ledger.Rows

end WagerLedger

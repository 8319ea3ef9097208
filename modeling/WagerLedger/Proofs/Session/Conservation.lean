import Mathlib.Algebra.BigOperators.Group.Finset.Basic
import WagerLedger.Proofs.Session.Rows

/-! # Conservation of money

A balance is what its account was opened with, plus what the answered deposits put on it, less
what the answered withdrawals took off it, plus the nets of its committed spins. The books are
kept by the changes that the calls have made, and every sum in them is exact as long as no
balance grows past what a decimal can tell to four places. -/
namespace WagerLedger

/-- What the committed spins of an account have brought it. -/
def Ledger.netOf (l : Ledger) (id : AccountId) : ℚ :=
  ((l.spinsOf id).map fun s => s.win.toRat - s.bet.toRat).sum

/-- No committed balance is past what a decimal can tell to four places. -/
def Ledger.Bounded (l : Ledger) : Prop :=
  ∀ id b, l.balance? id = some b → b.toRat ≤ Decimal.ledgerMax

namespace Ledger

theorem bounded_of_entries {l : Ledger}
    (h : l.accounts.entries.all (fun e => decide (e.2.balance.toRat ≤ Decimal.ledgerMax)) = true) :
    l.Bounded := by
  intro id b hb
  obtain ⟨a, ha, rfl⟩ := Option.map_eq_some_iff.mp hb
  exact of_decide_eq_true (List.all_eq_true.mp h (id, a) (Table.mem_of_get? ha))

theorem netOf_addSpin (l : Ledger) (s : Spin) (id : AccountId) :
    (l.addSpin s).netOf id =
      l.netOf id + if s.accountId = id then s.win.toRat - s.bet.toRat else 0 := by
  rw [netOf, netOf, spinsOf, addSpin, List.filter_append, List.map_append, List.sum_append]
  congr 1
  by_cases h : s.accountId = id <;> simp [h]

theorem Consistent.netOf_fresh {l : Ledger} (h : l.Consistent) {id : AccountId}
    (hid : l.accounts.get? id = none) : l.netOf id = 0 := by
  have hnone : l.spinsOf id = [] := by
    rw [spinsOf, List.filter_eq_nil_iff]
    intro s hs hacc
    have hsome := h.spins s hs
    rw [of_decide_eq_true hacc, hid] at hsome
    cases hsome
  rw [netOf, hnone]
  rfl

end Ledger

theorem Adjusts.toRat_after {delta before after : Decimal} (h : Adjusts delta before after)
    (hb : before.Storable) (hmax : after.toRat ≤ Decimal.ledgerMax) :
    after.toRat = before.toRat + delta.toRat := by
  refine Decimal.toRat_add? hb.fits h.fits h.sum (.inr ?_)
  rw [abs_of_nonneg (h.storable hb).nonneg]
  exact hmax

theorem Adjusts.toRat_debit {d before after : Decimal} (h : Adjusts d.neg before after)
    (hd : 0 < d.toRat) (hb : before.Storable) (hmax : before.toRat ≤ Decimal.ledgerMax) :
    after.toRat = before.toRat - d.toRat := by
  have hneg : d.neg.isNegative = true := by
    rw [Decimal.isNegative_neg, Decimal.isPositive_iff]
    exact hd
  have hcov : ¬after.isNegative = true := by
    rw [h.covered hneg]
    exact Bool.false_ne_true
  rw [Decimal.isNegative_add? h.sum, not_lt, Decimal.toRat_neg] at hcov
  have hsum := Decimal.toRat_add? hb.fits h.fits h.sum (.inl ?_)
  · rw [hsum, Decimal.toRat_neg, sub_eq_add_neg]
  · rw [Decimal.toRat_neg, abs_of_nonneg hcov]
    linarith

theorem Ledger.Settles.toRat_after {l l' : Ledger} {ext : Identifier}
    {bet before between after : Decimal} {spin : Spin}
    (h : l.Settles ext bet spin before between after l') (hb : before.Storable)
    (hbet : 0 < bet.toRat) (hwin : spin.win.Storable) (hbefore : before.toRat ≤ Decimal.ledgerMax)
    (hafter : after.toRat ≤ Decimal.ledgerMax) :
    after.toRat = before.toRat + (spin.win.toRat - spin.bet.toRat) := by
  have hbetween := h.debit.toRat_debit hbet hb hbefore
  have hcredit := h.credit
  rw [h.bet_eq]
  split at hcredit
  · rw [hcredit.toRat_after (h.debit.storable hb) hafter, hbetween]
    ring
  · rename_i hpos
    rw [Decimal.isPositive_iff, not_lt] at hpos
    have hzero : spin.win.toRat = 0 := le_antisymm hpos hwin.nonneg
    rw [hcredit, hbetween, hzero]
    ring

def Operation.opening? : Operation → Option Decimal
  | .seed _ b => some b
  | .openAccount _ => some .zero
  | _ => none

def Operation.deposit? : Operation → Option (Identifier × Decimal)
  | .deposit ext amount => some (ext, amount)
  | _ => none

def Operation.withdrawal? : Operation → Option (Identifier × Decimal)
  | .withdraw ext amount => some (ext, amount)
  | _ => none

def Ledger.transfer (l : Ledger) (id : AccountId) : Option (Identifier × Decimal) → ℚ
  | some (ext, amount) => if l.index.get? ext = some id then amount.toRat else 0
  | none => 0

def Operation.opens (id : AccountId) (op : Operation) : Option (Ledger × Ledger) → Option Decimal
  | some (l, _) => if l.lastAccountId + 1 = id then op.opening? else none
  | none => none

/-- The part of a transfer of the call that goes to an account, once the call has made it. -/
def Operation.share (kind : Operation → Option (Identifier × Decimal)) (id : AccountId)
    (op : Operation) : Option (Ledger × Ledger) → ℚ
  | some (l, _) => l.transfer id (kind op)
  | none => 0

def Operation.brings (id : AccountId) (op : Operation) (x : Option (Ledger × Ledger)) : ℚ :=
  op.share deposit? id x - op.share withdrawal? id x

theorem Ledger.transfer_eq_zero {l : Ledger} {id : AccountId}
    (h : ∀ ext, l.index.get? ext ≠ some id) (x : Option (Identifier × Decimal)) :
    l.transfer id x = 0 := by
  cases x with
  | none => rfl
  | some x => exact if_neg (h x.1)

def opened (ops : List Operation) (χ : Nat → Option (Ledger × Ledger)) (id : AccountId) (n : Nat) :
    Option Decimal :=
  ops[n]?.bind fun op => op.opens id (χ n)

/-- What all calls have put on an account from outside. -/
def brought (ops : List Operation) (χ : Nat → Option (Ledger × Ledger)) (id : AccountId) (n : Nat) :
    ℚ :=
  (ops[n]?.map fun op => op.brings id (χ n)).getD 0

/-- The books of a ledger: each account was opened by one call, its balance is what the changes
of the calls have made of it, and an external id stays with its account. -/
structure Books (ops : List Operation) (l : Ledger) (χ : Nat → Option (Ledger × Ledger)) : Prop where
  index : ∀ n l₁ l₂, χ n = some (l₁, l₂) → ∀ ext id, l₁.index.get? ext = some id →
    l.index.get? ext = some id
  known : ∀ n id b, opened ops χ id n = some b → (l.accounts.get? id).isSome
  once : ∀ id m n b b', opened ops χ id m = some b → opened ops χ id n = some b' → m = n
  balance : ∀ id b, l.balance? id = some b → ∃ n b₀, opened ops χ id n = some b₀ ∧
    b.toRat = b₀.toRat + ∑ m ∈ Finset.range ops.length, brought ops χ id m + l.netOf id

/-- How a change of a call goes into the books: what was there stays, a new account is one that
the call opens, and a balance changes by what the call brings and by new spins. -/
structure Operation.Posts (op : Operation) (l l' : Ledger) : Prop where
  index : ∀ ext id, l.index.get? ext = some id → l'.index.get? ext = some id
  accounts : ∀ id, (l.accounts.get? id).isSome → (l'.accounts.get? id).isSome
  opens : ∀ id b, op.opens id (some (l, l')) = some b →
    l.accounts.get? id = none ∧ (l'.accounts.get? id).isSome
  balance : ∀ id b', l'.balance? id = some b' →
    (∃ b, l.balance? id = some b ∧
      b'.toRat = b.toRat + op.brings id (some (l, l')) + (l'.netOf id - l.netOf id)) ∨
    (l.accounts.get? id = none ∧ l'.netOf id = 0 ∧ op.brings id (some (l, l')) = 0 ∧
      op.opens id (some (l, l')) = some b')

/-- Call `n` has made its change, and nothing else has come to the books. -/
structure Recorded (ops : List Operation) (χ χ' : Nat → Option (Ledger × Ledger)) (n : Nat)
    (op : Operation) (l l' : Ledger) : Prop where
  call : ops[n]? = some op
  before : χ n = none
  after : χ' n = some (l, l')
  others : ∀ m, m ≠ n → χ' m = χ m

section Books

variable {ops : List Operation} {l l' : Ledger} {χ χ' : Nat → Option (Ledger × Ledger)} {n : Nat}
  {op : Operation}

theorem books_empty (ops : List Operation) : Books ops .empty fun _ => none where
  index _ _ _ h := nomatch h
  known n id b h := by
    obtain ⟨op, -, ho⟩ := Option.bind_eq_some_iff.mp h
    cases ho
  once id m n b b' h := by
    obtain ⟨op, -, ho⟩ := Option.bind_eq_some_iff.mp h
    cases ho
  balance _ _ h := nomatch h

theorem Books.same (h : Books ops l χ) (hl : l' = l) (hχ : ∀ m, χ' m = χ m) :
    Books ops l' χ' := by
  rwa [hl, funext hχ]

theorem Books.brought_fresh (h : Books ops l χ) (hc : l.Consistent) {id : AccountId}
    (hid : l.accounts.get? id = none) (m : Nat) : brought ops χ id m = 0 := by
  have hindex : ∀ l₁ l₂, χ m = some (l₁, l₂) → ∀ ext, l₁.index.get? ext ≠ some id := by
    intro l₁ l₂ hm ext hext
    have hsome := hc.indexed ext id (h.index m l₁ l₂ hm ext id hext)
    rw [hid] at hsome
    cases hsome
  unfold brought
  cases ops[m]? with
  | none => rfl
  | some op =>
    change op.brings id (χ m) = 0
    cases hm : χ m with
    | none => exact sub_zero 0
    | some x =>
      obtain ⟨l₁, l₂⟩ := x
      have hne := hindex l₁ l₂ hm
      rw [Operation.brings, Operation.share, Operation.share, Ledger.transfer_eq_zero hne,
        Ledger.transfer_eq_zero hne, sub_zero]

theorem Recorded.opened_self (h : Recorded ops χ χ' n op l l') (id : AccountId) :
    opened ops χ' id n = op.opens id (some (l, l')) := by
  rw [opened, h.call, h.after]
  rfl

theorem Recorded.opened_before (h : Recorded ops χ χ' n op l l') (id : AccountId) :
    opened ops χ id n = none := by
  rw [opened, h.call, h.before]
  rfl

theorem Recorded.opened_other (h : Recorded ops χ χ' n op l l') (id : AccountId) {m : Nat}
    (hm : m ≠ n) : opened ops χ' id m = opened ops χ id m := by
  rw [opened, opened, h.others m hm]

theorem Recorded.opened_old (h : Recorded ops χ χ' n op l l') {id : AccountId} {m : Nat}
    {b : Decimal} (hm : opened ops χ id m = some b) : opened ops χ' id m = some b := by
  have hne : m ≠ n := by
    rintro rfl
    rw [h.opened_before id] at hm
    cases hm
  rw [h.opened_other id hne, hm]

theorem Recorded.brought_sum (h : Recorded ops χ χ' n op l l') (id : AccountId) :
    ∑ m ∈ Finset.range ops.length, brought ops χ' id m =
      ∑ m ∈ Finset.range ops.length, brought ops χ id m + op.brings id (some (l, l')) := by
  have hn : n ∈ Finset.range ops.length :=
    Finset.mem_range.mpr (List.getElem?_eq_some_iff.mp h.call).1
  have hself : brought ops χ' id n = op.brings id (some (l, l')) := by
    rw [brought, h.call, h.after]
    rfl
  have hbefore : brought ops χ id n = 0 := by
    rw [brought, h.call, h.before]
    exact sub_zero 0
  have hothers : ∑ m ∈ (Finset.range ops.length).erase n, brought ops χ' id m =
      ∑ m ∈ (Finset.range ops.length).erase n, brought ops χ id m := by
    refine Finset.sum_congr rfl fun m hm => ?_
    rw [brought, brought, h.others m (Finset.ne_of_mem_erase hm)]
  rw [← Finset.add_sum_erase _ _ hn, ← Finset.add_sum_erase _ (brought ops χ id) hn, hself,
    hbefore, hothers]
  ring

/-- A change that is posted keeps the books. -/
theorem Books.post (h : Books ops l χ) (hc : l.Consistent) (hr : Recorded ops χ χ' n op l l')
    (hp : op.Posts l l') : Books ops l' χ' where
  index m l₁ l₂ hm ext id hext := by
    by_cases hmn : m = n
    · rw [hmn, hr.after] at hm
      cases hm
      exact hp.index ext id hext
    · rw [hr.others m hmn] at hm
      exact hp.index ext id (h.index m l₁ l₂ hm ext id hext)
  known m id b hm := by
    by_cases hmn : m = n
    · rw [hmn, hr.opened_self] at hm
      exact (hp.opens id b hm).2
    · rw [hr.opened_other id hmn] at hm
      exact hp.accounts id (h.known m id b hm)
  once id m m' b b' hm hm' := by
    -- What a call opens now was unknown before, so no earlier call can have opened it.
    have hnew : ∀ k b b', k ≠ n → opened ops χ' id k = some b →
        opened ops χ' id n = some b' → False := by
      intro k b b' hk hold hself
      rw [hr.opened_other id hk] at hold
      rw [hr.opened_self] at hself
      have hsome := h.known k id b hold
      rw [(hp.opens id b' hself).1] at hsome
      cases hsome
    by_cases hmn : m = n
    · by_cases hmn' : m' = n
      · rw [hmn, hmn']
      · exact (hnew m' b' b hmn' hm' (hmn ▸ hm)).elim
    · by_cases hmn' : m' = n
      · exact (hnew m b b' hmn hm (hmn' ▸ hm')).elim
      · rw [hr.opened_other id hmn] at hm
        rw [hr.opened_other id hmn'] at hm'
        exact h.once id m m' b b' hm hm'
  balance id b' hb' := by
    rw [hr.brought_sum]
    rcases hp.balance id b' hb' with ⟨b, hb, hsum⟩ | ⟨hid, hnet, hbrings, hopens⟩
    · obtain ⟨m, b₀, hm, hold⟩ := h.balance id b hb
      refine ⟨m, b₀, hr.opened_old hm, ?_⟩
      rw [hsum, hold]
      ring
    · refine ⟨n, b', by rw [hr.opened_self, hopens], ?_⟩
      rw [hnet, hbrings, Finset.sum_eq_zero fun m _ => h.brought_fresh hc hid m]
      ring

theorem share_eq_zero {kind : Operation → Option (Identifier × Decimal)} (hk : kind op = none)
    (id : AccountId) (x : Option (Ledger × Ledger)) : op.share kind id x = 0 := by
  cases x with
  | none => rfl
  | some x =>
    rw [Operation.share, hk]
    rfl

theorem brings_eq_zero (hd : op.deposit? = none) (hw : op.withdrawal? = none) (id : AccountId)
    (x : Option (Ledger × Ledger)) : op.brings id x = 0 := by
  rw [Operation.brings, share_eq_zero hd, share_eq_zero hw]
  exact sub_zero 0

theorem opens_eq_none (ho : op.opening? = none) (id : AccountId) (x : Option (Ledger × Ledger)) :
    op.opens id x = none := by
  cases x with
  | none => rfl
  | some x =>
    rw [Operation.opens, ho]
    exact ite_self none

theorem posts_same (ho : op.opening? = none) (hbr : ∀ id, op.brings id (some (l, l)) = 0) :
    op.Posts l l where
  index _ _ h := h
  accounts _ h := h
  opens id b h := by
    rw [opens_eq_none ho] at h
    cases h
  balance id b h := .inl ⟨b, h, by rw [hbr id]; ring⟩

theorem posts_seed (hc : l.Consistent) {ext : Identifier} {b : Decimal} {a : Account}
    (ho : op.opening? = some b) (hbr : ∀ id, op.brings id (some (l, l')) = 0)
    (hs : l.seed ext b = (.ok a, l')) :
    op.Posts l l' := by
  obtain ⟨hext, rfl, rfl⟩ := Ledger.seed_eq_ok hs
  have hop : ∀ id x, op.opens id (some (l, x)) =
      if l.lastAccountId + 1 = id then some b else none := fun id x => by
    rw [Operation.opens, ho]
  refine ⟨fun e id he => ?_, fun id hid => ?_, fun id b' hnew => ?_, fun id b' hb' => ?_⟩
  · rw [Ledger.index_addAccount]
    split
    · rename_i heq
      rw [heq, hext] at he
      cases he
    · exact he
  · rw [Ledger.get?_addAccount]
    split
    · rfl
    · exact hid
  · rw [hop id] at hnew
    split at hnew
    · rename_i hid
      rw [← hid]
      refine ⟨hc.fresh, ?_⟩
      rw [Ledger.get?_addAccount, if_pos rfl]
      rfl
    · cases hnew
  · rw [Ledger.balance?_addAccount] at hb'
    split at hb'
    · rename_i hid
      cases hb'
      have hfresh : l.accounts.get? id = none := hid ▸ hc.fresh
      exact .inr ⟨hfresh, hc.netOf_fresh hfresh, hbr id, by rw [hop id, if_pos hid.symm]⟩
    · refine .inl ⟨b', hb', ?_⟩
      rw [hbr id, show (l.addAccount _).netOf id = l.netOf id from rfl]
      ring

theorem posts_moves (hc : l.Consistent) (hrows : l.Rows) (hmax : l'.Bounded) {ext : Identifier}
    {delta before after : Decimal} (ho : op.opening? = none)
    (hbr : ∀ id, op.brings id (some (l, l')) =
      if l.index.get? ext = some id then delta.toRat else 0)
    (hm : l.Moves ext delta before after l') : op.Posts l l' := by
  obtain ⟨a, ha, hb, rfl⟩ := hm.account
  have hext := (hc.find? ha).1
  refine ⟨fun _ _ h => h, fun id hid => ?_, fun id b' hnew => ?_, fun id b' hb' => .inl ?_⟩
  · rw [Ledger.isSome_setBalance]
    exact hid
  · rw [opens_eq_none ho] at hnew
    cases hnew
  · have hb'' := hb'
    rw [hbr id, show (l.setBalance a.id after).netOf id = l.netOf id from rfl, hext]
    rw [Ledger.balance?_setBalance] at hb'
    split at hb'
    · rename_i hid
      rw [hb] at hb'
      cases hb'
      rw [hid] at hb'' ⊢
      refine ⟨before, hb, ?_⟩
      rw [if_pos rfl, hm.adjusts.toRat_after (hrows.balances _ _ hb) (hmax _ _ hb'')]
      ring
    · rename_i hid
      refine ⟨b', hb', ?_⟩
      rw [if_neg fun h => hid (Option.some.inj h).symm]
      ring

theorem posts_settles (hrows : l.Rows) (hmax : l.Bounded) (hmax' : l'.Bounded) {ext : Identifier}
    {bet : Decimal} {spin : Spin} (ho : op.opening? = none)
    (hbr : ∀ id, op.brings id (some (l, l')) = 0)
    (hs : l.SettlesBy Odds.NeverNegative ext bet spin l') : op.Posts l l' := by
  obtain ⟨haccepts, ⟨odds, o, hodds, hwin⟩, before, between, after, hs⟩ := hs
  have hbet := (Settlement.acceptsBet_iff.mp haccepts).1
  have hstore := Ledger.Rows.win hodds hbet hwin
  obtain rfl := hs.ledger_eq
  refine ⟨fun _ _ h => h, fun id hid => ?_, fun id b' hnew => ?_, fun id b' hb' => .inl ?_⟩
  · exact (Ledger.isSome_setBalance l _ id after).trans hid
  · rw [opens_eq_none ho] at hnew
    cases hnew
  · have hb'' := hb'
    have hspins : (l.setBalance spin.accountId after).netOf id = l.netOf id := rfl
    rw [hbr id, Ledger.netOf_addSpin, hspins]
    have hb₁ : (l.setBalance spin.accountId after).balance? id = some b' := hb'
    rw [Ledger.balance?_setBalance] at hb₁
    split at hb₁
    · rename_i hid
      rw [hs.balance] at hb₁
      cases hb₁
      rw [hid] at hb'' ⊢
      refine ⟨before, hs.balance, ?_⟩
      rw [if_pos rfl, hs.toRat_after (hrows.balances _ _ hs.balance) hbet hstore
        (hmax _ _ hs.balance) (hmax' _ _ hb'')]
      ring
    · rename_i hid
      refine ⟨b', hb₁, ?_⟩
      rw [if_neg fun h => hid h.symm]
      ring

theorem posts_makes (hc : l.Consistent) (hrows : l.Rows) (hmax : l.Bounded) (hmax' : l'.Bounded)
    {r : Option Reply} (hm : op.Makes Odds.NeverNegative l l' r) (hop : ∀ m, op ≠ .move m) :
    op.Posts l l' := by
  rcases hm.cases hop with ⟨rfl, ext, hop⟩ | ⟨ext, b, a, hop, hs, -⟩ | ⟨ext, amount, delta,
    before, after, hop, hmoves, -⟩ | ⟨ext, bet, c, spin, rfl, hs, -⟩
  · rcases hop with rfl | ⟨limit, rfl⟩
    · exact posts_same rfl fun id => brings_eq_zero rfl rfl id _
    · exact posts_same rfl fun id => brings_eq_zero rfl rfl id _
  · rcases hop with rfl | ⟨rfl, rfl⟩
    · exact posts_seed hc rfl (fun id => brings_eq_zero rfl rfl id _) hs
    · exact posts_seed hc rfl (fun id => brings_eq_zero rfl rfl id _) hs
  · rcases hop with ⟨rfl, rfl⟩ | ⟨rfl, rfl⟩
    · exact posts_moves hc hrows hmax' rfl (fun id => sub_zero _) hmoves
    · refine posts_moves hc hrows hmax' rfl (fun id => ?_) hmoves
      rw [Decimal.toRat_neg, ← neg_zero, ← neg_ite]
      exact zero_sub _
  · exact posts_settles hrows hmax hmax' rfl (fun id => brings_eq_zero rfl rfl id _) hs

end Books

namespace Scenario

/-- The opening balance of an account, if it is this call that has answered with it. -/
def opening? (c : Scenario) (us : List Turn) (id : AccountId) (n : Nat) : Option Decimal :=
  match c.answer? us n with
  | some (.account a) => if a.id = id then c.calls[n]?.bind (·.opening?) else none
  | _ => none

/-- What the call has put on an account, or taken off it, if it has answered well. -/
def transferred (kind : Operation → Option (Identifier × Decimal)) (c : Scenario)
    (us : List Turn) (id : AccountId) (n : Nat) : ℚ :=
  match c.answer? us n with
  | some (.amount _) => (c.ledger us).transfer id (c.calls[n]?.bind kind)
  | _ => 0

def deposits (c : Scenario) (us : List Turn) (id : AccountId) : ℚ :=
  ∑ n ∈ Finset.range c.calls.length, c.transferred Operation.deposit? us id n

def withdrawals (c : Scenario) (us : List Turn) (id : AccountId) : ℚ :=
  ∑ n ∈ Finset.range c.calls.length, c.transferred Operation.withdrawal? us id n

variable {c : Scenario} {us : List Turn} {φ : Nat → Phase}

theorem books_turn (hc : c.Proper) {u : Turn} {φ' : Nat → Phase}
    (hrows : (c.ledger us).Consistent ∧ (c.ledger us).Rows)
    (hmax : (c.ledger us).Bounded) (hmax' : (c.ledger (us ++ [u])).Bounded)
    (h : Books c.calls (c.ledger us) fun n => (φ n).change?)
    (hturned : Tracks.Turned Odds.NeverNegative c.calls u (c.ledger us) (c.ledger (us ++ [u])) φ φ') :
    Books c.calls (c.ledger (us ++ [u])) fun n => (φ' n).change? := by
  cases hturned with
  | same hl hchange => exact h.same hl hchange
  | change n _ hbefore hafter hothers hmakes =>
    obtain ⟨op, r, hop, hm⟩ := hmakes
    refine h.post hrows.1 ⟨hop, hbefore, hafter, hothers⟩ ?_
    exact posts_makes hrows.1 hrows.2 hmax hmax' hm (hc.mem hop).1

theorem books_run (hc : c.Proper) (us : List Turn) (hmax : ∀ k, (c.ledger (us.take k)).Bounded) :
    ∃ φ, Tracks Odds.NeverNegative c.calls (c.after us) φ ∧
      Books c.calls (c.ledger us) fun n => (φ n).change? := by
  have hstep : ∀ us u φ φ', ((∀ k, (c.ledger (us.take k)).Bounded) →
      Books c.calls (c.ledger us) fun n => (φ n).change?) →
      Tracks.Turned Odds.NeverNegative c.calls u (c.ledger us) (c.ledger (us ++ [u])) φ φ' →
      (∀ k, (c.ledger ((us ++ [u]).take k)).Bounded) →
      Books c.calls (c.ledger (us ++ [u])) fun n => (φ' n).change? := by
    intro us u φ φ' h hturned hmax
    have hshort : ∀ k, (c.ledger (us.take k)).Bounded := fun k => by
      have hk := hmax (min k us.length)
      rwa [List.take_append_of_le_length (min_le_right _ _), ← List.take_take,
        List.take_length] at hk
    have hlast := hmax (us.length + 1)
    rw [List.take_of_length_le (by simp)] at hlast
    have hbefore := hshort us.length
    rw [List.take_length] at hbefore
    exact books_turn hc (rows_run hc us) hbefore hlast (h hshort) hturned
  obtain ⟨φ, htracks, h⟩ := c.run_induction (P := Odds.NeverNegative)
    (M := fun us φ => (∀ k, (c.ledger (us.take k)).Bounded) →
      Books c.calls (c.ledger us) fun n => (φ n).change?)
    hc.odds.neverNegative (fun s hs => (hc.engines s hs).neverNegative)
    (fun _ => books_empty c.calls) hstep us
  exact ⟨φ, htracks, h hmax⟩

theorem refused_of_opening? {op : Operation} {b : Decimal} (ho : op.opening? = some b)
    {r : Reply} (hr : op.Refuses (some r)) : ∃ e, r = .ledgerError e := by
  cases op with
  | seed ext b => exact hr r rfl
  | openAccount ext => exact hr r rfl
  | _ => cases ho

theorem answer_of_opening? {op : Operation} {b : Decimal} (ho : op.opening? = some b)
    {P : Odds → Prop} {l l' : Ledger} {r : Option Reply} (hm : op.Makes P l l' r) :
    ∃ a, a.id = l.lastAccountId + 1 ∧ r = some (.account a) := by
  cases op with
  | seed ext b =>
    obtain ⟨a, hs, hr⟩ := hm
    exact ⟨a, by rw [(Ledger.seed_eq_ok hs).2.1], hr⟩
  | openAccount ext =>
    obtain ⟨a, hs, hr⟩ := hm
    exact ⟨a, by rw [(Ledger.seed_eq_ok hs).2.1], hr⟩
  | _ => cases ho

theorem refused_of_transfer {op : Operation} {ext : Identifier} {amount : Decimal}
    (hop : op = .deposit ext amount ∨ op = .withdraw ext amount) {r : Reply}
    (hr : op.Refuses (some r)) : ∃ e, r = .ledgerError e := by
  rcases hop with rfl | rfl
  · exact hr r rfl
  · exact hr r rfl

theorem answer_of_transfer {op : Operation} {ext : Identifier} {amount : Decimal}
    (hop : op = .deposit ext amount ∨ op = .withdraw ext amount) {P : Odds → Prop}
    {l l' : Ledger} {r : Option Reply} (hm : op.Makes P l l' r) :
    ∃ after a, l.find? ext = some a ∧ r = some (.amount after) := by
  rcases hop with rfl | rfl
  · obtain ⟨-, before, after, hmoves, hr⟩ := hm
    obtain ⟨a, ha, -⟩ := hmoves.account
    exact ⟨after, a, ha, hr⟩
  · obtain ⟨-, before, after, hmoves, hr⟩ := hm
    obtain ⟨a, ha, -⟩ := hmoves.account
    exact ⟨after, a, ha, hr⟩

theorem opening?_booked (h : Tracks Odds.NeverNegative c.calls (c.after us) φ)
    (id : AccountId) (n : Nat) :
    c.opening? us id n = opened c.calls (fun n => (φ n).change?) id n := by
  cases hop : c.calls[n]? with
  | none =>
    rw [opened, hop, opening?, hop]
    split
    · exact ite_self none
    · rfl
  | some op =>
    obtain ⟨hrefuses, hmakes⟩ := answered h hop
    rw [opened, hop, opening?, hop]
    change _ = op.opens id (φ n).change?
    cases ho : op.opening? with
    | none =>
      rw [opens_eq_none ho]
      split
      · change (if _ then op.opening? else none) = none
        rw [ho, ite_self]
      · rfl
    | some b =>
      cases hφ : (φ n).change? with
      | none =>
        cases hr : c.answer? us n with
        | none => rfl
        | some r =>
          have hr' := hrefuses hφ
          rw [hr] at hr'
          obtain ⟨e, rfl⟩ := refused_of_opening? ho hr'
          rfl
      | some x =>
        obtain ⟨l, l'⟩ := x
        obtain ⟨a, ha, hr⟩ := answer_of_opening? ho (hmakes l l' hφ)
        rw [hr]
        change (if a.id = id then op.opening? else none) = _
        rw [ha]
        rfl

theorem transferred_booked {kind : Operation → Option (Identifier × Decimal)}
    (hkind : ∀ op ext amount, kind op = some (ext, amount) →
      op = .deposit ext amount ∨ op = .withdraw ext amount)
    (h : Tracks Odds.NeverNegative c.calls (c.after us) φ)
    (hb : Books c.calls (c.ledger us) fun n => (φ n).change?) (id : AccountId) (n : Nat) :
    c.transferred kind us id n =
      (c.calls[n]?.map fun op => op.share kind id (φ n).change?).getD 0 := by
  cases hop : c.calls[n]? with
  | none =>
    rw [transferred, hop]
    split <;> rfl
  | some op =>
    obtain ⟨hrefuses, hmakes⟩ := answered h hop
    rw [transferred, hop]
    change _ = op.share kind id (φ n).change?
    cases hk : kind op with
    | none =>
      rw [share_eq_zero hk]
      split
      · change Ledger.transfer _ id (kind op) = 0
        rw [hk]
        rfl
      · rfl
    | some x =>
      obtain ⟨ext, amount⟩ := x
      -- A transfer that was answered with a balance has changed the ledger once, and no other has.
      cases hφ : (φ n).change? with
      | none =>
        cases hr : c.answer? us n with
        | none => rfl
        | some r =>
          have hr' := hrefuses hφ
          rw [hr] at hr'
          obtain ⟨e, rfl⟩ := refused_of_transfer (hkind op ext amount hk) hr'
          rfl
      | some x =>
        obtain ⟨l, l'⟩ := x
        obtain ⟨after, a, ha, hr⟩ := answer_of_transfer (hkind op ext amount hk) (hmakes l l' hφ)
        obtain ⟨id', hid', -⟩ := Option.bind_eq_some_iff.mp ha
        rw [hr]
        change Ledger.transfer _ id (kind op) = Ledger.transfer _ id (kind op)
        rw [hk, Ledger.transfer, Ledger.transfer, hid', hb.index n l l' hφ ext id' hid']

theorem brought_booked (h : Tracks Odds.NeverNegative c.calls (c.after us) φ)
    (hb : Books c.calls (c.ledger us) fun n => (φ n).change?) (id : AccountId) (n : Nat) :
    brought c.calls (fun n => (φ n).change?) id n =
      c.transferred Operation.deposit? us id n - c.transferred Operation.withdrawal? us id n := by
  have hd : ∀ op ext amount, Operation.deposit? op = some (ext, amount) →
      op = .deposit ext amount ∨ op = .withdraw ext amount := by
    intro op ext amount h
    cases op <;> cases h
    exact .inl rfl
  have hw : ∀ op ext amount, Operation.withdrawal? op = some (ext, amount) →
      op = .deposit ext amount ∨ op = .withdraw ext amount := by
    intro op ext amount h
    cases op <;> cases h
    exact .inr rfl
  rw [transferred_booked hd h hb, transferred_booked hw h hb, brought]
  cases c.calls[n]? with
  | none => exact (sub_zero 0).symm
  | some op => rfl

/-- While no balance has been past what a decimal can tell to four places, every balance is
exactly what its account was opened with, by the one call that has opened it, plus the deposits,
less the withdrawals, plus the nets of the committed spins. -/
theorem money_conserved (hc : c.Proper) (us : List Turn)
    (hmax : ∀ k, (c.ledger (us.take k)).Bounded) {id : AccountId} {b : Decimal}
    (hb : (c.ledger us).balance? id = some b) :
    ∃ n b₀, c.opening? us id n = some b₀ ∧ (∀ m, (c.opening? us id m).isSome → m = n) ∧
      b.toRat = b₀.toRat + c.deposits us id - c.withdrawals us id + (c.ledger us).netOf id := by
  obtain ⟨φ, htracks, hbooks⟩ := books_run hc us hmax
  obtain ⟨n, b₀, hn, hsum⟩ := hbooks.balance id b hb
  refine ⟨n, b₀, ?_, fun m hm => ?_, ?_⟩
  · rw [opening?_booked htracks, hn]
  · rw [opening?_booked htracks] at hm
    obtain ⟨b', hm⟩ := Option.isSome_iff_exists.mp hm
    exact hbooks.once id m n b' b₀ hm hn
  · have hbrought : ∑ m ∈ Finset.range c.calls.length, brought c.calls (fun n => (φ n).change?) id m
        = c.deposits us id - c.withdrawals us id := by
      rw [deposits, withdrawals, ← Finset.sum_sub_distrib]
      exact Finset.sum_congr rfl fun m _ => brought_booked htracks hbooks id m
    rw [hsum, hbrought]
    ring

/-- A seed, a settlement, a deposit and a withdrawal that come between each other. -/
def fourCalls : Scenario where
  config := .standard
  entropy _ := .ofList []
  probes := []
  calls := [.seed .nil .ten, .settle .nil .two none, .deposit .nil .two, .withdraw .nil .ten]

def fourCallsTurns : List Turn :=
  List.replicate 5 (.step 0) ++
    (List.replicate 40 [.step 2, .step 1, .step 3]).flatten ++ List.replicate 8 (.step 1)

theorem proper_fourCalls : fourCalls.Proper where
  odds := ⟨.standard, by decide +kernel⟩
  engines s h := by simp [fourCalls] at h
  seeds ext b h := by
    simp only [fourCalls, List.mem_cons, Operation.seed.injEq, reduceCtorEq, List.not_mem_nil,
      or_false] at h
    rw [h.2]
    exact ⟨(Decimal.nonneg_iff _).mpr rfl, rfl⟩
  moves m h := by simp [fourCalls] at h

theorem bounded_fourCalls (k : Nat) : (fourCalls.ledger (fourCallsTurns.take k)).Bounded := by
  have hall : ∀ j < 134, (fourCalls.ledger (fourCallsTurns.take j)).accounts.entries.all
      (fun e => decide (e.2.balance.toRat ≤ Decimal.ledgerMax)) = true := by decide +kernel
  have hlen : fourCallsTurns.length = 133 := by decide +kernel
  have hj := hall (min k 133) (by omega)
  have htake : fourCallsTurns.take (min k 133) = fourCallsTurns.take k := by
    rw [← hlen, ← List.take_take, List.take_length]
  rw [htake] at hj
  exact Ledger.bounded_of_entries hj

/-- Ten from the seed, two put on, ten taken off, two bet and twenty won. -/
theorem money_conserved_fourCalls :
    (fourCalls.ledger fourCallsTurns).balance? 1 = some oneWinSpin.win ∧
      ∃ n b₀, fourCalls.opening? fourCallsTurns 1 n = some b₀ ∧
        (∀ m, (fourCalls.opening? fourCallsTurns 1 m).isSome → m = n) ∧
        oneWinSpin.win.toRat = b₀.toRat + fourCalls.deposits fourCallsTurns 1 -
          fourCalls.withdrawals fourCallsTurns 1 + (fourCalls.ledger fourCallsTurns).netOf 1 := by
  have hb : (fourCalls.ledger fourCallsTurns).balance? 1 = some oneWinSpin.win := by
    decide +kernel
  exact ⟨hb, money_conserved proper_fourCalls fourCallsTurns bounded_fourCalls hb⟩

end Scenario

end WagerLedger

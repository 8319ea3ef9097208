import WagerLedger.Ledger.Store
import WagerLedger.Proofs.Related

/-! # Ledgers that look alike

Two ledgers are compared by what a client can find out from them: amounts up to a relation
that arithmetic keeps, and either all accounts, with the same ids in both, or one account, with
an id of its own in each. Every call on like transactions over like ledgers gives like answers,
and what the transactions make of the ledgers is alike again. -/
namespace WagerLedger

/-- A relation of amounts that no test tells apart and that every operation keeps. Products
are of amounts that fit the ledger, as bets do. -/
structure Amounts where
  rel : Decimal → Decimal → Prop
  zero : rel .zero .zero
  isPositive : ∀ {x x'}, rel x x' → x.isPositive = x'.isPositive
  isNegative : ∀ {x x'}, rel x x' → x.isNegative = x'.isNegative
  isZero : ∀ {x x'}, rel x x' → x.isZero = x'.isZero
  fitsLedger : ∀ {x x'}, rel x x' → x.fitsLedger = x'.fitsLedger
  neg : ∀ {x x'}, rel x x' → rel x.neg x'.neg
  abs : ∀ {x x'}, rel x x' → rel x.abs x'.abs
  add? : ∀ {x x' y y'}, rel x x' → rel y y' → Option.Rel rel (x.add? y) (x'.add? y')
  mul? : ∀ {x x' y y'}, x.fitsLedger = true → rel x x' → rel y y' →
    Option.Rel rel (x.mul? y) (x'.mul? y')
  truncate : ∀ {x x'}, rel x x' → ∀ p, rel (x.truncate p) (x'.truncate p)

/-- What is compared: everything, or one account by its external id, with its ids in both
ledgers, when it exists or once it does. -/
inductive Scope
  | all
  | one (externalId : Identifier) (id id' : AccountId)

namespace Scope

def names : Scope → Identifier → Prop
  | all, _ => True
  | one ext _ _, e => e = ext

def links : Scope → AccountId → AccountId → Prop
  | all, i, i' => i = i'
  | one _ id id', i, i' => i = id ∧ i' = id'

def pairs : Scope → SpinId → SpinId → Prop
  | all, s, s' => s = s'
  | one .., _, _ => True

variable {S : Scope} {i i' j j' : Int} {e e' : Identifier}

theorem links_iff (hi : S.links i i') (hj : S.links j j') : i = j ↔ i' = j' := by
  cases S with
  | all => rw [show i = i' from hi, show j = j' from hj]
  | one ext id id' => exact iff_of_true (hi.1.trans hj.1.symm) (hi.2.trans hj.2.symm)

theorem links_of_ne (he : S.names e) (he' : S.names e') (hne : e ≠ e') : S.links i i' ↔ i = i' := by
  cases S with
  | all => exact Iff.rfl
  | one ext id id' => exact (hne ((show e = ext from he).trans (show e' = ext from he').symm)).elim

theorem pairs_max (hi : S.pairs i i') (hj : S.pairs j j') : S.pairs (max i j) (max i' j') := by
  cases S with
  | all => rw [show i = i' from hi, show j = j' from hj]; exact rfl
  | one => trivial

theorem pairs_add (hi : S.pairs i i') (n : Int) : S.pairs (i + n) (i' + n) := by
  cases S with
  | all => rw [show i = i' from hi]; exact rfl
  | one => trivial

end Scope

/-- How two sessions are compared. The clock of the first may be ahead of that of the second. -/
structure Likeness where
  amounts : Amounts
  scope : Scope
  lag : Nat

/-- Both end well with like values, or with like errors. -/
inductive EndsAlike {ε α α' : Type} (E : ε → ε → Prop) (A : α → α' → Prop) :
    Except ε α → Except ε α' → Prop
  | ok {a : α} {a' : α'} (h : A a a') : EndsAlike E A (.ok a) (.ok a')
  | error {e e' : ε} (h : E e e') : EndsAlike E A (.error e) (.error e')

theorem EndsAlike.refl {ε α : Type} {E : ε → ε → Prop} (hE : ∀ e, E e e) (r : Except ε α) :
    EndsAlike E Eq r r := by
  cases r with
  | ok a => exact .ok rfl
  | error e => exact .error (hE e)

section Records

variable (L : Likeness)

structure Account.Alike (a a' : Account) : Prop where
  id : L.scope.links a.id a'.id
  externalId : a'.externalId = a.externalId
  named : L.scope.names a.externalId
  balance : L.amounts.rel a.balance a'.balance

structure Wager.Alike (s s' : Wager) : Prop where
  accountId : L.scope.links s.accountId s'.accountId
  bet : L.amounts.rel s.bet s'.bet
  win : L.amounts.rel s.win s'.win

structure Spin.Alike (s s' : Spin) : Prop where
  wager : s.toWager.Alike L s'.toWager
  id : L.scope.pairs s.id s'.id

/-- The same error, or one with like amounts or ids in it. -/
inductive LedgerError.Alike : LedgerError → LedgerError → Prop
  | same (e : LedgerError) : Alike e e
  | accountNotFound {i i' : AccountId} (h : L.scope.links i i') :
    Alike (.accountNotFound i) (.accountNotFound i')
  | insufficientFunds {a a' r r' : Decimal} (ha : L.amounts.rel a a') (hr : L.amounts.rel r r') :
    Alike (.insufficientFunds a r) (.insufficientFunds a' r')
  | invalidAmount {a a' : Decimal} (h : L.amounts.rel a a') :
    Alike (.invalidAmount a) (.invalidAmount a')

/-- Calls with like arguments, and how their answers compare. -/
inductive DataCall.Alike : (c c' : DataCall) → (c.Answer → c'.Answer → Prop) → Prop
  | find {ext : Identifier} (h : L.scope.names ext) :
    Alike (.find ext) (.find ext) (Option.Rel (Account.Alike L))
  | insert {ext : Identifier} (h : L.scope.names ext) :
    Alike (.insert ext) (.insert ext) (Account.Alike L)
  | lockBalance {i i' : AccountId} (h : L.scope.links i i') :
    Alike (.lockBalance i) (.lockBalance i') (Option.Rel L.amounts.rel)
  | writeBalance {i i' : AccountId} {b b' : Decimal} (h : L.scope.links i i')
    (hb : L.amounts.rel b b') : Alike (.writeBalance i b) (.writeBalance i' b') fun _ _ => True
  | append {s s' : Wager} (h : s.Alike L s') : Alike (.append s) (.append s') (Spin.Alike L)
  | list {i i' : AccountId} (h : L.scope.links i i') (limit : Int) :
    Alike (.list i limit) (.list i' limit) (List.Forall₂ (Spin.Alike L))

/-- Transactions that have staged like writes, in the same order. -/
structure Transaction.Alike (t t' : Transaction) : Prop where
  newAccounts : List.Forall₂ (Account.Alike L) t.newAccounts t'.newAccounts
  balances : List.Forall₂ (fun e e' => L.scope.links e.1 e'.1 ∧ L.amounts.rel e.2 e'.2)
    t.balances.entries t'.balances.entries
  spins : List.Forall₂ (Spin.Alike L) t.spins t'.spins

/-- Ledgers with the same view of what is compared. An account that does not exist yet gets
the ids by which it is compared. -/
structure Ledger.Alike (l l' : Ledger) : Prop where
  index : ∀ ext, L.scope.names ext → Option.Rel L.scope.links (l.index.get? ext) (l'.index.get? ext)
  accounts : ∀ i i', L.scope.links i i' →
    Option.Rel (Account.Alike L) (l.accounts.get? i) (l'.accounts.get? i')
  spins : ∀ i i', L.scope.links i i' →
    List.Forall₂ (Spin.Alike L) (l.spinsOf i) (l'.spinsOf i')
  fresh : ∀ ext, L.scope.names ext → l.index.get? ext = none →
    L.scope.links (l.lastAccountId + 1) (l'.lastAccountId + 1)
  lastSpinId : L.scope.pairs l.lastSpinId l'.lastSpinId

end Records

variable {L : Likeness} {l l' : Ledger} {t t' : Transaction} {i i' : AccountId}
  {ext : Identifier}

theorem Transaction.alike_empty : Transaction.empty.Alike L .empty := ⟨.nil, .nil, .nil⟩

namespace Ledger.Alike

theorem account? (h : l.Alike L l') (ht : t.Alike L t') (hi : L.scope.links i i') :
    Option.Rel (Account.Alike L) (t.account? l i) (t'.account? l' i') := by
  refine rel_map (rel_or (forall₂_find? ht.newAccounts fun a a' ha => ?_) (h.accounts _ _ hi))
    fun a a' ha => ⟨ha.id, ha.externalId, ha.named, ?_⟩
  · exact decide_eq_decide.mpr (Scope.links_iff ha.id hi)
  · exact rel_getD (forall₂_lookup ht.balances fun j j' hj => Scope.links_iff hj hi) ha.balance

theorem accountId? (h : l.Alike L l') (ht : t.Alike L t') (he : L.scope.names ext) :
    Option.Rel L.scope.links (t.accountId? l ext) (t'.accountId? l' ext) := by
  refine rel_or (rel_map (A := Account.Alike L) (forall₂_find? ht.newAccounts fun a a' ha => ?_)
    fun a a' ha => ha.id) (h.index ext he)
  rw [ha.externalId]

theorem find? (h : l.Alike L l') (ht : t.Alike L t') (he : L.scope.names ext) :
    Option.Rel (Account.Alike L) (t.find? l ext) (t'.find? l' ext) :=
  rel_bind (h.accountId? ht he) fun _ _ hi => h.account? ht hi

theorem list (h : l.Alike L l') (ht : t.Alike L t') (hi : L.scope.links i i') (limit : Int) :
    List.Forall₂ (Spin.Alike L) (t.list l i limit) (t'.list l' i' limit) := by
  have hstaged : List.Forall₂ (Spin.Alike L) (t.spins.filter (·.accountId = i))
      (t'.spins.filter (·.accountId = i')) := by
    refine List.rel_filter (fun s s' hs => ?_) ht.spins
    simp only [decide_eq_true_eq]
    exact Scope.links_iff hs.wager.accountId hi
  simp only [Transaction.list, List.filter_reverse, List.filter_append]
  exact List.forall₂_take _ (List.forall₂_reverse_iff.mpr
    (List.rel_append (h.spins i i' hi) hstaged))

theorem next (h : l.Alike L l') (ht : t.Alike L t') (he : L.scope.names ext)
    (hfree : t.accountId? l ext = none) :
    L.scope.links (l.lastAccountId + t.newAccounts.length + 1)
      (l'.lastAccountId + t'.newAccounts.length + 1) := by
  obtain ⟨hstaged, hindex⟩ := Option.or_eq_none_iff.mp hfree
  have hlinks := h.fresh ext he hindex
  rw [← ht.newAccounts.length_eq]
  cases hn : t.newAccounts with
  | nil => simpa using hlinks
  | cons a as =>
    rw [Option.map_eq_none_iff, List.find?_eq_none] at hstaged
    have hne : a.externalId ≠ ext := by
      intro hae
      exact hstaged a (by rw [hn]; exact List.mem_cons_self) (decide_eq_true hae)
    have hnamed : L.scope.names a.externalId := by
      have hcons := ht.newAccounts
      rw [hn] at hcons
      obtain ⟨_, _, ha, _⟩ := List.forall₂_cons_left_iff.mp hcons
      exact ha.named
    rw [Scope.links_of_ne hnamed he hne] at hlinks ⊢
    omega

theorem insert (h : l.Alike L l') (ht : t.Alike L t') (he : L.scope.names ext) :
    EndsAlike (LedgerError.Alike L) (Account.Alike L) (t.insert l ext).1 (t'.insert l' ext).1 ∧
      (t.insert l ext).2.Alike L (t'.insert l' ext).2 := by
  rw [Transaction.insert, Transaction.insert]
  rcases rel_cases (h.accountId? ht he) with ⟨hfree, hfree'⟩ | ⟨i, i', hi, hi', -⟩
  · rw [hfree, hfree']
    have ha : Account.Alike L ⟨l.lastAccountId + t.newAccounts.length + 1, ext, .zero⟩
        ⟨l'.lastAccountId + t'.newAccounts.length + 1, ext, .zero⟩ :=
      ⟨h.next ht he hfree, rfl, he, L.amounts.zero⟩
    exact ⟨.ok ha, List.rel_append ht.newAccounts (.cons ha .nil), ht.balances, ht.spins⟩
  · rw [hi, hi']
    exact ⟨.error (.same _), ht⟩

theorem writeBalance (h : l.Alike L l') (ht : t.Alike L t') (hi : L.scope.links i i')
    {b b' : Decimal} (hb : L.amounts.rel b b') :
    EndsAlike (LedgerError.Alike L) (fun _ _ => True) (t.writeBalance l i b).1
        (t'.writeBalance l' i' b').1 ∧
      (t.writeBalance l i b).2.Alike L (t'.writeBalance l' i' b').2 := by
  rw [Transaction.writeBalance, Transaction.writeBalance]
  rcases rel_cases (h.account? ht hi) with ⟨ha, ha'⟩ | ⟨a, a', ha, ha', -⟩
  · rw [ha, ha']
    exact ⟨.error (.accountNotFound hi), ht⟩
  · rw [ha, ha']
    exact ⟨.ok trivial, ht.newAccounts, forall₂_write ht.balances hi
      (fun j j' hj => Scope.links_iff hj hi) hb, ht.spins⟩

theorem append (h : l.Alike L l') (ht : t.Alike L t') {s s' : Wager} (hs : s.Alike L s') :
    EndsAlike (LedgerError.Alike L) (Spin.Alike L) (t.append l s).1 (t'.append l' s').1 ∧
      (t.append l s).2.Alike L (t'.append l' s').2 := by
  rw [Transaction.append, Transaction.append]
  rcases rel_cases (h.account? ht hs.accountId) with ⟨ha, ha'⟩ | ⟨a, a', ha, ha', -⟩
  · rw [ha, ha']
    exact ⟨.error (.accountNotFound hs.accountId), ht⟩
  · rw [ha, ha']
    have hspin : Spin.Alike L { s with id := l.lastSpinId + t.spins.length + 1 }
        { s' with id := l'.lastSpinId + t'.spins.length + 1 } := by
      refine ⟨hs, ?_⟩
      rw [← ht.spins.length_eq]
      exact Scope.pairs_add (Scope.pairs_add h.lastSpinId _) _
    exact ⟨.ok hspin, ht.newAccounts, ht.balances, List.rel_append ht.spins (.cons hspin .nil)⟩

theorem run (h : l.Alike L l') (ht : t.Alike L t') {c c' : DataCall}
    {A : c.Answer → c'.Answer → Prop} (hc : c.Alike L c' A) :
    EndsAlike (LedgerError.Alike L) A (c.run l t).1 (c'.run l' t').1 ∧
      (c.run l t).2.Alike L (c'.run l' t').2 := by
  cases hc with
  | find he => exact ⟨.ok (h.find? ht he), ht⟩
  | insert he => exact h.insert ht he
  | lockBalance hi => exact ⟨.ok (rel_map (h.account? ht hi) fun a a' ha => ha.balance), ht⟩
  | writeBalance hi hb => exact h.writeBalance ht hi hb
  | append hs => exact h.append ht hs
  | list hi limit => exact ⟨.ok (h.list ht hi limit), ht⟩

theorem addAccount (h : l.Alike L l') {a a' : Account} (ha : a.Alike L a') :
    (l.addAccount a).Alike L (l'.addAccount a') where
  index e he := by
    simp only [Ledger.addAccount, Table.get?_put, ha.externalId]
    split
    · exact .some ha.id
    · exact h.index e he
  accounts j j' hj := by
    simp only [Ledger.addAccount, Table.get?_put, Scope.links_iff hj ha.id]
    split
    · exact .some ha
    · exact h.accounts j j' hj
  spins := h.spins
  fresh e he hfree := by
    simp only [Ledger.addAccount, Table.get?_put] at hfree ⊢
    split at hfree
    · cases hfree
    · rename_i hne
      have hlinks := h.fresh e he hfree
      have hid := ha.id
      rw [Scope.links_of_ne he ha.named hne] at hlinks hid ⊢
      omega
  lastSpinId := h.lastSpinId

theorem setBalance (h : l.Alike L l') (hi : L.scope.links i i') {b b' : Decimal}
    (hb : L.amounts.rel b b') : (l.setBalance i b).Alike L (l'.setBalance i' b') where
  index := h.index
  accounts j j' hj := by
    simp only [Ledger.setBalance, Table.get?_modify, Scope.links_iff hj hi]
    split
    · exact rel_map (h.accounts i i' hi) fun a a' ha => ⟨ha.id, ha.externalId, ha.named, hb⟩
    · exact h.accounts j j' hj
  spins := h.spins
  fresh := h.fresh
  lastSpinId := h.lastSpinId

theorem addSpin (h : l.Alike L l') {s s' : Spin} (hs : s.Alike L s') :
    (l.addSpin s).Alike L (l'.addSpin s') where
  index := h.index
  accounts := h.accounts
  spins j j' hj := by
    have hone : List.Forall₂ (Spin.Alike L) ([s].filter (·.accountId = j))
        ([s'].filter (·.accountId = j')) := by
      refine List.rel_filter (fun x x' hx => ?_) (.cons hs .nil)
      simp only [decide_eq_true_eq]
      exact Scope.links_iff hx.wager.accountId hj
    simp only [Ledger.spinsOf, Ledger.addSpin, List.filter_append]
    exact List.rel_append (h.spins j j' hj) hone
  fresh := h.fresh
  lastSpinId := Scope.pairs_max h.lastSpinId hs.id

theorem apply (h : l.Alike L l') (ht : t.Alike L t') : (t.apply l).Alike L (t'.apply l') := by
  have haccounts : (t.newAccounts.foldl Ledger.addAccount l).Alike L
      (t'.newAccounts.foldl Ledger.addAccount l') :=
    List.rel_foldl (fun _ _ h _ _ ha => h.addAccount ha) h ht.newAccounts
  refine List.rel_foldl (R := Spin.Alike L) (fun _ _ h _ _ hs => h.addSpin hs) ?_ ht.spins
  exact List.rel_foldl (fun _ _ h _ _ he => h.setBalance he.1 he.2) haccounts ht.balances

theorem seed (h : l.Alike L l') (he : L.scope.names ext) {b b' : Decimal}
    (hb : L.amounts.rel b b') :
    EndsAlike (LedgerError.Alike L) (Account.Alike L) (l.seed ext b).1 (l'.seed ext b').1 ∧
      (l.seed ext b).2.Alike L (l'.seed ext b').2 := by
  rw [Ledger.seed, Ledger.seed]
  rcases rel_cases (h.index ext he) with ⟨hfree, hfree'⟩ | ⟨i, i', hi, hi', -⟩
  · rw [hfree, hfree']
    have ha : Account.Alike L ⟨l.lastAccountId + 1, ext, b⟩ ⟨l'.lastAccountId + 1, ext, b'⟩ :=
      ⟨h.fresh ext he hfree, rfl, he, hb⟩
    exact ⟨.ok ha, h.addAccount ha⟩
  · rw [hi, hi']
    exact ⟨.error (.same _), h⟩

end Ledger.Alike

end WagerLedger

import WagerLedger.Proofs.Ledger.Numbering

/-! # What a commit publishes

A transaction reads its staged rows over the committed ones; a commit writes the three buffers
over them, row by row. Both update the same tables: no id or external id is staged twice among
the new accounts, and no id twice among the balances, so it does not matter which row comes
first. A new transaction therefore finds what the committed one has seen. -/
namespace WagerLedger

namespace Table

variable {κ υ : Type} [DecidableEq κ]

theorem mem_keys_write (k j : κ) (v : υ) (es : List (κ × υ)) :
    j ∈ (write k v es).map (·.1) ↔ j = k ∨ j ∈ es.map (·.1) := by
  induction es with
  | nil => simp [write]
  | cons e es ih =>
    obtain ⟨i, w⟩ := e
    rw [write]
    split
    · rename_i hi
      simp [hi]
    · simp only [List.map_cons, List.mem_cons, ih]
      exact or_left_comm

theorem nodup_keys_put {t : Table κ υ} (h : t.keys.Nodup) (k : κ) (v : υ) :
    (t.put k v).keys.Nodup := by
  obtain ⟨es⟩ := t
  change ((write k v es).map (·.1)).Nodup
  change (es.map (·.1)).Nodup at h
  induction es with
  | nil => exact List.nodup_singleton k
  | cons e es ih =>
    obtain ⟨i, w⟩ := e
    rw [List.map_cons, List.nodup_cons] at h
    rw [write]
    split
    · rename_i hi
      rw [List.map_cons, List.nodup_cons, ← hi]
      exact h
    · rename_i hi
      rw [List.map_cons, List.nodup_cons, mem_keys_write]
      exact ⟨fun hmem => hmem.elim hi h.1, ih h.2⟩

theorem lookup_eq_some_iff {es : List (κ × υ)} (h : (es.map (·.1)).Nodup) (k : κ) (v : υ) :
    lookup k es = some v ↔ (k, v) ∈ es := by
  refine ⟨mem_of_lookup, fun hmem => ?_⟩
  induction es with
  | nil => cases hmem
  | cons e es ih =>
    obtain ⟨i, w⟩ := e
    rw [List.map_cons, List.nodup_cons] at h
    rw [lookup]
    rcases List.mem_cons.mp hmem with heq | hmem
    · cases heq
      exact if_pos rfl
    · have hne : i ≠ k := by
        rintro rfl
        exact h.1 (List.mem_map_of_mem (f := (·.1)) hmem)
      rw [if_neg hne]
      exact ih h.2 hmem

theorem lookup_perm {es es' : List (κ × υ)} (hp : es.Perm es') (h : (es'.map (·.1)).Nodup)
    (k : κ) : lookup k es = lookup k es' := by
  have h' : (es.map (·.1)).Nodup := (hp.map (·.1)).nodup_iff.mpr h
  ext v
  rw [lookup_eq_some_iff h', lookup_eq_some_iff h, hp.mem_iff]

end Table

theorem find?_cons_key {α κ : Type} [DecidableEq κ] {f : α → κ} {a : α} {as : List α}
    (h : f a ∉ as.map f) (k : κ) :
    (a :: as).find? (f · = k) = (as.find? (f · = k)).or (if k = f a then some a else none) := by
  by_cases hk : k = f a
  · have hrest : as.find? (f · = k) = none := by
      rw [List.find?_eq_none]
      intro b hb hbk
      rw [decide_eq_true_iff] at hbk
      rw [← hk, ← hbk] at h
      exact h (List.mem_map_of_mem hb)
    rw [hrest, if_pos hk]
    simp [hk]
  · rw [if_neg hk, Option.or_none]
    simp [Ne.symm hk]

namespace Ledger

theorem get?_addAccounts {as : List Account} (h : (as.map (·.id)).Nodup) (l : Ledger)
    (id : AccountId) : (as.foldl addAccount l).accounts.get? id =
      (as.find? (·.id = id)).or (l.accounts.get? id) := by
  induction as generalizing l with
  | nil => rfl
  | cons a as ih =>
    rw [List.map_cons, List.nodup_cons] at h
    rw [List.foldl_cons, ih h.2, get?_addAccount, find?_cons_key h.1, Option.or_assoc]
    split <;> rfl

theorem index_addAccounts {as : List Account} (h : (as.map (·.externalId)).Nodup) (l : Ledger)
    (ext : Identifier) : (as.foldl addAccount l).index.get? ext =
      ((as.find? (·.externalId = ext)).map (·.id)).or (l.index.get? ext) := by
  induction as generalizing l with
  | nil => rfl
  | cons a as ih =>
    rw [List.map_cons, List.nodup_cons] at h
    rw [List.foldl_cons, ih h.2, index_addAccount, find?_cons_key h.1, Option.map_or, Option.or_assoc]
    split <;> rfl

theorem get?_setBalances {es : List (AccountId × Decimal)} (h : (es.map (·.1)).Nodup) (l : Ledger)
    (id : AccountId) : (es.foldl (fun l e => l.setBalance e.1 e.2) l).accounts.get? id =
      (l.accounts.get? id).map fun a =>
        { a with balance := (Table.lookup id es).getD a.balance } := by
  induction es generalizing l with
  | nil => simp [Table.lookup]
  | cons e es ih =>
    obtain ⟨j, b⟩ := e
    rw [List.map_cons, List.nodup_cons] at h
    rw [List.foldl_cons, ih h.2, get?_setBalance, Table.lookup]
    by_cases hid : id = j
    · have hrest : Table.lookup id es = none := by
        cases hlookup : Table.lookup id es with
        | none => rfl
        | some b' =>
          have hmem := Table.mem_of_lookup hlookup
          exact absurd (List.mem_map_of_mem (f := (·.1)) hmem) (hid ▸ h.1)
      subst hid
      rw [if_pos rfl, if_pos rfl, hrest, Option.map_map]
      rfl
    · rw [if_neg hid, if_neg (Ne.symm hid)]

theorem index_setBalances (es : List (AccountId × Decimal)) (l : Ledger) :
    (es.foldl (fun l e => l.setBalance e.1 e.2) l).index = l.index ∧
      (es.foldl (fun l e => l.setBalance e.1 e.2) l).spins = l.spins := by
  induction es generalizing l with
  | nil => exact ⟨rfl, rfl⟩
  | cons e es ih => exact ih (l.setBalance e.1 e.2)

theorem tables_addSpins (ss : List Spin) (l : Ledger) :
    (ss.foldl addSpin l).accounts = l.accounts ∧ (ss.foldl addSpin l).index = l.index ∧
      (ss.foldl addSpin l).lastAccountId = l.lastAccountId := by
  induction ss generalizing l with
  | nil => exact ⟨rfl, rfl, rfl⟩
  | cons s ss ih => exact ih (l.addSpin s)

theorem spins_addSpins (ss : List Spin) (l : Ledger) :
    (ss.foldl addSpin l).spins = l.spins ++ ss := by
  induction ss generalizing l with
  | nil => exact (List.append_nil _).symm
  | cons s ss ih => exact (ih (l.addSpin s)).trans (List.append_cons l.spins s ss).symm

theorem lastSpinId_addSpins {ss : List Spin} {l : Ledger}
    (hids : ∀ (k : Nat) s, ss[k]? = some s → s.id = l.lastSpinId + k + 1) :
    (ss.foldl addSpin l).lastSpinId = l.lastSpinId + ss.length := by
  induction ss generalizing l with
  | nil => exact (Int.add_zero _).symm
  | cons s ss ih =>
    have hid : s.id = l.lastSpinId + 1 := by simpa using hids 0 s rfl
    have hlast := lastSpinId_addSpin hid
    refine (ih fun k s' hk => ?_).trans ?_
    · rw [hlast, hids (k + 1) s' hk, Nat.cast_add, Nat.cast_one]
      ring
    · rw [hlast, List.length_cons, Nat.cast_add, Nat.cast_one]
      ring

end Ledger

namespace Transaction

variable {l : Ledger} {t : Transaction}

/-- No balance is staged twice. -/
def Keyed (t : Transaction) : Prop := t.balances.keys.Nodup

theorem Keyed.run (h : t.Keyed) (c : DataCall) : (c.run l t).2.Keyed := by
  cases c with
  | find ext => exact h
  | lockBalance id => exact h
  | list id limit => exact h
  | insert ext =>
    simp only [DataCall.run, Transaction.insert]
    split
    · exact h
    · exact h
  | writeBalance id b =>
    simp only [DataCall.run, Transaction.writeBalance]
    split
    · exact h
    · exact Table.nodup_keys_put h id b
  | append s =>
    simp only [DataCall.run, Transaction.append]
    split
    · exact h
    · exact h

theorem Continues.ids_nodup (h : t.Continues l) : (t.newAccounts.map (·.id)).Nodup := by
  rw [List.Nodup, List.pairwise_map, List.pairwise_iff_getElem]
  intro i j hi hj hij hids
  rw [h.accountIds i _ (List.getElem?_eq_getElem hi),
    h.accountIds j _ (List.getElem?_eq_getElem hj)] at hids
  have hcast : (i : Int) < j := Int.ofNat_lt.mpr hij
  linarith

def inOrder (t : Transaction) (es : List (AccountId × Decimal)) : Transaction :=
  { t with balances := ⟨es⟩ }

variable {es : List (AccountId × Decimal)}

/-- The tables after a commit are those that the transaction reads, in whatever order the
staged balances are applied. -/
theorem account?_apply (hc : t.Continues l) (hk : t.Keyed) (hes : es.Perm t.balances.entries)
    (id : AccountId) : ((t.inOrder es).apply l).accounts.get? id = t.account? l id := by
  have hkeys : (t.balances.entries.map (·.1)).Nodup := hk
  have hnodup : (es.map (·.1)).Nodup := (hes.map (·.1)).nodup_iff.mpr hkeys
  have hlookup : Table.lookup id es = t.balances.get? id := Table.lookup_perm hes hkeys id
  rw [apply, (Ledger.tables_addSpins _ _).1]
  refine (Ledger.get?_setBalances hnodup _ id).trans ?_
  rw [hlookup, account?, ← Ledger.get?_addAccounts hc.ids_nodup]
  rfl

theorem accountId?_apply (hc : t.Continues l) (es : List (AccountId × Decimal)) (ext : Identifier) :
    ((t.inOrder es).apply l).index.get? ext = t.accountId? l ext := by
  rw [apply, (Ledger.tables_addSpins _ _).2.1, (Ledger.index_setBalances _ _).1]
  exact Ledger.index_addAccounts hc.nodup l ext

theorem spins_apply (t : Transaction) (es : List (AccountId × Decimal)) (l : Ledger) :
    ((t.inOrder es).apply l).spins = l.spins ++ t.spins := by
  rw [apply, Ledger.spins_addSpins, (Ledger.index_setBalances _ _).2,
    (Ledger.spins_addAccounts _ _).1]
  rfl

theorem last_apply (hc : t.Continues l) (es : List (AccountId × Decimal)) :
    ((t.inOrder es).apply l).lastAccountId = l.lastAccountId + t.newAccounts.length ∧
      ((t.inOrder es).apply l).lastSpinId = l.lastSpinId + t.spins.length := by
  have hspin : (es.foldl (fun l e => l.setBalance e.1 e.2)
      (t.newAccounts.foldl Ledger.addAccount l)).lastSpinId = l.lastSpinId := by
    rw [(Ledger.last_setBalances _ _).2, (Ledger.spins_addAccounts _ _).2]
  constructor
  · rw [apply, (Ledger.tables_addSpins _ _).2.2, (Ledger.last_setBalances _ _).1]
    exact Ledger.lastAccountId_addAccounts hc.accountIds
  · refine (Ledger.lastSpinId_addSpins fun k s hs => ?_).trans ?_
    · exact (hc.spinIds k s hs).trans (by rw [← hspin]; rfl)
    · exact congrArg (· + (t.spins.length : Int)) hspin

end Transaction

/-- A new transaction on the ledger after a commit is answered as the committed one would have
been just before it. -/
theorem DataCall.run_apply {l : Ledger} {t : Transaction} (hc : t.Continues l) (hk : t.Keyed)
    {es : List (AccountId × Decimal)} (hes : es.Perm t.balances.entries) (d : DataCall) :
    (d.run ((t.inOrder es).apply l) .empty).1 = (d.run l t).1 := by
  have haccount : ∀ id, Transaction.empty.account? ((t.inOrder es).apply l) id = t.account? l id :=
    fun id => (Transaction.account?_empty _ id).trans (Transaction.account?_apply hc hk hes id)
  have hindex : ∀ ext, Transaction.empty.accountId? ((t.inOrder es).apply l) ext =
      t.accountId? l ext := Transaction.accountId?_apply hc es
  obtain ⟨hlastAccount, hlastSpin⟩ := Transaction.last_apply hc es
  cases d with
  | find ext =>
    simp only [run, Transaction.find?, hindex, funext haccount]
  | lockBalance id =>
    simp only [run, Transaction.balance?, haccount]
  | list id limit =>
    simp only [run, Transaction.list, Transaction.spins_apply]
    rw [show Transaction.empty.spins = [] from rfl, List.append_nil]
  | insert ext =>
    simp only [run, Transaction.insert, hindex, hlastAccount]
    cases t.accountId? l ext with
    | none => simp [Transaction.empty]
    | some id => rfl
  | writeBalance id b =>
    simp only [run, Transaction.writeBalance, haccount]
    cases t.account? l id <;> rfl
  | append s =>
    simp only [run, Transaction.append, haccount, hlastSpin]
    cases t.account? l s.accountId with
    | none => rfl
    | some a => simp [Transaction.empty]

end WagerLedger

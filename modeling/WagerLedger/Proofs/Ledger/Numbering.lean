import WagerLedger.Proofs.Ledger.Rows

/-! # Ids without gaps

Accounts and spins are numbered from one in the order in which they came, and the index finds
each account by its external id. An open transaction goes on with both numberings from the
committed ledger, so that applying it leaves no gap and no id twice. -/
namespace WagerLedger

theorem getElem?_concat_cases {α : Type} {as : List α} {a b : α} {k : Nat}
    (h : (as ++ [a])[k]? = some b) : as[k]? = some b ∨ (k = as.length ∧ b = a) := by
  rcases lt_trichotomy k as.length with hlt | rfl | hgt
  · rw [List.getElem?_append_left hlt] at h
    exact .inl h
  · rw [List.getElem?_concat_length] at h
    cases h
    exact .inr ⟨rfl, rfl⟩
  · rw [List.getElem?_eq_none (by simp; omega)] at h
    cases h

namespace Ledger

/-- The accounts have the ids from one to the last, the index and the accounts name each other,
the spins have the ids from one in their order, and each belongs to an account. -/
structure Numbered (l : Ledger) : Prop where
  named : ∀ id a, l.accounts.get? id = some a → a.id = id
  index_iff : ∀ ext id, l.index.get? ext = some id ↔
    ∃ a, l.accounts.get? id = some a ∧ a.externalId = ext
  ids : ∀ id, (l.accounts.get? id).isSome ↔ 1 ≤ id ∧ id ≤ l.lastAccountId
  counted : 0 ≤ l.lastAccountId
  spinIds : ∀ (k : Nat) s, l.spins[k]? = some s → s.id = k + 1
  lastSpin : l.lastSpinId = l.spins.length
  owners : ∀ s ∈ l.spins, (l.accounts.get? s.accountId).isSome

variable {l : Ledger}

theorem numbered_empty : empty.Numbered where
  named _ _ h := nomatch h
  index_iff ext id := by
    constructor
    · intro h
      cases h
    · rintro ⟨a, ha, -⟩
      cases ha
  ids id := by
    constructor
    · intro h
      cases h
    · rintro ⟨h1, h2⟩
      exact absurd (h1.trans h2) (by decide)
  counted := le_rfl
  spinIds _ _ h := by cases h
  lastSpin := rfl
  owners _ h := nomatch h

theorem Numbered.consistent (h : l.Numbered) : l.Consistent where
  named := h.named
  given id a ha := ((h.ids id).mp (Option.isSome_of_mem ha)).2
  indexed ext id hi := by
    obtain ⟨a, ha, -⟩ := (h.index_iff ext id).mp hi
    exact Option.isSome_of_mem ha
  spins := h.owners

/-- No two external ids lead to one account. -/
theorem Numbered.index_injective (h : l.Numbered) {ext ext' : Identifier} {id : AccountId}
    (he : l.index.get? ext = some id) (he' : l.index.get? ext' = some id) : ext = ext' := by
  obtain ⟨a, ha, rfl⟩ := (h.index_iff ext id).mp he
  obtain ⟨a', ha', rfl⟩ := (h.index_iff ext' id).mp he'
  rw [ha] at ha'
  cases ha'
  rfl

theorem lastAccountId_addAccount {a : Account} (hid : a.id = l.lastAccountId + 1) :
    (l.addAccount a).lastAccountId = l.lastAccountId + 1 := by
  rw [← hid]
  exact max_eq_right (by linarith)

theorem lastSpinId_addSpin {s : Spin} (hid : s.id = l.lastSpinId + 1) :
    (l.addSpin s).lastSpinId = l.lastSpinId + 1 := by
  rw [← hid]
  exact max_eq_right (by linarith)

theorem Numbered.addAccount (h : l.Numbered) {a : Account} (hid : a.id = l.lastAccountId + 1)
    (hext : l.index.get? a.externalId = none) : (l.addAccount a).Numbered := by
  have hlast := lastAccountId_addAccount hid
  have hcount := h.counted
  -- The id is a new one, so every other account is found as before.
  have hold : ∀ id a', l.accounts.get? id = some a' → id ≠ a.id := by
    intro id a' ha' hne
    rw [hne, hid, h.consistent.fresh] at ha'
    cases ha'
  refine ⟨fun id a' ha' => ?_, fun ext id => ?_, fun id => ?_, ?_, h.spinIds, h.lastSpin,
    fun s hs => ?_⟩
  · rw [get?_addAccount] at ha'
    split at ha'
    · rename_i hj
      cases ha'
      exact hj.symm
    · exact h.named id a' ha'
  · rw [index_addAccount, get?_addAccount]
    constructor
    · intro hi
      split at hi
      · rename_i he
        cases hi
        exact ⟨a, if_pos rfl, he.symm⟩
      · obtain ⟨a', ha', he⟩ := (h.index_iff ext id).mp hi
        exact ⟨a', by rw [if_neg (hold id a' ha'), ha'], he⟩
    · rintro ⟨a', ha', rfl⟩
      split at ha'
      · rename_i hj
        cases ha'
        rw [if_pos rfl, hj]
      · have hi := (h.index_iff _ id).mpr ⟨a', ha', rfl⟩
        split
        · rename_i he
          rw [he, hext] at hi
          cases hi
        · exact hi
  · rw [get?_addAccount, hlast]
    have hids := h.ids id
    split
    · rename_i hj
      rw [hj, hid]
      exact ⟨fun _ => ⟨by linarith, le_rfl⟩, fun _ => rfl⟩
    · rename_i hj
      rw [hids]
      refine ⟨fun hin => ⟨hin.1, by linarith [hin.2]⟩, fun hin => ⟨hin.1, ?_⟩⟩
      rw [hid] at hj
      exact Int.lt_add_one_iff.mp (lt_of_le_of_ne hin.2 hj)
  · rw [hlast]
    linarith
  · rw [get?_addAccount]
    split
    · rfl
    · exact h.owners s hs

theorem Numbered.setBalance (h : l.Numbered) (id : AccountId) (b : Decimal) :
    (l.setBalance id b).Numbered where
  named j a hj := by
    rw [get?_setBalance] at hj
    split at hj
    · rename_i hid
      obtain ⟨a', ha', rfl⟩ := Option.map_eq_some_iff.mp hj
      rw [hid]
      exact h.named id a' ha'
    · exact h.named j a hj
  index_iff ext j := by
    change l.index.get? ext = some j ↔ _
    rw [h.index_iff ext j, get?_setBalance]
    split
    · rename_i hj
      rw [hj]
      constructor
      · rintro ⟨a, ha, he⟩
        exact ⟨{ a with balance := b }, by rw [ha]; rfl, he⟩
      · rintro ⟨a, ha, he⟩
        obtain ⟨a', ha', rfl⟩ := Option.map_eq_some_iff.mp ha
        exact ⟨a', ha', he⟩
    · exact Iff.rfl
  ids j := by
    rw [isSome_setBalance]
    exact h.ids j
  counted := h.counted
  spinIds := h.spinIds
  lastSpin := h.lastSpin
  owners s hs := by
    rw [isSome_setBalance]
    exact h.owners s hs

theorem Numbered.addSpin (h : l.Numbered) {s : Spin} (hid : s.id = l.lastSpinId + 1)
    (hs : (l.accounts.get? s.accountId).isSome) : (l.addSpin s).Numbered where
  named := h.named
  index_iff := h.index_iff
  ids := h.ids
  counted := h.counted
  spinIds k s' hk := by
    rcases getElem?_concat_cases hk with hk | ⟨rfl, rfl⟩
    · exact h.spinIds k s' hk
    · rw [hid, h.lastSpin]
  lastSpin := by
    rw [lastSpinId_addSpin hid, h.lastSpin]
    change _ = ((l.spins ++ [s]).length : Int)
    rw [List.length_append, List.length_singleton, Nat.cast_add, Nat.cast_one]
  owners s' hs' := by
    rcases List.mem_append.mp hs' with hs' | hs'
    · exact h.owners s' hs'
    · rw [List.mem_singleton.mp hs']
      exact hs

theorem lastAccountId_addAccounts {as : List Account} {l : Ledger}
    (hids : ∀ (k : Nat) a, as[k]? = some a → a.id = l.lastAccountId + k + 1) :
    (as.foldl Ledger.addAccount l).lastAccountId = l.lastAccountId + as.length := by
  induction as generalizing l with
  | nil => exact (Int.add_zero _).symm
  | cons a as ih =>
    have hid : a.id = l.lastAccountId + 1 := by simpa using hids 0 a rfl
    have hlast := lastAccountId_addAccount hid
    refine (ih fun k a' hk => ?_).trans ?_
    · rw [hlast, hids (k + 1) a' hk, Nat.cast_add, Nat.cast_one]
      ring
    · rw [hlast, List.length_cons, Nat.cast_add, Nat.cast_one]
      ring

theorem Numbered.addAccounts {as : List Account} (h : l.Numbered)
    (hids : ∀ (k : Nat) a, as[k]? = some a → a.id = l.lastAccountId + k + 1)
    (hfresh : ∀ a ∈ as, l.index.get? a.externalId = none)
    (hnodup : (as.map (·.externalId)).Nodup) :
    (as.foldl Ledger.addAccount l).Numbered ∧
      (as.foldl Ledger.addAccount l).lastAccountId = l.lastAccountId + as.length := by
  refine ⟨?_, lastAccountId_addAccounts hids⟩
  induction as generalizing l with
  | nil => exact h
  | cons a as ih =>
    have hid : a.id = l.lastAccountId + 1 := by simpa using hids 0 a rfl
    have hlast := lastAccountId_addAccount hid
    rw [List.map_cons, List.nodup_cons] at hnodup
    refine ih (h.addAccount hid (hfresh a List.mem_cons_self)) ?_ ?_ hnodup.2
    · intro k a' hk
      rw [hlast, hids (k + 1) a' hk, Nat.cast_add, Nat.cast_one]
      ring
    · intro a' ha'
      rw [index_addAccount, if_neg, hfresh a' (List.mem_cons_of_mem _ ha')]
      intro he
      exact hnodup.1 (he ▸ List.mem_map_of_mem ha')

theorem spins_addAccounts (as : List Account) (l : Ledger) :
    (as.foldl Ledger.addAccount l).spins = l.spins ∧
      (as.foldl Ledger.addAccount l).lastSpinId = l.lastSpinId := by
  induction as generalizing l with
  | nil => exact ⟨rfl, rfl⟩
  | cons a as ih => exact ih (l.addAccount a)

theorem Numbered.setBalances (h : l.Numbered) (es : List (AccountId × Decimal)) :
    (es.foldl (fun l e => l.setBalance e.1 e.2) l).Numbered := by
  induction es generalizing l with
  | nil => exact h
  | cons e es ih => exact ih (h.setBalance e.1 e.2)

theorem last_setBalances (es : List (AccountId × Decimal)) (l : Ledger) :
    (es.foldl (fun l e => l.setBalance e.1 e.2) l).lastAccountId = l.lastAccountId ∧
      (es.foldl (fun l e => l.setBalance e.1 e.2) l).lastSpinId = l.lastSpinId := by
  induction es generalizing l with
  | nil => exact ⟨rfl, rfl⟩
  | cons e es ih => exact ih (l.setBalance e.1 e.2)

theorem Numbered.addSpins {ss : List Spin} (h : l.Numbered)
    (hids : ∀ (k : Nat) s, ss[k]? = some s → s.id = l.lastSpinId + k + 1)
    (hs : ∀ s ∈ ss, (l.accounts.get? s.accountId).isSome) : (ss.foldl Ledger.addSpin l).Numbered := by
  induction ss generalizing l with
  | nil => exact h
  | cons s ss ih =>
    have hid : s.id = l.lastSpinId + 1 := by simpa using hids 0 s rfl
    refine ih (h.addSpin hid (hs s List.mem_cons_self)) ?_ fun s' hs' =>
      hs s' (List.mem_cons_of_mem _ hs')
    intro k s' hk
    rw [lastSpinId_addSpin hid, hids (k + 1) s' hk, Nat.cast_add, Nat.cast_one]
    ring

theorem Numbered.seed (h : l.Numbered) (ext : Identifier) (b : Decimal) :
    (l.seed ext b).2.Numbered := by
  unfold Ledger.seed
  split
  · exact h
  · rename_i hext
    exact h.addAccount rfl hext

end Ledger

namespace Transaction

/-- What is staged goes on with the numberings of the ledger; no external id is staged twice, or
staged and committed; and the staged spins belong to accounts that the transaction sees. -/
structure Continues (l : Ledger) (t : Transaction) : Prop where
  accountIds : ∀ (k : Nat) a, t.newAccounts[k]? = some a → a.id = l.lastAccountId + k + 1
  spinIds : ∀ (k : Nat) s, t.spins[k]? = some s → s.id = l.lastSpinId + k + 1
  fresh : ∀ a ∈ t.newAccounts, l.index.get? a.externalId = none
  nodup : (t.newAccounts.map (·.externalId)).Nodup
  owners : ∀ s ∈ t.spins, (t.account? l s.accountId).isSome

variable {l : Ledger} {t : Transaction}

theorem continues_empty (l : Ledger) : empty.Continues l where
  accountIds _ _ h := by cases h
  spinIds _ _ h := by cases h
  fresh _ h := nomatch h
  nodup := List.nodup_nil
  owners _ h := nomatch h

theorem isSome_account? (l : Ledger) (t : Transaction) (id : AccountId) :
    (t.account? l id).isSome ↔
      (∃ a ∈ t.newAccounts, a.id = id) ∨ (l.accounts.get? id).isSome := by
  rw [account?, Option.isSome_map, Option.isSome_or, Bool.or_eq_true, List.find?_isSome]
  simp only [decide_eq_true_eq]

theorem Continues.insert (h : t.Continues l) (ext : Identifier) :
    (t.insert l ext).2.Continues l := by
  unfold Transaction.insert
  split
  · exact h
  · rename_i hext
    rw [accountId?, Option.or_eq_none_iff, Option.map_eq_none_iff, List.find?_eq_none] at hext
    obtain ⟨hstaged, hcommitted⟩ := hext
    refine ⟨fun k a hk => ?_, h.spinIds, fun a ha => ?_, ?_, fun s hs => ?_⟩
    · rcases getElem?_concat_cases hk with hk | ⟨rfl, rfl⟩
      · exact h.accountIds k a hk
      · rfl
    · rcases List.mem_append.mp ha with ha | ha
      · exact h.fresh a ha
      · rw [List.mem_singleton.mp ha]
        exact hcommitted
    · rw [List.map_append, List.nodup_append]
      refine ⟨h.nodup, List.nodup_singleton _, ?_⟩
      rintro e he e' he' rfl
      obtain ⟨a, ha, rfl⟩ := List.mem_map.mp he
      rw [List.map_singleton, List.mem_singleton] at he'
      exact hstaged a ha (decide_eq_true he')
    · have hseen := h.owners s hs
      rw [isSome_account?] at hseen ⊢
      rcases hseen with ⟨a, ha, hid⟩ | hseen
      · exact .inl ⟨a, List.mem_append_left _ ha, hid⟩
      · exact .inr hseen

theorem Continues.writeBalance (h : t.Continues l) (id : AccountId) (b : Decimal) :
    (t.writeBalance l id b).2.Continues l := by
  unfold Transaction.writeBalance
  split
  · exact h
  · refine ⟨h.accountIds, h.spinIds, h.fresh, h.nodup, fun s hs => ?_⟩
    have hseen := h.owners s hs
    rw [isSome_account?] at hseen ⊢
    exact hseen

theorem Continues.append (h : t.Continues l) (s : Wager) : (t.append l s).2.Continues l := by
  unfold Transaction.append
  split
  · exact h
  · rename_i a ha
    refine ⟨h.accountIds, fun k s' hk => ?_, h.fresh, h.nodup, fun s' hs' => ?_⟩
    · rcases getElem?_concat_cases hk with hk | ⟨rfl, rfl⟩
      · exact h.spinIds k s' hk
      · rfl
    · change (t.account? l s'.accountId).isSome
      rcases List.mem_append.mp hs' with hs' | hs'
      · exact h.owners s' hs'
      · rw [List.mem_singleton.mp hs']
        change (t.account? l s.accountId).isSome
        rw [ha]
        rfl

theorem Continues.run (h : t.Continues l) (c : DataCall) : (c.run l t).2.Continues l := by
  cases c with
  | find ext => exact h
  | insert ext => exact h.insert ext
  | lockBalance id => exact h
  | writeBalance id b => exact h.writeBalance id b
  | append s => exact h.append s
  | list id limit => exact h

theorem Continues.apply (h : t.Continues l) (hl : l.Numbered) : (t.apply l).Numbered := by
  obtain ⟨haccounts, hlast⟩ := hl.addAccounts h.accountIds h.fresh h.nodup
  have hspin := (Ledger.spins_addAccounts t.newAccounts l).2
  have hbalances := haccounts.setBalances t.balances.entries
  obtain ⟨hlastAccount, hlastSpin⟩ :=
    Ledger.last_setBalances t.balances.entries (t.newAccounts.foldl Ledger.addAccount l)
  refine hbalances.addSpins (fun k s hk => ?_) fun s hs => ?_
  · rw [hlastSpin, hspin]
    exact h.spinIds k s hk
  · rw [hbalances.ids, hlastAccount, hlast]
    have hcount := hl.counted
    rcases (isSome_account? l t s.accountId).mp (h.owners s hs) with ⟨a, ha, hid⟩ | hseen
    · obtain ⟨k, hk⟩ := List.mem_iff_getElem?.mp ha
      have hlt : k < t.newAccounts.length := (List.getElem?_eq_some_iff.mp hk).1
      rw [← hid, h.accountIds k a hk]
      constructor <;> linarith [Int.ofNat_lt.mpr hlt]
    · obtain ⟨hone, hle⟩ := (hl.ids s.accountId).mp hseen
      exact ⟨hone, by linarith⟩

end Transaction

end WagerLedger

import WagerLedger.Proofs.World.Clients

/-! # One after the other

However the calls of the clients are mixed, the ledger is as if each committed transaction and
each seed had been made alone, in the order in which they were committed. -/
namespace WagerLedger

namespace Clients

section

variable {w : World} {i : ClientId} {l : Ledger} {t : Transaction}

theorem perform_arrive (hs : w.store = ⟨l, .none⟩) : w.perform i .arrive = (some (.ok ()), w) := by
  obtain ⟨⟩ := w
  subst hs
  simp only [World.perform, Store.visit_quiet]

theorem perform_data (ht : w.holder = some (i, t)) (hs : w.store = ⟨l, .none⟩) (d : DataCall) :
    w.perform i (.data d) = (some (d.run l t).1, { w with holder := some (i, (d.run l t).2) }) := by
  obtain ⟨⟩ := w
  subst hs
  change World.data _ i d = _
  rw [World.data, World.transaction?_of_holder ht]
  simp only [Store.call_quiet]

theorem perform_commit (ht : w.holder = some (i, t)) (hs : w.store = ⟨l, .none⟩) :
    w.perform i .commit = (some (.ok ()), { w with store := ⟨t.apply l, .none⟩ }.release) := by
  obtain ⟨⟩ := w
  subst hs
  change World.commit _ i = _
  rw [World.commit, World.transaction?_of_holder ht]
  simp only [Store.commit_quiet]

end

def quiet (l : Ledger) (bs : List Block) : Clients := { on ⟨l, .none⟩ with committed := bs }

def opened (l : Ledger) (bs : List Block) (calls : List AnsweredCall) (t : Transaction) : Clients :=
  (quiet l bs).put 0 (.inside calls) { (quiet l bs).world with holder := some (1, t) }

theorem put_idle (l : Ledger) (bs : List Block) (w : World) :
    (quiet l bs).put 0 .idle w = { quiet l bs with world := w } := by
  simp only [put, Clients.mk.injEq, true_and, and_true]
  funext m
  exact ite_self _

theorem quiet_begin (l : Ledger) (bs : List Block) :
    (quiet l bs).run [(0, .begin), (0, .poll)] = opened l bs [] .empty := by
  have hbegin : (quiet l bs).step 0 .begin =
      (quiet l bs).put 0 (.waiting .transaction) (quiet l bs).world := by
    change (quiet l bs).arrive 0 = _
    rw [arrive, perform_arrive rfl]
  change ((quiet l bs).step 0 .begin).step 0 .poll = _
  rw [hbegin]
  exact put_put _ _ _ _

theorem opened_data (l : Ledger) (bs : List Block) (calls : List AnsweredCall) (t : Transaction)
    (d : DataCall) : (opened l bs calls t).step 0 (.data d) =
      opened l bs (calls ++ [⟨d, (d.run l t).1, false⟩]) (d.run l t).2 := by
  have ht : (opened l bs calls t).world.store.trips d = false := Store.trips_quiet l d
  change (opened l bs calls t).data 0 calls d = _
  rw [data, perform_data rfl rfl, ht]
  exact put_put _ _ _ _

theorem opened_commit (l : Ledger) (bs : List Block) (calls : List AnsweredCall)
    (t : Transaction) : (opened l bs calls t).step 0 .commit =
      quiet (t.apply l) (bs ++ [.transaction calls]) := by
  change (opened l bs calls t).commit 0 calls = _
  rw [commit, perform_commit rfl rfl]
  change ((opened l bs calls t).put 0 .idle _).note (.transaction calls) = _
  rw [opened, put_put, put_idle]
  rfl

theorem quiet_seed (l : Ledger) (bs : List Block) {ext : Identifier} {b : Decimal} {a : Account}
    (h : (l.seed ext b).1 = .ok a) :
    (quiet l bs).run [(0, .seed ext b), (0, .poll)] =
      quiet (l.seed ext b).2 (bs ++ [.seed ext b a]) := by
  have hp : ({ (quiet l bs).world with holder := some (1, .empty) } : World).perform 1
      (.seed ext b) = (some (.ok a), { (quiet l bs).world with
        holder := some (1, .empty), store := ⟨(l.seed ext b).2, .none⟩ }) := by
    rw [← h]
    rfl
  change ((quiet l bs).put 0 (.waiting (.seed ext b)) (quiet l bs).world).enter 0
    { (quiet l bs).world with holder := some (1, .empty) } (.seed ext b) = _
  simp only [enter, hp]
  rw [put_put, put_idle]
  rfl

theorem run_append (c : Clients) (xs ys : List (Nat × ClientStep)) :
    c.run (xs ++ ys) = (c.run xs).run ys := List.foldl_append

theorem opened_run (l : Ledger) (bs : List Block) (calls : List AnsweredCall)
    {done : List AnsweredCall} {t : Transaction}
    (h : Replays (AnsweredCall.after l) (AnsweredCall.Seen l) t calls) :
    (opened l bs done t).run
        ((calls.filter (!·.tripped)).map fun a => (0, .data a.call)) =
      opened l bs (done ++ calls.filter (!·.tripped)) (calls.foldl (AnsweredCall.after l) t) := by
  induction calls generalizing done t with
  | nil => simp [run]
  | cons a calls ih =>
    obtain ⟨hseen, hrest⟩ := h
    obtain ⟨d, answer, tripped⟩ := a
    cases tripped with
    | true =>
      rw [List.filter_cons_of_neg (by simp)]
      exact ih hrest
    | false =>
      have ha : answer = (d.run l t).1 := hseen rfl
      rw [List.filter_cons_of_pos (by simp), List.map_cons, List.append_cons done]
      change ((opened l bs done t).step 0 (.data d)).run _ = _
      rw [opened_data, ← ha]
      exact ih hrest

theorem quiet_block (l : Ledger) (bs : List Block) {b : Block} (h : b.Seen l) :
    (quiet l bs).run (b.steps.map (0, ·)) = quiet (b.after l) (bs ++ [b.untripped]) := by
  cases b with
  | seed ext b a => exact quiet_seed l bs h
  | transaction calls =>
    have hsteps : (Block.steps (.transaction calls)).map (0, ·) = [(0, .begin), (0, .poll)] ++
        ((calls.filter (!·.tripped)).map fun a => (0, .data a.call)) ++ [(0, .commit)] := by
      simp [Block.steps]
    rw [hsteps, run_append, run_append, quiet_begin, opened_run l bs calls h]
    exact opened_commit _ _ _ _

theorem quiet_blocks (l : Ledger) (done bs : List Block) (h : Replays Block.after Block.Seen l bs) :
    (quiet l done).run ((bs.flatMap Block.steps).map (0, ·)) =
      quiet (bs.foldl Block.after l) (done ++ bs.map Block.untripped) := by
  induction bs generalizing l done with
  | nil => simp [run]
  | cons b bs ih =>
    rw [List.flatMap_cons, List.map_append, run_append, quiet_block l done h.1, ih _ _ h.2]
    simp

theorem alone_eq {l : Ledger} {bs : List Block} (h : Replays Block.after Block.Seen l bs) :
    alone l bs = quiet (bs.foldl Block.after l) (bs.map Block.untripped) :=
  quiet_blocks l [] bs h

end Clients

/-- The call has staged a balance or a new account under the id. -/
def AnsweredCall.stages (id : AccountId) : AnsweredCall → Bool
  | ⟨.insert _, .ok a, _⟩ => a.id == id
  | ⟨.writeBalance id' _, .ok (), _⟩ => id' == id
  | _ => false

/-- The transaction has staged nothing under the id. -/
structure Transaction.Leaves (id : AccountId) (t : Transaction) : Prop where
  account : t.newAccounts.find? (·.id = id) = none
  balance : t.balances.get? id = none

theorem Transaction.Leaves.balance? {t : Transaction} {id : AccountId} (h : t.Leaves id)
    (l : Ledger) : t.balance? l id = l.balance? id := by
  simp [Transaction.balance?, account?, h.account, h.balance, Ledger.balance?]

theorem AnsweredCall.leaves_after {l : Ledger} {t : Transaction} {id : AccountId}
    {a : AnsweredCall} (h : t.Leaves id) (hseen : a.Seen l t) (ha : a.stages id = false) :
    (a.after l t).Leaves id := by
  obtain ⟨d, answer, tripped⟩ := a
  cases tripped with
  | true => exact h
  | false =>
    have hanswer : answer = (d.run l t).1 := hseen rfl
    subst hanswer
    change (d.run l t).2.Leaves id
    cases d with
    | find ext => exact h
    | lockBalance id' => exact h
    | list id' limit => exact h
    | insert ext =>
      simp only [DataCall.run, Transaction.insert] at ha ⊢
      split
      · exact h
      · rename_i hext
        rw [hext] at ha
        refine ⟨?_, h.balance⟩
        rw [List.find?_append, h.account]
        simpa [stages] using ha
    | writeBalance id' b =>
      simp only [DataCall.run, Transaction.writeBalance] at ha ⊢
      split
      · exact h
      · rename_i hid
        rw [hid] at ha
        refine ⟨h.account, ?_⟩
        rw [Table.get?_put, if_neg (Ne.symm (by simpa [stages] using ha))]
        exact h.balance
    | append spin =>
      simp only [DataCall.run, Transaction.append]
      split
      · exact h
      · exact ⟨h.account, h.balance⟩

theorem AnsweredCall.leaves_foldl {l : Ledger} {id : AccountId} (calls : List AnsweredCall)
    {t : Transaction} (h : t.Leaves id)
    (hseen : Replays (AnsweredCall.after l) (AnsweredCall.Seen l) t calls)
    (hcalls : ∀ a ∈ calls, a.stages id = false) :
    (calls.foldl (AnsweredCall.after l) t).Leaves id := by
  induction calls generalizing t with
  | nil => exact h
  | cons a calls ih =>
    refine ih (leaves_after h hseen.1 (hcalls a List.mem_cons_self)) hseen.2 fun b hb => ?_
    exact hcalls b (List.mem_cons_of_mem a hb)

theorem Block.Seen.balance? {l : Ledger} {first rest : List AnsweredCall} {id : AccountId}
    {b : Option Decimal}
    (h : Block.Seen l (.transaction (first ++ ⟨.lockBalance id, .ok b, false⟩ :: rest)))
    (hfirst : ∀ a ∈ first, a.stages id = false) : l.balance? id = b := by
  obtain ⟨hseen, hread, -⟩ := (replays_append _ _).mp h
  have hleaves := AnsweredCall.leaves_foldl first ⟨rfl, rfl⟩ hseen hfirst
  have hb : (.ok b : Except LedgerError _) = .ok (Transaction.balance? l _ id) := hread rfl
  rw [← hleaves.balance? l]
  exact (Except.ok.inj hb).symm

namespace Clients

/-- However the steps of the clients are mixed, and whatever faults they meet, one client alone
that makes the committed blocks one after the other, without the calls that hit a fault, comes
to the same ledger and is answered the same. A balance that a transaction reads is the one
that the blocks before it have left. -/
theorem serializable (s : Store) (steps : List (Nat × ClientStep)) :
    (alone s.ledger ((on s).run steps).committed).world.store.ledger =
        ((on s).run steps).world.store.ledger ∧
      (alone s.ledger ((on s).run steps).committed).committed =
        ((on s).run steps).committed.map Block.untripped ∧
      ∀ before after first rest id b,
        ((on s).run steps).committed =
          before ++ .transaction (first ++ ⟨.lockBalance id, .ok b, false⟩ :: rest) :: after →
        (∀ a ∈ first, a.stages id = false) →
        (alone s.ledger before).world.store.ledger.balance? id = b := by
  obtain ⟨φ, h⟩ := (serial_on s).run steps
  refine ⟨?_, ?_, fun before after first rest id b hcommitted hfirst => ?_⟩
  · rw [alone_eq h.seen]
    exact h.ledger
  · rw [alone_eq h.seen]
    rfl
  · have hseen := h.seen
    rw [hcommitted, replays_append] at hseen
    rw [alone_eq hseen.1]
    exact hseen.2.1.balance? hfirst

/-- Two clients that write the same balance, with a fault in between. -/
def twoWriters : List (Nat × ClientStep) :=
  [(0, .seed .nil .two), (0, .poll), (0, .begin), (1, .begin), (0, .poll), (1, .poll),
    (0, .data (.lockBalance 1)), (1, .inject .lockBalance 0 1),
    (0, .data (.writeBalance 1 .ten)), (0, .commit), (1, .poll), (1, .data (.lockBalance 1)),
    (1, .data (.lockBalance 1)), (1, .data (.writeBalance 1 .two)), (1, .commit)]

theorem serializable_twoWriters :
    ((on .empty).run twoWriters).committed.length = 3 ∧
      (alone .empty ((on .empty).run twoWriters).committed).world.store.ledger =
        ((on .empty).run twoWriters).world.store.ledger ∧
      (alone .empty (((on .empty).run twoWriters).committed.take 2)).world.store.ledger.balance? 1 =
        some .ten := by
  have hcommitted : ((on .empty).run twoWriters).committed =
      ((on .empty).run twoWriters).committed.take 2 ++ .transaction
        ([⟨.lockBalance 1, .error (Faults.error .lockBalance), true⟩] ++
          ⟨.lockBalance 1, .ok (some .ten), false⟩ :: [⟨.writeBalance 1 .two, .ok (), false⟩]) ::
        [] := by
    decide +kernel
  refine ⟨by decide +kernel, (serializable .empty twoWriters).1, ?_⟩
  exact (serializable .empty twoWriters).2.2 _ _ _ _ _ _ hcommitted (by decide)

end Clients

end WagerLedger

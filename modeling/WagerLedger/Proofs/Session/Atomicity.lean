import WagerLedger.Proofs.Session.Tracks

/-! # Atomicity

A call changes the committed ledger in one of its turns or in none. Which of the two is known
from its answer: with an error it has not, and a settled spin was settled once, however many
attempts it took and whoever else was at work between them. -/
namespace WagerLedger

def Reply.isError : Reply → Bool
  | .ledgerError _ | .settlementError _ => true
  | _ => false

theorem Operation.Makes.isError {P : Odds → Prop} {op : Operation} {l l' : Ledger} {r : Reply}
    (h : op.Makes P l l' (some r)) : r.isError = false := by
  cases op
  case seed ext b =>
    obtain ⟨a, -, hr⟩ := h
    cases hr
    rfl
  case openAccount ext =>
    obtain ⟨a, -, hr⟩ := h
    cases hr
    rfl
  case account ext =>
    obtain ⟨-, a, -, hr⟩ := h
    cases hr
    rfl
  case deposit ext amount =>
    obtain ⟨-, before, after, -, hr⟩ := h
    cases hr
    rfl
  case withdraw ext amount =>
    obtain ⟨-, before, after, -, hr⟩ := h
    cases hr
    rfl
  case settle ext bet c =>
    obtain ⟨spin, -, hr⟩ := h
    obtain ⟨net, -, rfl⟩ := Option.map_eq_some_iff.mp hr.symm
    rfl
  case history ext limit =>
    obtain ⟨-, a, -, hr⟩ := h
    cases hr
    rfl
  case move m =>
    cases m with
    | commit =>
      cases h
      rfl
    | _ => exact h.elim
  all_goals exact h.elim

/-- The turns of a call up to now, as its phase tells of them: none has changed the ledger, or
only the one that made its change. -/
def Scenario.Tells (c : Scenario) (us : List Turn) (n : Nat) : Option (Ledger × Ledger) → Prop
  | none => ∀ k, us[k]?.bind Turn.task? = some n → c.Still us k
  | some (l, l') => ∃ k, us[k]? = some (.step n) ∧ c.ledger (us.take k) = l ∧
      c.ledger (us.take (k + 1)) = l' ∧
      ∀ j, j ≠ k → us[j]?.bind Turn.task? = some n → c.Still us j

namespace Scenario

variable {c : Scenario} {us : List Turn} {u : Turn} {n : Nat}

theorem still_append {k : Nat} (h : k < us.length) :
    c.Still (us ++ [u]) k ↔ c.Still us k := by
  rw [Still, Still, List.take_append_of_le_length h, List.take_append_of_le_length h.le]

theorem still_last (h : c.ledger (us ++ [u]) = c.ledger us) :
    c.Still (us ++ [u]) us.length := by
  rw [Still, List.take_left, List.take_of_length_le (by simp), h]

theorem task?_append {j : Nat} (h : (us ++ [u])[j]?.bind Turn.task? = some n) :
    (j < us.length ∧ us[j]?.bind Turn.task? = some n) ∨ (j = us.length ∧ u.task? = some n) := by
  rcases lt_trichotomy j us.length with hlt | rfl | hgt
  · rw [List.getElem?_append_left hlt] at h
    exact .inl ⟨hlt, h⟩
  · rw [List.getElem?_concat_length] at h
    exact .inr ⟨rfl, h⟩
  · rw [List.getElem?_eq_none (by simp; omega)] at h
    cases h

theorem Tells.append {x : Option (Ledger × Ledger)} (h : c.Tells us n x)
    (hu : u.task? = some n → c.ledger (us ++ [u]) = c.ledger us) :
    c.Tells (us ++ [u]) n x := by
  cases x with
  | none =>
    intro j hj
    rcases task?_append hj with ⟨hlt, ht⟩ | ⟨rfl, ht⟩
    · exact (still_append hlt).mpr (h j ht)
    · exact still_last (hu ht)
  | some x =>
    obtain ⟨l, l'⟩ := x
    obtain ⟨k, hk, hl, hl', hothers⟩ := h
    have hlt : k < us.length := (List.getElem?_eq_some_iff.mp hk).1
    refine ⟨k, ?_, ?_, ?_, fun j hjk hj => ?_⟩
    · rw [List.getElem?_append_left hlt, hk]
    · rw [List.take_append_of_le_length hlt.le, hl]
    · rw [List.take_append_of_le_length hlt, hl']
    · rcases task?_append hj with ⟨hlt, ht⟩ | ⟨rfl, ht⟩
      · exact (still_append hlt).mpr (hothers j hjk ht)
      · exact still_last (hu ht)

theorem Tells.change (h : c.Tells us n none) :
    c.Tells (us ++ [.step n]) n (some (c.ledger us, c.ledger (us ++ [.step n]))) := by
  refine ⟨us.length, List.getElem?_concat_length, ?_, ?_, fun j hj hturn => ?_⟩
  · rw [List.take_left]
  · rw [List.take_of_length_le (by simp)]
  · rcases task?_append hturn with ⟨hlt, ht⟩ | ⟨hlen, -⟩
    · exact (still_append hlt).mpr (h j ht)
    · exact (hj hlen).elim

theorem tells_turn {P : Odds → Prop} {φ φ' : Nat → Phase}
    (h : ∀ n, c.Tells us n (φ n).change?)
    (hturned : Tracks.Turned P c.calls u (c.ledger us) (c.ledger (us ++ [u])) φ φ') (m : Nat) :
    c.Tells (us ++ [u]) m (φ' m).change? := by
  cases hturned with
  | same hl hc =>
    rw [hc m]
    exact (h m).append fun _ => hl
  | change n hu hbefore hafter hothers _ =>
    by_cases hm : m = n
    · have hn := h n
      rw [hbefore] at hn
      subst hu
      rw [hm, hafter]
      exact hn.change
    · rw [hothers m hm]
      refine (h m).append fun hturn => ?_
      rw [hu] at hturn
      cases hturn
      exact (hm rfl).elim

theorem answered {P : Odds → Prop} {φ : Nat → Phase} (h : Tracks P c.calls (c.after us) φ)
    {op : Operation} (hop : c.calls[n]? = some op) :
    ((φ n).change? = none → op.Refuses (c.answer? us n)) ∧
      ∀ l l', (φ n).change? = some (l, l') → op.Makes P l l' (c.answer? us n) := by
  have hn : n < (c.after us).list.length := by
    rw [h.length]
    exact (List.getElem?_eq_some_iff.mp hop).1
  have ht := List.getElem?_eq_getElem hn
  obtain ⟨op', hop', -, hkeeps⟩ := h.keeps n _ ht
  rw [hop] at hop'
  cases hop'
  have ha : c.answer? us n = ((c.after us).list[n]).answer? (c.after us).world.clock := by
    rw [answer?, ht]
    rfl
  rw [ha]
  exact ⟨fun hφ => hkeeps.refuses hφ _, fun l l' hφ => hkeeps.makes hφ _⟩

theorem call_of_answer {P : Odds → Prop} {φ : Nat → Phase} (h : Tracks P c.calls (c.after us) φ)
    {r : Reply} (hr : c.answer? us n = some r) : ∃ op, c.calls[n]? = some op := by
  obtain ⟨t, ht, -⟩ := Option.bind_eq_some_iff.mp hr
  obtain ⟨op, hop, -⟩ := h.keeps n t ht
  exact ⟨op, hop⟩

/-- A call that is over has let go of the lock and does not wait for it. -/
theorem unlocked {P : Odds → Prop} {φ : Nat → Phase} (h : Tracks P c.calls (c.after us) φ)
    {t : Task Stage Reply} (ht : (c.after us).list[n]? = some t) (hover : t.isOver = true) :
    (∀ t, (c.after us).world.holder ≠ some (n + 1, t)) ∧ n + 1 ∉ (c.after us).world.queue := by
  obtain ⟨op, -, -, hkeeps⟩ := h.keeps n t ht
  obtain ⟨client, limit, state⟩ := t
  cases state with
  | inl p => cases hover
  | inr e =>
    have hwaits : ¬(c.after us).Waits n := fun hw => by
      rw [Tracks.waits_iff ht] at hw
      cases hw
    have hout : ∀ r, op.Outcome P r (φ n) → (φ n).Away := fun r hr => by
      cases hφ : φ n with
      | outside => trivial
      | past => trivial
      | inside => rw [hφ] at hr; exact hr
      | seeded => rw [hφ] at hr; exact hr
    have haway : (φ n).Away := by
      obtain ⟨ending, moment⟩ := e
      cases ending with
      | answered r => exact hout _ hkeeps
      | crashed => exact hout _ hkeeps
      | blocked => exact hout _ hkeeps
    exact (h.agrees.finds n).free haway hwaits

/-- A call that answers with an error has changed nothing in any of its turns. A settled one has
made one change, with one of its steps: it took off the bet once, added the win once if there
was one, and appended the spin that it answers; none of its other turns changed anything. And
no call holds the lock or waits for it after its end. -/
theorem calls_atomic (c : Scenario) (us : List Turn) (n : Nat) :
    (∀ r, c.answer? us n = some r → r.isError = true →
      ∀ k, us[k]?.bind Turn.task? = some n → c.Still us k) ∧
    (∀ ext bet ctx spin net, c.calls[n]? = some (.settle ext bet ctx) →
      c.answer? us n = some (.settled spin net) →
      ∃ k before between after, us[k]? = some (.step n) ∧
        (c.ledger (us.take k)).Settles ext bet spin before between after
          (c.ledger (us.take (k + 1))) ∧
        ∀ j, j ≠ k → us[j]?.bind Turn.task? = some n → c.Still us j) ∧
    ∀ t, (c.after us).list[n]? = some t → t.isOver = true →
      (∀ t, (c.after us).world.holder ≠ some (n + 1, t)) ∧
        n + 1 ∉ (c.after us).world.queue := by
  -- A call changes the ledger in the one turn that its phase tells of, and an error has none.
  obtain ⟨φ, htracks, htells⟩ := c.run_induction (P := fun _ => True)
    (M := fun us φ => ∀ n, c.Tells us n (φ n).change?) trivial (fun _ _ => trivial)
    (fun _ _ hk => (nomatch hk)) (fun _ _ _ _ => tells_turn) us
  have htell := htells n
  refine ⟨fun r hr herr => ?_, fun ext bet ctx spin net hop hr => ?_,
    fun t ht => unlocked htracks ht⟩
  · obtain ⟨op, hop⟩ := call_of_answer htracks hr
    have hmakes := (answered htracks hop).2
    rw [hr] at hmakes
    cases hφ : (φ n).change? with
    | none => rwa [hφ] at htell
    | some x =>
      have hok := (hmakes x.1 x.2 hφ).isError
      rw [herr] at hok
      cases hok
  · obtain ⟨hrefuses, hmakes⟩ := answered htracks hop
    rw [hr] at hrefuses hmakes
    cases hφ : (φ n).change? with
    | none =>
      obtain ⟨e, he⟩ := hrefuses hφ _ rfl
      cases he
    | some x =>
      obtain ⟨l, l'⟩ := x
      rw [hφ] at htell
      obtain ⟨k, hk, rfl, rfl, hothers⟩ := htell
      obtain ⟨spin', ⟨-, -, before, between, after, hsettles⟩, hans⟩ := hmakes _ _ hφ
      obtain ⟨net', -, hnet⟩ := Option.map_eq_some_iff.mp hans.symm
      cases hnet
      exact ⟨k, before, between, after, hk, hsettles, hothers⟩

/-- A settlement that wins ten times its bet, and then an id that is taken. -/
def oneWin : Scenario where
  config := .standard
  entropy _ := .ofList []
  probes := []
  calls := [.seed .nil .ten, .settle .nil .two none, .openAccount .nil]

def oneWinTurns : List Turn :=
  List.replicate 5 (.step 0) ++ List.replicate 35 (.step 1) ++ List.replicate 24 (.step 2)

def oneWinSpin : Spin where
  id := 1
  accountId := 1
  bet := .two
  win := ⟨20, 0, false, by decide, Decimal.zero.scale_le, nofun⟩

/-- A settlement that lacks funds twice, and one that lacks them once: before its second attempt
a deposit is made, and it wins ten times its bet. -/
def lateDeposit : Scenario where
  config := .standard
  entropy _ := .ofList []
  probes := []
  calls := [.seed .nil .two, .settle .nil .ten none, .settle .nil .ten none, .deposit .nil .ten]

def lateDepositTurns : List Turn :=
  List.replicate 5 (.step 0) ++ List.replicate 20 (.step 1) ++ [.wait 2000] ++
    List.replicate 20 (.step 1) ++ List.replicate 20 (.step 2) ++ List.replicate 14 (.step 3) ++
    [.wait 2000] ++ List.replicate 35 (.step 2)

def lateDepositSpin : Spin where
  id := 1
  accountId := 1
  bet := .ten
  win := ⟨100, 0, false, by decide, Decimal.zero.scale_le, nofun⟩

theorem calls_atomic_lateDeposit :
    (lateDeposit.answer? lateDepositTurns 1 =
        some (.settlementError (.insufficientFunds .two .ten)) ∧
      ∀ k, lateDepositTurns[k]?.bind Turn.task? = some 1 →
        lateDeposit.Still lateDepositTurns k) ∧
    (lateDeposit.answer? lateDepositTurns 2 =
        some (.settled lateDepositSpin ⟨90, 0, false, by decide, by decide, nofun⟩) ∧
      ∃ k before between after, lateDepositTurns[k]? = some (.step 2) ∧
        (lateDeposit.ledger (lateDepositTurns.take k)).Settles .nil .ten lateDepositSpin before
          between after (lateDeposit.ledger (lateDepositTurns.take (k + 1))) ∧
        ∀ j, j ≠ k → lateDepositTurns[j]?.bind Turn.task? = some 2 →
          lateDeposit.Still lateDepositTurns j) := by
  have h1 : lateDeposit.answer? lateDepositTurns 1 =
      some (.settlementError (.insufficientFunds .two .ten)) := by
    decide +kernel
  have h2 : lateDeposit.answer? lateDepositTurns 2 =
      some (.settled lateDepositSpin ⟨90, 0, false, by decide, by decide, nofun⟩) := by
    decide +kernel
  exact ⟨⟨h1, (calls_atomic lateDeposit lateDepositTurns 1).1 _ h1 rfl⟩,
    h2, (calls_atomic lateDeposit lateDepositTurns 2).2.1 .nil .ten none _ _ rfl h2⟩

end Scenario

end WagerLedger

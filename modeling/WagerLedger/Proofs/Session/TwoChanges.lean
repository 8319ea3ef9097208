import WagerLedger.Proofs.Program.Attempting
import WagerLedger.Proofs.Session.Apart
import WagerLedger.Proofs.Session.Atomicity

/-! # A settlement as a withdrawal and a deposit

A settlement takes the bet off and adds the win in one transaction, a client of the wallet would
do it in two. For a client that is alone both move the balance alike, and refuse alike: a lack of
funds in the one is a lack of funds in the other, and where the deposit would find no room for
the win after the withdrawal was made, the settlement takes nothing. -/
namespace WagerLedger

variable {entropy : Nat → Words} {ext : Identifier} {k : Stake entropy ext}

/-- The task goes on as the stake says, or has come to what the stake says, or has broken off. -/
def Task.Plays (k : Stake entropy ext) (t : Task Stage Reply) (w : World) : Prop :=
  match t.state with
  | .inl p => ∃ g, w.Shows 1 entropy g ∧ p.Under (alone entropy True) g k.Goes
  | .inr (.answered r, _) => ∃ g, w.Shows 1 entropy g ∧ k.Goes g (.inr r)
  | .inr _ => True

/-- Client 1 is the only one, and plays for its stake. -/
structure Tasks.Plays (k : Stake entropy ext) (d : Desk) (s : Tasks Stage Reply Desk) : Prop where
  shared : s.shared = d
  task : ∃ limit state, s.list = [⟨1, limit, state⟩] ∧
    Task.Plays k ⟨1, limit, state⟩ s.world

theorem Task.Plays.request {limit : Nat} {w : World} {p : Program (Stage ⊕ Reply)}
    (h : Task.Plays k ⟨1, limit, .inl p⟩ w) :
    ∃ p', ((p.step 1 w).1.map fun p => (⟨1, limit, .inl p⟩ : Task Stage Reply)).getD
        ⟨1, limit, .inl p⟩ = ⟨1, limit, .inl p'⟩ ∧
      Task.Plays k ⟨1, limit, .inl p'⟩ (p.step 1 w).2 := by
  obtain ⟨g, hw, hp⟩ := h
  obtain ⟨hgoes, hwaits⟩ := hp.step hw
  cases hs : (p.step 1 w).1 with
  | none => exact ⟨p, rfl, g, hwaits hs, hp⟩
  | some p' =>
    obtain ⟨g', hw', hp'⟩ := hgoes p' hs
    exact ⟨p', rfl, g', hw', hp'⟩

/-- What one step of the task preserves. -/
theorem Task.Plays.step {d : Desk} {limit : Nat} {w : World}
    {state : Program (Stage ⊕ Reply) ⊕ Ending Reply × Nat} (hodds : d.engine.odds = k.odds)
    (hbet : Settlement.acceptsBet k.bet = true) (h : Task.Plays k ⟨1, limit, state⟩ w) :
    (∃ state', (Task.step Session.rounds ⟨1, limit, state⟩ w d).1.getD ⟨1, limit, state⟩ =
        ⟨1, limit, state'⟩ ∧
      Task.Plays k ⟨1, limit, state'⟩ (Task.step Session.rounds ⟨1, limit, state⟩ w d).2.1) ∧
      (Task.step Session.rounds ⟨1, limit, state⟩ w d).2.2 = d := by
  cases state with
  | inr e => exact ⟨⟨_, rfl, h⟩, rfl⟩
  | inl p =>
    cases p with
    | done a =>
      obtain ⟨g, hw, hp⟩ := h
      cases a with
      | inl stage =>
        obtain ⟨hd, hround⟩ := Program.under_rounds_alone hodds hbet hp
        exact ⟨⟨_, rfl, g, hw, hround⟩, hd⟩
      | inr r => exact ⟨⟨_, rfl, g, hw, hp⟩, rfl⟩
    | crash => exact ⟨⟨_, rfl, trivial⟩, rfl⟩
    | ask r c =>
      obtain ⟨p', hp', hplays⟩ := h.request
      exact ⟨⟨_, hp', hplays⟩, rfl⟩
    | race x r c =>
      obtain ⟨p', hp', hplays⟩ := h.request
      exact ⟨⟨_, hp', hplays⟩, rfl⟩

namespace Tasks.Plays

variable {d : Desk} {s : Tasks Stage Reply Desk}

theorem wait (h : s.Plays k d) (millis : Nat) :
    (s.turn Session.rounds (.wait millis)).Plays k d := by
  obtain ⟨hshared, limit, state, hlist, hplays⟩ := h
  refine ⟨hshared, limit, state, hlist, ?_⟩
  have hlater {g : Solo} (hw : s.world.Shows 1 entropy g) :
      World.Shows 1 entropy { s.world with clock := s.world.clock + millis } g :=
    hw.retimed _ _
  cases state with
  | inl p =>
    obtain ⟨g, hw, hp⟩ := hplays
    exact ⟨g, hlater hw, hp⟩
  | inr e =>
    obtain ⟨ending, moment⟩ := e
    cases ending with
    | answered r =>
      obtain ⟨g, hw, hr⟩ := hplays
      exact ⟨g, hlater hw, hr⟩
    | crashed => trivial
    | blocked => trivial

theorem drop (h : s.Plays k d) (n : Nat) : (s.turn Session.rounds (.drop n)).Plays k d := by
  obtain ⟨hshared, limit, state, hlist, hplays⟩ := h
  unfold Tasks.turn Tasks.dropAt
  dsimp only
  rw [hlist]
  cases n with
  | succ n => exact ⟨hshared, limit, state, hlist, hplays⟩
  | zero =>
    simp only [List.getElem?_cons_zero]
    split
    · exact ⟨hshared, limit, state, hlist, hplays⟩
    · cases state with
      | inl p => exact ⟨hshared, limit, _, rfl, trivial⟩
      | inr e => exact ⟨hshared, limit, _, rfl, hplays⟩

theorem turn (hodds : d.engine.odds = k.odds) (hbet : Settlement.acceptsBet k.bet = true)
    (h : s.Plays k d) (u : Turn) : (s.turn Session.rounds u).Plays k d := by
  cases u with
  | wait millis => exact h.wait millis
  | drop n => exact h.drop n
  | step n =>
    obtain ⟨hshared, limit, state, hlist, hplays⟩ := h
    unfold Tasks.turn Tasks.stepAt
    dsimp only
    rw [hlist, hshared]
    cases n with
    | succ n => exact ⟨hshared, limit, state, hlist, hplays⟩
    | zero =>
      obtain ⟨⟨state', hstate, hplays'⟩, hd⟩ := hplays.step hodds hbet
      exact ⟨hd, limit, state', congrArg (fun t => [t]) hstate, hplays'⟩

theorem turns (hodds : d.engine.odds = k.odds) (hbet : Settlement.acceptsBet k.bet = true)
    (h : s.Plays k d) (us : List Turn) : (s.turns Session.rounds us).Plays k d := by
  induction us generalizing s with
  | nil => exact h
  | cons u us ih => exact ih (h.turn hodds hbet u)

end Tasks.Plays

theorem World.AtRest.shows {w : World} (h : w.AtRest) (i : ClientId) :
    w.Shows i w.entropy ⟨w.store.ledger, none, w.sources⟩ where
  store := by
    rw [← h.faults]
  holder := h.holder
  queue := h.queue
  probes := h.probes
  entropy_eq := rfl
  sources := rfl

/-- A settlement that returns has come to what an attempt for its stake comes to. The backoff takes
the first source of words, so the outcome is drawn from the second. -/
theorem LoneCall.settled_attempt {c : LoneCall} {w : World} (hw : w.AtRest)
    {k : Stake c.entropy ext} (hop : c.op = .settle ext k.bet none)
    (hbet : Settlement.acceptsBet k.bet = true) (hledger : k.ledger = w.store.ledger)
    (hodds : k.odds = c.config.odds) (hsource : k.source = 1) {r : Reply}
    (hr : c.reply? w = some r) :
    ∃ g result, (c.after w).world.Shows 1 c.entropy g ∧ k.Attempted result g ∧
      Settlement.reply? result = some r := by
  have hshows : (c.start w).world.Shows 1 c.entropy ⟨k.ledger, none, 0⟩ := by
    have h := hw.shows 1
    exact ⟨h.store.trans (by rw [hledger]), h.holder, h.queue, h.probes, rfl, rfl⟩
  have hstart : (c.start w).Plays k ⟨c.config, .empty, .empty⟩ := by
    refine ⟨rfl, _, _, rfl, _, hshows, ?_⟩
    exact ⟨hop, 0, hsource, rfl⟩
  obtain ⟨-, limit, state, hlist, hplays⟩ := hstart.turns hodds.symm hbet c.turns
  obtain ⟨moment, hending⟩ := LoneCall.ending_of_reply? hr
  rw [LoneCall.after, hlist] at hending
  cases state with
  | inl p => cases hending
  | inr e =>
    cases hending
    obtain ⟨g, hg, result, hattempted, hreply⟩ := hplays
    exact ⟨g, result, hg, hattempted, hreply⟩

section Copies

variable {l : Ledger} {a : Account} {i : ClientId} {w w₁ : World} {bet : Decimal}

/-- What a withdrawal of a bet and a deposit after it come to, made at once on a copy of a
world. -/
structure WalletChanges (i : ClientId) (w : World) (ext : Identifier) (a : Account) (bet : Decimal)
    (w₁ : World) : Prop where
  withdraw : (Wallet.withdraw ext bet).run.runIn i w = some (adjusted bet.neg a.balance, w₁)
  withdrawn : ∀ b, adjusted bet.neg a.balance = .ok b → w₁.store.ledger.balance? a.id = some b
  deposit : ∀ b win, adjusted bet.neg a.balance = .ok b → win.isPositive = true → ∃ w₂,
    (Wallet.deposit ext win).run.runIn i w₁ = some (adjusted win b, w₂) ∧
      ∀ b', adjusted win b = .ok b' → w₂.store.ledger.balance? a.id = some b'

theorem exists_walletChanges {n : Nat} (hl : l.Consistent) (hw : w.Shows i entropy ⟨l, none, n⟩)
    (ha : l.find? ext = some a) (hbet : bet.isPositive = true) :
    ∃ w₁, WalletChanges i w ext a bet w₁ := by
  have hbalance := hl.balance? ha
  obtain ⟨w₁, g₁, hwithdraw, hw₁, hg₁⟩ := Program.runIn_withdraw hw ha hbalance hbet
  have hshows (b : Decimal) (hb : adjusted bet.neg a.balance = .ok b) :
      w₁.Shows i entropy ⟨l.setBalance a.id b, none, n⟩ := by
    rwa [hg₁.ok b hb] at hw₁
  refine ⟨w₁, hwithdraw, fun b hb => ?_, fun b win hb hwin => ?_⟩
  · rw [(hshows b hb).store]
    exact Ledger.balance?_setBalance_self hbalance b
  · have hb₁ := Ledger.balance?_setBalance_self hbalance b
    obtain ⟨w₂, g₂, hdeposit, hw₂, hg₂⟩ :=
      Program.runIn_deposit (hshows b hb) (hl.find?_setBalance ha b) hb₁ hwin
    refine ⟨w₂, hdeposit, fun b' hb' => ?_⟩
    rw [hw₂.store, hg₂.ok b' hb']
    exact Ledger.balance?_setBalance_self hb₁ b'

namespace WalletChanges

theorem withdraw_iff (h : WalletChanges i w ext a bet w₁) {r : Except LedgerError Decimal}
    {w' : World} : (Wallet.withdraw ext bet).run.runIn i w = some (r, w') ↔
      adjusted bet.neg a.balance = r ∧ w₁ = w' := by
  rw [h.withdraw, Option.some.injEq, Prod.mk.injEq]

theorem overflows_iff (h : WalletChanges i w ext a bet w₁) {drawn : Except SettlementError Decimal} :
    (∃ between win, adjusted bet.neg a.balance = .ok between ∧ drawn = .ok win ∧
        win.isPositive = true ∧ adjusted win between = .error .balanceOverflow) ↔
      ∃ b w₁ win w₂, (Wallet.withdraw ext bet).run.runIn i w = some (.ok b, w₁) ∧
        drawn = .ok win ∧
        (Wallet.deposit ext win).run.runIn i w₁ = some (.error .balanceOverflow, w₂) := by
  constructor
  · rintro ⟨between, win, debit, hwin, positive, credit⟩
    obtain ⟨w₂, hdeposit, -⟩ := h.deposit between win debit positive
    rw [credit] at hdeposit
    exact ⟨between, w₁, win, w₂, h.withdraw_iff.mpr ⟨debit, rfl⟩, hwin, hdeposit⟩
  · rintro ⟨b, w', win, w₂, hwithdraw, hwin, hdeposit⟩
    obtain ⟨debit, rfl⟩ := h.withdraw_iff.mp hwithdraw
    by_cases positive : win.isPositive = true
    · obtain ⟨w₃, hrun, -⟩ := h.deposit b win debit positive
      obtain ⟨credit, -⟩ := Prod.mk.inj (Option.some.inj (hrun.symm.trans hdeposit))
      exact ⟨b, win, debit, hwin, positive, credit⟩
    · rw [Wallet.deposit, if_neg positive] at hdeposit
      cases hdeposit

/-- What is paid out leaves the balance that the two changes leave. -/
theorem settled (h : WalletChanges i w ext k.account k.bet w₁) {spin : Spin} {g : Solo}
    (hpaid : k.Attempted (.ok spin) g) : ∃ b w₁,
      (Wallet.withdraw ext k.bet).run.runIn i w = some (.ok b, w₁) ∧
        if spin.win.isPositive then ∃ b' w₂,
          (Wallet.deposit ext spin.win).run.runIn i w₁ = some (.ok b', w₂) ∧
            w₂.store.ledger.balance? k.account.id = some b' ∧
            g.ledger.balance? k.account.id = some b'
        else w₁.store.ledger.balance? k.account.id = some b ∧
          g.ledger.balance? k.account.id = some b := by
  cases hpaid with
  | paid debit drawn credit =>
    rename_i between after
    have hafter : ((k.ledger.setBalance k.account.id after).addSpin spin).balance? k.account.id =
        some after := Ledger.balance?_setBalance_self k.holds after
    refine ⟨between, w₁, h.withdraw_iff.mpr ⟨debit, rfl⟩, ?_⟩
    by_cases positive : spin.win.isPositive = true
    · rw [if_pos positive] at credit ⊢
      obtain ⟨w₂, hdeposit, hb'⟩ := h.deposit between spin.win debit positive
      rw [credit] at hdeposit
      exact ⟨after, w₂, hdeposit, hb' after credit, hafter⟩
    · rw [if_neg positive] at credit ⊢
      exact ⟨h.withdrawn between debit, credit ▸ hafter⟩

end WalletChanges

end Copies

/-- A settlement that returns has come to what a withdrawal of the bet and a deposit of the win
come to on a copy of the world that it found. Once it has settled, the balance is the one after
the two; funds are lacking for it exactly where they are for the withdrawal; and it finds no room
exactly where the deposit does after the withdrawal was made, which leaves the ledger as it
was. -/
theorem settlement_two_changes {c : LoneCall} {w : World} {bet : Decimal} {a : Account} {r : Reply}
    (hw : w.AtRest) (hop : c.op = .settle ext bet none)
    (hbet : Settlement.acceptsBet bet = true) (ha : w.store.ledger.find? ext = some a)
    (hbalance : 0 ≤ a.balance.toRat) (hr : c.reply? w = some r) :
    (∀ spin net, r = .settled spin net → ∃ b w₁,
      (Wallet.withdraw ext bet).run.runIn 1 w = some (.ok b, w₁) ∧
        if spin.win.isPositive then ∃ b' w₂,
          (Wallet.deposit ext spin.win).run.runIn 1 w₁ = some (.ok b', w₂) ∧
            w₂.store.ledger.balance? a.id = some b' ∧
            (c.after w).world.store.ledger.balance? a.id = some b'
        else w₁.store.ledger.balance? a.id = some b ∧
          (c.after w).world.store.ledger.balance? a.id = some b) ∧
    (∀ available required, r = .settlementError (.insufficientFunds available required) ↔
      ∃ w₁, (Wallet.withdraw ext bet).run.runIn 1 w =
        some (.error (.insufficientFunds available required), w₁)) ∧
    (r = .settlementError (.storage .balanceOverflow) ↔ ∃ b w₁ win w₂,
      (Wallet.withdraw ext bet).run.runIn 1 w = some (.ok b, w₁) ∧
        Settlement.payout c.config.odds bet (c.config.odds.spin (c.entropy 1)).1 = .ok win ∧
        (Wallet.deposit ext win).run.runIn 1 w₁ = some (.error .balanceOverflow, w₂)) ∧
    (r = .settlementError (.storage .balanceOverflow) →
      (c.after w).world.store.ledger = w.store.ledger) := by
  have hcons := hw.numbered.consistent
  have haccepts := hbet
  rw [Settlement.acceptsBet, Bool.and_eq_true] at haccepts
  let k : Stake c.entropy ext :=
    ⟨w.store.ledger, a, bet, c.config.odds, 1, ha, hcons.balance? ha, haccepts.1⟩
  obtain ⟨g, result, hg, hattempted, hreply⟩ :=
    LoneCall.settled_attempt (k := k) hw hop hbet rfl rfl rfl hr
  obtain ⟨w₁, hcopy⟩ := exists_walletChanges hcons (hw.shows 1) ha haccepts.1
  have hledger : (c.after w).world.store.ledger = g.ledger := by rw [hg.store]
  rw [hledger]
  refine ⟨fun spin net hspin => ?_, fun available required => ?_, ?_, fun hoverflow => ?_⟩
  · rw [hspin] at hreply
    obtain rfl := Settlement.reply?_settled hreply
    exact WalletChanges.settled (k := k) hcopy hattempted
  · rw [Settlement.reply?_error hreply, hattempted.insufficientFunds_iff]
    constructor
    · intro hlack
      exact ⟨w₁, hcopy.withdraw_iff.mpr ⟨hlack, rfl⟩⟩
    · rintro ⟨w', hwithdraw⟩
      exact (hcopy.withdraw_iff.mp hwithdraw).1
  · rw [Settlement.reply?_error hreply, hattempted.balanceOverflow_iff haccepts.2 hbalance]
    exact hcopy.overflows_iff
  · obtain rfl := (Settlement.reply?_error hreply).mp hoverflow
    exact hattempted.ledger

def tenAtRest : World :=
  { World.start (fun _ => .ofList []) [] with
    store := ⟨(Ledger.empty.seed .nil .ten).2, .none⟩ }

theorem settlement_two_changes_win :
    (tenAtRest.AtRest ∧ Settlement.acceptsBet .two = true ∧
      tenAtRest.store.ledger.find? .nil = some ⟨1, .nil, .ten⟩ ∧ 0 ≤ Decimal.ten.toRat ∧
      (promptly (.settle .nil .two none)).reply? tenAtRest =
        some (.settled Scenario.oneWinSpin ⟨18, 0, false, by decide, by decide, nofun⟩)) ∧
    ∃ b w₁, (Wallet.withdraw .nil .two).run.runIn 1 tenAtRest = some (.ok b, w₁) ∧
      ∃ b' w₂, (Wallet.deposit .nil Scenario.oneWinSpin.win).run.runIn 1 w₁ = some (.ok b', w₂) ∧
        w₂.store.ledger.balance? 1 = some b' ∧
        ((promptly (.settle .nil .two none)).after tenAtRest).world.store.ledger.balance? 1 =
          some b' := by
  have hrest : tenAtRest.AtRest :=
    ⟨rfl, rfl, fun _ => rfl, rfl, rfl, rfl, Ledger.numbered_empty.seed .nil .ten⟩
  have hbet : Settlement.acceptsBet .two = true := by decide
  have hfind : tenAtRest.store.ledger.find? .nil = some ⟨1, .nil, .ten⟩ := rfl
  have hbalance : 0 ≤ Decimal.ten.toRat := by decide +kernel
  have hreply : (promptly (.settle .nil .two none)).reply? tenAtRest =
      some (.settled Scenario.oneWinSpin ⟨18, 0, false, by decide, by decide, nofun⟩) := by
    decide +kernel
  exact ⟨⟨hrest, hbet, hfind, hbalance, hreply⟩,
    (settlement_two_changes hrest rfl hbet hfind hbalance hreply).1 _ _ rfl⟩

end WagerLedger

import WagerLedger.Proofs.Decimal.Wins
import WagerLedger.Proofs.Session.Draws
import WagerLedger.Proofs.Session.Rows

/-! # The wins that are committed

Every committed win was paid for the bet of its call and the outcome that was drawn for it, under
the odds of the engine, and is what its balance was credited with. So it is to the exact product of
bet and multiplier what a payout is to it; and a multiplier of many places shows that this can be
more than the product. -/
namespace WagerLedger.Scenario

variable {c : Scenario} {us : List Turn} {ext : Identifier} {P : Odds → Prop}

/-- Odds that a call of the scenario can find in the engine. -/
def Offers (c : Scenario) (odds : Odds) : Prop :=
  odds = c.config.odds ∨ ∃ s, .engine s ∈ c.calls ∧ odds = s.odds

theorem turned_at (hP : P c.config.odds) (hengine : ∀ s, .engine s ∈ c.calls → P s.odds) {k : Nat}
    {u : Turn} (hk : us[k]? = some u) :
    ∃ φ φ', Tracks.Turned P c.calls u (c.ledger (us.take k)) (c.ledger (us.take (k + 1))) φ φ' := by
  obtain ⟨φ, htracks, -⟩ := c.run_induction (M := fun _ _ => True) hP hengine trivial
    (fun _ _ _ _ _ _ => trivial) (us.take k)
  obtain ⟨φ', -, hturned⟩ := htracks.turn hengine u
  have htake : us.take (k + 1) = us.take k ++ [u] := by
    rw [List.take_add_one, hk]
    rfl
  refine ⟨φ, φ', ?_⟩
  rw [ledger, ledger, htake, c.after_append]
  exact hturned

/-- A committed spin was settled by its call, under odds of the session. -/
theorem Settles.settlesBy (hP : P c.config.odds) (hengine : ∀ s, .engine s ∈ c.calls → P s.odds)
    {e : SettledSpin} (he : c.Settles us ext e) :
    ∃ bet ctx, c.calls[e.call]? = some (.settle ext bet ctx) ∧
      (c.ledger (us.take e.turn)).SettlesBy P ext bet e.spin
        (c.ledger (us.take (e.turn + 1))) := by
  obtain ⟨bet, ctx, hop⟩ := he.call
  refine ⟨bet, ctx, hop, ?_⟩
  obtain ⟨φ, φ', hturned⟩ := turned_at hP hengine he.turn
  cases hturned with
  | same hledger _ => exact (he.not_still hledger).elim
  | change n hturn _ _ _ hmakes =>
    cases hturn
    obtain ⟨op, r, hop', hm⟩ := hmakes
    rw [hop] at hop'
    cases hop'
    obtain ⟨spin, hsettles, -⟩ := hm
    have hspin : spin = e.spin := by
      obtain ⟨-, -, before, between, after, hs⟩ := hsettles
      have hspins := he.spins
      rw [hs.ledger_eq] at hspins
      exact List.singleton_inj.mp (List.append_cancel_left hspins)
    rwa [hspin] at hsettles

theorem offers_engine (c : Scenario) (us : List Turn) :
    c.Offers (c.after us).shared.engine.odds := by
  obtain ⟨φ, htracks, -⟩ := c.run_induction (P := c.Offers) (M := fun _ _ => True) (.inl rfl)
    (fun s hs => .inr ⟨s, hs, rfl⟩) trivial (fun _ _ _ _ _ _ => trivial) us
  exact htracks.odds

theorem Drawn.offers {e : SettledSpin} {odds : Odds} {o : Outcome} (h : c.Drawn us e odds o) :
    c.Offers odds := by
  obtain ⟨us₀, -, -, rfl⟩ := h.engine
  exact c.offers_engine us₀

/-- Every committed win was paid for the bet of its call and the outcome of the words that the
call has drawn, under the odds that it has found in the engine. It is what the balance was
credited with, and is one of the two amounts of the ledger next to the exact product: the product
cut to four places whenever the product is a decimal, and in general exactly if rounding has not
taken the win past it. -/
theorem wins_cut_products (hodds : ∀ odds, c.Offers odds → odds.Accepted) {e : SettledSpin}
    (he : c.Settles us ext e) :
    ∃ bet ctx odds o before between after, c.calls[e.call]? = some (.settle ext bet ctx) ∧
      c.Offers odds ∧ c.Drawn us e odds o ∧ Settlement.payout odds bet o = .ok e.spin.win ∧
      (c.ledger (us.take e.turn)).Settles ext bet e.spin before between after
        (c.ledger (us.take (e.turn + 1))) ∧
      PaysFor (bet.toRat * (o.multiplier odds).toRat) e.spin.win := by
  obtain ⟨bet, ctx, hop, haccepts, -, before, between, after, hs⟩ :=
    he.settlesBy (P := c.Offers) (.inl rfl) fun s hs => .inr ⟨s, hs, rfl⟩
  obtain ⟨odds, o, hdrawn, hpaid⟩ := he.drawn hop
  obtain ⟨hbet, hfits⟩ := Settlement.acceptsBet_iff.mp haccepts
  exact ⟨bet, ctx, odds, o, before, between, after, hop, hdrawn.offers, hdrawn, hpaid, hs,
    paysFor_payout (hodds odds hdrawn.offers).neverNegative hbet hfits hpaid⟩

def belowSeven : Decimal := (Decimal.ofParts? 69999999999999999999999999999 28).get rfl

def belowSevenOdds : Odds := { Odds.standard with threeMatchMultiplier := belowSeven }

/-- Two are bet on a multiplier just below seven. -/
def roundedWin : Scenario where
  config := { Settings.standard with odds := belowSevenOdds }
  entropy _ := .ofList []
  probes := []
  calls := [.seed .nil .ten, .settle .nil .two none]

def roundedWinTurns : List Turn := List.replicate 5 (.step 0) ++ List.replicate 35 (.step 1)

/-- Fourteen, to four places. -/
def roundedWinSpin : Spin where
  id := 1
  accountId := 1
  bet := .two
  win := ⟨140000, 4, false, by decide, by decide, nofun⟩

theorem settles_roundedWin : roundedWin.Settles roundedWinTurns .nil ⟨34, 1, roundedWinSpin⟩ where
  call := ⟨.two, none, rfl⟩
  turn := rfl
  spins := by decide +kernel

theorem offers_roundedWin {odds : Odds} (h : roundedWin.Offers odds) : odds = belowSevenOdds := by
  rcases h with rfl | ⟨s, hs, -⟩
  · rfl
  · simp [roundedWin] at hs

theorem accepted_roundedWin (odds : Odds) (h : roundedWin.Offers odds) : odds.Accepted := by
  rw [offers_roundedWin h]
  exact ⟨.standard, by decide +kernel⟩

theorem threeMatch_of_payout {o : Outcome}
    (h : Settlement.payout belowSevenOdds .two o = .ok roundedWinSpin.win) : o = .threeMatch := by
  have hwin : (Settlement.payout belowSevenOdds .two o).toOption = some roundedWinSpin.win := by
    rw [h]
    rfl
  cases o with
  | threeMatch => rfl
  | twoMatch => exact absurd hwin (by decide +kernel)
  | noMatch => exact absurd hwin (by decide +kernel)

theorem roundedWinSpin_win : roundedWinSpin.win.toRat = 14 := by decide +kernel

theorem wins_cut_products_roundedWin :
    (∀ odds, roundedWin.Offers odds → odds.Accepted) ∧
      roundedWin.Settles roundedWinTurns .nil ⟨34, 1, roundedWinSpin⟩ ∧
      roundedWin.Drawn roundedWinTurns ⟨34, 1, roundedWinSpin⟩ belowSevenOdds .threeMatch ∧
      (∃ before between after, (roundedWin.ledger (roundedWinTurns.take 34)).Settles .nil .two
        roundedWinSpin before between after (roundedWin.ledger (roundedWinTurns.take 35))) ∧
      PaysFor (Decimal.two.toRat * belowSeven.toRat) roundedWinSpin.win ∧
      roundedWinSpin.win.toRat = 14 := by
  obtain ⟨bet, ctx, odds, o, before, between, after, hop, hoffers, hdrawn, hpaid, hs, hpays⟩ :=
    wins_cut_products accepted_roundedWin settles_roundedWin
  obtain rfl := offers_roundedWin hoffers
  cases hop
  obtain rfl := threeMatch_of_payout hpaid
  exact ⟨accepted_roundedWin, settles_roundedWin, hdrawn, ⟨before, between, after, hs⟩, hpays,
    roundedWinSpin_win⟩

/-- Two times the multiplier just below seven, under odds that are accepted, pays fourteen: more
than the product, which cut to four places would be 13.9999. No other outcome pays as much. -/
theorem win_past_product :
    roundedWin.config.validate = .ok () ∧ Settlement.acceptsBet .two = true ∧
      roundedWin.answer? roundedWinTurns 1 =
        some (.settled roundedWinSpin ⟨120000, 4, false, by decide, by decide, nofun⟩) ∧
      (roundedWin.ledger roundedWinTurns).spins = [roundedWinSpin] ∧
      (∀ o, Settlement.payout roundedWin.config.odds .two o = .ok roundedWinSpin.win →
        o = .threeMatch) ∧
      Decimal.ledgerCut (Decimal.two.toRat * belowSeven.toRat) = 139999 / 10000 ∧
      Decimal.two.toRat * belowSeven.toRat < roundedWinSpin.win.toRat := by
  have hanswer : roundedWin.answer? roundedWinTurns 1 =
      some (.settled roundedWinSpin ⟨120000, 4, false, by decide, by decide, nofun⟩) := by
    decide +kernel
  have hspins : (roundedWin.ledger roundedWinTurns).spins = [roundedWinSpin] := by
    decide +kernel
  refine ⟨by decide +kernel, by decide +kernel, hanswer, hspins, fun o => threeMatch_of_payout,
    ?_, by decide +kernel⟩
  decide +kernel

end WagerLedger.Scenario

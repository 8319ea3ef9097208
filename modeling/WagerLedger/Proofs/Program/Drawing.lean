import WagerLedger.Proofs.Program.Closing
import WagerLedger.Proofs.Program.Watch

/-! # From the draw to the win

In its transaction an attempt draws random words once, after the bet is taken off, and appends one
spin, whose win is paid for the outcome of these words. It commits with that spin only. -/
namespace WagerLedger

/-- How far a settlement has come with the spin it makes: it is outside of any transaction, has
drawn nothing in it yet, has drawn random words, or has appended a spin with a win. -/
inductive Draw
  | outside
  | undrawn
  | drawn (words : Words)
  | staged (words : Words) (win : Decimal)

namespace Draw

def Works : Draw → Prop
  | .undrawn | .drawn _ => True
  | _ => False

def after : Draw → (r : Request) → r.Answer → Draw
  | _, .acquire, _ => .undrawn
  | _, .commit, _ | _, .rollback, _ | _, .discard, _ => .outside
  | .undrawn, .entropy, words => .drawn words
  | .drawn words, .data (.append w), .ok _ => .staged words w.win
  | g, _, _ => g

/-- The win of a spin that is appended or committed goes with the words that were drawn. -/
structure May (odds : Odds) (bet : Decimal) (g : Draw) (r : Request) : Prop where
  settles : r.isSettling = true ∨ r = .discard
  acquires : r = .acquire → g = .outside
  draws : r = .entropy → g = .outside ∨ g = .undrawn
  works : ∀ d, r = .data d → g.Works
  appends : ∀ w, r = .data (.append w) → ∃ words, g = .drawn words ∧
    Settlement.payout odds bet (odds.spin words).1 = .ok w.win
  commits : r = .commit → ∃ words win, g = .staged words win ∧
    Settlement.payout odds bet (odds.spin words).1 = .ok win

variable {g : Draw}

theorem after_error (d : DataCall) (e : LedgerError) : g.after (.data d) (.error e) = g := by
  cases g <;> cases d <;> rfl

theorem after_passing {r : Request} (hr : r.isPassing = true) (a : r.Answer) :
    g.after r a = g := by
  cases g <;> cases r <;> first | rfl | cases hr

theorem after_balancing {r : Request} (hr : r.isBalancing = true) (a : r.Answer) :
    g.after r a = g := by
  cases r
  case data d => cases d <;> first | (cases g <;> rfl) | cases hr
  case emit => cases g <;> rfl
  all_goals cases hr

end Draw

def drawing (odds : Odds) (bet : Decimal) : Watch where
  State := Draw
  may g _ r := g.May odds bet r
  next g r a g' := g' = g.after r a
  ended _ _ _ _ g' := g' = .outside
  idle _ := .outside
  breaks _ := True

def Draw.Goes (odds : Odds) (bet : Decimal) (g : Draw) : Stage ⊕ Reply → Prop
  | .inl stage => g = .outside ∧ ∃ s, stage = .settle s ∧ s.odds = odds ∧ s.bet = bet
  | .inr _ => True

namespace Program

open LedgerProgram Settlement

variable {α : Type} {g : Draw} {odds : Odds} {bet : Decimal} {ctx : Context}

theorem may_drawing {r : Request} (hsettles : r.isSettling = true) (hacquire : r ≠ .acquire)
    (hentropy : r ≠ .entropy) (hdata : ∀ d, r ≠ .data d) (hcommit : r ≠ .commit) :
    g.May odds bet r :=
  ⟨.inl hsettles, fun h => (hacquire h).elim, fun h => (hentropy h).elim,
    fun d h => (hdata d h).elim, fun _ h => (hdata _ h).elim, fun h => (hcommit h).elim⟩

theorem may_passing {r : Request} (hr : r.isPassing = true) : g.May odds bet r := by
  cases r
  case clock => exact may_drawing rfl nofun nofun nofun nofun
  case sleep => exact may_drawing rfl nofun nofun nofun nofun
  case emit => exact may_drawing rfl nofun nofun nofun nofun
  all_goals cases hr

theorem may_discard : g.May odds bet .discard :=
  ⟨.inr rfl, nofun, nofun, nofun, nofun, nofun⟩

theorem drawing_probed (odds : Odds) (bet : Decimal) : (drawing odds bet).Probed where
  note g x r call refuse _ _ := by
    refine ⟨may_drawing rfl nofun nofun nofun nofun, fun ps g' hg => ?_, fun _ _ _ h => h⟩
    rw [hg]
    cases g <;> rfl
  sleep g x r call refuse _ _ d :=
    ⟨may_passing rfl, fun a g' hg => hg.trans (Draw.after_passing rfl a), fun _ _ _ h => h⟩
  refuse g x r call refuse hr hmay e := by
    cases r
    case arrive =>
      cases hr
      cases g <;> rfl
    case data d =>
      cases hr
      exact (Draw.after_error d e).symm
    case commit =>
      cases hr
      exact ⟨may_discard, fun a g' hg => hg.trans (by cases g <;> rfl)⟩
    case rollback =>
      cases hr
      exact ⟨may_discard, fun a g' hg => hg.trans (by cases g <;> rfl)⟩
    all_goals cases hr

theorem Passes.drawing {p : Program α} (h : p.Passes) :
    p.Under (drawing odds bet) .outside fun g _ => g = .outside := by
  induction p with
  | done a => rfl
  | crash => trivial
  | ask r k ih =>
    refine ⟨may_passing h.1, fun a g hg => ?_⟩
    rw [hg, Draw.after_passing h.1]
    exact ih a (h.2 a)
  | race c r k ih =>
    refine ⟨may_passing h.1, fun e g hg => ?_, fun a g hg => ?_⟩
    · rw [hg]
      exact ih _ (h.2 _)
    · rw [hg, Draw.after_passing h.1]
      exact ih _ (h.2 _)

theorem Asks.drawing (hg : g.Works) {p : Program α} (h : p.Asks (·.isBalancing = true)) :
    p.Under (drawing odds bet) g fun g' _ => g' = g := by
  induction p with
  | done a => rfl
  | crash => exact h.elim
  | race c r k => exact h.elim
  | ask r k ih =>
    obtain ⟨hr, hk⟩ := h
    refine ⟨?_, fun a g' hg' => ?_⟩
    · cases r
      case data d =>
        refine ⟨.inl rfl, nofun, nofun, fun _ _ => hg, fun w hw => ?_, nofun⟩
        cases hw
        cases hr
      case emit => exact may_passing rfl
      all_goals cases hr
    · rw [hg', Draw.after_balancing hr]
      exact ih a (hk a)

theorem leads_balancing (hg : g.Works) {p : LedgerProgram α} (f : LedgerError → SettlementError)
    (hp : p.run.Asks (·.isBalancing = true)) :
    Leads (drawing odds bet) g (ofLedger p f) (fun g' _ => g' = g) fun _ _ => True := by
  refine leads_ofLedger (Under.mono (hp.drawing hg) fun _ r hg' => ?_)
  cases r with
  | ok a => exact hg'
  | error e => trivial

theorem under_tell {e : Event} {Q : Draw → Unit → Prop} (h : Q g ()) :
    (request (.emit e)).Under (drawing odds bet) g Q := by
  refine ⟨may_passing rfl, fun a g' hg' => ?_⟩
  rw [hg', Draw.after_passing rfl]
  exact h

theorem leads_resolve_drawing (ext : Identifier) :
    Leads (drawing odds bet) .undrawn (Settlement.resolve ext) (fun g _ => g = .undrawn)
      fun _ _ => True := by
  have hmay : Draw.May odds bet .undrawn (.data (.find ext)) :=
    ⟨.inl rfl, nofun, nofun, fun _ _ => trivial, nofun, nofun⟩
  refine leads_bind (leads_ofLedger ⟨hmay, fun a g hg => ?_⟩)
  cases a with
  | error e => trivial
  | ok a =>
    dsimp only
    cases a with
    | none => trivial
    | some a => exact leads_pure hg

theorem leads_payWin_drawing (hg : g.Works) (id : AccountId) (win : Decimal) :
    Leads (drawing odds bet) g (payWin id win) (fun g' _ => g' = g) fun _ _ => True := by
  unfold payWin
  split
  · refine leads_bind (Leads.mono (leads_balancing hg _ (asks_credit id win)) ?_ fun _ _ h => h)
    exact fun g' _ h => leads_pure h
  · exact leads_pure rfl

/-- The spin that is appended has the win of the words that were drawn. -/
theorem leads_apply_drawing (odds : Odds) (ext : Identifier) (bet : Decimal) :
    Leads (drawing odds bet) .undrawn (Settlement.apply odds ext bet)
      (fun g _ => ∃ words win, g = .staged words win ∧
        payout odds bet (odds.spin words).1 = .ok win) fun _ _ => True := by
  refine leads_bind (Leads.mono (leads_resolve_drawing ext) ?_ fun _ _ h => h)
  rintro g a rfl
  refine leads_bind (Leads.mono (leads_balancing (g := .undrawn) trivial _ (asks_debit a.id bet))
    ?_ fun _ _ h => h)
  rintro g _ rfl
  have hdraw : Draw.May odds bet .undrawn .entropy :=
    ⟨.inl rfl, nofun, fun _ => .inr rfl, nofun, nofun, nofun⟩
  refine leads_bind (leads_lift ⟨hdraw, ?_⟩)
  rintro words g rfl
  change Leads _ _ (ExceptT.mk (pure (payout odds bet (odds.spin words).1)) >>= _) _ _
  cases hpaid : payout odds bet (odds.spin words).1 with
  | error e => trivial
  | ok win =>
    refine leads_bind (leads_pure (leads_bind ?_))
    refine Leads.mono (leads_payWin_drawing (g := .drawn words) trivial a.id win) ?_
      fun _ _ h => h
    rintro g _ rfl
    have happend : Draw.May odds bet (.drawn words) (.data (.append ⟨a.id, bet, win⟩)) := by
      refine ⟨.inl rfl, nofun, nofun, fun _ _ => trivial, fun w hw => ?_, nofun⟩
      cases hw
      exact ⟨words, rfl, hpaid⟩
    refine leads_bind (leads_ofLedger ⟨happend, ?_⟩)
    rintro r g rfl
    cases r with
    | error e => trivial
    | ok spin =>
      exact leads_bind (leads_lift (under_tell (leads_pure ⟨words, win, rfl, hpaid⟩)))

theorem leads_checkContext_drawing (hg : ∀ a, g.after (.check ctx) a = g) :
    Leads (drawing odds bet) g (checkContext ctx) (fun g' _ => g' = g) fun g' _ => g' = g := by
  refine leads_bind (leads_lift ⟨may_drawing rfl nofun nofun nofun nofun, fun a g' hg' => ?_⟩)
  change Leads _ g' _ _ _
  rw [hg', hg a]
  cases a with
  | none => exact leads_pure rfl
  | some e => exact leads_throw rfl

theorem leads_against_drawing {p : SpinProgram α} {ok : Draw → α → Prop}
    {err : Draw → SettlementError → Prop} (hpoll : g.after .poll () = g)
    (h : Leads (drawing odds bet) g p ok err) (herr : ∀ e, err .outside e) :
    Leads (drawing odds bet) g (ExceptT.mk (p.run.against ctx)) ok err := by
  refine leads_against (may_drawing rfl nofun nofun nofun nofun) (fun g' hg' => ?_)
    (fun _ _ hmay => hmay) fun g' r e g'' _ hended => ?_
  · rw [hg', hpoll]
    exact h
  · rw [hended]
    exact herr e

theorem leads_begin_drawing : Leads (drawing odds bet) .outside (ofLedger begin .ofLedger)
    (fun g _ => g = .undrawn) fun g _ => g = .outside := by
  refine leads_ofLedger (leads_bind ⟨may_drawing rfl nofun nofun nofun nofun, ?_⟩)
  rintro a g rfl
  cases a with
  | error e => exact rfl
  | ok _ =>
    refine leads_lift ⟨⟨.inl rfl, fun _ => rfl, nofun, nofun, nofun, nofun⟩, ?_⟩
    rintro a g rfl
    rfl

/-- Whatever comes of the work, the attempt ends outside of any transaction. -/
theorem leads_finish_drawing (r : Except SettlementError α)
    (h : ∀ a, r = .ok a → ∃ words win, g = .staged words win ∧
      payout odds bet (odds.spin words).1 = .ok win) :
    Leads (drawing odds bet) g (finish r) (fun g' _ => g' = .outside)
      fun g' _ => g' = .outside := by
  cases r with
  | ok a =>
    refine leads_bind (leads_ofLedger
      ⟨⟨.inl rfl, nofun, nofun, nofun, nofun, fun _ => h a rfl⟩, ?_⟩)
    rintro r g' rfl
    cases r with
    | ok _ => exact leads_pure (by cases g <;> rfl)
    | error e => cases g <;> rfl
  | error e =>
    refine leads_bind (leads_lift (Under.bind ⟨may_drawing rfl nofun nofun nofun nofun, ?_⟩))
    rintro r g' hg'
    have houtside : g' = .outside := hg'.trans (by cases g <;> rfl)
    cases r with
    | ok _ => exact houtside
    | error e' =>
      refine ⟨may_passing rfl, fun _ g'' hg'' => ?_⟩
      rw [hg'', houtside]
      rfl

theorem leads_attempt_drawing (ctx : Context) (odds : Odds) (ext : Identifier) (bet : Decimal)
    (n : UInt32) : Leads (drawing odds bet) .outside (attempt ctx odds ext bet n)
      (fun g _ => g = .outside) fun g _ => g = .outside := by
  have hlook : Leads (drawing odds bet) .outside (checkContext ctx)
      (fun g _ => g = .outside) fun g _ => g = .outside :=
    leads_checkContext_drawing fun _ => rfl
  refine leads_bind (Leads.mono hlook ?_ fun _ _ h => h)
  rintro g _ rfl
  refine leads_bind (Leads.mono (leads_against_drawing rfl leads_begin_drawing fun _ => rfl) ?_
    fun _ _ h => h)
  rintro g _ rfl
  have hwork : Leads (drawing odds bet) .undrawn (applyChecked ctx odds ext bet)
      (fun g _ => ∃ words win, g = .staged words win ∧
        payout odds bet (odds.spin words).1 = .ok win) fun _ _ => True := by
    refine leads_bind (Leads.mono (leads_against_drawing rfl (leads_apply_drawing odds ext bet)
      fun _ => trivial) ?_ fun _ _ h => h)
    rintro g spin ⟨words, win, rfl, hpaid⟩
    refine leads_bind (Leads.mono (leads_checkContext_drawing fun _ => rfl) ?_
      fun _ _ _ => trivial)
    rintro g _ rfl
    exact leads_pure ⟨words, win, rfl, hpaid⟩
  have hend : ∀ (g : Draw) (r : Except SettlementError Spin),
      (∀ a, r = .ok a → ∃ words win, g = .staged words win ∧
        payout odds bet (odds.spin words).1 = .ok win) →
      Leads (drawing odds bet) g (do
        let spin ← finish r
        ExceptT.lift (request (.emit (.attemptCommitted n spin)))
        return spin) (fun g _ => g = .outside) fun g _ => g = .outside := by
    intro g r h
    refine leads_bind (Leads.mono (leads_finish_drawing r h) ?_ fun _ _ h => h)
    rintro g spin rfl
    exact leads_bind (leads_lift (under_tell (leads_pure rfl)))
  refine leads_body (Leads.mono hwork (fun g spin h => hend g (.ok spin) fun _ _ => h) ?_)
  exact fun g e _ => hend g (.error e) nofun

theorem goes_settleRound (r : Except SettlementError Spin) :
    (Session.settleRound (.inr r)).Under (drawing odds bet) g (Draw.Goes odds bet) := by
  cases r with
  | error e => trivial
  | ok spin =>
    change (Session.answer (Session.settled spin)).Under _ _ _
    unfold Session.settled
    split <;> trivial

theorem under_again_drawing (s : Settlement) :
    (s.round.observed >>= Session.settleRound).Under (drawing s.odds s.bet) .outside
      (Draw.Goes s.odds s.bet) := by
  have hattempt := Under.probed (drawing_probed s.odds s.bet)
    (leads_attempt_drawing s.context s.odds s.externalId s.bet s.retry.attempt)
  rw [round_eq]
  refine Under.bind (Under.mono hattempt fun g r hg => ?_)
  obtain rfl : g = .outside := by
    cases r with
    | ok spin => exact hg
    | error e => exact hg
  rw [Settlement.rest]
  refine Under.bind (Under.bind (Under.mono (passes_round s.context s.retry r).drawing ?_))
  rintro g r rfl
  cases r with
  | inl retry => exact ⟨rfl, _, rfl, rfl, rfl⟩
  | inr r =>
    refine Under.bind (Under.mono (passes_report s r).drawing ?_)
    exact fun g _ _ => goes_settleRound r

theorem under_start_drawing (config : Settings) (ctx : Context) (ext : Identifier)
    (bet : Decimal) :
    (Settlement.start config ctx ext bet >>= Session.settleRound).Under (drawing config.odds bet)
      .outside (Draw.Goes config.odds bet) := by
  have hclock : Draw.outside.May config.odds bet .clock := may_passing rfl
  have hentropy : Draw.outside.May config.odds bet .entropy :=
    ⟨.inl rfl, nofun, fun _ => .inl rfl, nofun, nofun, nofun⟩
  refine Under.bind ?_
  unfold Settlement.start
  split
  · refine Under.bind ⟨hclock, ?_⟩
    rintro started g rfl
    refine Under.bind (Under.bind ⟨hclock, ?_⟩)
    rintro now g rfl
    refine Under.bind ⟨hentropy, ?_⟩
    rintro words g rfl
    exact ⟨rfl, _, rfl, rfl, rfl⟩
  · exact goes_settleRound _

end Program

end WagerLedger

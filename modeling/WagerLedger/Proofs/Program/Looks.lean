import WagerLedger.Interleaving
import WagerLedger.Proofs.Program.Watch
import WagerLedger.Proofs.World.Contexts
import WagerLedger.Session.Rounds

/-! # Looking at the context

A settlement looks at its context before each attempt and its work, when it goes on after it has
waited, and once more when the work is done. It commits right after a look that found the
context open, and once a look has found it over it only rolls back and tells of it, with the
error that it found. -/
namespace WagerLedger

def Request.isCheck : Request → Bool
  | .check _ => true
  | _ => false

def Request.isNote : Request → Bool
  | .note _ => true
  | _ => false

/-- What can be answered where nobody holds up or refuses calls. -/
def Request.CanAnswer : (r : Request) → r.Answer → Prop
  | .note _, ps => ps = []
  | .check _, a => ∀ e ∈ a, e.isOver = true
  | _, _ => True

theorem World.canAnswer {w : World} (hw : w.probes = []) {i : ClientId} {r : Request} {a : r.Answer}
    (ha : (w.perform i r).1 = some a) : r.CanAnswer a := by
  cases r
  case note call =>
    cases ha
    change w.probes.filter _ = []
    rw [hw]
    rfl
  case check ctx =>
    cases ha
    exact fun e he => World.isOver_of_look he
  all_goals trivial

/-- What the last look has found, if nothing but notes came after it. -/
inductive Look
  | unseen
  | clear
  | ended (e : SettlementError)

namespace Look

def Calm : Look → Prop
  | .ended _ => False
  | _ => True

/-- An error is the one that was found, or none of the context. -/
structure Tells (g : Look) (e : SettlementError) : Prop where
  ended : e.isOver = true → g = .ended e
  calm : e.isOver = false → g.Calm

def after : Look → (r : Request) → r.Answer → Look
  | .ended e, _, _ => .ended e
  | _, .check _, none => .clear
  | _, .check _, some e => .ended e
  | g, .note _, _ => g
  | _, _, _ => .unseen

structure May (ctx : Context) (g : Look) (raced : Option Context) (r : Request) : Prop where
  settles : r.isSettling = true
  raced : ∀ c ∈ raced, c = ctx
  checks : ∀ c, r = .check c → c = ctx
  commits : r = .commit → g = .clear
  waits : g = .clear → r.suspends = false
  closing : ∀ e, g = .ended e → r.isClosing = true

variable {g : Look} {e : SettlementError} {r : Request}

theorem tells_over (he : e.isOver = true) : (Look.ended e).Tells e :=
  ⟨fun _ => rfl, fun h => nomatch he.symm.trans h⟩

theorem Calm.tells (h : g.Calm) (he : e.isOver = false) : g.Tells e :=
  ⟨fun h' => absurd (he.symm.trans h') Bool.false_ne_true, fun _ => h⟩

theorem Calm.after (h : g.Calm) (hr : r.isCheck = false) (a : r.Answer) : (g.after r a).Calm := by
  cases g with
  | ended e => exact h.elim
  | unseen => cases r <;> trivial
  | clear => cases r <;> trivial

theorem over_of_after (hr : r.isCheck = false) {a : r.Answer} (h : g.after r a = .ended e) :
    g = .ended e := by
  have hcalm : ¬g.Calm := fun hg => by
    have hafter := hg.after hr a
    rw [h] at hafter
    exact hafter
  cases g with
  | ended e' => exact h
  | unseen => exact (hcalm trivial).elim
  | clear => exact (hcalm trivial).elim

theorem Tells.after (h : g.Tells e) (hr : r.isCheck = false) (a : r.Answer) :
    (g.after r a).Tells e := by
  refine ⟨fun he => ?_, fun he => (h.calm he).after hr a⟩
  rw [h.ended he]
  rfl

/-- Only notes keep a look in mind. -/
theorem Calm.forgets (h : g.Calm) (hr : r.isCheck = false) (hn : r.isNote = false)
    (a : r.Answer) : g.after r a = .unseen := by
  cases g with
  | ended e => exact h.elim
  | unseen => cases r <;> first | rfl | contradiction
  | clear => cases r <;> first | rfl | contradiction

def Kept (S : Look → Prop) : Prop :=
  ∀ (g : Look) (r : Request), S g → r.isCheck = false → ∀ a, S (g.after r a)

theorem calm_kept : Kept Calm := fun _ _ h hr a => h.after hr a

theorem unseen_kept : Kept (· = .unseen) := by
  rintro g r rfl hr a
  cases r <;> first | rfl | cases hr

theorem tells_kept (e : SettlementError) : Kept (Tells · e) := fun _ _ h hr a => h.after hr a

theorem after_note (g : Look) (call : StoreCall) (ps : List Probe) : g.after (.note call) ps = g := by
  cases g <;> rfl

end Look

def looks (ctx : Context) : Watch where
  State := Look
  may := Look.May ctx
  next g r a g' := r.CanAnswer a ∧ g' = g.after r a
  ended _ _ _ e g' := e.isOver = true ∧ g' = .ended e
  idle
    | .ended e => .ended e
    | _ => .unseen
  breaks _ := True

theorem looks_unprobed (ctx : Context) : (looks ctx).Unprobed := by
  intro g x r call refuse hr hmay
  refine ⟨⟨rfl, hmay.raced, nofun, nofun, fun _ => rfl, fun _ _ => rfl⟩, fun ps g' hg => ?_,
    fun _ _ _ h => h⟩
  exact ⟨hg.1, hg.2.trans (g.after_note call ps)⟩

theorem looks_races (ctx : Context) (g : Look) (r : Request) (h : (looks ctx).may g none r) :
    (looks ctx).may g (some ctx) r :=
  ⟨h.settles, fun _ hc => (Option.some.inj hc).symm, h.checks, h.commits, h.waits, h.closing⟩

def Look.Ends {σ α : Type} (g : Look) : σ ⊕ Except SettlementError α → Prop
  | .inr (.error e) => g.Tells e
  | _ => g.Calm

def Look.Goes (ctx : Context) (g : Look) : Stage ⊕ Reply → Prop
  | .inl stage => g.Calm ∧ ∃ s, stage = .settle s ∧ s.context = ctx
  | .inr r => ∀ e, r = .settlementError e → g.Tells e

namespace Program

open LedgerProgram Settlement

variable {α : Type} {ctx : Context} {g : Look}

theorem may_booking (hg : g.Calm) {r : Request} (hr : r.isBooking = true) :
    (looks ctx).may g none r where
  settles := r.isSettling_of_isBooking hr
  raced _ h := nomatch h
  checks c h := by
    rw [h] at hr
    cases hr
  commits h := by
    rw [h] at hr
    cases hr
  waits _ := by
    cases r <;> first | rfl | cases hr
  closing e h := by
    rw [h] at hg
    exact hg.elim

theorem may_closing {r : Request} (hr : r.isClosing = true) : (looks ctx).may g none r where
  settles := r.isSettling_of_isClosing hr
  raced _ h := nomatch h
  checks c h := by
    rw [h] at hr
    cases hr
  commits h := by
    rw [h] at hr
    cases hr
  waits _ := by
    cases r <;> first | rfl | cases hr
  closing _ _ := hr

theorem under_booking (hg : g.Calm) {p : Program α} (hp : p.Asks (·.isBooking = true)) :
    p.Under (looks ctx) g fun g' _ => Look.Calm g' := by
  induction p generalizing g with
  | done a => exact hg
  | crash => exact hp.elim
  | race c r k => exact hp.elim
  | ask r k ih =>
    obtain ⟨hr, hk⟩ := hp
    refine ⟨may_booking hg hr, fun a g' hg' => ih a ?_ (hk a)⟩
    obtain ⟨-, rfl⟩ := hg'
    refine hg.after ?_ a
    cases r <;> first | rfl | cases hr

theorem leads_booking {p : LedgerProgram α} {f : LedgerError → SettlementError} (hg : g.Calm)
    (hp : p.run.Asks (·.isBooking = true)) (hf : ∀ e, (f e).isOver = false) :
    Leads (looks ctx) g (ofLedger p f) (fun g' _ => Look.Calm g') Look.Tells := by
  refine leads_ofLedger (Under.mono (under_booking hg hp) fun g' r hg' => ?_)
  cases r with
  | ok a => exact hg'
  | error e => exact Look.Calm.tells hg' (hf e)

theorem under_closing {S : Look → Prop} (hS : Look.Kept S) (hg : S g) {r : Request}
    (hr : r.isClosing = true) : (request r).Under (looks ctx) g fun g' _ => S g' := by
  refine ⟨may_closing hr, fun a g' hg' => ?_⟩
  obtain ⟨-, rfl⟩ := hg'
  refine hS g r hg ?_ a
  cases r <;> first | rfl | cases hr

theorem leads_checkContext {ok : Look → Unit → Prop} {err : Look → SettlementError → Prop}
    (hg : g.Calm) (hok : ok .clear ()) (herr : ∀ e, e.isOver = true → err (.ended e) e) :
    Leads (looks ctx) g (checkContext ctx) ok err := by
  have hmay : (looks ctx).may g none (.check ctx) := by
    refine ⟨rfl, nofun, fun c hc => ?_, nofun, fun _ => rfl, fun e he => ?_⟩
    · cases hc
      rfl
    · rw [he] at hg
      exact hg.elim
  refine leads_bind (leads_lift ⟨hmay, fun a g' hg' => ?_⟩)
  obtain ⟨ha, rfl⟩ := hg'
  have hafter : ∀ a, g.after (.check ctx) a = match a with
      | none => .clear
      | some e => .ended e := by
    intro a
    cases g with
    | ended e => exact hg.elim
    | unseen => cases a <;> rfl
    | clear => cases a <;> rfl
  change Leads (looks ctx) (g.after (.check ctx) a) _ ok err
  rw [hafter]
  cases a with
  | none => exact leads_pure hok
  | some e => exact leads_throw (herr e (ha e rfl))

theorem may_wait {r : Request} (hr : r.isSettling = true) (hwait : r.suspends = true) :
    (looks ctx).may .unseen none r where
  settles := hr
  raced _ h := nomatch h
  checks c h := by
    rw [h] at hwait
    cases hwait
  commits h := by
    rw [h] at hwait
    cases hwait
  waits h := nomatch h
  closing _ h := nomatch h

theorem leads_begin (hg : g.Calm) : Leads (looks ctx) g (ofLedger begin .ofLedger)
    (fun g' _ => Look.Calm g') Look.Tells := by
  have hmay : (looks ctx).may g none .arrive := by
    refine ⟨rfl, nofun, nofun, nofun, fun _ => rfl, fun e he => ?_⟩
    rw [he] at hg
    exact hg.elim
  refine leads_ofLedger (leads_bind ⟨hmay, fun a g' hg' => ?_⟩)
  obtain ⟨-, rfl⟩ := hg'
  have hafter := hg.forgets rfl rfl a
  have hcalm : Look.Calm .unseen := trivial
  cases a with
  | error e =>
    rw [hafter]
    exact hcalm.tells (SettlementError.isOver_ofLedger e)
  | ok _ =>
    rw [hafter]
    refine leads_lift ⟨may_wait rfl rfl, fun a g' hg' => ?_⟩
    obtain ⟨-, rfl⟩ := hg'
    exact hcalm.after rfl a

theorem leads_against_looks {p : SpinProgram α} {ok : Look → α → Prop} (hg : g.Calm)
    (h : Leads (looks ctx) .unseen p ok Look.Tells) :
    Leads (looks ctx) g (ExceptT.mk (p.run.against ctx)) ok Look.Tells := by
  have hmay : (looks ctx).may g none .poll := by
    refine ⟨rfl, nofun, nofun, nofun, fun _ => rfl, fun e he => ?_⟩
    rw [he] at hg
    exact hg.elim
  refine leads_against hmay (fun g' hg' => ?_) (looks_races ctx) fun g' r e g'' _ hover => ?_
  · obtain ⟨-, rfl⟩ := hg'
    rw [hg.forgets rfl rfl]
    exact h
  · obtain ⟨he, rfl⟩ := hover
    exact Look.tells_over he

theorem leads_on {β : Type} {p : SpinProgram α} {f : α → SpinProgram β} {ok : Look → β → Prop}
    (hp : Leads (looks ctx) g p (fun g' _ => Look.Calm g') Look.Tells)
    (hf : ∀ g' a, g'.Calm → Leads (looks ctx) g' (f a) ok Look.Tells) :
    Leads (looks ctx) g (p >>= f) ok Look.Tells :=
  leads_bind (hp.mono hf fun _ _ h => h)

theorem asks_booking {p : Program α} (hp : p.Asks (·.isBalancing = true)) :
    p.Asks (·.isBooking = true) :=
  hp.mono fun _ => Request.isBooking_of_isBalancing

theorem leads_payWin (hg : g.Calm) (id : AccountId) (win : Decimal) :
    Leads (looks ctx) g (payWin id win) (fun g' _ => Look.Calm g') Look.Tells := by
  unfold payWin
  split
  · exact leads_on (leads_booking hg (asks_booking (asks_credit id win)) fun _ => rfl)
      fun _ _ h => leads_pure h
  · exact leads_pure hg

theorem leads_apply (hg : g.Calm) (odds : Odds) (ext : Identifier) (bet : Decimal) :
    Leads (looks ctx) g (Settlement.apply odds ext bet) (fun g' _ => Look.Calm g') Look.Tells := by
  have hledger := SettlementError.isOver_ofLedger
  have hlift : ∀ (g : Look) (r : Request), g.Calm → r.isBooking = true →
      Leads (ε := SettlementError) (looks ctx) g (ExceptT.lift (Program.request r))
        (fun g' _ => Look.Calm g') Look.Tells :=
    fun g r hg hr => leads_lift (under_booking hg (asks_request hr))
  refine leads_on (leads_on (leads_booking hg (asks_request rfl) hledger) fun g a hg => ?_) ?_
  · split
    · exact leads_pure hg
    · exact leads_throw (hg.tells rfl)
  intro g a hg
  refine leads_on (leads_booking hg (asks_booking (asks_debit a.id bet)) hledger) fun g _ hg => ?_
  refine leads_on (hlift g .entropy hg rfl) fun g words hg => ?_
  refine leads_on (g := g) (p := ExceptT.mk (pure (payout odds bet (odds.spin words).1))) ?_ ?_
  · unfold payout
    split
    · exact leads_pure hg
    · exact leads_throw (hg.tells rfl)
  intro g win hg
  refine leads_on (leads_payWin hg a.id win) fun g _ hg => ?_
  refine leads_on (leads_booking hg (asks_request rfl) hledger) fun g spin hg => ?_
  exact leads_on (hlift g _ hg rfl) fun g _ hg => leads_pure hg

theorem under_rollBack {e : SettlementError} (hg : g.Tells e) (cause : String) :
    (rollBack cause).Under (looks ctx) g fun g' _ => Look.Tells g' e := by
  refine Under.bind (Under.mono (under_closing (Look.tells_kept e) hg rfl) fun g a hg => ?_)
  cases a with
  | ok _ => exact hg
  | error e' => exact under_closing (Look.tells_kept e) hg rfl

theorem leads_finish_ok (a : α) : Leads (looks ctx) .clear (finish (.ok a))
    (fun g' _ => Look.Calm g') Look.Tells := by
  have hmay : (looks ctx).may .clear none .commit :=
    ⟨rfl, nofun, nofun, fun _ => rfl, fun _ => rfl, nofun⟩
  refine leads_on (leads_ofLedger ⟨hmay, fun r g' hg' => ?_⟩) fun g _ hg => leads_pure hg
  obtain ⟨-, rfl⟩ := hg'
  cases r with
  | ok _ => trivial
  | error e =>
    have hcalm : Look.Calm .unseen := trivial
    exact hcalm.tells (SettlementError.isOver_ofLedger e)

theorem leads_finish_error {e : SettlementError} (hg : g.Tells e) {ok : Look → α → Prop} :
    Leads (looks ctx) g (finish (.error e)) ok Look.Tells :=
  leads_bind (leads_lift (Under.mono (under_rollBack hg e.message) fun _ _ h => leads_throw h))

theorem leads_look (hg : g.Calm) :
    Leads (looks ctx) g (checkContext ctx) (fun g' _ => g' = Look.clear) Look.Tells :=
  leads_checkContext hg rfl fun _ he => Look.tells_over he

theorem leads_applyChecked (hg : g.Calm) (odds : Odds) (ext : Identifier) (bet : Decimal) :
    Leads (looks ctx) g (applyChecked ctx odds ext bet) (fun g' _ => g' = Look.clear)
      Look.Tells := by
  refine leads_on (leads_against_looks hg (leads_apply (g := .unseen) trivial odds ext bet))
    fun g spin hg => ?_
  exact leads_bind (Leads.mono (leads_look hg) (fun _ _ h => leads_pure h) fun _ _ h => h)

theorem leads_attempt (hg : g.Calm) (odds : Odds) (ext : Identifier) (bet : Decimal)
    (n : UInt32) :
    Leads (looks ctx) g (attempt ctx odds ext bet n) (fun g' _ => Look.Calm g') Look.Tells := by
  refine leads_on (Leads.mono (leads_look hg) (fun g _ h => ?_) fun _ _ h => h) fun g _ hg => ?_
  · rw [h]
    trivial
  refine leads_on (leads_against_looks hg (leads_begin (g := .unseen) trivial)) fun g _ hg => ?_
  refine leads_body (Leads.mono (leads_applyChecked hg odds ext bet) (fun g spin h => ?_) ?_)
  · rw [h]
    refine leads_on (leads_finish_ok spin) fun g spin hg => ?_
    refine leads_on (leads_lift ?_) fun g _ hg => leads_pure hg
    exact under_booking hg (asks_request rfl)
  · exact fun g e h => leads_bind (leads_finish_error h)

theorem under_elapsedSince {S : Look → Prop} (hS : Look.Kept S) (hg : S g) (started : Nat) :
    (Retry.elapsedSince started).Under (looks ctx) g fun g' _ => S g' :=
  Under.bind (under_closing hS hg rfl)

theorem under_pause (delay : Duration) :
    Leads (looks ctx) .unseen (Retry.pause ctx delay) (fun g' _ => Look.Calm g') Look.Tells := by
  have hcalm : Look.Calm .unseen := trivial
  have hsleep : Leads (looks ctx) .unseen (ExceptT.mk (Except.ok <$> request (.sleep delay)))
      (fun g' _ => Look.Calm g') Look.Tells := by
    refine Under.map ⟨may_wait rfl rfl, fun a g' hg' => ?_⟩
    obtain ⟨-, rfl⟩ := hg'
    exact hcalm.after rfl a
  refine Under.raced hsleep (looks_races ctx) fun g' r e g'' _ hover => ?_
  obtain ⟨he, rfl⟩ := hover
  exact Look.tells_over he

theorem under_afterFailure (hg : g.Calm) (s : Retry) {e : SettlementError}
    (he : e.isOver = false) :
    (Retry.afterFailure (α := α) ctx s e).Under (looks ctx) g Look.Ends := by
  have hcalm : Look.Calm .unseen := trivial
  refine Under.bind (Under.bind ⟨may_closing rfl, fun now g' hg' => ?_⟩)
  obtain ⟨-, rfl⟩ := hg'
  rw [hg.forgets rfl rfl now]
  dsimp only [pure, Under]
  split
  · trivial
  · refine Under.bind (Under.mono (under_elapsedSince Look.unseen_kept rfl s.started) ?_)
    rintro g told rfl
    refine Under.bind (Under.mono (under_closing Look.unseen_kept rfl rfl) ?_)
    rintro g - rfl
    exact hcalm.tells he
  · refine Under.bind (Under.mono (under_closing Look.unseen_kept rfl rfl) ?_)
    rintro g - rfl
    refine Under.bind (Under.mono (under_pause _) fun g r h => ?_)
    cases r with
    | ok _ =>
      dsimp only
      split
      · exact h
      · trivial
    | error e' => exact h

theorem under_retryRound (s : Retry) {op : UInt32 → SpinProgram α}
    (hop : ∀ n, Leads (looks ctx) g (op n) (fun g' _ => Look.Calm g') Look.Tells) :
    (s.round ctx op).Under (looks ctx) g Look.Ends := by
  refine Under.bind (Under.mono (hop s.attempt) fun g r h => ?_)
  cases r with
  | error e =>
    dsimp only
    split
    · rename_i he
      have hover : e.isOver = false := by
        cases e <;> first | rfl | cases he
      exact under_afterFailure (h.calm hover) s hover
    · exact h
  | ok a =>
    dsimp only
    split
    · have hg : Look.Calm g := h
      refine Under.bind (Under.mono (under_elapsedSince Look.calm_kept hg s.started) ?_)
      intro g elapsed hg
      exact Under.bind (under_closing Look.calm_kept hg rfl)
    · exact h

theorem under_report {S : Look → Prop} (hS : Look.Kept S) (hg : S g) (s : Settlement)
    (r : Except SettlementError Spin) : (s.report r).Under (looks ctx) g fun g' _ => S g' := by
  refine Under.bind (Under.mono (under_elapsedSince hS hg s.started) fun g elapsed hg => ?_)
  cases r with
  | ok spin => exact under_closing hS hg rfl
  | error e => exact under_closing hS hg rfl

theorem under_settleRound {r : Settlement ⊕ Except SettlementError Spin} (hr : g.Ends r)
    (hs : ∀ s, r = .inl s → s.context = ctx) :
    (Session.settleRound r).Under (looks ctx) g (Look.Goes ctx) := by
  cases r with
  | inl s => exact ⟨hr, s, rfl, hs s rfl⟩
  | inr r =>
    cases r with
    | ok spin =>
      change (Session.answer (Session.settled spin)).Under (looks ctx) g (Look.Goes ctx)
      unfold Session.settled
      split
      · exact fun e he => nomatch he
      · trivial
    | error e =>
      rintro e' he
      cases he
      exact hr

theorem under_again (hg : g.Calm) (s : Settlement) :
    (s.round.observed >>= Session.settleRound).Under (looks s.context) g (Look.Goes s.context) := by
  refine Under.bind (Under.observed (looks_unprobed s.context) ?_)
  refine Under.bind (Under.mono (under_retryRound s.retry fun n =>
    leads_attempt hg s.odds s.externalId s.bet n) fun g r h => ?_)
  cases r with
  | inl retry =>
    refine under_settleRound (r := .inl { s with retry := retry }) h fun s' hs => ?_
    cases hs
    rfl
  | inr r =>
    cases r with
    | ok spin =>
      refine Under.bind (Under.mono (under_report Look.calm_kept h s _) fun g _ hg => ?_)
      exact under_settleRound (r := .inr (.ok spin)) hg fun _ h => by cases h
    | error e =>
      refine Under.bind (Under.mono (under_report (Look.tells_kept e) h s _) fun g _ hg => ?_)
      exact under_settleRound (r := .inr (.error e)) hg fun _ h => by cases h

theorem under_start (hg : g.Calm) (config : Settings) (ext : Identifier) (bet : Decimal) :
    (Settlement.start config ctx ext bet >>= Session.settleRound).Under (looks ctx) g
      (Look.Goes ctx) := by
  refine Under.bind ?_
  unfold Settlement.start
  split
  · refine Under.bind (Under.mono (under_closing Look.calm_kept hg rfl) fun g started hg => ?_)
    refine Under.bind (Under.bind (Under.mono (under_closing Look.calm_kept hg rfl) ?_))
    intro g started' hg
    refine Under.bind (Under.mono (under_booking hg (asks_request rfl)) fun g words hg => ?_)
    refine under_settleRound
      (r := .inl ⟨ctx, ext, bet, config.odds, started, 1, started', .start config.retry, words⟩)
      hg fun s hs => ?_
    cases hs
    rfl
  · have htells : g.Tells (.invalidBet bet) := hg.tells rfl
    exact under_settleRound (r := .inr (.error _)) htells fun _ h => by cases h

theorem over_of_answer? {q : Program (Stage ⊕ Reply)} (h : q.Under (looks ctx) g (Look.Goes ctx))
    (clock : Nat) {e : SettlementError} (ha : q.answer? clock = some (.settlementError e))
    (he : e.isOver = true) : g = .ended e := by
  induction q generalizing g with
  | done a =>
    cases a with
    | inl stage => cases ha
    | inr r =>
      cases ha
      exact (h e rfl).ended he
  | crash => cases ha
  | race c r k => cases ha
  | ask r k ih =>
    cases r
    case emit ev => exact Look.over_of_after rfl (ih () (h.2 () _ ⟨trivial, rfl⟩) ha)
    case clock => exact Look.over_of_after rfl (ih clock (h.2 clock _ ⟨trivial, rfl⟩) ha)
    case discard => exact Look.over_of_after rfl (ih () (h.2 () _ ⟨trivial, rfl⟩) ha)
    all_goals cases ha

end Program

def Request.FindsOver : (r : Request) → r.Answer → Prop
  | .check _, a => ∃ e, a = some e ∧ e.isOver = true
  | _, _ => True

/-- So many steps are left before the answer, and none of them is for the store. -/
def declines (ctx : Context) : Watch where
  State := Nat
  may m raced r := raced = none ∧
    (r = .clock ∨ (∃ e, r = .emit e) ∨ (0 < m ∧ (r = .entropy ∨ r = .check ctx)))
  next m r a m' := r.FindsOver a ∧ m' = m - 1
  ended _ _ _ _ _ := False
  idle m := m - 1
  breaks _ := False

theorem declines_unprobed (ctx : Context) : (declines ctx).Unprobed := by
  rintro g x r call refuse hr ⟨-, rfl | ⟨e, rfl⟩ | ⟨-, rfl | rfl⟩⟩
  all_goals cases hr

/-- One more round is to come, and there are steps left for it; or the error of the context is
the answer. -/
def Declined (ctx : Context) (m : Nat) : Stage ⊕ Reply → Prop
  | .inl stage => 2 ≤ m ∧ ∃ s, stage = .settle s ∧ s.context = ctx
  | .inr r => ∃ e, r = .settlementError e ∧ e.isOver = true

namespace Program

open Settlement

variable {ctx : Context} {m : Nat}

theorem answer?_of_declined {q : Program (Stage ⊕ Reply)}
    (h : q.Under (declines ctx) (0 : Nat) (Declined ctx)) (clock : Nat) :
    ∃ e, q.answer? clock = some (.settlementError e) ∧ e.isOver = true := by
  induction q with
  | done a =>
    cases a with
    | inl stage => exact absurd h.1 (by decide)
    | inr r =>
      obtain ⟨e, rfl, he⟩ := h
      exact ⟨e, rfl, he⟩
  | crash => exact h.elim
  | race c r k => exact nomatch h.1.1
  | ask r k ih =>
    obtain ⟨⟨-, rfl | ⟨e, rfl⟩ | ⟨hlt, -⟩⟩, hk⟩ := h
    · exact ih clock (hk clock (0 : Nat) ⟨trivial, rfl⟩)
    · exact ih () (hk () (0 : Nat) ⟨trivial, rfl⟩)
    · exact absurd hlt (Nat.lt_irrefl 0)

theorem declines_clock {Q : Nat → Nat → Prop} (h : ∀ now, Q (m - 1) now) :
    (request .clock).Under (declines ctx) m Q := by
  refine ⟨⟨rfl, .inl rfl⟩, fun now m' hm => ?_⟩
  obtain ⟨-, rfl⟩ := hm
  exact h now

theorem declines_attempt (hm : 0 < m) (odds : Odds) (ext : Identifier) (bet : Decimal)
    (n : UInt32) : Leads (declines ctx) m (attempt ctx odds ext bet n) (fun _ _ => False)
      fun _ e => e.isOver = true := by
  refine leads_bind (leads_bind (leads_lift ⟨⟨rfl, .inr (.inr ⟨hm, .inr rfl⟩)⟩, ?_⟩))
  rintro a m' ⟨⟨e, rfl, he⟩, -⟩
  exact he

theorem declines_again (hm : 0 < m) (s : Settlement) :
    (s.round.observed >>= Session.settleRound).Under (declines s.context) m
      (Declined s.context) := by
  refine Under.bind (Under.observed (declines_unprobed s.context) (Under.bind (Under.bind ?_)))
  refine Under.mono (declines_attempt hm s.odds s.externalId s.bet s.retry.attempt) fun m r h => ?_
  cases r with
  | ok spin => exact h.elim
  | error e =>
    have hfinal : e.isRecoverable = false := by
      cases e <;> first | rfl | cases h
    dsimp only
    rw [hfinal]
    refine Under.bind (Under.bind (declines_clock fun now => ?_))
    refine ⟨⟨rfl, .inr (.inl ⟨_, rfl⟩)⟩, fun _ m' _ => ?_⟩
    exact ⟨e, rfl, h⟩

theorem declines_start (config : Settings) (ext : Identifier) {bet : Decimal}
    (hbet : acceptsBet bet = true) :
    (Settlement.start config ctx ext bet >>= Session.settleRound).Under (declines ctx) (5 : Nat)
      (Declined ctx) := by
  unfold Settlement.start
  rw [if_pos hbet]
  refine Under.bind (Under.bind (declines_clock fun started => ?_))
  refine Under.bind (Under.bind (declines_clock fun started' => ?_))
  refine Under.bind ⟨⟨rfl, .inr (.inr ⟨by decide, .inl rfl⟩)⟩, fun words m' hm' => ?_⟩
  obtain ⟨-, rfl⟩ := hm'
  exact ⟨Nat.le_refl 2, _, rfl, rfl⟩

end Program

end WagerLedger

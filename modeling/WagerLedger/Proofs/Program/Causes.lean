import WagerLedger.Proofs.Program.Changing
import WagerLedger.Proofs.Program.Reads
import WagerLedger.Proofs.Program.Settling

/-! # Why an attempt fails

Beside what an attempt has read of the ledger it is kept in mind which errors its calls have
ended with, and whether it was about to write a balance. Then each error of an attempt has its
cause there: the context, a call that failed, or the ledger that was read, by way of the debit,
the payout or the credit. -/
namespace WagerLedger

def errorOf? {α : Type} : Except LedgerError α → Option LedgerError
  | .error e => some e
  | .ok _ => none

theorem errorOf?_eq_some {α : Type} {a : Except LedgerError α} {e : LedgerError}
    (h : errorOf? a = some e) : a = .error e := by
  cases a <;> cases h
  rfl

def Request.failure? : (r : Request) → r.Answer → Option LedgerError
  | .arrive, a | .commit, a | .rollback, a | .data _, a => errorOf? a
  | _, _ => none

/-- The point at which a call on the store can hit an injected fault. -/
def Request.point? : Request → Option FaultPoint
  | .arrive => some .begin
  | .data c => c.point?
  | .commit => some .commit
  | .rollback => some .rollback
  | _ => none

def Request.isWrite : Request → Bool
  | .data (.writeBalance ..) => true
  | _ => false

/-- What is kept in mind of the calls made so far. -/
structure Marks where
  failures : List LedgerError
  wrote : Bool

namespace Marks

def after (m : Marks) (r : Request) (a : r.Answer) : Marks :=
  ⟨(r.failure? a).toList ++ m.failures, r.isWrite || m.wrote⟩

/-- Later marks, without a write in between. -/
structure Keeps (m m' : Marks) : Prop where
  failures : m.failures ⊆ m'.failures
  wrote : m'.wrote = m.wrote

variable {m : Marks} {r : Request} {a : r.Answer} {e : LedgerError}

theorem keeps_after (hr : r.isWrite = false) : m.Keeps (m.after r a) := by
  refine ⟨List.subset_append_right _ _, ?_⟩
  rw [after, hr, Bool.false_or]

theorem mem_after (h : r.failure? a = some e) : e ∈ (m.after r a).failures := by
  rw [after, h]
  exact List.mem_append_left _ (List.mem_singleton_self e)

end Marks

def marks : Watch where
  State := Marks
  may _ _ _ := True
  next m r a m' := m' = m.after r a
  ended _ _ _ _ _ := True
  idle m := m
  breaks _ := True

def audit : Watch := reads.both marks

theorem audit_unprobed : audit.Unprobed := by
  intro g x r call refuse hr hmay
  obtain ⟨hnote, hsame, hended⟩ := reads_unprobed g.1 x r call refuse hr hmay.1
  refine ⟨⟨hnote, trivial⟩, fun ps g' hg => ?_, fun c e g' hg => ⟨hended c e g'.1 hg.1, trivial⟩⟩
  obtain ⟨rfl, hfst⟩ := hsame ps g'.1 hg.1
  exact ⟨rfl, Prod.ext hfst hg.2⟩

/-- Why an attempt fails that bets on an account of the ledger it has read. -/
inductive Causes (odds : Odds) (ext : Identifier) (bet : Decimal) (g : Reading × Marks) :
    SettlementError → Prop
  | ended {e : SettlementError} (isOver : e.isOver = true) : Causes odds ext bet g e
  | struck {p : FaultPoint} (failed : Faults.error p ∈ g.2.failures) :
      Causes odds ext bet g (.storage (Faults.error p))
  | unknown {l : Ledger} (saw : g.1.saw? = some l) (missing : l.find? ext = none) :
      Causes odds ext bet g (.accountNotFound ext)
  | refused {l : Ledger} {a : Account} {e : LedgerError} (saw : g.1.saw? = some l)
      (found : l.find? ext = some a) (unwritten : g.2.wrote = false)
      (debit : adjusted bet.neg a.balance = .error e) : Causes odds ext bet g (.ofLedger e)
  | unpaid {l : Ledger} {a : Account} {between : Decimal} {o : Outcome} (saw : g.1.saw? = some l)
      (found : l.find? ext = some a) (debit : adjusted bet.neg a.balance = .ok between)
      (lost : odds.win? bet o = none) : Causes odds ext bet g (.payoutOverflow bet (o.multiplier odds))
  | stuck {l : Ledger} {a : Account} {between win : Decimal} {o : Outcome} {e : LedgerError}
      (saw : g.1.saw? = some l) (found : l.find? ext = some a)
      (debit : adjusted bet.neg a.balance = .ok between)
      (drawn : Settlement.payout odds bet o = .ok win) (positive : win.isPositive = true)
      (credit : adjusted win between = .error e) : Causes odds ext bet g (.storage e)

theorem Causes.keeps {odds : Odds} {ext : Identifier} {bet : Decimal} {g g' : Reading × Marks}
    {e : SettlementError} (h : Causes odds ext bet g e) (hsaw : g'.1.saw? = g.1.saw?)
    (hkeeps : g.2.Keeps g'.2) : Causes odds ext bet g' e := by
  cases h with
  | ended isOver => exact .ended isOver
  | struck failed => exact .struck (hkeeps.failures failed)
  | unknown saw missing => exact .unknown (hsaw.trans saw) missing
  | refused saw found unwritten debit =>
    exact .refused (hsaw.trans saw) found (hkeeps.wrote.trans unwritten) debit
  | unpaid saw found debit lost => exact .unpaid (hsaw.trans saw) found debit lost
  | stuck saw found debit drawn positive credit =>
    exact .stuck (hsaw.trans saw) found debit drawn positive credit

theorem Causes.unwritten {odds : Odds} {ext : Identifier} {bet : Decimal} {g : Reading × Marks}
    {e : SettlementError} (h : Causes odds ext bet g e) (he : e.isRecoverable = true) :
    g.2.wrote = false := by
  cases h with
  | ended isOver =>
    exact absurd ((Program.final_of_isOver isOver).symm.trans he) Bool.false_ne_true
  | refused saw found unwritten debit => exact unwritten
  | struck failed => cases he
  | unknown saw missing => cases he
  | unpaid saw found debit lost => cases he
  | stuck saw found debit drawn positive credit => cases he

theorem Causes.short {odds : Odds} {ext : Identifier} {bet : Decimal} {g : Reading × Marks}
    {e : SettlementError} (h : Causes odds ext bet g e) : Short ext bet g.1 e := by
  intro available required heq
  cases h with
  | ended isOver =>
    rw [heq] at isOver
    cases isOver
  | refused saw found unwritten debit =>
    rw [Program.ofLedger_insufficientFunds heq] at debit
    obtain ⟨rfl, rfl, hlt⟩ := lacking_of_adjusted_neg debit
    exact ⟨rfl, hlt, _, _, saw, found, rfl⟩
  | struck failed => cases heq
  | unknown saw missing => cases heq
  | unpaid saw found debit lost => cases heq
  | stuck saw found debit drawn positive credit => cases heq

namespace Program

open LedgerProgram Settlement

variable {α : Type} {g : audit.State} {l : Ledger} {t : Transaction} {m : Marks}
  {ext : Identifier} {bet : Decimal} {odds : Odds} {ctx : Context}

theorem under_emit_audit {e : Event} {Q : audit.State → Unit → Prop} (h : Q g ()) :
    (request (.emit e)).Under audit g Q := by
  refine ⟨⟨⟨rfl, nofun, nofun⟩, trivial⟩, fun a g' hg' => ?_⟩
  have hsame : g' = g := Prod.ext (goes_emit hg'.1.2.2) hg'.2
  rw [hsame]
  exact h

theorem leads_checkContext_audit {ok : audit.State → Unit → Prop}
    {err : audit.State → SettlementError → Prop} (hok : ok g ())
    (herr : ∀ e, e.isOver = true → err g e) : Leads audit g (checkContext ctx) ok err := by
  refine leads_bind (leads_lift ⟨⟨⟨rfl, nofun, nofun⟩, trivial⟩, fun a g' hg' => ?_⟩)
  obtain ⟨⟨ha, -, hgoes⟩, hmarks⟩ := hg'
  have hsame : g' = g := by
    refine Prod.ext ?_ hmarks
    generalize g.1 = g₁ at hgoes
    cases g₁ <;> exact hgoes
  change Leads audit g' _ ok err
  rw [hsame]
  cases a with
  | none => exact leads_pure hok
  | some e => exact leads_throw (herr e (ha e rfl))

theorem leads_raced_audit {p : SpinProgram α} {ok : audit.State → α → Prop}
    (h : Leads audit g p ok (Causes odds ext bet)) :
    Leads audit g (ExceptT.mk (p.run.against ctx)) ok (Causes odds ext bet) := by
  refine leads_against ⟨⟨rfl, nofun, nofun⟩, trivial⟩ (fun g' hg' => ?_) (fun _ _ hmay => hmay)
    fun _ _ _ _ _ hover => .ended hover.1
  obtain ⟨⟨-, -, hgoes⟩, hmarks⟩ := hg'
  have hsame : g' = g := by
    refine Prod.ext ?_ hmarks
    generalize g.1 = g₁ at hgoes
    cases g₁ <;> exact hgoes
  rw [hsame]
  exact h

theorem leads_begin_audit : Leads audit (.fresh, m) (ofLedger begin .ofLedger)
    (fun g _ => ∃ m', g = (.opened, m') ∧ m'.wrote = m.wrote) (Causes odds ext bet) := by
  refine leads_ofLedger (leads_bind ⟨⟨⟨rfl, nofun, nofun⟩, trivial⟩, ?_⟩)
  rintro a ⟨g', m'⟩ ⟨⟨-, hfail, rfl⟩, rfl⟩
  cases a with
  | error e =>
    obtain ⟨p, rfl⟩ := hfail e rfl
    exact .struck (Marks.mem_after rfl)
  | ok _ =>
    refine leads_lift ⟨⟨⟨rfl, fun _ => rfl, nofun⟩, trivial⟩, ?_⟩
    rintro a ⟨g', m'⟩ ⟨⟨-, -, rfl⟩, rfl⟩
    exact ⟨_, rfl, rfl⟩

theorem leads_data_audit {c : DataCall} {ok : audit.State → c.Answer → Prop}
    {err : audit.State → LedgerError → Prop}
    (hfault : ∀ p m', Faults.error p ∈ m'.failures → err (.reading l t, m') (Faults.error p))
    (herr : ∀ e t' m', c.run l t = (.error e, t') → err (.reading l t', m') e)
    (hok : ∀ a t' m', m' = m.after (.data c) (.ok a) → c.run l t = (.ok a, t') →
      ok (.reading l t', m') a) :
    Leads audit (.reading l t, m) (call c) ok err := by
  refine ⟨⟨⟨rfl, nofun, fun _ _ => trivial⟩, trivial⟩, ?_⟩
  rintro a ⟨g', m'⟩ ⟨⟨-, -, t', ⟨p, rfl, rfl⟩ | ⟨rfl, rfl⟩, rfl⟩, rfl⟩
  · exact hfault p _ (Marks.mem_after rfl)
  · rcases hrun : c.run l t with ⟨r, t'⟩
    cases r with
    | ok a => exact hok a t' _ rfl hrun
    | error e => exact herr e t' _ hrun

/-- An adjustment fails by a fault or by the sum itself, and then nothing was to be written. -/
theorem leads_adjust_audit {id : AccountId} {delta before : Decimal}
    (hb : t.balance? l id = some before) (hzero : delta.isZero = false)
    {ok : audit.State → Decimal → Prop} {err : audit.State → LedgerError → Prop}
    (hok : ∀ after m', adjusted delta before = .ok after →
      ok (.reading l (t.put id after), m') after)
    (hfault : ∀ p m', Faults.error p ∈ m'.failures → err (.reading l t, m') (Faults.error p))
    (herr : ∀ e m', m'.wrote = m.wrote → adjusted delta before = .error e →
      err (.reading l t, m') e) :
    Leads audit (.reading l t, m) (adjust id delta) ok err := by
  unfold adjusted at hok herr
  unfold adjust
  split
  · rename_i hfits
    rw [if_pos hfits] at herr
    exact leads_throw (herr _ m rfl rfl)
  · rename_i hfits
    rw [if_neg hfits] at hok herr
    refine leads_bind (leads_data_audit hfault (fun e t' m' hr => by cases hr) ?_)
    rintro a t' m' rfl hr
    have hread : (DataCall.lockBalance id).run l t = (.ok (some before), t) := by
      rw [DataCall.run, hb]
    cases hread.symm.trans hr
    dsimp only
    rw [if_neg (by rw [hzero]; decide)]
    unfold applyDelta
    -- The sum can overflow, be negative, or be written; each is what `adjusted` comes to.
    cases hsum : before.add? delta with
    | none =>
      rw [hsum] at herr
      exact leads_throw (herr _ _ rfl rfl)
    | some after =>
      rw [hsum] at hok herr
      dsimp only at hok herr ⊢
      split
      · rename_i hneg
        rw [if_pos hneg] at herr
        exact leads_throw (herr _ _ rfl rfl)
      · rename_i hneg
        rw [if_neg hneg] at hok
        have hwrite : (DataCall.writeBalance id after).run l t = (.ok (), t.put id after) :=
          Transaction.writeBalance_eq hb after
        refine leads_bind (leads_data_audit hfault (fun e t' m' hr => ?_) fun a t' m' _ hr => ?_)
        · cases hwrite.symm.trans hr
        · cases hwrite.symm.trans hr
          exact leads_bind (leads_lift (under_emit_audit (leads_pure (hok _ m' rfl))))

theorem leads_resolve_audit : Leads audit (.opened, m) (Settlement.resolve ext)
    (fun g a => ∃ l m', g = (.reading l .empty, m') ∧ m'.wrote = m.wrote ∧
      l.find? ext = some a ∧ l.balance? a.id = some a.balance) (Causes odds ext bet) := by
  refine leads_bind (leads_ofLedger ⟨⟨⟨rfl, nofun, fun _ _ => trivial⟩, trivial⟩, ?_⟩)
  rintro a ⟨g', m'⟩ ⟨⟨-, -, l, t', hl, ⟨p, rfl, rfl⟩ | ⟨rfl, rfl⟩, rfl⟩, rfl⟩
  · exact .struck (Marks.mem_after rfl)
  · have hrun : (DataCall.find ext).run l .empty = (.ok (l.find? ext), .empty) := by
      rw [DataCall.run, Transaction.find?_empty]
    rw [hrun]
    cases ha : l.find? ext with
    | none => exact .unknown rfl ha
    | some a => exact ⟨l, _, rfl, rfl, ha, hl.balance? ha⟩

theorem leads_payWin_audit {id : AccountId} {win between : Decimal}
    (hb : (Transaction.empty.put id between).balance? l id = some between)
    {err : audit.State → SettlementError → Prop}
    (hfault : ∀ t p m', Faults.error p ∈ m'.failures →
      err (.reading l t, m') (.storage (Faults.error p)))
    (herr : ∀ t e m', win.isPositive = true → adjusted win between = .error e →
      err (.reading l t, m') (.storage e)) :
    Leads audit (.reading l (Transaction.empty.put id between), m) (payWin id win)
      (fun g _ => ∃ after m', g = (.reading l (Transaction.empty.put id after), m')) err := by
  unfold payWin
  split
  · rename_i hpos
    refine leads_bind (leads_ofLedger ?_)
    rw [credit, if_pos hpos]
    refine leads_adjust_audit hb (Decimal.isZero_of_isPositive hpos) ?_ (hfault _) ?_
    · rintro after m' -
      rw [Transaction.put_put]
      exact leads_pure ⟨after, m', rfl⟩
    · exact fun e m' _ hcredit => herr _ e m' hpos hcredit
  · exact leads_pure ⟨between, m, rfl⟩

theorem win?_of_payout {o : Outcome} {e : SettlementError} (h : payout odds bet o = .error e) :
    odds.win? bet o = none ∧ e = .payoutOverflow bet (o.multiplier odds) := by
  refine ⟨?_, payout_eq_error h⟩
  unfold payout at h
  split at h
  · cases h
  · assumption

theorem leads_apply_audit (hpos : bet.isPositive = true) (hwrote : m.wrote = false) :
    Leads audit (.opened, m) (Settlement.apply odds ext bet) (fun _ _ => True)
      (Causes odds ext bet) := by
  refine leads_bind (Leads.mono leads_resolve_audit ?_ fun _ _ h => h)
  rintro g a ⟨l, m₁, rfl, hkept, ha, hb⟩
  have hholds : Transaction.empty.balance? l a.id = some a.balance :=
    (Transaction.balance?_empty _ _).trans hb
  have hsees : (Transaction.empty.balance? l a.id).isSome = true := by
    rw [hholds]
    rfl
  refine leads_bind (leads_ofLedger ?_)
  rw [debit, if_pos hpos]
  refine leads_adjust_audit hholds (bet.isZero_neg.trans (Decimal.isZero_of_isPositive hpos)) ?_
    (fun p m' hp => .struck hp) fun e m' hm' hdebit =>
      .refused rfl ha (hm'.trans (hkept.trans hwrote)) hdebit
  intro between m₂ hdebit
  refine leads_bind (leads_lift ⟨⟨⟨rfl, by simp, by simp⟩, trivial⟩, ?_⟩)
  rintro words ⟨g', m₃⟩ ⟨⟨-, -, rfl⟩, rfl⟩
  -- The bet is taken off by now, so from here on funds are not lacking.
  change Leads audit _ (ExceptT.mk (pure (payout odds bet (odds.spin words).1)) >>= _) _ _
  cases drawn : payout odds bet (odds.spin words).1 with
  | error e =>
    obtain ⟨hlost, rfl⟩ := win?_of_payout drawn
    exact leads_bind (leads_throw (Causes.unpaid rfl ha hdebit hlost))
  | ok win =>
    refine leads_bind (leads_pure (leads_bind ?_))
    refine Leads.mono (leads_payWin_audit (Transaction.balance?_put hsees between)
      (fun t p m' hp => .struck hp) fun t e m' hwin hcredit =>
        .stuck rfl ha hdebit drawn hwin hcredit) ?_ fun _ _ h => h
    rintro g _ ⟨after, m₄, rfl⟩
    have happend : (DataCall.append ⟨a.id, bet, win⟩).run l
        (Transaction.empty.put a.id after) = _ :=
      Transaction.append_eq (Transaction.balance?_put hsees after)
    refine leads_bind (leads_ofLedger (leads_data_audit (fun p m' hp => .struck hp) ?_ ?_))
    · intro e t' m' hr
      cases happend.symm.trans hr
    · intro spin t' m' _ hr
      exact leads_bind (leads_lift (under_emit_audit (leads_pure trivial)))

theorem leads_finish_audit (r : Except SettlementError α)
    (h : ∀ e, r = .error e → Causes odds ext bet g e) :
    Leads audit g (finish r) (fun _ _ => True) (Causes odds ext bet) := by
  cases r with
  | ok a =>
    refine leads_bind (leads_ofLedger ⟨⟨⟨rfl, nofun, nofun⟩, trivial⟩, ?_⟩)
    rintro r ⟨g', m'⟩ ⟨⟨-, hfail, -⟩, rfl⟩
    cases r with
    | ok _ => exact leads_pure trivial
    | error e =>
      obtain ⟨p, rfl⟩ := hfail e rfl
      exact .struck (Marks.mem_after rfl)
  | error e =>
    refine leads_bind (leads_lift (Under.bind ⟨⟨⟨rfl, nofun, nofun⟩, trivial⟩, ?_⟩))
    rintro r ⟨g', m'⟩ ⟨⟨-, -, hgoes⟩, rfl⟩
    have hthrow : Leads audit (g', g.2.after .rollback r) (throw e : SpinProgram α)
        (fun _ _ => True) (Causes odds ext bet) :=
      leads_throw ((h e rfl).keeps (saw?_rollback hgoes) (Marks.keeps_after rfl))
    cases r with
    | ok _ => exact hthrow
    | error e' => exact under_emit_audit hthrow

theorem leads_attempt_audit (ctx : Context) (odds : Odds) (ext : Identifier)
    (hpos : bet.isPositive = true) (hwrote : m.wrote = false) (n : UInt32) :
    Leads audit (.fresh, m) (attempt ctx odds ext bet n) (fun _ _ => True)
      (Causes odds ext bet) := by
  refine leads_bind (leads_checkContext_audit ?_ fun _ => .ended)
  refine leads_bind (Leads.mono (leads_raced_audit leads_begin_audit) ?_ fun _ _ h => h)
  rintro g _ ⟨m', rfl, hkept⟩
  have hwork : Leads audit (.opened, m') (applyChecked ctx odds ext bet) (fun _ _ => True)
      (Causes odds ext bet) := by
    refine leads_bind (Leads.mono
      (leads_raced_audit (leads_apply_audit hpos (hkept.trans hwrote))) ?_ fun _ _ h => h)
    exact fun g spin _ => leads_bind (leads_checkContext_audit (leads_pure trivial) fun _ => .ended)
  refine leads_body (Leads.mono hwork (fun g spin _ => ?_) fun g e he => ?_)
  · refine leads_bind (Leads.mono (leads_finish_audit (.ok spin) nofun) ?_ fun _ _ h => h)
    exact fun g spin _ => leads_bind (leads_lift (under_emit_audit (leads_pure trivial)))
  · refine leads_bind (Leads.mono (leads_finish_audit (.error e) ?_) ?_ fun _ _ h => h)
    · rintro e' ⟨⟩
      exact he
    · exact fun g spin _ => leads_bind (leads_lift (under_emit_audit (leads_pure trivial)))

end Program

end WagerLedger

import WagerLedger.Proofs.Ledger.Published
import WagerLedger.Proofs.Program.Drawing
import WagerLedger.Proofs.Session.History
import WagerLedger.Proofs.Session.Reading

/-! # The words behind a committed spin

The spin that a settlement commits is the one that it has staged in its transaction, with the win
of the words that it has drawn there last. Others may make turns in between; they leave the
transaction alone as long as the call has the lock. -/
namespace WagerLedger

namespace DataCall

variable {d : DataCall} {l : Ledger} {t t' : Transaction}

theorem Answers.spins_eq {a : Except LedgerError d.Answer} (h : d.Answers l t a t')
    (hd : ∀ w, d ≠ .append w) : t'.spins = t.spins := by
  rcases h with ⟨p, -, rfl⟩ | ⟨-, rfl⟩
  · rfl
  · cases d with
    | find ext => rfl
    | lockBalance id => rfl
    | list id limit => rfl
    | insert ext =>
      simp only [run, Transaction.insert]
      split <;> rfl
    | writeBalance id b =>
      simp only [run, Transaction.writeBalance]
      split <;> rfl
    | append w => exact (hd w rfl).elim

theorem Answers.append {w : Wager} {a : Except LedgerError Spin}
    (h : (append w).Answers l t a t') :
    (∃ e, a = .error e ∧ t' = t) ∨ ∃ spin, a = .ok spin ∧ spin.win = w.win ∧
      t'.spins = t.spins ++ [spin] := by
  rcases h with ⟨p, rfl, rfl⟩ | ⟨rfl, rfl⟩
  · exact .inl ⟨_, rfl, rfl⟩
  · simp only [run, Transaction.append]
    split
    · exact .inl ⟨_, rfl, rfl⟩
    · exact .inr ⟨_, rfl, rfl, rfl⟩

end DataCall

namespace Scenario

open World

variable {c : Scenario} {n : Nat} {us us₀ : List Turn} {u : Turn} {g : Draw} {odds : Odds}
  {bet : Decimal} {r : Request}

/-- The words that the next draw of a call gets. -/
def words (c : Scenario) (us : List Turn) : Words :=
  (c.after us).world.entropy (c.after us).world.sources

/-- With its step after `y` the call has drawn random words; since then it has drawn no others
and begun no transaction. -/
structure Draws (c : Scenario) (n : Nat) (y us : List Turn) : Prop extends
    c.Since n (fun r => r ≠ .entropy ∧ r ≠ .acquire) y us where
  request : c.request? y n = some .entropy

def Drew (c : Scenario) (n : Nat) (us : List Turn) (words : Words) : Prop :=
  ∃ y, c.Draws n y us ∧ c.words y = words

def Stages (c : Scenario) (n : Nat) (us : List Turn) (wins : List Decimal) : Prop :=
  ∃ t, (c.after us).world.holder = some (n + 1, t) ∧ t.spins.map (·.win) = wins

def Drawing (c : Scenario) (n : Nat) (us : List Turn) : Draw → Prop
  | .outside => True
  | .undrawn => c.Stages n us []
  | .drawn words => c.Stages n us [] ∧ c.Drew n us words
  | .staged words win => c.Stages n us [win] ∧ c.Drew n us words

theorem Drew.append {words : Words} (h : c.Drew n us words)
    (hu : u = .step n → ∀ r, c.request? us n = some r → r ≠ .entropy ∧ r ≠ .acquire) :
    c.Drew n (us ++ [u]) words := by
  obtain ⟨y, hy, hwords⟩ := h
  exact ⟨y, ⟨hy.toSince.append hu, hy.request⟩, hwords⟩

theorem Drawing.append (h : c.Drawing n us g)
    (hu : u = .step n → ∀ r, c.request? us n = some r → g ≠ .outside → r ≠ .entropy ∧ r ≠ .acquire)
    (hheld : ∀ t, (c.after us).world.holder = some (n + 1, t) →
      (c.after us).world.Held (c.after (us ++ [u])).world) :
    c.Drawing n (us ++ [u]) g := by
  have hstages {wins : List Decimal} : c.Stages n us wins → c.Stages n (us ++ [u]) wins := by
    rintro ⟨t, ht, hwins⟩
    exact ⟨t, (hheld t ht).holder.trans ht, hwins⟩
  cases g with
  | outside => trivial
  | undrawn => exact hstages h
  | drawn words => exact ⟨hstages h.1, h.2.append fun hu' r hr => hu hu' r hr nofun⟩
  | staged words win => exact ⟨hstages h.1, h.2.append fun hu' r hr => hu hu' r hr nofun⟩

/-- What a data call of the transaction answers goes with what it has staged. -/
theorem drawing_data (h : c.Drawing n us g) {d : DataCall} (hmay : g.May odds bet (.data d))
    (hr : c.request? us n = some (.data d)) {a : Except LedgerError d.Answer}
    (ha : ((c.after us).world.perform (n + 1) (.data d)).1 = some a)
    (hworld : (c.after (us ++ [.step n])).world =
      ((c.after us).world.perform (n + 1) (.data d)).2) :
    c.Drawing n (us ++ [.step n]) (g.after (.data d) a) := by
  have hstages : c.Stages n us [] := by
    have hworks := hmay.works d rfl
    cases g with
    | outside => exact hworks.elim
    | undrawn => exact h
    | drawn words => exact h.1
    | staged words win => exact hworks.elim
  obtain ⟨t, ht, hwins⟩ := hstages
  have hempty : t.spins = [] := List.map_eq_nil_iff.mp hwins
  obtain ⟨t', hans, hholder, -⟩ := data_answers ht ha
  rw [← hworld] at hholder
  have hdrew {words : Words} (hw : c.Drew n us words) : c.Drew n (us ++ [.step n]) words := by
    refine hw.append fun _ r' hr' => ?_
    cases hr.symm.trans hr'
    exact ⟨nofun, nofun⟩
  by_cases happend : ∃ w, d = .append w
  · obtain ⟨w, rfl⟩ := happend
    obtain ⟨words, rfl, -⟩ := hmay.appends w rfl
    rcases hans.append with ⟨e, rfl, rfl⟩ | ⟨spin, rfl, hwin, hspins⟩
    · exact ⟨⟨t', hholder, hwins⟩, hdrew h.2⟩
    · refine ⟨⟨t', hholder, ?_⟩, hdrew h.2⟩
      rw [hspins, hempty, List.nil_append, List.map_singleton, hwin]
  · have hsame := hans.spins_eq fun w hw => happend ⟨w, hw⟩
    have hstages' : c.Stages n (us ++ [.step n]) [] := ⟨t', hholder, by rw [hsame, hwins]⟩
    cases g with
    | outside => exact (hmay.works d rfl).elim
    | undrawn => cases d <;> exact hstages'
    | drawn words =>
      cases d
      case append w => exact (happend ⟨w, rfl⟩).elim
      all_goals exact ⟨hstages', hdrew h.2⟩
    | staged words win => exact (hmay.works d rfl).elim

theorem drawing_next (h : c.Drawing n us g) (hmay : g.May odds bet r)
    (hr : c.request? us n = some r) {a : r.Answer}
    (ha : ((c.after us).world.perform (n + 1) r).1 = some a)
    (hworld : (c.after (us ++ [.step n])).world = ((c.after us).world.perform (n + 1) r).2) :
    c.Drawing n (us ++ [.step n]) (g.after r a) := by
  -- Requests that neither draw nor touch the transaction leave what is known of it.
  have hkeep (hquiet : r.isQuiet = true) (hentropy : r ≠ .entropy) (hafter : g.after r a = g) :
      c.Drawing n (us ++ [.step n]) (g.after r a) := by
    rw [hafter]
    refine h.append (fun _ r' hr' _ => ?_) fun t ht => ?_
    · cases hr.symm.trans hr'
      refine ⟨hentropy, ?_⟩
      rintro rfl
      cases hquiet
    · rw [hworld]
      exact held_of_quiet hquiet _
  have hsettles := hmay.settles
  cases r
  case data d => exact drawing_data h hmay hr ha hworld
  case acquire =>
    have hstages : c.Stages n (us ++ [.step n]) [] := by
      refine ⟨.empty, ?_, rfl⟩
      rw [hworld]
      exact holder_of_acquire hr ha
    cases g <;> exact hstages
  case entropy =>
    rcases hmay.draws rfl with rfl | rfl
    · trivial
    · obtain ⟨t, ht, hwins⟩ := h
      have hholder : (c.after (us ++ [.step n])).world.holder = some (n + 1, t) := by
        rw [hworld]
        exact (held_of_quiet rfl _).holder.trans ht
      cases ha
      exact ⟨⟨t, hholder, hwins⟩, us, ⟨c.since_step n _ us, hr⟩, rfl⟩
  case commit => cases g <;> trivial
  case rollback => cases g <;> trivial
  case discard => cases g <;> trivial
  case arrive => exact hkeep rfl nofun (by cases g <;> rfl)
  case check ctx => exact hkeep rfl nofun (by cases g <;> rfl)
  case poll => exact hkeep rfl nofun (by cases g <;> rfl)
  case note call => exact hkeep rfl nofun (by cases g <;> rfl)
  case sleep d => exact hkeep rfl nofun (by cases g <;> rfl)
  case clock => exact hkeep rfl nofun (by cases g <;> rfl)
  case emit e => exact hkeep rfl nofun (by cases g <;> rfl)
  all_goals rcases hsettles with hsettles | hsettles <;> cases hsettles

theorem drawing_follow (c : Scenario) (n : Nat) (odds : Odds) (bet : Decimal) :
    (drawing odds bet).Follows c n (c.Drawing n) where
  other us g u hg hu halive :=
    hg.append (fun h => (hu h).elim) fun _ ht => held_other ht hu halive
  idle _ _ _ _ := trivial
  wait us g x r hg hmay hr ha hworld := by
    have hsuspends := suspends_of_wait hr ha
    cases r
    case acquire =>
      rw [hmay.acquires rfl]
      trivial
    case sleep d =>
      refine Drawing.append hg (fun _ r' hr' _ => ?_) fun t ht => ?_
      · cases hr.symm.trans hr'
        exact ⟨nofun, nofun⟩
      · rw [hworld]
        exact held_of_quiet rfl _
    case never => rcases hmay.settles with h | h <;> cases h
    all_goals cases hsuspends
  next us g x r a hg hmay hr ha hworld := ⟨_, rfl, drawing_next hg hmay hr ha hworld⟩
  ended _ _ _ _ _ _ _ _ _ _ := ⟨_, rfl, trivial⟩

/-- A commit that changes the ledger appends the staged spins. -/
theorem spins_of_commit {t : Transaction} (ht : (c.after us).world.holder = some (n + 1, t))
    (hr : c.request? us n = some .commit) (hchange : c.ledger (us ++ [.step n]) ≠ c.ledger us) :
    (c.ledger (us ++ [.step n])).spins = (c.ledger us).spins ++ t.spins := by
  have hcrash : c.program? us n ≠ some .crash := by
    intro hq
    rw [request?, hq] at hr
    cases hr
  rcases c.world_step us n hcrash with hworld | ⟨r, hr', hworld | hworld⟩
  · exact (hchange (congrArg (·.store.ledger) hworld)).elim
  · cases hr.symm.trans hr'
    have hcommit : ((c.after us).world.commit (n + 1)).2 = World.release
        { (c.after us).world with store := ((c.after us).world.store.commit t).2 } := by
      rw [World.commit, transaction?_of_holder ht]
    replace hworld := hworld.trans hcommit
    rcases (c.after us).world.store.commit_cases t with ⟨f, hc⟩ | ⟨f, hc⟩
    · rw [hc] at hworld
      refine (hchange ?_).elim
      rw [ledger, hworld, release_store]
      rfl
    · rw [hc] at hworld
      rw [ledger, hworld, release_store]
      exact Transaction.spins_apply t t.balances.entries (c.ledger us)
  · cases hr.symm.trans hr'
    exact (hchange (congrArg (·.store.ledger) hworld)).elim

section Settlements

variable {ext : Identifier} {name : Option String}
  (hop : c.calls[n]? = some (.settle ext bet name)) (hfirst : .step n ∉ us₀)
  (hrun : us₀ ++ [.step n] <+: us)
include hop hfirst hrun

/-- All that a settlement asks for is in order for what it has drawn with the odds that it has
found at its start. -/
theorem may_draw (hr : c.request? us n = some r) :
    ∃ g, c.Drawing n us g ∧ g.May (c.after us₀).shared.engine.odds bet r := by
  obtain ⟨q, hq, hqr⟩ := Option.bind_eq_some_iff.mp hr
  have hgoes : ∀ (g : Draw) (stage : Stage),
      g.Goes (c.after us₀).shared.engine.odds bet (.inl stage) → ∃ s, stage = .settle s ∧
        (s.round.observed >>= Session.settleRound).Under
          (drawing (c.after us₀).shared.engine.odds bet) .outside
            (Draw.Goes (c.after us₀).shared.engine.odds bet) := by
    rintro g stage ⟨-, s, rfl, hodds, rfl⟩
    rw [← hodds]
    exact ⟨s, rfl, Program.under_again_drawing s⟩
  obtain ⟨g, hg, hunder⟩ := (drawing_follow c n _ bet).settlement hop hfirst hrun hgoes
    (Program.under_start_drawing _ _ ext bet) trivial hq
  obtain ⟨x, hmay⟩ := hunder.may hqr
  exact ⟨g, hg, hmay⟩

theorem drawn_of_change (hchange : c.ledger (us ++ [.step n]) ≠ c.ledger us) :
    ∃ y spin, c.Draws n y us ∧ (c.ledger (us ++ [.step n])).spins = (c.ledger us).spins ++ [spin] ∧
      Settlement.payout (c.after us₀).shared.engine.odds bet
        ((c.after us₀).shared.engine.odds.spin (c.words y)).1 = .ok spin.win := by
  have hcommit : c.request? us n = some .commit := by
    by_contra hne
    refine hchange (ledger_step fun r hr => ⟨?_, fun h => hne (h ▸ hr)⟩)
    obtain ⟨g, -, hmay⟩ := may_draw hop hfirst hrun hr
    exact hmay.settles
  obtain ⟨g, hg, hmay⟩ := may_draw hop hfirst hrun hcommit
  obtain ⟨words, win, rfl, hpaid⟩ := hmay.commits rfl
  obtain ⟨⟨t, ht, hwins⟩, y, hy, rfl⟩ := hg
  obtain ⟨spin, hspins, rfl⟩ := List.map_eq_singleton_iff.mp hwins
  have happended := spins_of_commit ht hcommit hchange
  rw [hspins] at happended
  exact ⟨y, spin, hy, happended, hpaid⟩

end Settlements

/-- What the spin of a commit was drawn with: the odds of the engine when its call began, and
the outcome of the words that the call has drawn last before the commit. -/
structure Drawn (c : Scenario) (us : List Turn) (e : SettledSpin) (odds : Odds) (o : Outcome) :
    Prop where
  engine : ∃ us₀, .step e.call ∉ us₀ ∧ us₀ ++ [.step e.call] <+: us ∧
    odds = (c.after us₀).shared.engine.odds
  outcome : ∃ y, c.Draws e.call y (us.take e.turn) ∧ o = (odds.spin (c.words y)).1

theorem Draws.unique {y y' : List Turn} (h : c.Draws n y us) (h' : c.Draws n y' us) : y' = y := by
  have hlast {x x' : List Turn} (hx : c.Draws n x us) (hx' : c.Draws n x' us) : x' <+: x := by
    rcases prefix_or_step ((List.prefix_append _ _).trans hx'.turn) hx.turn with hpre | hpre
    · exact hpre
    · exact ((hx.asks x' .entropy hpre hx'.turn hx'.request).1 rfl).elim
  exact (hlast h h').eq_of_length_le (hlast h' h).length_le

theorem first_unique {us₁ : List Turn} (h : us₀ ++ [.step n] <+: us) (hfirst : .step n ∉ us₀)
    (h' : us₁ ++ [.step n] <+: us) (hfirst' : .step n ∉ us₁) : us₁ = us₀ := by
  have hearly {x x' : List Turn} (hx : x ++ [.step n] <+: us) (hx' : x' ++ [.step n] <+: us)
      (hno : .step n ∉ x') : x' <+: x := by
    rcases prefix_or_step ((List.prefix_append _ _).trans hx') hx with hpre | hpre
    · exact hpre
    · exact (hno (hpre.mem (List.mem_append_right _ (List.mem_singleton_self _)))).elim
  exact (hearly h h' hfirst').eq_of_length_le (hearly h' h hfirst).length_le

/-- What a spin was drawn with is determined by the turns. -/
theorem Drawn.unique {e : SettledSpin} {odds' : Odds} {o o' : Outcome} (h : c.Drawn us e odds o)
    (h' : c.Drawn us e odds' o') : odds' = odds ∧ o' = o := by
  obtain ⟨⟨us₀, hfirst, hrun, rfl⟩, y, hy, rfl⟩ := h
  obtain ⟨⟨us₁, hfirst', hrun', rfl⟩, y', hy', rfl⟩ := h'
  obtain rfl := first_unique hrun hfirst hrun' hfirst'
  obtain rfl := hy.unique hy'
  exact ⟨rfl, rfl⟩

theorem Settles.take_succ {ext : Identifier} {e : SettledSpin} (he : c.Settles us ext e) :
    us.take (e.turn + 1) = us.take e.turn ++ [.step e.call] := by
  rw [List.take_add_one, he.turn]
  rfl

theorem Settles.began {ext : Identifier} {e : SettledSpin} (he : c.Settles us ext e) :
    ∃ us₀, .step e.call ∉ us₀ ∧ us₀ ++ [.step e.call] <+: us.take e.turn := by
  have hchange := he.not_still
  rw [Still, he.take_succ] at hchange
  have hmem : .step e.call ∈ us.take e.turn := by
    by_contra hnone
    refine hchange (ledger_step fun r hr => ?_)
    obtain ⟨q, hq, hqr⟩ := Option.bind_eq_some_iff.mp hr
    refine (hnone (begun hq fun op hop => ?_)).elim
    rw [hop] at hqr
    cases hqr
  obtain ⟨us₀, ws, hsplit, hfirst⟩ := List.eq_append_cons_of_mem hmem
  exact ⟨us₀, hfirst, ws, by rw [hsplit, List.append_assoc, List.singleton_append]⟩

theorem Settles.drawn {ext : Identifier} {e : SettledSpin} (he : c.Settles us ext e)
    {name : Option String} (hop : c.calls[e.call]? = some (.settle ext bet name)) :
    ∃ odds o, c.Drawn us e odds o ∧ Settlement.payout odds bet o = .ok e.spin.win := by
  have hchange := he.not_still
  rw [Still, he.take_succ] at hchange
  obtain ⟨us₀, hfirst, hrun⟩ := he.began
  obtain ⟨y, spin, hy, hspins, hpaid⟩ := drawn_of_change hop hfirst hrun hchange
  have hspin := he.spins
  rw [he.take_succ, hspins] at hspin
  obtain rfl := List.singleton_inj.mp (List.append_cancel_left hspin)
  exact ⟨_, _, ⟨⟨us₀, hfirst, hrun.trans (List.take_prefix _ _), rfl⟩, y, hy, rfl⟩, hpaid⟩

end Scenario

end WagerLedger

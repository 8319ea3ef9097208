import WagerLedger.Proofs.Program.Looks
import WagerLedger.Proofs.Session.Meanwhile
import WagerLedger.Proofs.Session.Watching

/-! # Settlements whose caller gives up

A settlement is watched for what it has seen of its context. Each commit comes right after a
look that found the context open, so once it is over at most one more is made, and only if the
last look came before; the error of a context is what one of the call's own steps has found; and
where the context is over from the start, the call declines without touching the store. -/
namespace WagerLedger.Scenario

open World

variable {c : Scenario} {n : Nat} {us us₀ v x : List Turn} {u : Turn} {ctx : Context}
  {ext : Identifier} {bet : Decimal} {e : SettlementError} {r : Request}

/-- Call `n` settles an accepted bet, beginning with its step after `us₀`; nothing holds up the
calls of the store. -/
structure Begins (c : Scenario) (n : Nat) (us₀ : List Turn) (ext : Identifier) (bet : Decimal)
    (ctx : Context) : Prop where
  probes : c.probes = []
  call : ∃ name, c.calls[n]? = some (.settle ext bet name) ∧
    (c.after us₀).shared.context name = ctx
  accepted : Settlement.acceptsBet bet = true
  first : .step n ∉ us₀

/-- Right before, the call has looked at its context and found it open: all that it has asked
for since then is to note a call. -/
structure LooksOpen (c : Scenario) (n : Nat) (ctx : Context) (v us : List Turn) : Prop extends
    c.Since n (·.isNote = true) v us where
  look : c.request? v n = some (.check ctx)
  isOpen : ctx.Open (c.after v).world

/-- The call has found its context over, and since then it only closes what it has begun. -/
structure FoundOver (c : Scenario) (n : Nat) (ctx : Context) (e : SettlementError)
    (v us : List Turn) : Prop extends c.Since n (·.isClosing = true) v us where
  request : (c.request? v n).isSome = true
  isOver : ctx.Over (c.after v).world e

/-- What is known of a call by what it has seen. -/
def Looked (c : Scenario) (n : Nat) (ctx : Context) (us : List Turn) : Look → Prop
  | .unseen => True
  | .clear => ∃ v, c.LooksOpen n ctx v us
  | .ended e => ∃ v, c.FoundOver n ctx e v us

theorem Looked.append {g : Look} (h : c.Looked n ctx us g)
    (hclear : g = .clear → u = .step n → ∀ r, c.request? us n = some r → r.isNote = true)
    (hover : ∀ e, g = .ended e → u = .step n → ∀ r, c.request? us n = some r →
      r.isClosing = true) : c.Looked n ctx (us ++ [u]) g := by
  cases g with
  | unseen => trivial
  | clear =>
    obtain ⟨v, hv⟩ := h
    exact ⟨v, hv.toSince.append (hclear rfl), hv.look, hv.isOpen⟩
  | ended e =>
    obtain ⟨v, hv⟩ := h
    exact ⟨v, hv.toSince.append (hover e rfl), hv.request, hv.isOver⟩

theorem Looked.found (hr : c.request? us n = some r)
    (hover : (c.after us).world.look ctx = some e) :
    c.Looked n ctx (us ++ [.step n]) (.ended e) :=
  ⟨us, c.since_step n _ us, by rw [hr]; rfl, look_eq_some_iff.mp hover⟩

theorem looked_next {g : Look} (h : c.Looked n ctx us g) {raced : Option Context}
    (hmay : g.May ctx raced r) (hr : c.request? us n = some r) {a : r.Answer}
    (ha : ((c.after us).world.perform (n + 1) r).1 = some a) :
    c.Looked n ctx (us ++ [.step n]) (g.after r a) := by
  have hsome : ∀ r', c.request? us n = some r' → r' = r := fun r' hr' =>
    Option.some.inj (hr'.symm.trans hr)
  have hkeep (hg : g = .clear → r.isNote = true) : c.Looked n ctx (us ++ [.step n]) g :=
    h.append (fun hclear _ r' hr' => hsome r' hr' ▸ hg hclear)
      fun e hover _ r' hr' => hsome r' hr' ▸ hmay.closing e hover
  -- Once over, always over. Otherwise a check is a new look, and any request but a note ends it.
  by_cases hover : ∃ e, g = .ended e
  · obtain ⟨e, rfl⟩ := hover
    exact hkeep (fun h => nomatch h)
  · have hcalm : g.Calm := by
      cases g with
      | ended e => exact hover ⟨e, rfl⟩
      | unseen => trivial
      | clear => trivial
    cases hcheck : r.isCheck with
    | false =>
      cases hnote : r.isNote with
      | false =>
        rw [hcalm.forgets hcheck hnote]
        trivial
      | true =>
        cases r
        case note call =>
          rw [Look.after_note]
          exact hkeep fun _ => rfl
        all_goals cases hnote
    | true =>
      cases r
      case check ctx' =>
        obtain rfl := hmay.checks ctx' rfl
        have hlook : (c.after us).world.look ctx' = a := Option.some.inj ha
        have hafter : g.after (.check ctx') a = match a with
            | none => .clear
            | some e => .ended e := by
          cases g with
          | ended e => exact hcalm.elim
          | unseen => cases a <;> rfl
          | clear => cases a <;> rfl
        rw [hafter]
        cases a with
        | none => exact ⟨us, c.since_step n _ us, hr, look_eq_none_iff.mp hlook⟩
        | some e => exact Looked.found hr hlook
      all_goals cases hcheck

/-- What a settlement has seen of its context is true of the run. -/
theorem looks_follow (hprobes : c.probes = []) (n : Nat) (ctx : Context) :
    (looks ctx).Follows c n (c.Looked n ctx) where
  other us g u hg hu _ := hg.append (fun _ h => (hu h).elim) fun _ _ h => (hu h).elim
  idle us g hg hnone := by
    cases g with
    | ended e =>
      refine Looked.append hg (fun h => nomatch h) fun _ _ _ r hr => ?_
      rw [hnone] at hr
      cases hr
    | unseen => trivial
    | clear => trivial
  wait us g raced r hg hmay hr ha _ := by
    have hsuspends := suspends_of_wait hr ha
    refine Looked.append hg (fun hclear => ?_) fun e hover _ r' hr' => ?_
    · rw [hmay.waits hclear] at hsuspends
      cases hsuspends
    · cases hr.symm.trans hr'
      exact hmay.closing e hover
  next us g raced r a hg hmay hr ha _ :=
    ⟨_, ⟨World.canAnswer ((c.probes_eq us).trans hprobes) ha, rfl⟩, looked_next hg hmay hr ha⟩
  ended us g raced r e hg hmay hr he _ := by
    obtain rfl := hmay.raced raced rfl
    rw [over?_eq_look] at he
    exact ⟨_, ⟨isOver_of_look he, rfl⟩, Looked.found hr he⟩

section Settlements

variable (h : c.Begins n us₀ ext bet ctx) (hrun : us₀ ++ [.step n] <+: us)
include h hrun

theorem Begins.under {W : Watch} {R : List Turn → W.State → Prop} (hW : W.Follows c n R)
    {E : W.State → Stage ⊕ Reply → Prop} {g₀ : W.State}
    (hgoes : ∀ g stage, E g (.inl stage) → ∃ s, stage = .settle s ∧
      (s.round.observed >>= Session.settleRound).Under W (W.idle g) E)
    (hstart : ∀ config, (Settlement.start config ctx ext bet >>= Session.settleRound).Under W g₀ E)
    (hR : R (us₀ ++ [.step n]) g₀) {q : Program (Stage ⊕ Reply)}
    (hq : c.program? us n = some q) : ∃ g, R us g ∧ q.Under W g E := by
  obtain ⟨name, hop, rfl⟩ := h.call
  exact hW.settlement hop h.first hrun hgoes (hstart _) hR hq

theorem Begins.looks {q : Program (Stage ⊕ Reply)} (hq : c.program? us n = some q) :
    ∃ g, c.Looked n ctx us g ∧ q.Under (looks ctx) g (Look.Goes ctx) := by
  have hstart : c.Looked n ctx (us₀ ++ [.step n]) .unseen := trivial
  refine h.under hrun (looks_follow h.probes n ctx) ?_ (fun config => ?_) hstart hq
  · rintro g stage ⟨hg, s, rfl, rfl⟩
    refine ⟨s, rfl, Program.under_again ?_ s⟩
    cases g with
    | ended e => exact hg.elim
    | unseen => trivial
    | clear => trivial
  · exact Program.under_start (g := .unseen) trivial config ext bet

theorem Begins.may (hr : c.request? us n = some r) :
    ∃ g raced, c.Looked n ctx us g ∧ g.May ctx raced r := by
  obtain ⟨q, hq, hqr⟩ := Option.bind_eq_some_iff.mp hr
  obtain ⟨g, hg, hunder⟩ := h.looks hrun hq
  obtain ⟨raced, hmay⟩ := hunder.may hqr
  exact ⟨g, raced, hg, hmay⟩

theorem Begins.settles (hr : c.request? us n = some r) : r.isSettling = true := by
  obtain ⟨g, raced, -, hmay⟩ := h.may hrun hr
  exact hmay.settles

theorem Begins.commit_looks (hr : c.request? us n = some .commit) :
    ∃ v, c.LooksOpen n ctx v us := by
  obtain ⟨g, raced, hg, hmay⟩ := h.may hrun hr
  rw [hmay.commits rfl] at hg
  exact hg

theorem Begins.began (hx : x <+: us) {q : Program (Stage ⊕ Reply)} (hq : c.program? x n = some q)
    (hstart : ∀ op, q ≠ .done (.inl (.start op))) : us₀ ++ [.step n] <+: x := by
  rcases prefix_or_step hx hrun with hpre | hpre
  · exact (h.first (hpre.mem (begun hq hstart))).elim
  · exact hpre

theorem Begins.began_of_request (hx : x <+: us) (hr : c.request? x n = some r) :
    us₀ ++ [.step n] <+: x := by
  obtain ⟨q, hq, hqr⟩ := Option.bind_eq_some_iff.mp hr
  refine h.began hrun hx hq fun op hop => ?_
  rw [hop] at hqr
  cases hqr

theorem Begins.commit_of_change (hx : x <+: us)
    (hchange : c.ledger (x ++ [.step n]) ≠ c.ledger x) : c.request? x n = some .commit := by
  by_contra hne
  refine hchange (ledger_step fun r hr =>
    ⟨.inl (h.settles (h.began_of_request hrun hx hr) hr), ?_⟩)
  rintro rfl
  exact hne hr

theorem Begins.found_over (hans : c.answer? us n = some (.settlementError e))
    (he : e.isOver = true) : ∃ v, c.FoundOver n ctx e v us := by
  rcases answer_cases hans with ⟨q, hq, ha⟩ | ⟨x, hx, hdone⟩
  · obtain ⟨g, hg, hunder⟩ := h.looks hrun hq
    rw [Program.over_of_answer? hunder _ ha he] at hg
    exact hg
  · have hbegan := h.began hrun hx hdone (by rintro op ⟨⟩)
    obtain ⟨g, hg, hunder⟩ := h.looks hbegan hdone
    rw [Program.over_of_answer? hunder 0 rfl he] at hg
    obtain ⟨v, hv⟩ := hg
    refine ⟨v, hv.toSince.extend hx fun y r hy hy' hr => ?_, hv.request, hv.isOver⟩
    rw [request?_of_answer hy hdone] at hr
    cases hr

end Settlements

theorem LooksOpen.before (h : c.LooksOpen n ctx v us) (hx : x <+: us)
    (hover : ¬ctx.Open (c.after x).world) : v ++ [.step n] <+: x := by
  rcases prefix_or_step hx h.turn with hpre | hpre
  · exact (hover ((c.later hpre).open h.isOpen)).elim
  · exact hpre

theorem LooksOpen.no_commit (h : c.LooksOpen n ctx v us) (hover : ¬ctx.Open (c.after x).world)
    (hx : x <+: y) (hr : c.request? y n = some .commit) : ¬y ++ [.step n] <+: us := by
  intro hy
  have hv := h.before (hx.trans ((List.prefix_append _ _).trans hy)) hover
  cases h.asks y .commit (hv.trans hx) hy hr

/-- How a caller has given up is told in the same way later on, unless by a cancellation that
came after the deadline. -/
theorem over_later (hx : x <+: y) {e₀ : SettlementError} (h₀ : ctx.Over (c.after x).world e₀)
    (h : ctx.Over (c.after y).world e) : e = e₀ ∨ e₀ = .deadlineExceeded ∧ e = .cancelled := by
  rw [h₀.error, h.error]
  split
  · split
    · exact .inl rfl
    · exact .inr ⟨rfl, rfl⟩
  · rename_i hset
    rw [if_neg fun hset₀ => hset ?_]
    · exact .inl rfl
    · obtain ⟨signal, hsignal, hcancelled⟩ := (Option.any_eq_true _ _).mp hset₀
      exact (Option.any_eq_true _ _).mpr
        ⟨signal, hsignal, (c.later hx).cancelled signal hcancelled⟩

def Declines (c : Scenario) (n : Nat) (ctx : Context) (us : List Turn) (m : Nat) : Prop :=
  ¬ctx.Open (c.after us).world ∧ m = 6 - us.count (.step n)

theorem Declines.other {m : Nat} (h : c.Declines n ctx us m) (hu : u ≠ .step n) :
    c.Declines n ctx (us ++ [u]) m := by
  refine ⟨fun ho => h.1 ((c.later_turn us u).open ho), ?_⟩
  rw [List.count_append, List.count_singleton, h.2]
  simp [hu]

theorem Declines.step {m : Nat} (h : c.Declines n ctx us m) :
    c.Declines n ctx (us ++ [.step n]) (m - 1) := by
  refine ⟨fun ho => h.1 ((c.later_turn us _).open ho), ?_⟩
  rw [List.count_append, List.count_singleton_self, h.2]
  omega

theorem declines_follow (c : Scenario) (n : Nat) (ctx : Context) :
    (declines ctx).Follows c n (c.Declines n ctx) where
  other us m u hm hu _ := Declines.other hm hu
  idle us m hm _ := Declines.step hm
  wait us m raced r _ hmay hr ha _ := by
    have hsuspends := suspends_of_wait hr ha
    rcases hmay.2 with rfl | ⟨e, rfl⟩ | ⟨-, rfl | rfl⟩
    all_goals cases hsuspends
  next us m raced r a hm hmay hr ha _ := by
    refine ⟨_, ⟨?_, rfl⟩, Declines.step hm⟩
    rcases hmay.2 with rfl | ⟨e, rfl⟩ | ⟨-, rfl | rfl⟩
    · trivial
    · trivial
    · trivial
    · have hlook : (c.after us).world.look ctx = a := Option.some.inj ha
      cases a with
      | none => exact (hm.1 (look_eq_none_iff.mp hlook)).elim
      | some e => exact ⟨e, rfl, isOver_of_look hlook⟩
  ended us m raced r e _ hmay := nomatch hmay.1

section Declining

variable (h : c.Begins n us₀ ext bet ctx) (hover : ¬ctx.Open (c.after us₀).world)
  (hrun : us₀ ++ [.step n] <+: us)
include h hover hrun

theorem Begins.declines {q : Program (Stage ⊕ Reply)} (hq : c.program? us n = some q) :
    ∃ m, c.Declines n ctx us m ∧ q.Under (declines ctx) m (Declined ctx) := by
  have hstart : c.Declines n ctx (us₀ ++ [.step n]) 5 := by
    refine ⟨fun ho => hover ((c.later_turn us₀ _).open ho), ?_⟩
    rw [List.count_append, List.count_eq_zero_of_not_mem h.first, List.count_singleton_self]
  refine h.under hrun (declines_follow c n ctx) ?_ (fun config => ?_) hstart hq
  · rintro m stage ⟨hm, s, rfl, rfl⟩
    exact ⟨s, rfl, Program.declines_again (Nat.sub_pos_of_lt hm) s⟩
  · exact Program.declines_start config ext h.accepted

theorem Begins.aloof (hr : c.request? us n = some r) :
    r = .clock ∨ (∃ e, r = .emit e) ∨ r = .entropy ∨ r = .check ctx := by
  obtain ⟨q, hq, hqr⟩ := Option.bind_eq_some_iff.mp hr
  obtain ⟨m, -, hunder⟩ := h.declines hover hrun hq
  obtain ⟨raced, -, hr⟩ := hunder.may hqr
  rcases hr with hr | hr | ⟨-, hr⟩
  · exact .inl hr
  · exact .inr (.inl hr)
  · exact .inr (.inr hr)

/-- No step of a settlement that declines touches the store, its lock or those who wait for
it. -/
theorem Begins.untouched (hx : x <+: us) :
    (c.after (x ++ [.step n])).world.store = (c.after x).world.store ∧
      (c.after (x ++ [.step n])).world.holder = (c.after x).world.holder ∧
      (c.after (x ++ [.step n])).world.queue = (c.after x).world.queue := by
  have hcrash : c.program? x n ≠ some .crash := by
    intro hq
    obtain ⟨m, -, hunder⟩ := h.declines hover (h.began hrun hx hq (by rintro op ⟨⟩)) hq
    exact hunder
  rcases c.world_step x n hcrash with hw | ⟨r, hr, hw⟩
  · rw [hw]
    exact ⟨rfl, rfl, rfl⟩
  · have hbegan := h.began_of_request hrun hx hr
    rcases h.aloof hover hbegan hr with rfl | ⟨e, rfl⟩ | rfl | rfl
    all_goals
      rcases hw with hw | hw
      all_goals
        rw [hw]
        exact ⟨rfl, rfl, rfl⟩

theorem Begins.answers (hdrop : .drop n ∉ us) (hcount : 6 ≤ us.count (.step n)) :
    ∃ e, e.isOver = true ∧ c.answer? us n = some (.settlementError e) := by
  obtain ⟨name, hop, -⟩ := h.call
  rcases c.program?_or_ended us (List.getElem?_eq_some_iff.mp hop).1 with
    ⟨q, hq⟩ | ⟨ending, hended, hans⟩
  · obtain ⟨m, ⟨-, rfl⟩, hunder⟩ := h.declines hover hrun hq
    rw [Nat.sub_eq_zero_of_le hcount] at hunder
    obtain ⟨e, he, hover⟩ := Program.answer?_of_declined hunder (c.after us).world.clock
    obtain ⟨limit, ht⟩ := program?_eq_some.mp hq
    refine ⟨e, hover, ?_⟩
    rw [answer?, ht]
    exact he
  · cases hended with
    | answered x r hx hdone =>
      obtain ⟨m, -, e, rfl, he⟩ := h.declines hover (h.began hrun hx hdone (by rintro op ⟨⟩)) hdone
      exact ⟨e, he, hans _ rfl⟩
    | crashed x hx hcrash =>
      obtain ⟨m, -, hunder⟩ := h.declines hover (h.began hrun hx hcrash (by rintro op ⟨⟩)) hcrash
      exact hunder.elim
    | dropped turn => exact (hdrop turn).elim

end Declining

/-- What a settlement does for a caller who gives up. Each of its commits comes right after a look
that found the context open: whatever is over by then has ended since that look, and nothing but
a note was made after it. No other step of the call changes the ledger, so once the context is
over the call changes it no more than once, and by a commit whose look came before. An error of
the context that it answers is the cancellation if the signal was set when it was found, and the
deadline otherwise; from there on the call only closes what it has begun. If the context is over
from the start, its steps leave the store and the lock alone, and it answers so, or with a
cancellation that came after the deadline. -/
theorem settle_gives_up (h : c.Begins n us₀ ext bet ctx) (hrun : us₀ ++ [.step n] <+: us) :
    (∀ x, x ++ [.step n] <+: us → c.request? x n = some .commit →
      ∃ v, c.LooksOpen n ctx v x ∧
        ∀ y, y <+: x → ¬ctx.Open (c.after y).world → v ++ [.step n] <+: y) ∧
    (∀ x, x ++ [.step n] <+: us → c.ledger (x ++ [.step n]) ≠ c.ledger x →
      c.request? x n = some .commit) ∧
    (∀ y, ¬ctx.Open (c.after y).world → ∀ x x', y <+: x → y <+: x' → x ++ [.step n] <+: us →
      x' ++ [.step n] <+: us → c.ledger (x ++ [.step n]) ≠ c.ledger x →
        c.ledger (x' ++ [.step n]) ≠ c.ledger x' → x = x') ∧
    (∀ e, e.isOver = true → c.answer? us n = some (.settlementError e) →
      ∃ v, c.FoundOver n ctx e v us) ∧
    ∀ e₀, ctx.Over (c.after us₀).world e₀ →
      (∀ x, x ++ [.step n] <+: us →
        (c.after (x ++ [.step n])).world.store = (c.after x).world.store ∧
          (c.after (x ++ [.step n])).world.holder = (c.after x).world.holder ∧
          (c.after (x ++ [.step n])).world.queue = (c.after x).world.queue) ∧
      (.drop n ∉ us → 6 ≤ us.count (.step n) →
        ∃ e, c.answer? us n = some (.settlementError e) ∧
          (e = e₀ ∨ e₀ = .deadlineExceeded ∧ e = .cancelled)) := by
  have hback : ∀ {x}, x ++ [.step n] <+: us → x <+: us := fun hx =>
    (List.prefix_append _ _).trans hx
  have hcommit : ∀ x, x ++ [.step n] <+: us → c.request? x n = some .commit →
      ∃ v, c.LooksOpen n ctx v x := fun x hx hr =>
    h.commit_looks (h.began_of_request hrun (hback hx) hr) hr
  have hchange : ∀ x, x ++ [.step n] <+: us → c.ledger (x ++ [.step n]) ≠ c.ledger x →
      c.request? x n = some .commit := fun x hx =>
    h.commit_of_change hrun (hback hx)
  refine ⟨fun x hx hr => ?_, hchange, fun y hover x x' hy hy' hx hx' hne hne' => ?_,
    fun e he hans => h.found_over hrun hans he, fun e₀ he₀ => ⟨?_, ?_⟩⟩
  · obtain ⟨v, hv⟩ := hcommit x hx hr
    exact ⟨v, hv, fun y => hv.before⟩
  · -- Of two such commits the later one's look would be older than the earlier one.
    have hr := hchange x hx hne
    have hr' := hchange x' hx' hne'
    obtain ⟨v, hv⟩ := hcommit x hx hr
    obtain ⟨v', hv'⟩ := hcommit x' hx' hr'
    rcases prefix_or_step (hback hx) hx' with hpre | hpre
    · rcases prefix_or_step (hback hx') hx with hpre' | hpre'
      · exact hpre.eq_of_length_le hpre'.length_le
      · exact (hv'.no_commit hover hy hr hpre').elim
    · exact (hv.no_commit hover hy' hr' hpre).elim
  · exact fun x hx => h.untouched he₀.ended hrun (hback hx)
  · intro hdrop hcount
    obtain ⟨e, he, hans⟩ := h.answers he₀.ended hrun hdrop hcount
    obtain ⟨v, hv⟩ := h.found_over hrun hans he
    have hpre : v <+: us := (List.prefix_append _ _).trans hv.turn
    obtain ⟨r, hr⟩ := Option.isSome_iff_exists.mp hv.request
    have hstart : us₀ <+: v := (List.prefix_append _ _).trans (h.began_of_request hrun hpre hr)
    exact ⟨e, hans, over_later hstart he₀ hv.isOver⟩

/-- A settlement whose deadline passes while it commits, and another one after it, which is
cancelled on top. -/
def lateSpin : Scenario where
  config := .standard
  entropy _ := .ofList []
  probes := []
  calls := [.seed .nil .ten, .context "caller" true none [.ofMillis 5] [],
    .settle .nil .two (some "caller"), .settle .nil .two (some "caller"), .cancel "caller"]

def lateCaller : Context := ⟨some 0, some 5000000⟩

def beforeLateSpin : List Turn := List.replicate 5 (.step 0) ++ List.replicate 5 (.step 1)

def lateCommit : List Turn := beforeLateSpin ++ List.replicate 28 (.step 2) ++ [.wait 10, .step 2]

def afterLateSpin : List Turn := lateCommit ++ List.replicate 6 (.step 2)

def lateSpinTurns : List Turn :=
  afterLateSpin ++ List.replicate 5 (.step 3) ++ List.replicate 8 (.step 4) ++
    List.replicate 5 (.step 3)

theorem lateSpin_begins : lateSpin.Begins 2 beforeLateSpin .nil .two lateCaller := by
  refine ⟨rfl, ⟨some "caller", rfl, ?_⟩, ?_, ?_⟩
  · decide +kernel
  · decide +kernel
  · decide

theorem lateSpin_begins_again : lateSpin.Begins 3 afterLateSpin .nil .two lateCaller := by
  refine ⟨rfl, ⟨some "caller", rfl, ?_⟩, ?_, ?_⟩
  · decide +kernel
  · decide +kernel
  · decide

theorem lateCaller_over : lateCaller.Over (lateSpin.after afterLateSpin).world .deadlineExceeded :=
  look_eq_some_iff.mp (by decide +kernel)

theorem lateCommit_over : ¬lateCaller.Open (lateSpin.after lateCommit).world := by
  have hlook : (lateSpin.after lateCommit).world.look lateCaller = some .deadlineExceeded := by
    decide +kernel
  exact (look_eq_some_iff.mp hlook).ended

theorem lateCommit_changes :
    lateSpin.ledger (lateCommit ++ [.step 2]) ≠ lateSpin.ledger lateCommit := by
  intro h
  have hspins := congrArg (·.spins.length) h
  revert hspins
  decide +kernel

theorem settle_gives_up_lateSpin :
    lateSpin.Begins 2 beforeLateSpin .nil .two lateCaller ∧
      beforeLateSpin ++ [.step 2] <+: lateSpinTurns ∧
      lateCommit ++ [.step 2] <+: lateSpinTurns ∧
      (∃ v, lateSpin.LooksOpen 2 lateCaller v lateCommit ∧ v ++ [.step 2] <+: lateCommit) ∧
      (∀ x, lateCommit <+: x → x ++ [.step 2] <+: lateSpinTurns →
        lateSpin.ledger (x ++ [.step 2]) ≠ lateSpin.ledger x → x = lateCommit) ∧
      lateSpin.Begins 3 afterLateSpin .nil .two lateCaller ∧
      afterLateSpin ++ [.step 3] <+: lateSpinTurns ∧
      lateSpin.answer? lateSpinTurns 3 = some (.settlementError .cancelled) ∧
      (∃ v, lateSpin.FoundOver 3 lateCaller .cancelled v lateSpinTurns) ∧
      (lateSpin.after (afterLateSpin ++ [.step 3])).world.store =
        (lateSpin.after afterLateSpin).world.store := by
  have hrun : beforeLateSpin ++ [.step 2] <+: lateSpinTurns := by decide
  have hcommit : lateCommit ++ [.step 2] <+: lateSpinTurns := by decide
  have hagain : afterLateSpin ++ [.step 3] <+: lateSpinTurns := by decide
  have hans : lateSpin.answer? lateSpinTurns 3 = some (.settlementError .cancelled) := by
    decide +kernel
  obtain ⟨hlooks, hchanges, honce, -, -⟩ := settle_gives_up lateSpin_begins hrun
  obtain ⟨-, -, -, hfound, hstart⟩ := settle_gives_up lateSpin_begins_again hagain
  obtain ⟨v, hv, hbefore⟩ := hlooks _ hcommit (hchanges _ hcommit lateCommit_changes)
  refine ⟨lateSpin_begins, hrun, hcommit, ⟨v, hv, hbefore _ List.prefix_rfl lateCommit_over⟩,
    fun x hx hx' hne => ?_, lateSpin_begins_again, hagain, hans, hfound _ rfl hans, ?_⟩
  · exact honce _ lateCommit_over _ _ hx List.prefix_rfl hx' hcommit hne lateCommit_changes
  · exact ((hstart _ lateCaller_over).1 _ hagain).1

/-- A settlement can commit for a caller whose deadline has passed since its last look, and one
that begins after the deadline can answer with a cancellation that came later. -/
theorem commits_past_deadline :
    lateSpin.Begins 2 beforeLateSpin .nil .two lateCaller ∧
      lateCommit ++ [.step 2] <+: lateSpinTurns ∧
      ¬lateCaller.Open (lateSpin.after lateCommit).world ∧
      lateSpin.ledger (lateCommit ++ [.step 2]) ≠ lateSpin.ledger lateCommit ∧
      (∃ spin net, lateSpin.answer? lateSpinTurns 2 = some (.settled spin net)) ∧
      lateSpin.Begins 3 afterLateSpin .nil .two lateCaller ∧
      lateCaller.Over (lateSpin.after afterLateSpin).world .deadlineExceeded ∧
      lateSpin.answer? lateSpinTurns 3 = some (.settlementError .cancelled) := by
  refine ⟨lateSpin_begins, by decide, lateCommit_over, lateCommit_changes, ?_,
    lateSpin_begins_again, lateCaller_over, by decide +kernel⟩
  have hans : (lateSpin.answer? lateSpinTurns 2).any
      (fun | .settled _ _ => true | _ => false) = true := by
    decide +kernel
  obtain ⟨reply, hreply, hsettled⟩ := (Option.any_eq_true _ _).mp hans
  cases reply with
  | settled spin net => exact ⟨spin, net, hreply⟩
  | _ => cases hsettled

end WagerLedger.Scenario

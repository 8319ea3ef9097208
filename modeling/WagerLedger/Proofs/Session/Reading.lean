import WagerLedger.Proofs.Session.Marking
import WagerLedger.Proofs.Session.Numbering

/-! # What the calls of an attempt have read

From its first data call to the end of its transaction an attempt has the lock, so at all its
data calls the committed ledger is the same. What the watch on its reads tells of that ledger
is true of the run. -/
namespace WagerLedger.Scenario

open World

variable {c : Scenario} {n : Nat} {v us x : List Turn} {u : Turn} {l : Ledger} {g : Reading}
  {r : Request}

/-- Between two moments of a run, the step after `x` is one with a data call. -/
structure Reads (c : Scenario) (n : Nat) (v us x : List Turn) : Prop where
  begun : v <+: x
  turn : x ++ [.step n] <+: us
  request : ∃ d, c.request? x n = some (.data d)

/-- There has been a data call, and at each of them the committed ledger was this one. -/
def Saw (c : Scenario) (n : Nat) (v us : List Turn) (l : Ledger) : Prop :=
  (∃ x, c.Reads n v us x) ∧ ∀ x, c.Reads n v us x → c.ledger x = l

/-- How far the call has come with the store since `v`. -/
def Readings (c : Scenario) (n : Nat) (v us : List Turn) : Reading → Prop
  | .fresh => ∀ x, ¬c.Reads n v us x
  | .opened => (∀ x, ¬c.Reads n v us x) ∧ (c.after us).world.holder = some (n + 1, .empty)
  | .reading l t =>
    c.Saw n v us l ∧ (c.after us).world.holder = some (n + 1, t) ∧ c.ledger us = l
  | .left l => c.Saw n v us l

theorem reads_append_iff (hno : u = .step n → ∀ d, c.request? us n ≠ some (.data d)) :
    c.Reads n v (us ++ [u]) x ↔ c.Reads n v us x := by
  constructor
  · rintro ⟨hv, hx, d, hd⟩
    rcases List.prefix_concat_iff.mp hx with heq | hx
    · obtain ⟨rfl, hu⟩ := List.append_inj' heq rfl
      cases hu
      exact (hno rfl d hd).elim
    · exact ⟨hv, hx, d, hd⟩
  · rintro ⟨hv, hx, d, hd⟩
    exact ⟨hv, hx.trans (List.prefix_append _ _), d, hd⟩

theorem Saw.append (h : c.Saw n v us l) (hno : u = .step n → ∀ d, c.request? us n ≠ some (.data d)) :
    c.Saw n v (us ++ [u]) l := by
  obtain ⟨⟨x, hx⟩, hall⟩ := h
  exact ⟨⟨x, (reads_append_iff hno).mpr hx⟩, fun y hy => hall y ((reads_append_iff hno).mp hy)⟩

theorem Readings.append (h : c.Readings n v us g)
    (hno : u = .step n → ∀ d, c.request? us n ≠ some (.data d))
    (hheld : g.Holds → (c.after us).world.Held (c.after (us ++ [u])).world) :
    c.Readings n v (us ++ [u]) g := by
  cases g with
  | fresh => exact fun x hx => h x ((reads_append_iff hno).mp hx)
  | opened =>
    have hholder := (hheld trivial).holder
    exact ⟨fun x hx => h.1 x ((reads_append_iff hno).mp hx), hholder.trans h.2⟩
  | reading l t =>
    obtain ⟨hsaw, hholder, hl⟩ := h
    have hkept := hheld trivial
    exact ⟨hsaw.append hno, hkept.holder.trans hholder, hkept.ledger.trans hl⟩
  | left l => exact Saw.append h hno

theorem Readings.leave (h : c.Readings n v us g)
    (hno : u = .step n → ∀ d, c.request? us n ≠ some (.data d)) :
    c.Readings n v (us ++ [u]) (reads.idle g) := by
  cases g with
  | fresh => exact fun x hx => h x ((reads_append_iff hno).mp hx)
  | opened => exact fun x hx => h.1 x ((reads_append_iff hno).mp hx)
  | reading l t => exact Saw.append h.1 hno
  | left l => exact Saw.append h hno

theorem saw_step (hv : v <+: us) (hr : ∃ d, c.request? us n = some (.data d))
    (h : ∀ x, c.Reads n v us x → c.ledger x = c.ledger us) :
    c.Saw n v (us ++ [.step n]) (c.ledger us) := by
  refine ⟨⟨us, hv, List.prefix_rfl, hr⟩, fun x hx => ?_⟩
  rcases List.prefix_concat_iff.mp hx.turn with heq | hpre
  · obtain ⟨rfl, -⟩ := List.append_inj' heq rfl
    rfl
  · exact h x ⟨hx.begun, hpre, hx.request⟩

theorem held_of_quiet {w : World} (hr : r.isQuiet = true) (i : ClientId) :
    w.Held (w.perform i r).2 :=
  ⟨(like_perform hr).holder, (like_perform hr).ledger⟩

theorem canFail {w : World} {i : ClientId} {a : r.Answer} (ha : (w.perform i r).1 = some a) :
    r.CanFail a := by
  cases r
  case arrive =>
    intro e he
    rcases w.store.visit_cases .begin with ⟨f, hv⟩ | ⟨f, hv⟩
    · have ha' : some (w.store.visit .begin).1 = some a := ha
      rw [hv, Option.some.injEq, he] at ha'
      cases ha'
      exact ⟨_, rfl⟩
    · have ha' : some (w.store.visit .begin).1 = some a := ha
      rw [hv, Option.some.injEq, he] at ha'
      cases ha'
  case commit =>
    intro e he
    have ha' : (w.commit i).1 = some a := ha
    unfold World.commit at ha'
    split at ha'
    · cases ha'
    · rename_i t ht
      rcases w.store.commit_cases t with ⟨f, hc⟩ | ⟨f, hc⟩
      · rw [hc, he] at ha'
        cases ha'
        exact ⟨_, rfl⟩
      · rw [hc, he] at ha'
        cases ha'
  all_goals trivial

theorem holder_of_acquire (hr : c.request? us n = some .acquire)
    (ha : ((c.after us).world.perform (n + 1) .acquire).1 = some ()) :
    ((c.after us).world.perform (n + 1) .acquire).2.holder = some (n + 1, .empty) := by
  obtain ⟨φ, htracks⟩ := c.tracked us
  obtain ⟨q, hq, hqr⟩ := Option.bind_eq_some_iff.mp hr
  obtain ⟨limit, ht⟩ := program?_eq_some.mp hq
  obtain ⟨-, Q, hφ, -⟩ := htracks.allows ht hqr
  have hwaits : (c.after us).Waits n := (Tracks.waits_iff ht).mpr hqr
  rcases acquire_spec htracks.agrees hφ hwaits with ⟨-, hadv⟩ | ⟨hnone, -⟩
  · exact (hadv.self True).1
  · cases hnone.symm.trans ha

theorem data_answers {w : World} {i : ClientId} {t : Transaction} {d : DataCall}
    (ht : w.holder = some (i, t)) {a : Except LedgerError d.Answer}
    (ha : (w.perform i (.data d)).1 = some a) :
    ∃ t', d.Answers w.store.ledger t a t' ∧ (w.perform i (.data d)).2.holder = some (i, t') ∧
      (w.perform i (.data d)).2.store.ledger = w.store.ledger := by
  have hdata : w.perform i (.data d) = (some (w.store.call t d).1,
      { w with store := (w.store.call t d).2.2, holder := some (i, (w.store.call t d).2.1) }) := by
    change w.data i d = _
    rw [World.data, transaction?_of_holder ht]
  rw [hdata] at ha ⊢
  rcases w.store.call_cases t d with ⟨-, p, f, -, hc⟩ | ⟨-, f, hc⟩
  · rw [hc] at ha ⊢
    cases ha
    exact ⟨t, .inl ⟨p, rfl, rfl⟩, rfl, rfl⟩
  · rw [hc] at ha ⊢
    cases ha
    exact ⟨_, .inr ⟨rfl, rfl⟩, rfl, rfl⟩

theorem readings_data (hv : v <+: us) (h : c.Readings n v us g) (hholds : g.Holds) {d : DataCall}
    (hr : c.request? us n = some (.data d)) {a : Except LedgerError d.Answer}
    (ha : ((c.after us).world.perform (n + 1) (.data d)).1 = some a)
    (hworld : (c.after (us ++ [.step n])).world =
      ((c.after us).world.perform (n + 1) (.data d)).2) :
    ∃ g', g.Goes (.data d) a g' ∧ c.Readings n v (us ++ [.step n]) g' := by
  cases g with
  | fresh => exact hholds.elim
  | left l => exact hholds.elim
  | opened =>
    obtain ⟨hno, hholder⟩ := h
    obtain ⟨t', hans, hholder', hl⟩ := data_answers hholder ha
    rw [← hworld] at hholder' hl
    refine ⟨.reading (c.ledger us) t', ⟨_, _, (c.numbered us).ledger.consistent, hans, rfl⟩, ?_⟩
    exact ⟨saw_step hv ⟨d, hr⟩ fun x hx => (hno x hx).elim, hholder', hl⟩
  | reading l t =>
    obtain ⟨hsaw, hholder, rfl⟩ := h
    obtain ⟨t', hans, hholder', hl⟩ := data_answers hholder ha
    rw [← hworld] at hholder' hl
    exact ⟨.reading (c.ledger us) t', ⟨t', hans, rfl⟩, saw_step hv ⟨d, hr⟩ hsaw.2, hholder', hl⟩

theorem readings_next (hv : v <+: us) (hg : c.Readings n v us g) (hmay : g.May r)
    (hr : c.request? us n = some r) {a : r.Answer}
    (ha : ((c.after us).world.perform (n + 1) r).1 = some a)
    (hworld : (c.after (us ++ [.step n])).world = ((c.after us).world.perform (n + 1) r).2) :
    ∃ g', g.Goes r a g' ∧ c.Readings n v (us ++ [.step n]) g' := by
  have hno (hne : ∀ d, r ≠ .data d) (_ : Turn.step n = .step n) (d : DataCall) :
      c.request? us n ≠ some (.data d) :=
    fun hd => hne d (Option.some.inj (hr.symm.trans hd))
  have hstay (hquiet : r.isQuiet = true) : c.Readings n v (us ++ [.step n]) g := by
    refine hg.append (hno ?_) fun _ => ?_
    · rintro d rfl
      cases hquiet
    · rw [hworld]
      exact held_of_quiet hquiet _
  have hsettles := hmay.settles
  cases r
  case data d => exact readings_data hv hg (hmay.holds d rfl) hr ha hworld
  case acquire =>
    obtain rfl := hmay.acquires rfl
    refine ⟨.opened, rfl, fun x hx => hg x ((reads_append_iff (hno nofun)).mp hx), ?_⟩
    rw [hworld]
    exact holder_of_acquire hr ha
  case commit => exact ⟨reads.idle g, by cases g <;> rfl, hg.leave (hno nofun)⟩
  case rollback => exact ⟨reads.idle g, by cases g <;> rfl, hg.leave (hno nofun)⟩
  case arrive => exact ⟨g, by cases g <;> rfl, hstay rfl⟩
  case check ctx => exact ⟨g, by cases g <;> rfl, hstay rfl⟩
  case poll => exact ⟨g, by cases g <;> rfl, hstay rfl⟩
  case note call => exact ⟨g, by cases g <;> rfl, hstay rfl⟩
  case sleep d => exact ⟨g, by cases g <;> rfl, hstay rfl⟩
  case clock => exact ⟨g, by cases g <;> rfl, hstay rfl⟩
  case entropy => exact ⟨g, by cases g <;> rfl, hstay rfl⟩
  case emit e => exact ⟨g, by cases g <;> rfl, hstay rfl⟩
  all_goals cases hsettles

/-- A race that is given up leaves the lock and the ledger alone, unless it was for the lock. -/
theorem readings_over (hv : v <+: us) (hg : c.Readings n v us g) (hmay : g.May r)
    (hr : c.request? us n = some r)
    (hworld : (c.after (us ++ [.step n])).world = (c.after us).world.giveUp (n + 1) r) :
    ∃ g', c.Readings n v (us ++ [.step n]) g' := by
  have hno (hne : ∀ d, r ≠ .data d) (_ : Turn.step n = .step n) (d : DataCall) :
      c.request? us n ≠ some (.data d) :=
    fun hd => hne d (Option.some.inj (hr.symm.trans hd))
  by_cases hdata : ∃ d, r = .data d
  · obtain ⟨d, rfl⟩ := hdata
    have hholds := hmay.holds d rfl
    have hsame : (c.after (us ++ [.step n])).world = (c.after us).world := hworld
    have hledger : c.ledger (us ++ [.step n]) = c.ledger us := by
      rw [ledger, hsame]
      rfl
    cases g with
    | fresh => exact hholds.elim
    | left l => exact hholds.elim
    | opened =>
      refine ⟨.reading (c.ledger us) .empty, saw_step hv ⟨d, hr⟩ fun x hx => ?_, ?_, hledger⟩
      · exact (hg.1 x hx).elim
      · rw [hsame]
        exact hg.2
    | reading l t =>
      obtain ⟨hsaw, hholder, rfl⟩ := hg
      refine ⟨.reading (c.ledger us) t, saw_step hv ⟨d, hr⟩ hsaw.2, ?_, hledger⟩
      rw [hsame]
      exact hholder
  · have hnodata := hno fun d hd => hdata ⟨d, hd⟩
    refine ⟨g, hg.append hnodata fun hholds => ?_⟩
    have hne : r ≠ .acquire := by
      rintro rfl
      rw [hmay.acquires rfl] at hholds
      exact hholds
    rw [hworld]
    exact ⟨(giveUp_like hne).holder, (giveUp_like hne).ledger⟩

/-- What an attempt has read is true of the run. -/
theorem reads_follow (hprobes : c.probes = []) (n : Nat) (v : List Turn) :
    reads.Follows c n fun us g => v <+: us ∧ c.Readings n v us g where
  other us g u := by
    rintro ⟨hv, hg⟩ hu halive
    refine ⟨hv.trans (List.prefix_append _ _), hg.append (fun h => (hu h).elim) fun hholds => ?_⟩
    cases g with
    | fresh => exact hholds.elim
    | left l => exact hholds.elim
    | opened => exact held_other hg.2 hu halive
    | reading l t => exact held_other hg.2.1 hu halive
  idle us g := by
    rintro ⟨hv, hg⟩ hnone
    refine ⟨hv.trans (List.prefix_append _ _), hg.leave fun _ d hd => ?_⟩
    rw [hnone] at hd
    cases hd
  wait us g x r := by
    rintro ⟨hv, hg⟩ hmay hr ha hworld
    -- A client that waits holds nothing, unless it sleeps in its transaction.
    have hsuspends := suspends_of_wait hr ha
    refine ⟨hv.trans (List.prefix_append _ _), hg.append (fun _ d hd => ?_) fun hholds => ?_⟩
    · cases hr.symm.trans hd
      cases hsuspends
    · rw [hworld]
      cases r
      case acquire =>
        rw [hmay.acquires rfl] at hholds
        exact hholds.elim
      case sleep => exact held_of_quiet rfl _
      case never => exact held_of_quiet rfl _
      all_goals cases hsuspends
  next us g x r a := by
    rintro ⟨hv, hg⟩ hmay hr ha hworld
    obtain ⟨g', hgoes, hg'⟩ := readings_next hv hg hmay hr ha hworld
    have hanswer := canAnswer ((c.probes_eq us).trans hprobes) ha
    exact ⟨g', ⟨hanswer, canFail ha, hgoes⟩, hv.trans (List.prefix_append _ _), hg'⟩
  ended us g x r e := by
    rintro ⟨hv, hg⟩ hmay hr he hworld
    obtain ⟨g', hg'⟩ := readings_over hv hg hmay hr hworld
    rw [over?_eq_look] at he
    exact ⟨g', isOver_of_look he, hv.trans (List.prefix_append _ _), hg'⟩

theorem readings_start (c : Scenario) (n : Nat) (us : List Turn) : c.Readings n us us .fresh := by
  intro x hx
  have hlt : x.length < (x ++ [Turn.step n]).length := by simp
  exact absurd (hlt.trans_le hx.turn.length_le) hx.begun.length_le.not_gt

theorem Readings.saw (h : c.Readings n v us g) (hsaw : g.saw? = some l) : c.Saw n v us l := by
  cases g with
  | fresh => cases hsaw
  | opened => cases hsaw
  | reading l' t =>
    cases hsaw
    exact h.1
  | left l' =>
    cases hsaw
    exact h

section Attempts

variable {us₀ : List Turn} {ctx : Context} {odds : Odds} {ext : Identifier} {bet : Decimal}
  {i : UInt32}
  {f : Except SettlementError Spin → Program (Stage ⊕ Reply)} (hprobes : c.probes = [])
  (hpos : bet.isPositive = true)
  (hq : c.program? us₀ n = some ((Settlement.attempt ctx odds ext bet i).run.observed >>= f))
include hprobes hpos hq

theorem fails_of_ran {e : SettlementError}
    (hran : c.Ran n us₀ (Settlement.attempt ctx odds ext bet i).run.observed us (.error e)) :
    ∃ g : Reading × Marks, c.Readings n us₀ us g.1 ∧ c.Marked n us₀ us g.2 ∧
      Causes odds ext bet g e := by
  have hfollows := (reads_follow hprobes n us₀).both (marks_follow c n us₀)
  have hunder := Program.Under.observed audit_unprobed
    (Program.leads_attempt_audit ctx odds ext hpos (m := ⟨[], false⟩) rfl i)
  obtain ⟨g, ⟨⟨-, hg⟩, hm⟩, hfails⟩ := hfollows.runs hran hq
    ⟨⟨List.prefix_rfl, c.readings_start n us₀⟩, c.marked_start n us₀⟩ hunder
  exact ⟨g, hg, hm, hfails⟩

/-- An attempt that lacks funds has made data calls; at all of them the committed balance of the
account was the one that its error tells, and that is less than the bet. -/
theorem short_of_ran {available required : Decimal}
    (hran : c.Ran n us₀ (Settlement.attempt ctx odds ext bet i).run.observed us
      (.error (.insufficientFunds available required))) :
    required = bet ∧ available.toRat < bet.toRat ∧ (∃ x, c.Reads n us₀ us x) ∧
      ∀ x, c.Reads n us₀ us x →
        ∃ a, (c.ledger x).find? ext = some a ∧ a.balance = available := by
  obtain ⟨g, hg, -, hfails⟩ := fails_of_ran hprobes hpos hq hran
  obtain ⟨hreq, hlt, l, a, hsaw, ha, hb⟩ := hfails.short available required rfl
  have hall := hg.saw hsaw
  exact ⟨hreq, hlt, hall.1, fun x hx => ⟨a, hall.2 x hx ▸ ha, hb⟩⟩

end Attempts

end WagerLedger.Scenario

import WagerLedger.Proofs.Program.Watch
import WagerLedger.Proofs.Session.Course

/-! # Watching a call in its world

A watch follows a call truly if what its states stand for is kept by every turn: by those of
others and of the clock, and by each step of the call with the answer that its world gives. Then
a program that is under the watch stays so, in a state that tells the truth, to its end. -/
namespace WagerLedger

theorem Program.Under.may {α : Type} {W : Watch} {g : W.State} {p : Program α}
    {Q : W.State → α → Prop} (h : p.Under W g Q) {r : Request} (hr : p.request? = some r) :
    ∃ x, W.may g x r := by
  cases p with
  | done a => cases hr
  | crash => cases hr
  | ask r' k =>
    cases hr
    exact ⟨none, h.1⟩
  | race c r' k =>
    cases hr
    exact ⟨some c, h.1⟩

/-- What the states stand for, of the turns so far, is kept by all turns of a run. -/
structure Watch.Follows (W : Watch) (c : Scenario) (n : Nat) (R : List Turn → W.State → Prop) :
    Prop where
  other : ∀ us g u, R us g → u ≠ .step n → (c.program? (us ++ [u]) n).isSome → R (us ++ [u]) g
  idle : ∀ us g, R us g → c.request? us n = none → R (us ++ [.step n]) (W.idle g)
  wait : ∀ us g x r, R us g → W.may g x r → c.request? us n = some r →
    ((c.after us).world.perform (n + 1) r).1 = none →
    (c.after (us ++ [.step n])).world = ((c.after us).world.perform (n + 1) r).2 →
    R (us ++ [.step n]) g
  next : ∀ us g x r a, R us g → W.may g x r → c.request? us n = some r →
    ((c.after us).world.perform (n + 1) r).1 = some a →
    (c.after (us ++ [.step n])).world = ((c.after us).world.perform (n + 1) r).2 →
    ∃ g', W.next g r a g' ∧ R (us ++ [.step n]) g'
  ended : ∀ us g x r e, R us g → W.may g (some x) r → c.request? us n = some r →
    (c.after us).world.over? x = some e →
    (c.after (us ++ [.step n])).world = (c.after us).world.giveUp (n + 1) r →
    ∃ g', W.ended g x r e g' ∧ R (us ++ [.step n]) g'

theorem Watch.Follows.both {W W' : Watch} {c : Scenario} {n : Nat} {R : List Turn → W.State → Prop}
    {R' : List Turn → W'.State → Prop} (h : W.Follows c n R) (h' : W'.Follows c n R') :
    (W.both W').Follows c n fun us g => R us g.1 ∧ R' us g.2 where
  other us g u hR hu halive := ⟨h.other us g.1 u hR.1 hu halive, h'.other us g.2 u hR.2 hu halive⟩
  idle us g hR hnone := ⟨h.idle us g.1 hR.1 hnone, h'.idle us g.2 hR.2 hnone⟩
  wait us g x r hR hmay hr ha hworld :=
    ⟨h.wait us g.1 x r hR.1 hmay.1 hr ha hworld, h'.wait us g.2 x r hR.2 hmay.2 hr ha hworld⟩
  next us g x r a hR hmay hr ha hworld := by
    obtain ⟨g₁, hnext, hR₁⟩ := h.next us g.1 x r a hR.1 hmay.1 hr ha hworld
    obtain ⟨g₂, hnext', hR₂⟩ := h'.next us g.2 x r a hR.2 hmay.2 hr ha hworld
    exact ⟨(g₁, g₂), ⟨hnext, hnext'⟩, hR₁, hR₂⟩
  ended us g x r e hR hmay hr he hworld := by
    obtain ⟨g₁, hended, hR₁⟩ := h.ended us g.1 x r e hR.1 hmay.1 hr he hworld
    obtain ⟨g₂, hended', hR₂⟩ := h'.ended us g.2 x r e hR.2 hmay.2 hr he hworld
    exact ⟨(g₁, g₂), ⟨hended, hended'⟩, hR₁, hR₂⟩

theorem Scenario.program?_first {c : Scenario} {n : Nat} {us : List Turn} {op : Operation}
    (hop : c.calls[n]? = some op) (hfirst : .step n ∉ us)
    {q : Program (Stage ⊕ Reply)} (hq : c.program? (us ++ [.step n]) n = some q) :
    q = (Session.start (c.after us).shared op).1 := by
  have hmem : ∀ {x : List Turn}, x ++ [.step n] <+: us → False := fun h =>
    hfirst (h.mem (List.mem_append_right _ (List.mem_singleton_self _)))
  rcases Scenario.program?_of_step hq with ⟨stage, hstage, rfl⟩ | ⟨q₀, r, hq₀, hr, -⟩
  · rcases Scenario.round_of hstage with ⟨op', hop', h, -⟩ | ⟨x, stage', hx, -⟩
    · cases h
      cases hop.symm.trans hop'
      rfl
    · exact (hmem hx).elim
  · rcases Scenario.round_of hq₀ with ⟨op', -, rfl, -⟩ | ⟨x, stage', hx, -⟩
    · cases hr
    · exact (hmem hx).elim

namespace Watch.Follows

variable {W : Watch} {c : Scenario} {n : Nat} {R : List Turn → W.State → Prop} {us us' : List Turn}
  {g : W.State} {α : Type} {p p' : Program α} {Q : W.State → α → Prop}

theorem step_some (h : W.Follows c n R) (hR : R us g) (hp : p.Under W g Q) {r : Request}
    (hr : p.request? = some r) (hreq : c.request? us n = some r)
    (hworld : (c.after (us ++ [.step n])).world = (p.step (n + 1) (c.after us).world).2)
    (hs : (p.step (n + 1) (c.after us).world).1 = some p') :
    ∃ g', R (us ++ [.step n]) g' ∧ p'.Under W g' Q := by
  cases p with
  | done a => cases hr
  | crash => cases hr
  | ask r' k =>
    cases hr
    obtain ⟨a, ha, rfl⟩ := Option.map_eq_some_iff.mp hs
    obtain ⟨g', hnext, hR'⟩ := h.next us g none r a hR hp.1 hreq ha hworld
    exact ⟨g', hR', hp.2 a g' hnext⟩
  | race x r' k =>
    cases hr
    obtain ⟨hmay, hover, hnext⟩ := hp
    rw [Program.step_race] at hs hworld
    cases he : (c.after us).world.ended? (n + 1) x r with
    | some e =>
      rw [he] at hs hworld
      cases hs
      obtain ⟨g', hg', hR'⟩ := h.ended us g x r e hR hmay hreq (World.over?_of_ended? he) hworld
      exact ⟨g', hR', hover e g' hg'⟩
    | none =>
      rw [he] at hs hworld
      obtain ⟨a, ha, rfl⟩ := Option.map_eq_some_iff.mp hs
      obtain ⟨g', hg', hR'⟩ := h.next us g (some x) r a hR hmay hreq ha hworld
      exact ⟨g', hR', hnext a g' hg'⟩

theorem step_none (h : W.Follows c n R) (hR : R us g) (hp : p.Under W g Q) {r : Request}
    (hr : p.request? = some r) (hreq : c.request? us n = some r)
    (hworld : (c.after (us ++ [.step n])).world = (p.step (n + 1) (c.after us).world).2)
    (hs : (p.step (n + 1) (c.after us).world).1 = none) : R (us ++ [.step n]) g := by
  cases p with
  | done a => cases hr
  | crash => cases hr
  | ask r' k =>
    cases hr
    exact h.wait us g none r hR hp.1 hreq (Option.map_eq_none_iff.mp hs) hworld
  | race x r' k =>
    cases hr
    rw [Program.step_race] at hs hworld
    cases he : (c.after us).world.ended? (n + 1) x r with
    | some e =>
      rw [he] at hs
      cases hs
    | none =>
      rw [he] at hs hworld
      exact h.wait us g (some x) r hR hp.1 hreq (Option.map_eq_none_iff.mp hs) hworld

theorem runs (h : W.Follows c n R) {f : α → Program (Stage ⊕ Reply)}
    (hruns : c.Runs n us p us' p') (hq : c.program? us n = some (p >>= f)) (hR : R us g)
    (hp : p.Under W g Q) : ∃ g', R us' g' ∧ p'.Under W g' Q := by
  induction hruns with
  | refl => exact ⟨g, hR, hp⟩
  | other _ hu halive ih =>
    obtain ⟨g', hR', hp'⟩ := ih
    exact ⟨g', h.other _ _ _ hR' hu halive, hp'⟩
  | wait run hr hs ih =>
    obtain ⟨g', hR', hp'⟩ := ih
    exact ⟨g', h.step_none hR' hp' hr (run.request? hq hr) (run.world hq hr) hs, hp'⟩
  | step run hs ih =>
    obtain ⟨g', hR', hp'⟩ := ih
    obtain ⟨r, hr⟩ := Program.request?_of_step hs
    exact h.step_some hR' hp' hr (run.request? hq hr) (run.world hq hr) hs

/-- A call all of whose rounds are under the watch stays under it from round to round. -/
theorem call (h : W.Follows c n R) {E : W.State → Stage ⊕ Reply → Prop}
    (hround : ∀ us g stage, R us g → E g (.inl stage) →
      c.program? us n = some (.done (.inl stage)) →
      (Session.rounds stage (c.after us).shared).1.Under W (W.idle g) E)
    (hstart : ∀ q, c.program? us n = some q → ∃ g, R us g ∧ q.Under W g E) (vs : List Turn)
    {q : Program (Stage ⊕ Reply)} (hq : c.program? (us ++ vs) n = some q) :
    ∃ g, R (us ++ vs) g ∧ q.Under W g E := by
  induction vs using List.reverseRecOn generalizing q with
  | nil =>
    rw [List.append_nil] at hq ⊢
    exact hstart q hq
  | append_singleton vs u ih =>
    rw [← List.append_assoc] at hq ⊢
    by_cases hu : u = .step n
    · subst hu
      rcases Scenario.program?_of_step hq with ⟨stage, hstage, rfl⟩ | ⟨q₀, r, hq₀, hr, rfl⟩
      · obtain ⟨g, hR, hE⟩ := ih hstage
        have hnone : c.request? (us ++ vs) n = none := by
          rw [Scenario.request?, hstage]
          rfl
        exact ⟨_, h.idle _ g hR hnone, hround _ g stage hR hE hstage⟩
      · obtain ⟨g, hR, hunder⟩ := ih hq₀
        have hreq : c.request? (us ++ vs) n = some r := by
          rw [Scenario.request?, hq₀]
          exact hr
        have hworld := Scenario.world_request hq₀ hr
        cases hs : (q₀.step (n + 1) (c.after (us ++ vs)).world).1 with
        | none => exact ⟨g, h.step_none hR hunder hr hreq hworld hs, hunder⟩
        | some q' => exact h.step_some hR hunder hr hreq hworld hs
    · obtain ⟨g, hR, hunder⟩ := ih (Scenario.program?_of_other hu hq)
      exact ⟨g, h.other _ g u hR hu (by rw [hq]; rfl), hunder⟩

theorem settlement (h : W.Follows c n R) {ext : Identifier} {bet : Decimal} {name : Option String}
    (hop : c.calls[n]? = some (.settle ext bet name)) (hfirst : .step n ∉ us)
    (hrun : us ++ [.step n] <+: us') {E : W.State → Stage ⊕ Reply → Prop} {g₀ : W.State}
    (hgoes : ∀ g stage, E g (.inl stage) → ∃ s, stage = .settle s ∧
      (s.round.observed >>= Session.settleRound).Under W (W.idle g) E)
    (hstart : (Settlement.start (c.after us).shared.engine ((c.after us).shared.context name) ext
      bet >>= Session.settleRound).Under W g₀ E)
    (hR : R (us ++ [.step n]) g₀) {q : Program (Stage ⊕ Reply)}
    (hq : c.program? us' n = some q) : ∃ g, R us' g ∧ q.Under W g E := by
  obtain ⟨vs, rfl⟩ := hrun
  refine h.call (fun us g stage _ hE _ => ?_) (fun q hq => ⟨g₀, hR, ?_⟩) vs hq
  · obtain ⟨s, rfl, hs⟩ := hgoes g stage hE
    exact hs
  · rw [Scenario.program?_first hop hfirst hq]
    exact hstart

end Watch.Follows

end WagerLedger

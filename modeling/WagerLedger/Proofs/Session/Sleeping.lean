import WagerLedger.Proofs.Session.Meanwhile
import WagerLedger.Proofs.World.Timers

/-! # How long a call sleeps

The timer of a call that goes on is the one that its sleep has set with its first step. So a
sleep that ends by itself has lasted as long as it should. -/
namespace WagerLedger

/-- How a sleep that has begun at one time ends in a world: when its span is over and the context
is open, or with the error of a context that is over. -/
def Context.Wakes (ctx : Context) (span : Duration) (start : Nat) (w : World) :
    Except SettlementError Unit → Prop
  | .ok () => start + span.sleepMillis ≤ w.clock ∧ ctx.Open w
  | .error e => ctx.Over w e

namespace Program

variable {α : Type} {p : Program α} {w : World} {i : ClientId} {r : Request} {d : Duration}

theorem step_ask {k : r.Answer → Program α} :
    (ask r k).step i w = ((w.perform i r).1.map k, (w.perform i r).2) := rfl

theorem step_timers (hp : p.request? = some r) (hr : ∀ d, r ≠ .sleep d) :
    (p.step i w).2.timers = w.timers := by
  cases p with
  | done a => cases hp
  | crash => cases hp
  | ask r' k =>
    cases hp
    exact World.timers_perform hr i
  | race c r' k =>
    cases hp
    rw [step_race]
    split
    · exact World.timers_giveUp hr i
    · exact World.timers_perform hr i

theorem step_sleep (hp : p.request? = some (.sleep d)) :
    (p.step i w).2.timers = w.timers.remove i ∨
      (p.step i w).1 = none ∧ (p.step i w).2.timers =
        w.timers.put i ((w.timers.get? i).getD (w.clock + d.sleepMillis)) := by
  cases p with
  | done a => cases hp
  | crash => cases hp
  | ask r' k =>
    cases hp
    rw [step_ask]
    rcases w.sleep_cases i d with ⟨-, ht⟩ | ⟨ha, ht⟩
    · exact .inl ht
    · exact .inr ⟨Option.map_eq_none_iff.mpr ha, ht⟩
  | race c r' k =>
    cases hp
    rw [step_race]
    split
    · exact .inl rfl
    · rcases w.sleep_cases i d with ⟨-, ht⟩ | ⟨ha, ht⟩
      · exact .inl ht
      · exact .inr ⟨Option.map_eq_none_iff.mpr ha, ht⟩

end Program

namespace Scenario

open World

variable {c : Scenario} {n : Nat} {us w : List Turn} {u : Turn} {ctx : Context}

theorem timer_other (hu : u ≠ .step n) (halive : (c.program? (us ++ [u]) n).isSome) :
    (c.after (us ++ [u])).world.timers.get? (n + 1) =
      (c.after us).world.timers.get? (n + 1) := by
  cases elsewhere hu halive with
  | nothing world => rw [world]
  | performs m r other request world =>
    rw [world]
    exact timer_perform_other other r
  | givesUp m r other world =>
    rw [world]
    exact timer_giveUp_other other r
  | leaves m other world =>
    rw [world]
    exact timer_leaveBehind_other other
  | waits millis world => rw [world]

theorem world_stage {stage : Stage} (h : c.program? us n = some (.done (.inl stage))) :
    (c.after (us ++ [.step n])).world = (c.after us).world := by
  obtain ⟨limit, ht⟩ := program?_eq_some.mp h
  rw [after_append]
  unfold Tasks.turn Tasks.stepAt
  simp only [ht]
  rfl

/-- The timer of a call that goes on is that of the sleep it is in. -/
structure Sleeps (c : Scenario) (n : Nat) (us : List Turn) (q : Program (Stage ⊕ Reply))
    (due : Nat) (d : Duration) (z : List Turn) : Prop where
  request : q.request? = some (.sleep d)
  turn : z ++ [.step n] <+: us
  due : due = (c.after z).world.clock + d.sleepMillis
  program : ∀ y, z <+: y → y <+: us → c.program? y n = some q

theorem Sleeps.append {q : Program (Stage ⊕ Reply)} {due : Nat} {d : Duration} {z : List Turn}
    (h : c.Sleeps n us q due d z) (hq : c.program? (us ++ [u]) n = some q) :
    c.Sleeps n (us ++ [u]) q due d z where
  request := h.request
  turn := h.turn.trans (List.prefix_append _ _)
  due := h.due
  program y hz hy := by
    rcases List.prefix_concat_iff.mp hy with rfl | hy
    · exact hq
    · exact h.program y hz hy

theorem timer_since {q : Program (Stage ⊕ Reply)} (hq : c.program? us n = some q) {due : Nat}
    (ht : (c.after us).world.timers.get? (n + 1) = some due) :
    ∃ d z, c.Sleeps n us q due d z := by
  induction us using List.reverseRecOn generalizing q due with
  | nil => cases ht
  | append_singleton us u ih =>
    by_cases hu : u = .step n
    · subst hu
      rcases program?_of_step hq with ⟨stage, hstage, rfl⟩ | ⟨q₀, r, hq₀, hr, rfl⟩
      · rw [world_stage hstage] at ht
        obtain ⟨d, z, hsleeps⟩ := ih hstage ht
        cases hsleeps.request
      · rw [world_request hq₀ hr] at ht
        by_cases hsleep : ∃ d, r = .sleep d
        · obtain ⟨d, rfl⟩ := hsleep
          rcases Program.step_sleep hr with htimers | ⟨hnone, htimers⟩
          · rw [htimers, Table.get?_remove, if_pos rfl] at ht
            cases ht
          · rw [htimers, Table.get?_put, if_pos rfl] at ht
            rw [hnone, Option.getD_none] at hq ⊢
            -- A timer that stood already is one of this sleep; else the sleep begins here.
            cases hold : (c.after us).world.timers.get? (n + 1) with
            | none =>
              rw [hold, Option.getD_none] at ht
              obtain rfl := Option.some.inj ht
              refine ⟨d, us, hr, List.prefix_rfl, rfl, fun y hz hy => ?_⟩
              rcases List.prefix_concat_iff.mp hy with rfl | hy
              · exact hq
              · rw [hy.eq_of_length_le hz.length_le]
                exact hq₀
            | some due' =>
              rw [hold, Option.getD_some] at ht
              obtain rfl := Option.some.inj ht
              obtain ⟨d', z, hsleeps⟩ := ih hq₀ hold
              exact ⟨d', z, hsleeps.append hq⟩
        · rw [Program.step_timers hr fun d hd => hsleep ⟨d, hd⟩] at ht
          obtain ⟨d, z, hsleeps⟩ := ih hq₀ ht
          exact (hsleep ⟨d, Option.some.inj (hr.symm.trans hsleeps.request)⟩).elim
    · rw [timer_other hu (by rw [hq]; rfl)] at ht
      obtain ⟨d, z, hsleeps⟩ := ih (program?_of_other hu hq) ht
      exact ⟨d, z, hsleeps.append hq⟩

theorem slept {q : Program (Stage ⊕ Reply)} {d : Duration} (hq : c.program? us n = some q)
    (hr : q.request? = some (.sleep d))
    (ha : ((c.after us).world.perform (n + 1) (.sleep d)).1 = some ()) :
    ∃ z, z <+: us ∧ (∀ y, z <+: y → y <+: us → c.program? y n = some q) ∧
      (c.after z).world.clock + d.sleepMillis ≤ (c.after us).world.clock := by
  rcases (c.after us).world.sleep_cases (n + 1) d with ⟨⟨hdue, -⟩, -⟩ | ⟨hnone, -⟩
  · cases ht : (c.after us).world.timers.get? (n + 1) with
    | none =>
      rw [ht, Option.getD_none] at hdue
      refine ⟨us, List.prefix_rfl, fun y hz hy => ?_, hdue⟩
      rw [hy.eq_of_length_le hz.length_le]
      exact hq
    | some due =>
      obtain ⟨d', z, hsleeps⟩ := timer_since hq ht
      cases hr.symm.trans hsleeps.request
      rw [ht, Option.getD_some, hsleeps.due] at hdue
      exact ⟨z, (List.prefix_append _ _).trans hsleeps.turn, hsleeps.program, hdue⟩
  · rw [hnone] at ha
    cases ha

theorem wakes_of_step {d : Duration} {r : Except SettlementError Unit}
    {f : Except SettlementError Unit → Program (Stage ⊕ Reply)}
    (hq : c.program? us n = some (.race ctx (.sleep d) .done >>= f))
    (hs : ((Program.race ctx (.sleep d) .done).step (n + 1) (c.after us).world).1 =
      some (.done r)) :
    ∃ z, z <+: us ∧
      (∀ y, z <+: y → y <+: us → c.program? y n = some (.race ctx (.sleep d) .done >>= f)) ∧
      ctx.Wakes d (c.after z).world.clock (c.after us).world r := by
  rw [Program.step_race, ended?_sleep, over?_eq_look] at hs
  split at hs
  · rename_i e he
    cases hs
    refine ⟨us, List.prefix_rfl, fun y hz hy => ?_, look_eq_some_iff.mp he⟩
    rw [hy.eq_of_length_le hz.length_le]
    exact hq
  · rename_i he
    obtain ⟨a, ha, heq⟩ := Option.map_eq_some_iff.mp hs
    cases heq
    obtain ⟨z, hz, hsame, hclock⟩ := slept hq rfl ha
    exact ⟨z, hz, hsame, hclock, look_eq_none_iff.mp he⟩

/-- From `w` to `us` the call sleeps: with its step after `z` the sleep begins, and with the one
after `y` it ends. -/
def Woken (c : Scenario) (n : Nat) (ctx : Context) (span : Duration) (w us : List Turn)
    (r : Except SettlementError Unit) : Prop :=
  ∃ z y, w <+: z ∧ z <+: y ∧ y ++ [.step n] <+: us ∧ c.request? z n = some (.sleep span) ∧
    ctx.Wakes span (c.after z).world.clock (c.after y).world r

end Scenario

end WagerLedger

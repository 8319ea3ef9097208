import Mathlib.Data.List.Induction
import WagerLedger.Proofs.Session.Rounds
import WagerLedger.Proofs.World.Requests
import WagerLedger.Session.Scenario

/-! # Following calls through their turns

Each call of a scenario has a phase, its program ensures an outcome from there, and the world
agrees with all phases. A turn keeps this, moves at most one phase, and changes the ledger
only where that phase tells of the change. -/
namespace WagerLedger

def Program.request? {α : Type} : Program α → Option Request
  | .done _ | .crash => none
  | .ask r _ | .race _ r _ => some r

def Task.request? {σ ρ : Type} (t : Task σ ρ) : Option Request :=
  t.state.getLeft?.bind (·.request?)

def Tasks.Waits {σ ρ δ : Type} (s : Tasks σ ρ δ) (n : Nat) : Prop :=
  s.list[n]?.bind (·.request?) = some .acquire

/-- What a task keeps to: the rest of its round ensures the outcome, or it has ended in it. -/
def Task.Keeps (P : Odds → Prop) (op : Operation) (φ : Phase) (t : Task Stage Reply) : Prop :=
  match t.state with
  | .inl p => p.Ensures (op.bounds P) φ (op.RoundEnd P)
  | .inr (.answered r, _) => op.Outcome P (some r) φ
  | .inr _ => op.Outcome P none φ

/-- The calls are where their phases say, and so is the world. -/
structure Tracks (P : Odds → Prop) (ops : List Operation) (s : Tasks Stage Reply Desk)
    (φ : Nat → Phase) : Prop where
  agrees : s.world.Agrees φ s.Waits
  length : s.list.length = ops.length
  keeps : ∀ n t, s.list[n]? = some t →
    ∃ op, ops[n]? = some op ∧ t.client = n + 1 ∧ t.Keeps P op (φ n)
  odds : P s.shared.engine.odds

namespace Operation

variable {P : Odds → Prop} {op : Operation} {r : Option Reply} {φ : Phase}

theorem refuses_none (op : Operation) : op.Refuses none := by
  cases op
  case seed => exact fun _ ha => nomatch ha
  case openAccount => exact fun _ ha => nomatch ha
  case account => exact fun _ ha => nomatch ha
  case deposit => exact fun _ ha => nomatch ha
  case withdraw => exact fun _ ha => nomatch ha
  case settle => exact fun _ ha => nomatch ha
  case history => exact fun _ ha => nomatch ha
  all_goals trivial

theorem Outcome.refuses (h : op.Outcome P r φ) (hφ : φ.change? = none) : op.Refuses r := by
  cases φ with
  | outside => exact h
  | inside => exact h.elim
  | seeded => exact h.elim
  | past => cases hφ

theorem Outcome.makes (h : op.Outcome P r φ) {l l' : Ledger} (hφ : φ.change? = some (l, l')) :
    op.Makes P l l' r := by
  cases φ with
  | outside => cases hφ
  | inside => exact h.elim
  | seeded => exact h.elim
  | past =>
    cases hφ
    exact h

end Operation

namespace Program

open World

variable {α : Type} {B : Bounds} {Q : Phase → α → Prop} {w : World} {φ : Nat → Phase}
  {waits : Nat → Prop} {n : Nat}

theorem step_race {i : ClientId} {c : Context} {r : Request}
    {k : Except SettlementError r.Answer → Program α} :
    (race c r k).step i w = match w.ended? i c r with
      | some e => (some (k (.error e)), w.giveUp i r)
      | none => ((w.perform i r).1.map fun a => k (.ok a), (w.perform i r).2) := rfl

/-- A program that makes a step ensures the rest from the phase that the step leads to. -/
theorem step_some (h : w.Agrees φ waits) {p p' : Program α} (hp : p.Ensures B (φ n) Q)
    (hn : waits n ↔ p.request? = some .acquire) (hs : (p.step (n + 1) w).1 = some p') :
    ∃ ψ, p'.Ensures B ψ Q ∧ Advances w (p.step (n + 1) w).2 φ waits n ψ := by
  cases p with
  | done a => cases hs
  | crash => cases hs
  | ask r k =>
    have hn' : waits n ↔ r = .acquire := by rw [hn, request?, Option.some.injEq]
    obtain ⟨a, ha, rfl⟩ := Option.map_eq_some_iff.mp hs
    exact perform_some h hp.2 hn' ha
  | race c r k =>
    have hn' : waits n ↔ r = .acquire := by rw [hn, request?, Option.some.injEq]
    obtain ⟨-, herr, hr⟩ := hp
    rw [step_race] at hs ⊢
    cases hc : w.ended? (n + 1) c r with
    | some e =>
      rw [hc] at hs
      cases hs
      exact ⟨φ n, herr e, advances_giveUp h hr hn'⟩
    | none =>
      rw [hc] at hs
      obtain ⟨a, ha, rfl⟩ := Option.map_eq_some_iff.mp hs
      exact perform_some h hr hn' ha

theorem step_none (h : w.Agrees φ waits) {p : Program α} (hp : p.Ensures B (φ n) Q)
    (hn : waits n ↔ p.request? = some .acquire) (hs : (p.step (n + 1) w).1 = none) :
    (p.step (n + 1) w).2.store.ledger = w.store.ledger ∧
      (p.step (n + 1) w).2.Agrees φ waits := by
  cases p with
  | done a => exact ⟨rfl, h⟩
  | crash => exact ⟨rfl, h⟩
  | ask r k =>
    have hn' : waits n ↔ r = .acquire := by rw [hn, request?, Option.some.injEq]
    exact perform_none h hp.2 hn' (Option.map_eq_none_iff.mp hs)
  | race c r k =>
    have hn' : waits n ↔ r = .acquire := by rw [hn, request?, Option.some.injEq]
    obtain ⟨-, herr, hr⟩ := hp
    rw [step_race] at hs ⊢
    cases hc : w.ended? (n + 1) c r with
    | some e =>
      rw [hc] at hs
      cases hs
    | none =>
      rw [hc] at hs
      exact perform_none h hr hn' (Option.map_eq_none_iff.mp hs)

/-- Once the change is made, what is left of a program is its answer, or it breaks off. -/
theorem makes_of_changed {P : Odds → Prop} {op : Operation} {p : Program (Stage ⊕ Reply)}
    {ψ : Phase} (hp : p.Ensures (op.bounds P) ψ (op.RoundEnd P)) {l l' : Ledger}
    (hψ : ψ.change? = some (l, l')) (clock : Nat) : op.Makes P l l' (p.answer? clock) := by
  have hnw : ¬ψ.Working := fun hw => by
    rw [(Phase.working_iff ψ).mp hw] at hψ
    cases hψ
  induction p generalizing ψ with
  | done a =>
    cases a with
    | inl s =>
      rw [hp.1] at hψ
      cases hψ
    | inr r => exact hp.makes hψ
  | crash => exact Operation.Outcome.makes hp (by rw [Phase.change?_released, hψ])
  | race c r k ih => exact (hnw hp.1.2).elim
  | ask r k ih =>
    rcases hp.2.working with ⟨e, rfl⟩ | rfl | rfl | hw
    · exact ih () hp.2 hψ hnw
    · exact ih clock (hp.2 clock) hψ hnw
    · have hr : ψ.released.change? = some (l, l') := by rw [Phase.change?_released, hψ]
      refine ih () hp.2 hr fun hw => ?_
      rw [(Phase.working_iff _).mp hw] at hr
      cases hr
    · exact (hnw hw).elim

theorem refuses_of_unchanged {P : Odds → Prop} {op : Operation} {p : Program (Stage ⊕ Reply)}
    {ψ : Phase} (hp : p.Ensures (op.bounds P) ψ (op.RoundEnd P)) (hψ : ψ.change? = none)
    {clock : Nat} {r : Reply} (hr : p.answer? clock = some r) : op.Refuses (some r) := by
  induction p generalizing ψ with
  | done a =>
    cases a with
    | inl s => cases hr
    | inr r' =>
      cases hr
      exact hp.refuses hψ
  | crash => cases hr
  | race c r k ih => cases hr
  | ask q k ih =>
    cases q
    case emit e => exact ih () hp.2 hψ hr
    case clock => exact ih clock (hp.2 clock) hψ hr
    case discard => exact ih () hp.2 (by rw [Phase.change?_released, hψ]) hr
    all_goals cases hr

end Program

theorem Task.Keeps.refuses {P : Odds → Prop} {op : Operation} {φ : Phase} {t : Task Stage Reply}
    (h : t.Keeps P op φ) (hφ : φ.change? = none) (clock : Nat) :
    op.Refuses (t.answer? clock) := by
  obtain ⟨client, limit, state⟩ := t
  cases state with
  | inl p =>
    change op.Refuses (p.answer? clock)
    cases hr : p.answer? clock with
    | none => exact op.refuses_none
    | some r => exact Program.refuses_of_unchanged h hφ hr
  | inr e =>
    obtain ⟨ending, moment⟩ := e
    cases ending with
    | answered r => exact Operation.Outcome.refuses h hφ
    | crashed => exact op.refuses_none
    | blocked => exact op.refuses_none

theorem Task.Keeps.makes {P : Odds → Prop} {op : Operation} {φ : Phase} {t : Task Stage Reply}
    (h : t.Keeps P op φ) {l l' : Ledger} (hφ : φ.change? = some (l, l')) (clock : Nat) :
    op.Makes P l l' (t.answer? clock) := by
  obtain ⟨client, limit, state⟩ := t
  cases state with
  | inl p => exact Program.makes_of_changed h hφ clock
  | inr e =>
    obtain ⟨ending, moment⟩ := e
    cases ending with
    | answered r => exact Operation.Outcome.makes h hφ
    | crashed => exact Operation.Outcome.makes h hφ
    | blocked => exact Operation.Outcome.makes h hφ

namespace Tracks

open World

variable {P : Odds → Prop} {ops : List Operation} {s : Tasks Stage Reply Desk} {φ : Nat → Phase}
  {n : Nat} {t : Task Stage Reply}

theorem waits_iff (ht : s.list[n]? = some t) : s.Waits n ↔ t.request? = some .acquire := by
  rw [Tasks.Waits, ht]
  rfl

/-- What becomes of a task and its world in a step of it: it goes on to a phase, or all stays as
it was. -/
structure Stepped (P : Odds → Prop) (op : Operation) (w w' : World) (φ : Nat → Phase)
    (waits : Nat → Prop) (n : Nat) (t t' : Task Stage Reply) (ψ : Phase) : Prop where
  client : t'.client = t.client
  keeps : t'.Keeps P op ψ
  world : Advances w w' φ waits n ψ ∨
    (ψ = φ n ∧ t'.request? = t.request? ∧ w'.store.ledger = w.store.ledger ∧ w'.Agrees φ waits)

/-- A step of one task keeps track of all of them. -/
theorem set (h : Tracks P ops s φ) (ht : s.list[n]? = some t) {op : Operation}
    (hop : ops[n]? = some op) {w' : World} {d' : Desk} {t' : Task Stage Reply} {ψ : Phase}
    (hs : Stepped P op s.world w' φ s.Waits n t t' ψ) (hd : P d'.engine.odds) :
    Tracks P ops ⟨w', d', s.list.set n t'⟩ (Function.update φ n ψ) ∧
      (φ n).Goes ψ s.world.store.ledger w'.store.ledger := by
  have hn : n < s.list.length := (List.getElem?_eq_some_iff.mp ht).1
  have hself : (s.list.set n t')[n]? = some t' := List.getElem?_set_self hn
  have hother : ∀ m, m ≠ n → (s.list.set n t')[m]? = s.list[m]? :=
    fun m hm => List.getElem?_set_ne hm.symm
  have hwaits : ∀ m, m ≠ n → s.Waits m →
      (⟨w', d', s.list.set n t'⟩ : Tasks Stage Reply Desk).Waits m := by
    intro m hm hw
    rwa [Tasks.Waits, hother m hm]
  have hclient : t'.client = n + 1 := by
    obtain ⟨_, -, hc, -⟩ := h.keeps n t ht
    rw [hs.client, hc]
  have hkeeps : ∀ m t₁, (s.list.set n t')[m]? = some t₁ →
      ∃ op, ops[m]? = some op ∧ t₁.client = m + 1 ∧ t₁.Keeps P op (Function.update φ n ψ m) := by
    intro m t₁ hm
    by_cases hmn : m = n
    · subst hmn
      rw [hself] at hm
      cases hm
      rw [Function.update_self]
      exact ⟨op, hop, hclient, hs.keeps⟩
    · rw [hother m hmn] at hm
      rw [Function.update_of_ne hmn]
      exact h.keeps m t₁ hm
  have hlen : (s.list.set n t').length = ops.length := by rw [List.length_set, h.length]
  rcases hs.world with hadv | ⟨rfl, hreq, hl, hag⟩
  · exact ⟨⟨hadv.agrees hwaits, hlen, hkeeps, hd⟩, hadv.goes⟩
  · refine ⟨⟨?_, hlen, hkeeps, hd⟩, .inl ⟨hl, rfl⟩⟩
    rw [Function.update_eq_self]
    refine hag.mono fun m hw => ?_
    by_cases hmn : m = n
    · subst hmn
      rw [waits_iff ht] at hw
      rw [Tasks.Waits, hself]
      exact hreq.trans hw
    · exact hwaits m hmn hw

theorem stepped_request (h : Tracks P ops s φ) {op : Operation} {limit : Nat}
    {p : Program (Stage ⊕ Reply)} (hp : p.Ensures (op.bounds P) (φ n) (op.RoundEnd P))
    (hwait : s.Waits n ↔ p.request? = some .acquire)
    (hstep : (⟨n + 1, limit, .inl p⟩ : Task Stage Reply).step Session.rounds s.world s.shared =
      ((p.step (n + 1) s.world).1.map fun p' => ⟨n + 1, limit, .inl p'⟩,
        (p.step (n + 1) s.world).2, s.shared)) :
    ∃ ψ, Stepped P op s.world
      ((⟨n + 1, limit, .inl p⟩ : Task Stage Reply).step Session.rounds s.world s.shared).2.1 φ
      s.Waits n ⟨n + 1, limit, .inl p⟩
      (((⟨n + 1, limit, .inl p⟩ : Task Stage Reply).step Session.rounds s.world s.shared).1.getD
        ⟨n + 1, limit, .inl p⟩) ψ := by
  rw [hstep]
  cases hs : (p.step (n + 1) s.world).1 with
  | some p' =>
    obtain ⟨ψ, hp', hadv⟩ := Program.step_some h.agrees hp hwait hs
    exact ⟨ψ, rfl, hp', .inl hadv⟩
  | none =>
    obtain ⟨hl, hag⟩ := Program.step_none h.agrees hp hwait hs
    exact ⟨φ n, rfl, hp, .inr ⟨rfl, rfl, hl, hag⟩⟩

theorem stepped (h : Tracks P ops s φ) (ht : s.list[n]? = some t) {op : Operation}
    (hop : ops[n]? = some op) (hengine : ∀ c, op = .engine c → P c.odds) :
    ∃ ψ, Stepped P op s.world (t.step Session.rounds s.world s.shared).2.1 φ s.Waits n t
        ((t.step Session.rounds s.world s.shared).1.getD t) ψ ∧
      P (t.step Session.rounds s.world s.shared).2.2.engine.odds := by
  have hwait := waits_iff ht
  obtain ⟨op', hop', hclient, hkeeps⟩ := h.keeps n t ht
  rw [hop] at hop'
  cases hop'
  obtain ⟨client, limit, state⟩ := t
  cases hclient
  cases state with
  | inr e => exact ⟨φ n, ⟨rfl, hkeeps, .inr ⟨rfl, rfl, rfl, h.agrees⟩⟩, h.odds⟩
  | inl p =>
    cases p with
    | done a =>
      have hn : ¬s.Waits n := fun hw => nomatch hwait.mp hw
      have hsame : s.world.Like s.world := ⟨rfl, rfl, rfl⟩
      have hlike := advances_like h.agrees hsame hn
      cases a with
      | inr r => exact ⟨φ n, ⟨rfl, hkeeps, .inl hlike⟩, h.odds⟩
      | inl stage =>
        obtain ⟨hφ, hadm⟩ := hkeeps
        refine ⟨φ n, ⟨rfl, ?_, .inl hlike⟩, Session.rounds_engine h.odds hadm hengine⟩
        rw [hφ]
        exact Session.ensures_rounds h.odds hadm
    | crash =>
      exact ⟨(φ n).released, ⟨rfl, hkeeps, .inl (advances_leave h.agrees _)⟩, h.odds⟩
    | ask r k =>
      obtain ⟨ψ, hs⟩ := h.stepped_request hkeeps hwait rfl
      exact ⟨ψ, hs, h.odds⟩
    | race c r k =>
      obtain ⟨ψ, hs⟩ := h.stepped_request hkeeps hwait rfl
      exact ⟨ψ, hs, h.odds⟩

theorem dropped (h : Tracks P ops s φ) (ht : s.list[n]? = some t) {op : Operation}
    (hop : ops[n]? = some op) (ha : t.answer? s.world.clock = none) :
    ∃ ψ, Stepped P op s.world (t.drop s.world).2 φ s.Waits n t (t.drop s.world).1 ψ ∧
      ψ.change? = (φ n).change? := by
  obtain ⟨op', hop', hclient, hkeeps⟩ := h.keeps n t ht
  rw [hop] at hop'
  cases hop'
  obtain ⟨client, limit, state⟩ := t
  cases hclient
  cases state with
  | inr e => exact ⟨φ n, ⟨rfl, hkeeps, .inr ⟨rfl, rfl, rfl, h.agrees⟩⟩, rfl⟩
  | inl p =>
    refine ⟨(φ n).released, ⟨rfl, ?_, .inl (advances_leave h.agrees _)⟩, Phase.change?_released _⟩
    have hmakes (l l' : Ledger) (hφ : (φ n).change? = some (l, l')) : op.Makes P l l' none := by
      rw [← ha]
      exact hkeeps.makes hφ s.world.clock
    change op.Outcome P none (φ n).released
    cases hφ : φ n with
    | outside => exact op.refuses_none
    | inside => exact op.refuses_none
    | seeded l l' => exact hmakes l l' (by rw [hφ]; rfl)
    | past l l' => exact hmakes l l' (by rw [hφ]; rfl)

/-- What a turn does: at most one call makes its change, with one of its steps. -/
inductive Turned (P : Odds → Prop) (ops : List Operation) (u : Turn) (l l' : Ledger)
    (φ φ' : Nat → Phase) : Prop
  | same (ledger : l' = l) (change : ∀ m, (φ' m).change? = (φ m).change?)
  | change (n : Nat) (turn : u = .step n) (before : (φ n).change? = none)
      (after : (φ' n).change? = some (l, l')) (others : ∀ m, m ≠ n → (φ' m).change? = (φ m).change?)
      (makes : ∃ op r, ops[n]? = some op ∧ op.Makes P l l' r)

theorem turn (h : Tracks P ops s φ) (hengine : ∀ c, .engine c ∈ ops → P c.odds) (u : Turn) :
    ∃ φ', Tracks P ops (s.turn Session.rounds u) φ' ∧
      Turned P ops u s.world.store.ledger (s.turn Session.rounds u).world.store.ledger φ φ' := by
  cases u with
  | wait millis =>
    exact ⟨φ, ⟨h.agrees.like ⟨rfl, rfl, rfl⟩, h.length, h.keeps, h.odds⟩, .same rfl fun _ => rfl⟩
  | drop n =>
    unfold Tasks.turn Tasks.dropAt
    dsimp only
    cases ht : s.list[n]? with
    | none => exact ⟨φ, h, .same rfl fun _ => rfl⟩
    | some t =>
      dsimp only
      split
      · exact ⟨φ, h, .same rfl fun _ => rfl⟩
      · rename_i ha
        obtain ⟨op, hop, -⟩ := h.keeps n t ht
        obtain ⟨ψ, hs, hψ⟩ := h.dropped ht hop (by simpa using ha)
        obtain ⟨htracks, hgoes⟩ := h.set ht hop hs h.odds
        have hl : (t.drop s.world).2.store.ledger = s.world.store.ledger := by
          rcases hgoes with ⟨hl, -⟩ | ⟨hbefore, hafter⟩
          · exact hl
          · rw [hψ, hbefore] at hafter
            cases hafter
        refine ⟨_, htracks, .same hl fun m => ?_⟩
        by_cases hm : m = n
        · rw [hm, Function.update_self, hψ]
        · rw [Function.update_of_ne hm]
  | step n =>
    unfold Tasks.turn Tasks.stepAt
    dsimp only
    cases ht : s.list[n]? with
    | none => exact ⟨φ, h, .same rfl fun _ => rfl⟩
    | some t =>
      obtain ⟨op, hop, -⟩ := h.keeps n t ht
      have hmem : op ∈ ops := List.mem_of_getElem? hop
      obtain ⟨ψ, hs, hd⟩ := h.stepped ht hop fun c hc => hengine c (hc ▸ hmem)
      obtain ⟨htracks, hgoes⟩ := h.set ht hop hs hd
      refine ⟨_, htracks, ?_⟩
      -- The step leaves the ledger, or it is the one by which the call changes it.
      rcases hgoes with ⟨hl, hψ⟩ | ⟨hbefore, hafter⟩
      · refine .same hl fun m => ?_
        by_cases hm : m = n
        · rw [hm, Function.update_self, hψ]
        · rw [Function.update_of_ne hm]
      · refine .change n rfl hbefore ?_ (fun m hm => ?_) ?_
        · rw [Function.update_self]
          exact hafter
        · rw [Function.update_of_ne hm]
        · exact ⟨op, _, hop, hs.keeps.makes hafter 0⟩

end Tracks

namespace Scenario

theorem after_append (c : Scenario) (us : List Turn) (u : Turn) :
    c.after (us ++ [u]) = (c.after us).turn Session.rounds u := by
  simp [after, Tasks.turns]

theorem tracks_start (c : Scenario) {P : Odds → Prop} (hP : P c.config.odds) :
    Tracks P c.calls c.start fun _ => .outside where
  agrees := by
    refine ⟨⟨List.nodup_nil, List.not_mem_nil, fun _ _ h => (nomatch h), fun _ => rfl⟩, fun n => ?_⟩
    exact World.finds_away trivial (fun _ h => (nomatch h)) List.not_mem_nil
  length := List.length_mapIdx
  keeps n t ht := by
    rw [start, List.getElem?_mapIdx] at ht
    obtain ⟨op, hop, rfl⟩ := Option.map_eq_some_iff.mp ht
    exact ⟨op, hop, rfl, rfl, rfl⟩
  odds := hP

/-- What holds at the start and is kept by every turn holds after every run, of the run and
the phases that the calls have come to. -/
theorem run_induction (c : Scenario) {P : Odds → Prop} (hP : P c.config.odds)
    (hengine : ∀ s, .engine s ∈ c.calls → P s.odds) {M : List Turn → (Nat → Phase) → Prop}
    (hstart : M [] fun _ => .outside)
    (hturn : ∀ us u φ φ', M us φ →
      Tracks.Turned P c.calls u (c.ledger us) (c.ledger (us ++ [u])) φ φ' → M (us ++ [u]) φ')
    (us : List Turn) : ∃ φ, Tracks P c.calls (c.after us) φ ∧ M us φ := by
  induction us using List.reverseRecOn with
  | nil => exact ⟨_, c.tracks_start hP, hstart⟩
  | append_singleton us u ih =>
    obtain ⟨φ, htracks, hM⟩ := ih
    obtain ⟨φ', htracks', hturned⟩ := htracks.turn hengine u
    rw [← c.after_append us u] at htracks' hturned
    exact ⟨φ', htracks', hturn us u φ φ' hM hturned⟩

end Scenario

end WagerLedger

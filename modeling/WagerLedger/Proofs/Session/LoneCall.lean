import WagerLedger.Proofs.Ledger.Passbook
import WagerLedger.Proofs.Session.Likewise
import WagerLedger.Proofs.Session.Lone
import WagerLedger.Proofs.Session.Numbering

/-! # Calls made alone

A call that is made alone, on a ledger without faults and in no other context than the one
that never ends, leaves the lock free when it has returned, and no timer and no signal behind.
So the next call begins where a first call would, but for the ledger and the clock. -/
namespace WagerLedger

/-- A call that is made alone: under which configuration, with which sources of random words,
and how its steps are made and time goes by until it has returned. -/
structure LoneCall where
  op : Operation
  config : Settings
  entropy : Nat → Words
  turns : List Turn

namespace LoneCall

def start (c : LoneCall) (w : World) : Tasks Stage Reply Desk where
  world := { w with entropy := c.entropy, sources := 0 }
  shared := ⟨c.config, .empty, .empty⟩
  list := [Scenario.task 0 c.op]

def after (c : LoneCall) (w : World) : Tasks Stage Reply Desk :=
  (c.start w).turns Session.rounds c.turns

/-- What the call has returned. -/
def reply? (c : LoneCall) (w : World) : Option Reply :=
  match (c.after w).list[0]?.bind Task.ending? with
  | some (.answered r, _) => some r
  | _ => none

end LoneCall

/-- Makes calls one after the other, if each returns: what they have returned, and the world
after them. -/
def World.replies? (w : World) : List LoneCall → Option (List Reply × World)
  | [] => some ([], w)
  | c :: cs => (c.reply? w).bind fun r =>
      ((c.after w).world.replies? cs).map fun x => (r :: x.1, x.2)

/-- No call is going on: the lock is free, and nobody waits or sleeps. -/
structure World.AtRest (w : World) : Prop where
  holder : w.holder = none
  queue : w.queue = []
  timers : ∀ i, w.timers.get? i = none
  signals : w.signals = .empty
  faults : w.store.faults = .none
  probes : w.probes = []
  numbered : w.store.ledger.Numbered

section Alike

variable {ext : Identifier} {id id' : AccountId} {lag : Nat}

theorem Settings.alike_refl (c : Settings) : c.Alike (.oneAccount ext id id' lag) c :=
  ⟨⟨rfl, rfl, rfl, rfl⟩, rfl⟩

theorem Operation.alike_refl {op : Operation} (h : op.externalId? = some ext) :
    op.Alike (.oneAccount ext id id' lag) op := by
  cases op
  case seed => exact .seed (Option.some.inj h) rfl
  case openAccount => exact .openAccount (Option.some.inj h)
  case account => exact .account (Option.some.inj h)
  case deposit => exact .deposit (Option.some.inj h) rfl
  case withdraw => exact .withdraw (Option.some.inj h) rfl
  case settle => exact .settle (L := .oneAccount ext id id' lag) (Option.some.inj h) rfl _
  case history => exact .history (L := .oneAccount ext id id' lag) (Option.some.inj h) _
  all_goals cases h

theorem LoneCall.alike_start {c : LoneCall} (hc : c.op.externalId? = some ext) {w w' : World}
    (h : w.AtRest) (h' : w'.AtRest) (hclock : w.clock = w'.clock + lag)
    (hl : w.store.ledger.Alike (.oneAccount ext id id' lag) w'.store.ledger) :
    (c.start w).Alike (.oneAccount ext id id' lag) (c.start w') where
  world :=
    { ledger := hl
      faults := h.faults
      faults' := h'.faults
      clock := hclock
      holder := by
        simp only [start, h.holder, h'.holder]
        exact .none
      queue := h'.queue.trans h.queue.symm
      timers := fun i => by simp only [start, h.timers, h'.timers, Option.map_none]
      signals := h'.signals.trans h.signals.symm
      entropy := rfl
      sources := rfl
      probes := h.probes
      probes' := h'.probes }
  shared := ⟨Settings.alike_refl _, rfl, rfl, fun _ _ h => nomatch h⟩
  list := .cons ⟨rfl, .inl (.done (.inl (.start (Operation.alike_refl hc))))⟩ .nil

end Alike

def Operation.HasMade (op : Operation) (φ : Phase) (l l' : Ledger) : Prop :=
  (φ.change? = none ∧ l' = l) ∨
    (φ.change?.isSome = true ∧ ∃ r, op.Makes (fun _ => True) l l' r)

theorem Operation.Outcome.away {P : Odds → Prop} {op : Operation} {r : Reply} {φ : Phase}
    (h : op.Outcome P (some r) φ) : φ.Away := by
  cases φ with
  | outside => trivial
  | inside => exact h.elim
  | past => trivial
  | seeded => exact h.elim

/-- What holds all through a call on one external id that is made alone. -/
structure LoneRun (op : Operation) (l : Ledger) (s : Tasks Stage Reply Desk) : Prop where
  tracks : ∃ φ, Tracks (fun _ => True) [op] s φ ∧ op.HasMade (φ 0) l s.world.store.ledger
  numbered : s.world.Numbered
  alike : ∃ ext id id', s.Alike (.oneAccount ext id id' 0) s
  lone : s.world.Lone 1
  timed : ∃ t, s.list = [t] ∧ t.Timed s.world
  signals : s.world.signals = .empty

theorem Request.calm_of_isPlain {r : Request} (h : r.isPlain = true) :
    r ≠ .leave ∧ r.signals = false := by
  cases r
  case arrive | acquire | commit | rollback | discard | sleep | never | entropy | isCancelled |
      poll =>
    exact ⟨nofun, rfl⟩
  all_goals cases h

theorem Request.Alike.calm {L : Likeness} (hL : L.scope ≠ .all) {r r' : Request}
    {A : r.Answer → r'.Answer → Prop} (h : r.Alike L r' A) : r ≠ .leave ∧ r.signals = false := by
  cases h with
  | plain hr => exact Request.calm_of_isPlain hr
  | signal _ hall => exact (hL hall).elim
  | data _ => exact ⟨nofun, rfl⟩
  | seed _ _ => exact ⟨nofun, rfl⟩
  | check _ => exact ⟨nofun, rfl⟩
  | note _ _ => exact ⟨nofun, rfl⟩
  | clock => exact ⟨nofun, rfl⟩
  | emit _ _ => exact ⟨nofun, rfl⟩

theorem Task.Alike.calm {L : Likeness} (hL : L.scope ≠ .all) {t t' : Task Stage Reply}
    (h : t.Alike L t') {r : Request} (hr : t.request? = some r) :
    r ≠ .leave ∧ r.signals = false := by
  obtain ⟨client, limit, state⟩ := t
  obtain ⟨client', limit', state'⟩ := t'
  obtain ⟨-, hs⟩ := h
  cases hs with
  | inr _ => cases hr
  | inl hp =>
    cases hp with
    | done _ => cases hr
    | crash => cases hr
    | ask hq _ =>
      cases hr
      exact hq.calm hL
    | race _ hq _ _ =>
      cases hr
      exact hq.calm hL

namespace LoneRun

variable {op : Operation} {l : Ledger} {s : Tasks Stage Reply Desk} {n : Nat}
  {t : Task Stage Reply}

theorem client (h : LoneRun op l s) (ht : s.list[n]? = some t) : n = 0 ∧ t.client = 1 := by
  obtain ⟨φ, htracks, -⟩ := h.tracks
  obtain ⟨op', hop, hclient, -⟩ := htracks.keeps n t ht
  have hn : n < 1 := (List.getElem?_eq_some_iff.mp hop).1
  obtain rfl : n = 0 := Nat.lt_one_iff.mp hn
  exact ⟨rfl, hclient⟩

theorem calm (h : LoneRun op l s) (ht : s.list[n]? = some t) {r : Request}
    (hr : t.request? = some r) : r ≠ .leave ∧ r.signals = false := by
  obtain ⟨ext, id, id', halike⟩ := h.alike
  have hself := forall₂_getElem? halike.list n
  rw [ht] at hself
  cases hself with
  | some hself => exact hself.calm (fun hall : Scope.one ext id id' = .all => nomatch hall) hr

theorem tracks_turn (h : LoneRun op l s) (u : Turn) :
    ∃ φ, Tracks (fun _ => True) [op] (s.turn Session.rounds u) φ ∧
      op.HasMade (φ 0) l (s.turn Session.rounds u).world.store.ledger := by
  obtain ⟨φ, htracks, hmade⟩ := h.tracks
  obtain ⟨φ', htracks', hturned⟩ := htracks.turn (fun _ _ => trivial) u
  refine ⟨φ', htracks', ?_⟩
  cases hturned with
  | same ledger change =>
    rw [Operation.HasMade, change 0, ledger]
    exact hmade
  | change m turn before after others makes =>
    obtain ⟨op', r, hop, hmakes⟩ := makes
    have hm : m < 1 := (List.getElem?_eq_some_iff.mp hop).1
    obtain rfl : m = 0 := Nat.lt_one_iff.mp hm
    obtain rfl : op = op' := Option.some.inj hop
    rcases hmade with ⟨-, hl⟩ | ⟨hsome, -⟩
    · rw [hl] at hmakes
      exact .inr ⟨by rw [after]; rfl, r, hmakes⟩
    · rw [before] at hsome
      cases hsome

theorem world_turn (h : LoneRun op l s) (u : Turn) :
    (s.turn Session.rounds u).world.Lone 1 ∧ (s.turn Session.rounds u).world.signals = .empty := by
  cases s.touches Session.rounds u with
  | nothing world =>
    rw [world]
    exact ⟨h.lone, h.signals⟩
  | performs n t r turn task request world =>
    obtain ⟨hleave, hsignals⟩ := h.calm task request
    rw [world, (h.client task).2]
    exact ⟨h.lone.perform hleave, (World.steady_perform hsignals 1).signals.trans h.signals⟩
  | givesUp n t r turn task request world =>
    rw [world, (h.client task).2]
    exact ⟨h.lone.giveUp r, (World.steady_giveUp _ 1 r).signals.trans h.signals⟩
  | leaves n t task left world =>
    rw [world, (h.client task).2]
    exact ⟨h.lone.leaveBehind, (World.steady_leaveBehind _ 1).signals.trans h.signals⟩
  | waits millis turn world =>
    rw [world]
    exact ⟨⟨h.lone.holder, h.lone.queue, h.lone.timers⟩, h.signals⟩

theorem timed_turn (h : LoneRun op l s) (u : Turn) :
    ∃ t, (s.turn Session.rounds u).list = [t] ∧ t.Timed (s.turn Session.rounds u).world := by
  obtain ⟨t, ht, htimed⟩ := h.timed
  cases u with
  | wait millis => exact ⟨t, ht, htimed⟩
  | drop n =>
    unfold Tasks.turn Tasks.dropAt
    dsimp only
    rw [ht]
    cases n with
    | zero =>
      simp only [List.getElem?_cons_zero]
      split
      · exact ⟨t, ht, htimed⟩
      · exact ⟨_, rfl, htimed.drop⟩
    | succ n => exact ⟨t, ht, htimed⟩
  | step n =>
    unfold Tasks.turn Tasks.stepAt
    dsimp only
    rw [ht]
    cases n with
    | zero => exact ⟨_, rfl, htimed.step⟩
    | succ n => exact ⟨t, ht, htimed⟩

theorem turn (h : LoneRun op l s) (u : Turn) : LoneRun op l (s.turn Session.rounds u) where
  tracks := h.tracks_turn u
  numbered := by
    obtain ⟨φ, htracks, -⟩ := h.tracks
    exact h.numbered.moves (htracks.moves u)
  alike := by
    obtain ⟨ext, id, id', halike⟩ := h.alike
    exact ⟨ext, id, id', halike.turn u⟩
  lone := (h.world_turn u).1
  timed := h.timed_turn u
  signals := (h.world_turn u).2

theorem turns (h : LoneRun op l s) (us : List Turn) :
    LoneRun op l (s.turns Session.rounds us) := by
  induction us generalizing s with
  | nil => exact h
  | cons u us ih => exact ih (h.turn u)

theorem gone (h : LoneRun op l s) {r : Reply} {moment : Nat}
    (hr : s.list[0]?.bind Task.ending? = some (.answered r, moment)) :
    (∀ t, s.world.holder ≠ some (1, t)) ∧ 1 ∉ s.world.queue ∧ s.world.timers.get? 1 = none := by
  obtain ⟨t, ht, htimed⟩ := h.timed
  obtain ⟨φ, htracks, -⟩ := h.tracks
  have ht₀ : s.list[0]? = some t := by rw [ht]; rfl
  rw [ht₀] at hr
  obtain ⟨op', -, hclient, hkeeps⟩ := htracks.keeps 0 t ht₀
  have hwaits := Tracks.waits_iff ht₀
  obtain ⟨client, limit, state⟩ := t
  obtain rfl : client = 1 := hclient
  cases state with
  | inl p => cases hr
  | inr e =>
    cases hr
    obtain ⟨hfree, hqueue⟩ := (htracks.agrees.finds 0).free (Operation.Outcome.away hkeeps)
      fun hw => nomatch hwaits.mp hw
    exact ⟨hfree, hqueue, htimed.none_of_request? nofun⟩

theorem atRest (h : LoneRun op l s) {r : Reply} {moment : Nat}
    (hr : s.list[0]?.bind Task.ending? = some (.answered r, moment)) : s.world.AtRest := by
  obtain ⟨hfree, hqueue, htimer⟩ := h.gone hr
  obtain ⟨ext, id, id', halike⟩ := h.alike
  refine ⟨?_, ?_, fun i => ?_, h.signals, halike.world.faults, halike.world.probes,
    h.numbered.ledger⟩
  · cases hholder : s.world.holder with
    | none => rfl
    | some x =>
      obtain ⟨j, t⟩ := x
      obtain rfl := h.lone.holder j t hholder
      exact (hfree t hholder).elim
  · refine List.eq_nil_iff_forall_not_mem.mpr fun j hj => ?_
    obtain rfl := h.lone.queue j hj
    exact hqueue hj
  · by_cases hi : i = 1
    · rw [hi]
      exact htimer
    · exact h.lone.timers i hi

end LoneRun

namespace LoneCall

variable {c : LoneCall} {w : World} {ext other : Identifier} {r : Reply}

theorem holder_start (h : w.AtRest) {i : ClientId} {t : Transaction} :
    (c.start w).world.holder ≠ some (i, t) := by
  rw [start, h.holder]
  exact nofun

theorem tracks_start (h : w.AtRest) :
    Tracks (fun _ => True) [c.op] (c.start w) fun _ => .outside := by
  refine ⟨⟨⟨?_, ?_, fun i t ht => (holder_start h ht).elim, fun _ => h.queue⟩, fun n => ?_⟩, rfl,
    fun n t ht => ?_, trivial⟩
  · simp only [start, h.queue, List.nodup_nil]
  · simp only [start, h.queue, List.not_mem_nil, not_false_eq_true]
  · refine World.finds_away trivial (fun t ht => (holder_start h ht).elim) ?_
    simp only [start, h.queue, List.not_mem_nil, not_false_eq_true]
  · cases n with
    | zero =>
      cases ht
      exact ⟨c.op, rfl, rfl, rfl, rfl⟩
    | succ n => cases ht

theorem loneRun_start (h : w.AtRest) (hc : c.op.externalId? = some ext) :
    LoneRun c.op w.store.ledger (c.start w) where
  tracks := ⟨fun _ => .outside, tracks_start h, .inl ⟨rfl, rfl⟩⟩
  numbered := ⟨h.numbered, fun i t ht => (holder_start h ht).elim⟩
  alike := by
    obtain ⟨id, id', hl⟩ := Ledger.alike_of_passbook? h.numbered h.numbered
      (rfl : w.store.ledger.passbook? ext = _) 0
    exact ⟨ext, id, id', alike_start hc h h rfl hl⟩
  lone := by
    refine ⟨fun j t ht => (holder_start h ht).elim, fun j hj => ?_, fun j _ => h.timers j⟩
    rw [start, h.queue] at hj
    cases hj
  timed := ⟨_, rfl, .inl (h.timers 1)⟩
  signals := h.signals

theorem ending_of_reply? (hr : c.reply? w = some r) :
    ∃ moment, (c.after w).list[0]?.bind Task.ending? = some (.answered r, moment) := by
  rw [reply?] at hr
  split at hr
  · rename_i r' moment hending
    cases hr
    exact ⟨moment, hending⟩
  · cases hr

theorem atRest_after (h : w.AtRest) (hc : c.op.externalId? = some ext)
    (hr : c.reply? w = some r) : (c.after w).world.AtRest := by
  obtain ⟨moment, hending⟩ := ending_of_reply? hr
  exact ((loneRun_start h hc).turns c.turns).atRest hending

theorem leaves_after (h : w.AtRest) (hc : c.op.externalId? = some ext) (hne : ext ≠ other) :
    w.store.ledger.Leaves (c.after w).world.store.ledger other := by
  obtain ⟨φ, -, hmade⟩ := ((loneRun_start h hc).turns c.turns).tracks
  rcases hmade with ⟨-, hl⟩ | ⟨-, r, hmakes⟩
  · rw [after, hl]
    exact .refl _ _
  · exact h.numbered.leaves hmakes hc hne

theorem clock_after (c : LoneCall) (w : World) : w.clock ≤ (c.after w).world.clock :=
  ((c.start w).later_turns Session.rounds c.turns).clock

end LoneCall

end WagerLedger

import WagerLedger.Proofs.Program.Adjusting
import WagerLedger.Proofs.Program.Watch

/-! # A client with the store to itself

Where no fault is set, nothing holds up the calls, nobody else is at work and every race is
against the context that never ends, all but the clock answers a client as the ledger, its own
transaction and its source of randomness say. A watch that follows these three tells what a
program comes to, whether it runs at once or makes its steps while time goes by. -/
namespace WagerLedger

/-- The committed ledger, the open transaction, and the sources of random words taken so far. -/
structure Solo where
  ledger : Ledger
  open? : Option Transaction
  sources : Nat

namespace Solo

/-- Whether a client that is alone may ask for this; one that is patient may also have to wait. -/
def May (patient : Prop) (g : Solo) : Request → Prop
  | .acquire => g.open? = none
  | .data _ | .commit | .rollback => g.open?.isSome = true
  | .check c => c = .background
  | .sleep _ => patient
  | .arrive | .poll | .note _ | .clock | .entropy | .emit _ => True
  | _ => False

def Goes (entropy : Nat → Words) (g : Solo) : (r : Request) → r.Answer → Solo → Prop
  | .arrive, a, g' => a = .ok () ∧ g' = g
  | .acquire, _, g' => g' = { g with open? := some .empty }
  | .data c, a, g' => ∃ t, g.open? = some t ∧ a = (c.run g.ledger t).1 ∧
      g' = { g with open? := some (c.run g.ledger t).2 }
  | .commit, a, g' => a = .ok () ∧ ∃ t, g.open? = some t ∧ g' = ⟨t.apply g.ledger, none, g.sources⟩
  | .rollback, a, g' => a = .ok () ∧ g' = { g with open? := none }
  | .check _, a, g' => a = none ∧ g' = g
  | .note _, ps, g' => ps = [] ∧ g' = g
  | .entropy, a, g' => a = entropy g.sources ∧ g' = { g with sources := g.sources + 1 }
  | _, _, g' => g' = g

end Solo

def alone (entropy : Nat → Words) (patient : Prop) : Watch where
  State := Solo
  may g x r := (∀ c ∈ x, c = .background) ∧ g.May patient r
  next g r a g' := g.Goes entropy r a g'
  ended _ _ _ _ _ := False
  idle g := g
  breaks _ := patient

variable {entropy : Nat → Words} {patient : Prop} {g : Solo} {i : ClientId} {w : World}

theorem alone_unprobed (entropy : Nat → Words) (patient : Prop) :
    (alone entropy patient).Unprobed :=
  fun _ _ _ _ _ _ hmay => ⟨⟨hmay.1, trivial⟩, fun _ _ hg => hg, fun _ _ _ h => h⟩

/-- Client `i` has the store to itself, as `g` tells it. -/
structure World.Shows (i : ClientId) (entropy : Nat → Words) (w : World) (g : Solo) : Prop where
  store : w.store = ⟨g.ledger, .none⟩
  holder : w.holder = g.open?.map (i, ·)
  queue : w.queue = []
  probes : w.probes = []
  entropy_eq : w.entropy = entropy
  sources : w.sources = g.sources

namespace World.Shows

theorem transaction? (h : w.Shows i entropy g) {t : Transaction} (ht : g.open? = some t) :
    w.transaction? i = some t := by
  refine World.transaction?_of_holder (h.holder.trans ?_)
  rw [ht]
  rfl

theorem retimed (h : w.Shows i entropy g) (clock : Nat) (timers : Table ClientId Nat) :
    World.Shows i entropy { w with clock := clock, timers := timers } g :=
  ⟨h.store, h.holder, h.queue, h.probes, h.entropy_eq, h.sources⟩

theorem release (h : w.Shows i entropy g) {s : Store} {l : Ledger} (hs : s = ⟨l, .none⟩) :
    World.Shows i entropy { w with store := s }.release ⟨l, none, g.sources⟩ := by
  simp only [World.release, h.queue]
  exact ⟨hs, rfl, rfl, h.probes, h.entropy_eq, h.sources⟩

/-- A request is answered as the watch expects, or is a sleep that goes on. -/
theorem perform (h : w.Shows i entropy g) {r : Request} (hr : g.May patient r) :
    (∃ a g', (w.perform i r).1 = some a ∧ g.Goes entropy r a g' ∧
        (w.perform i r).2.Shows i entropy g') ∨
      (patient ∧ (w.perform i r).1 = none ∧ (w.perform i r).2.Shows i entropy g) := by
  -- A store without faults gives each request its one answer; only a sleep can take longer.
  cases r
  case arrive =>
    have hvisit : w.store.visit .begin = (.ok (), ⟨g.ledger, .none⟩) := by
      rw [h.store, Store.visit_quiet]
    simp only [World.perform]
    exact .inl ⟨_, _, congrArg (fun x => some x.1) hvisit, ⟨rfl, rfl⟩,
      ⟨congrArg (·.2) hvisit, h.holder, h.queue, h.probes, h.entropy_eq, h.sources⟩⟩
  case acquire =>
    have hnone : w.holder = none := by
      rw [h.holder, show g.open? = none from hr]
      rfl
    have hacquire : w.acquire i = (some (), { w with holder := some (i, .empty) }) := by
      rw [World.acquire, hnone]
    refine .inl ⟨(), _, congrArg (·.1) hacquire, rfl, ?_⟩
    rw [World.perform, hacquire]
    exact ⟨h.store, rfl, h.queue, h.probes, h.entropy_eq, h.sources⟩
  case data c =>
    obtain ⟨t, ht⟩ := Option.isSome_iff_exists.mp hr
    have hdata : w.data i c = (some (c.run g.ledger t).1,
        { w with store := ⟨g.ledger, .none⟩, holder := some (i, (c.run g.ledger t).2) }) := by
      rw [World.data, h.transaction? ht, h.store]
      dsimp only
      rw [Store.call_quiet]
    refine .inl ⟨_, _, congrArg (·.1) hdata, ⟨t, ht, rfl, rfl⟩, ?_⟩
    rw [World.perform, hdata]
    exact ⟨rfl, rfl, h.queue, h.probes, h.entropy_eq, h.sources⟩
  case commit =>
    obtain ⟨t, ht⟩ := Option.isSome_iff_exists.mp hr
    have hcommit : w.store.commit t = (.ok (), ⟨t.apply g.ledger, .none⟩) := by
      rw [h.store, Store.commit_quiet]
    simp only [World.perform, World.commit, h.transaction? ht]
    exact .inl ⟨_, _, congrArg (fun x => some x.1) hcommit, ⟨rfl, t, ht, rfl⟩,
      h.release (congrArg (·.2) hcommit)⟩
  case rollback =>
    obtain ⟨t, ht⟩ := Option.isSome_iff_exists.mp hr
    have hrollback : w.store.rollback = (.ok (), ⟨g.ledger, .none⟩) := by
      rw [h.store, Store.rollback, Store.visit_quiet]
    simp only [World.perform, World.rollback, h.transaction? ht]
    exact .inl ⟨_, _, congrArg (fun x => some x.1) hrollback, ⟨rfl, rfl⟩,
      h.release (congrArg (·.2) hrollback)⟩
  case check c =>
    obtain rfl : c = .background := hr
    exact .inl ⟨none, g, rfl, ⟨rfl, rfl⟩, h⟩
  case poll => exact .inl ⟨(), g, rfl, rfl, h⟩
  case note call =>
    have hnone : w.probes.filter (fun p => p.name == call.name &&
        p.nth == ((w.calls ++ [call]).filter (·.name == call.name)).length) = [] := by
      rw [h.probes]
      rfl
    refine .inl ⟨[], g, congrArg some hnone, ⟨rfl, rfl⟩, ?_⟩
    exact ⟨h.store, h.holder, h.queue, h.probes, h.entropy_eq, h.sources⟩
  case sleep d =>
    simp only [World.perform, World.sleep]
    split
    · exact .inl ⟨(), g, rfl, rfl,
        ⟨h.store, h.holder, h.queue, h.probes, h.entropy_eq, h.sources⟩⟩
    · exact .inr ⟨hr, rfl, ⟨h.store, h.holder, h.queue, h.probes, h.entropy_eq, h.sources⟩⟩
  case clock => exact .inl ⟨_, g, rfl, rfl, h⟩
  case entropy =>
    have hwords : w.entropy w.sources = entropy g.sources := by
      rw [h.entropy_eq, h.sources]
    refine .inl ⟨_, _, rfl, ⟨hwords, rfl⟩, ?_⟩
    exact ⟨h.store, h.holder, h.queue, h.probes, h.entropy_eq, congrArg (· + 1) h.sources⟩
  case emit e =>
    exact .inl ⟨(), g, rfl, rfl, ⟨h.store, h.holder, h.queue, h.probes, h.entropy_eq, h.sources⟩⟩
  all_goals exact hr.elim

end World.Shows

namespace Program

variable {α : Type} {p p' : Program α} {Q : Solo → α → Prop}

/-- The watch keeps to what the world shows, step by step. -/
theorem Under.step (h : p.Under (alone entropy patient) g Q) (hw : w.Shows i entropy g) :
    (∀ p', (p.step i w).1 = some p' →
        ∃ g', (p.step i w).2.Shows i entropy g' ∧ p'.Under (alone entropy patient) g' Q) ∧
      ((p.step i w).1 = none → (p.step i w).2.Shows i entropy g) := by
  cases p with
  | done a =>
    refine ⟨fun p' hp' => ?_, fun _ => hw⟩
    cases hp'
  | crash =>
    refine ⟨fun p' hp' => ?_, fun _ => hw⟩
    cases hp'
  | ask r k =>
    rw [Program.step]
    rcases hw.perform h.1.2 with ⟨a, g', ha, hgoes, hw'⟩ | ⟨-, hnone, hw'⟩
    · simp only [ha, Option.map_some]
      refine ⟨fun p' hp' => ?_, fun hnone => ?_⟩
      · cases hp'
        exact ⟨g', hw', h.2 a g' hgoes⟩
      · cases hnone
    · simp only [hnone, Option.map_none]
      refine ⟨fun p' hp' => ?_, fun _ => hw'⟩
      cases hp'
  | race c r k =>
    obtain rfl : c = .background := h.1.1 c rfl
    rw [Program.step, World.ended?_eq_none rfl]
    rcases hw.perform h.1.2 with ⟨a, g', ha, hgoes, hw'⟩ | ⟨-, hnone, hw'⟩
    · simp only [ha, Option.map_some]
      refine ⟨fun p' hp' => ?_, fun hnone => ?_⟩
      · cases hp'
        exact ⟨g', hw', h.2.2 a g' hgoes⟩
      · cases hnone
    · simp only [hnone, Option.map_none]
      refine ⟨fun p' hp' => ?_, fun _ => hw'⟩
      cases hp'

/-- A program that neither waits nor breaks off runs to its end at once. -/
theorem Under.runIn (h : p.Under (alone entropy False) g Q) (hw : w.Shows i entropy g) :
    ∃ a w' g', p.runIn i w = some (a, w') ∧ w'.Shows i entropy g' ∧ Q g' a := by
  induction p generalizing w g with
  | done a => exact ⟨a, w, g, rfl, hw, h⟩
  | crash => exact h.elim
  | ask r k ih =>
    rcases hw.perform h.1.2 with ⟨a, g', ha, hgoes, hw'⟩ | ⟨hwait, -⟩
    · rw [Program.runIn]
      rcases hp : w.perform i r with ⟨b, w'⟩
      rw [hp] at ha hw'
      obtain rfl : b = some a := ha
      exact ih a (h.2 a g' hgoes) hw'
    · exact hwait.elim
  | race c r k ih =>
    obtain rfl : c = .background := h.1.1 c rfl
    rcases hw.perform h.1.2 with ⟨a, g', ha, hgoes, hw'⟩ | ⟨hwait, -⟩
    · rw [Program.runIn, World.ended?_eq_none rfl]
      dsimp only
      rcases hp : w.perform i r with ⟨b, w'⟩
      rw [hp] at ha hw'
      obtain rfl : b = some a := ha
      exact ih (.ok a) (h.2.2 a g' hgoes) hw'
    · exact hwait.elim

end Program

end WagerLedger

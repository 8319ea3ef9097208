import WagerLedger.Proofs.World.Contexts

/-! # Hosts

A program is run by a host that answers its requests one after the other, while a clock goes on.
A world with one client in it is a host: while the client sleeps nothing else happens. -/
namespace WagerLedger

theorem Duration.nanos_ofMillis (n : Nat) :
    (ofMillis n).nanos = min (n * nanosPerMilli) longest.nanos := by
  unfold ofMillis ofNanos ofNanos?
  split
  · rename_i h
    exact (Nat.min_eq_left (Nat.le_of_lt_succ h)).symm
  · rename_i h
    exact (Nat.min_eq_right (Nat.le_of_succ_le (Nat.not_lt.mp h))).symm

/-- What answers the requests of a program one after the other, while its clock goes on. -/
structure Host where
  State : Type
  /-- The milliseconds since the start of the clock. -/
  now : State → Nat
  answer : (r : Request) → State → Option (r.Answer × State)
  race : Context → (r : Request) → State → Option (Except SettlementError r.Answer × State)

namespace Program

variable {h : Host} {α β : Type}

def runOn (h : Host) : Program α → h.State → Option (α × h.State)
  | done a, g => some (a, g)
  | crash, _ => none
  | ask r k, g =>
    match h.answer r g with
    | some (a, g) => (k a).runOn h g
    | none => none
  | race c r k, g =>
    match h.race c r g with
    | some (a, g) => (k a).runOn h g
    | none => none

theorem runOn_bind (p : Program α) (f : α → Program β) (g : h.State) :
    (p >>= f).runOn h g = (p.runOn h g).bind fun x => (f x.1).runOn h x.2 := by
  change (p.bind f).runOn h g = _
  induction p generalizing g with
  | done a => rfl
  | crash => rfl
  | ask r k ih =>
    simp only [bind, runOn]
    cases h.answer r g with
    | none => rfl
    | some x => exact ih x.1 x.2
  | race c r k ih =>
    simp only [bind, runOn]
    cases h.race c r g with
    | none => rfl
    | some x => exact ih x.1 x.2

theorem runOn_request (r : Request) (g : h.State) : (request r).runOn h g = h.answer r g := by
  simp only [request, runOn]
  cases h.answer r g with
  | none => rfl
  | some x => rfl

end Program

/-- The clock is told as it is and does not go back, events are taken and random words given, and
a sleep that nothing can interrupt comes to its end, after its whole span if that is at most
`limit`. -/
structure Host.Keeps (h : Host) (limit : Duration) : Prop where
  answer_le : ∀ {r g a g'}, h.answer r g = some (a, g') → h.now g ≤ h.now g'
  race_le : ∀ {c r g a g'}, h.race c r g = some (a, g') → h.now g ≤ h.now g'
  clock : ∀ g, ∃ g', h.answer .clock g = some (h.now g, g')
  entropy : ∀ g, ∃ words g', h.answer .entropy g = some (words, g')
  emit : ∀ e g, ∃ g', h.answer (.emit e) g = some ((), g')
  sleep : ∀ d g, ∃ g', h.race .background (.sleep d) g = some (.ok (), g') ∧
    (d.nanos ≤ limit.nanos →
      h.now g * Duration.nanosPerMilli + d.nanos ≤ h.now g' * Duration.nanosPerMilli)

theorem Host.Keeps.runOn_le {h : Host} {limit : Duration} {g g' : h.State}
    (hkeeps : h.Keeps limit) {β : Type} {p : Program β} {b : β}
    (hrun : p.runOn h g = some (b, g')) : h.now g ≤ h.now g' := by
  induction p generalizing g with
  | done a =>
    cases hrun
    exact Nat.le_refl _
  | crash => cases hrun
  | ask r k ih =>
    simp only [Program.runOn] at hrun
    split at hrun
    · rename_i a g₁ hanswer
      exact Nat.le_trans (hkeeps.answer_le hanswer) (ih a hrun)
    · cases hrun
  | race c r k ih =>
    simp only [Program.runOn] at hrun
    split at hrun
    · rename_i a g₁ hrace
      exact Nat.le_trans (hkeeps.race_le hrace) (ih a hrun)
    · cases hrun

namespace World

/-- Answers a client that is alone in the world: while it sleeps nothing else happens. -/
def serve (i : ClientId) (r : Request) (w : World) : Option (r.Answer × World) :=
  match r with
  | .sleep d => some ((), { w with clock := w.clock + d.sleepMillis })
  | r =>
    match w.perform i r with
    | (some a, w) => some (a, w)
    | (none, _) => none

/-- A client alone in the world, in the context that never ends. -/
def host (i : ClientId) : Host where
  State := World
  now := clock
  answer := serve i
  race c r w := if c = .background then (w.serve i r).map fun x => (.ok x.1, x.2) else none

theorem clock_serve {i : ClientId} {r : Request} {w w' : World} {a : r.Answer}
    (h : w.serve i r = some (a, w')) : w.clock ≤ w'.clock := by
  unfold serve at h
  split at h
  · cases h
    exact Nat.le_add_right _ _
  · split at h
    · rename_i hperform
      cases h
      have hlater := later_perform w i r
      rw [hperform] at hlater
      exact hlater.clock
    · cases h

theorem host_keeps (i : ClientId) {limit : Duration}
    (hlimit : limit.nanos ≤ Duration.longestSleep * Duration.nanosPerMilli) :
    (host i).Keeps limit where
  answer_le := clock_serve
  race_le {c r w a w'} h := by
    simp only [host] at h
    split at h
    · obtain ⟨x, hx, heq⟩ := Option.map_eq_some_iff.mp h
      cases heq
      exact clock_serve hx
    · cases h
  clock w := ⟨w, rfl⟩
  entropy w := ⟨_, _, rfl⟩
  emit e w := ⟨_, rfl⟩
  sleep d w := by
    refine ⟨_, rfl, fun hd => ?_⟩
    change w.clock * _ + _ ≤ (w.clock + d.sleepMillis) * _
    have hmilli : Duration.nanosPerMilli = 1000000 := rfl
    have hcover : d.nanos ≤ d.coveringMillis * Duration.nanosPerMilli := by
      rw [Duration.coveringMillis, hmilli]
      omega
    unfold Duration.sleepMillis
    rw [hmilli] at hlimit hcover ⊢
    rcases Nat.le_total d.coveringMillis Duration.longestSleep with hle | hle
    · rw [Nat.min_eq_left hle]
      omega
    · rw [Nat.min_eq_right hle]
      omega

end World

end WagerLedger

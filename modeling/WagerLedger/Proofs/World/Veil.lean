import WagerLedger.Proofs.Program.Discreet

/-! # What failed rollbacks leave to see

Under the veil a world has no faults at the rollbacks, and has been told of none that failed.
The veil commutes with every request but the rollback itself; and a rollback ends the
transaction and hands on the lock whether it fails or not, so two worlds that look the same
under the veil still do after it. -/
namespace WagerLedger

namespace Faults

variable {f : Faults} {p q : FaultPoint}

theorem inject_inject (f : Faults) (p : FaultPoint) (skip times skip' times' : Nat) :
    (f.inject p skip times).inject p skip' times' = f.inject p skip' times' := by
  refine congrArg Faults.mk (funext fun q => ?_)
  by_cases hq : q = p
  · rw [if_pos hq, if_pos hq]
  · rw [if_neg hq, if_neg hq]
    exact if_neg hq

theorem inject_comm (hpq : p ≠ q) (skip times skip' times' : Nat) :
    (f.inject p skip times).inject q skip' times' =
      (f.inject q skip' times').inject p skip times := by
  refine congrArg Faults.mk (funext fun x => ?_)
  simp only [inject]
  by_cases hx : x = q
  · rw [if_pos hx, if_neg (hx.trans_ne hpq.symm), if_pos hx]
  · rw [if_neg hx, if_neg hx]

theorem window_inject (hpq : p ≠ q) (skip times : Nat) :
    (f.inject q skip times).window p = f.window p := if_neg hpq

def veil (f : Faults) : Faults := f.inject .rollback 0 0

theorem veil_veil (f : Faults) : f.veil.veil = f.veil := inject_inject f .rollback 0 0 0 0

theorem visit_veil (hp : p ≠ .rollback) :
    f.veil.visit p = ((f.visit p).1, (f.visit p).2.veil) := by
  simp only [visit, veil, window_inject hp, inject_comm hp.symm]

theorem inject_veil (f : Faults) (p : FaultPoint) (skip times : Nat) :
    (f.veil.inject p skip times).veil = (f.inject p skip times).veil := by
  by_cases hp : p = .rollback
  · rw [hp, veil, veil, veil, inject_inject, inject_inject, inject_inject]
  · have hcomm : f.veil.inject p skip times = (f.inject p skip times).veil :=
      inject_comm (Ne.symm hp) 0 0 skip times
    rw [hcomm, veil_veil]

end Faults

namespace Store

variable {s : Store} {p : FaultPoint}

def veil (s : Store) : Store := { s with faults := s.faults.veil }

theorem visit_veil (hp : p ≠ .rollback) : s.veil.visit p = ((s.visit p).1, (s.visit p).2.veil) := by
  simp only [visit, veil, Faults.visit_veil hp]

theorem visit?_veil {x : Option FaultPoint} (hx : x ≠ some .rollback) :
    s.veil.visit? x = ((s.visit? x).1, (s.visit? x).2.veil) := by
  cases x with
  | none => rfl
  | some p => exact visit_veil fun hp => hx (congrArg some hp)

theorem call_veil (t : Transaction) (c : DataCall) :
    s.veil.call t c = ((s.call t c).1, (s.call t c).2.1, (s.call t c).2.2.veil) := by
  have hpoint : c.point? ≠ some .rollback := by
    cases c <;> exact nofun
  rw [call, call, visit?_veil hpoint]
  obtain ⟨r, s'⟩ := s.visit? c.point?
  cases r <;> rfl

theorem commit_veil (t : Transaction) :
    s.veil.commit t = ((s.commit t).1, (s.commit t).2.veil) := by
  have hcommit : FaultPoint.commit ≠ .rollback := by decide
  rw [commit, commit, visit_veil hcommit]
  obtain ⟨r, s'⟩ := s.visit .commit
  cases r <;> rfl

theorem veil_veil (s : Store) : s.veil.veil = s.veil :=
  congrArg (Store.mk s.ledger) (Faults.veil_veil _)

theorem rollback_veil : s.rollback.2.veil = s.veil :=
  congrArg (Store.mk s.ledger) (Faults.inject_inject _ _ _ _ _ _)

end Store

namespace World

variable {w : World} {i : ClientId}

def veil (w : World) : World :=
  { w with store := w.store.veil, events := w.events.filter (!·.isRollbackFailure) }

theorem veil_veil (w : World) : w.veil.veil = w.veil := by
  simp only [veil, Store.veil_veil, List.filter_filter, Bool.and_self]

theorem release_veil (w : World) : w.veil.release = w.release.veil := by
  cases hq : w.queue <;> simp only [release, veil, hq]

theorem transaction?_veil (w : World) (i : ClientId) :
    w.veil.transaction? i = w.transaction? i := rfl

theorem discard_veil (w : World) (i : ClientId) : w.veil.discard i = (w.discard i).veil := by
  rw [discard, discard, transaction?_veil]
  split
  · exact release_veil w
  · rfl

theorem acquire_veil (w : World) (i : ClientId) :
    w.veil.acquire i = ((w.acquire i).1, (w.acquire i).2.veil) := by
  have hholder : w.veil.holder = w.holder := rfl
  have hqueue : w.veil.queue = w.queue := rfl
  rw [acquire, acquire, hholder, hqueue]
  cases hw : w.holder with
  | none => rfl
  | some x =>
    dsimp only
    by_cases hx : x.1 = i
    · simp only [if_pos hx]
    · by_cases hi : i ∈ w.queue
      · simp only [if_neg hx, if_pos hi]
      · simp only [if_neg hx, if_neg hi]
        rfl

theorem handOver_veil (w : World) (i j : ClientId) :
    w.veil.handOver i j = ((w.handOver i j).1, (w.handOver i j).2.veil) := by
  rw [handOver, handOver, transaction?_veil]
  cases w.transaction? i <;> rfl

theorem data_veil (w : World) (i : ClientId) (c : DataCall) :
    w.veil.data i c = ((w.data i c).1, (w.data i c).2.veil) := by
  rw [World.data, World.data, transaction?_veil]
  cases w.transaction? i with
  | none => rfl
  | some t => simp only [veil, Store.call_veil]

theorem commit_veil (w : World) (i : ClientId) :
    w.veil.commit i = ((w.commit i).1, (w.commit i).2.veil) := by
  rw [World.commit, World.commit, transaction?_veil]
  cases w.transaction? i with
  | none => rfl
  | some t =>
    have hstore : w.veil.store = w.store.veil := rfl
    simp only [hstore, Store.commit_veil]
    exact congrArg (Prod.mk _) (release_veil { w with store := (w.store.commit t).2 })

theorem rollback_veil (w : World) (i : ClientId) :
    (w.rollback i).1.isSome = (w.transaction? i).isSome ∧
      (w.rollback i).2.veil = (w.discard i).veil := by
  rw [World.rollback, discard]
  cases w.transaction? i with
  | none => exact ⟨rfl, rfl⟩
  | some t =>
    refine ⟨rfl, ?_⟩
    change ({ w with store := w.store.rollback.2 } : World).release.veil = w.release.veil
    rw [← release_veil, ← release_veil]
    exact congrArg (fun s => ({ w.veil with store := s } : World).release) Store.rollback_veil

theorem sleep_veil (w : World) (i : ClientId) (d : Duration) :
    w.veil.sleep i d = ((w.sleep i d).1, (w.sleep i d).2.veil) := by
  have htimers : w.veil.timers = w.timers := rfl
  have hclock : w.veil.clock = w.clock := rfl
  rw [World.sleep, World.sleep, htimers, hclock]
  generalize (w.timers.get? i).getD (w.clock + d.sleepMillis) = due
  split <;> rfl

theorem inject_rollback_veil (w : World) (skip times : Nat) :
    (w.setFaults (w.store.faults.inject .rollback skip times)).veil = w.veil := by
  have hfaults : (w.store.faults.inject .rollback skip times).veil = w.store.faults.veil :=
    Faults.inject_inject _ _ _ _ _ _
  simp only [veil, setFaults, Store.veil, hfaults]

theorem setFaults_veil (w : World) {f f' : Faults} (h : f.veil = f'.veil) :
    (w.veil.setFaults f).veil = (w.setFaults f').veil := by
  simp only [veil, setFaults, Store.veil, h, List.filter_filter, Bool.and_self]

def hear (w : World) (es : List Event) : World := { w with events := w.events ++ es }

theorem hear_nil (w : World) : w.hear [] = w :=
  congrArg (fun es => { w with events := es }) (List.append_nil w.events)

theorem hear_append (w : World) (es es' : List Event) :
    (w.hear es).hear es' = w.hear (es ++ es') :=
  congrArg (fun es => { w with events := es }) (List.append_assoc w.events es es')

theorem hear_veil (w : World) (es : List Event) : (w.veil.hear es).veil = (w.hear es).veil := by
  simp only [veil, hear, Store.veil_veil, List.filter_append, List.filter_filter, Bool.and_self]

/-- Under the veil every request but a rollback finds the same answer and leaves the same. -/
theorem perform_veil (w : World) (i : ClientId) {r : Request} (hr : r ≠ .rollback) :
    (w.veil.perform i r).1 = (w.perform i r).1 ∧
      (w.veil.perform i r).2.veil = (w.perform i r).2.veil := by
  have hsame {α : Type} {x y : α × World} (h : x = (y.1, y.2.veil)) :
      x.1 = y.1 ∧ x.2.veil = y.2.veil := by
    rw [h]
    exact ⟨rfl, veil_veil _⟩
  cases r
  case rollback => exact (hr rfl).elim
  case acquire => exact hsame (acquire_veil w i)
  case data c => exact hsame (data_veil w i c)
  case commit => exact hsame (commit_veil w i)
  case discard => exact ⟨rfl, by rw [perform, perform, discard_veil, veil_veil]⟩
  case leave => exact ⟨rfl, by rw [perform, perform, handOver_veil, veil_veil]⟩
  case takeUp =>
    refine hsame ?_
    rw [perform, perform, handOver_veil]
  case arrive =>
    have hstore : w.veil.store = w.store.veil := rfl
    refine hsame ?_
    rw [perform, perform, hstore, Store.visit_veil (by decide)]
    rfl
  case sleep d => exact hsame (sleep_veil w i d)
  case inject p skip times =>
    exact ⟨rfl, setFaults_veil w (Faults.inject_veil _ p skip times)⟩
  case clearFaults => exact ⟨rfl, setFaults_veil w rfl⟩
  case emit e => exact ⟨rfl, hear_veil w [e]⟩
  all_goals exact hsame rfl

theorem unprobed (h : w.probes = []) {r : Request} {a : r.Answer}
    (ha : (w.perform i r).1 = some a) : r.Unprobed a := by
  cases r
  case note c =>
    cases ha
    change List.filter _ w.probes = []
    rw [h, List.filter_nil]
  all_goals trivial

theorem giveUp_veil (w : World) (i : ClientId) (r : Request) :
    w.veil.giveUp i r = (w.giveUp i r).veil := by
  cases r
  case acquire => exact discard_veil { w with queue := w.queue.erase i } i
  all_goals rfl

theorem leaveBehind_veil (w : World) (i : ClientId) :
    w.veil.leaveBehind i = (w.leaveBehind i).veil :=
  discard_veil { w with queue := w.queue.erase i, timers := w.timers.remove i } i

section Two

variable {w' : World}

theorem clock_of_veil (h : w.veil = w'.veil) : w.clock = w'.clock := by
  change w.veil.clock = w'.veil.clock
  rw [h]

theorem ledger_of_veil (h : w.veil = w'.veil) : w.store.ledger = w'.store.ledger := by
  change w.veil.store.ledger = w'.veil.store.ledger
  rw [h]

theorem events_of_veil (h : w.veil = w'.veil) :
    w.events.filter (!·.isRollbackFailure) = w'.events.filter (!·.isRollbackFailure) := by
  change w.veil.events = w'.veil.events
  rw [h]

theorem ended?_of_veil (h : w.veil = w'.veil) (i : ClientId) (c : Context) (r : Request) :
    w.ended? i c r = w'.ended? i c r := by
  have hlooks : w.looks i r = w'.looks i r := by
    cases r
    case acquire =>
      change w.veil.looks i .acquire = w'.veil.looks i .acquire
      rw [h]
    all_goals rfl
  have hover : w.over? c = w'.over? c := by
    change w.veil.over? c = w'.veil.over? c
    rw [h]
  rw [World.ended?, World.ended?, hlooks, hover]

theorem same_leaveBehind (h : w.veil = w'.veil) (i : ClientId) :
    (w.leaveBehind i).veil = (w'.leaveBehind i).veil := by
  rw [← leaveBehind_veil, ← leaveBehind_veil, h]

theorem same_giveUp (h : w.veil = w'.veil) (i : ClientId) (r : Request) :
    (w.giveUp i r).veil = (w'.giveUp i r).veil := by
  rw [← giveUp_veil, ← giveUp_veil, h]

theorem same_perform (h : w.veil = w'.veil) (i : ClientId) {r : Request} (hr : r ≠ .rollback) :
    (w.perform i r).1 = (w'.perform i r).1 ∧
      (w.perform i r).2.veil = (w'.perform i r).2.veil := by
  obtain ⟨ha, hw⟩ := w.perform_veil i hr
  obtain ⟨ha', hw'⟩ := w'.perform_veil i hr
  rw [← ha, ← ha', ← hw, ← hw', h]
  exact ⟨rfl, rfl⟩

theorem same_rollback (h : w.veil = w'.veil) (i : ClientId) :
    (w.rollback i).1.isSome = (w'.rollback i).1.isSome ∧
      (w.rollback i).2.veil = (w'.rollback i).2.veil := by
  obtain ⟨ha, hw⟩ := w.rollback_veil i
  obtain ⟨ha', hw'⟩ := w'.rollback_veil i
  rw [ha, ha', hw, hw', ← discard_veil, ← discard_veil, h, ← transaction?_veil, h,
    transaction?_veil]
  exact ⟨rfl, rfl⟩

theorem same_hear (h : w.veil = w'.veil) {es es' : List Event}
    (hes : es.filter (!·.isRollbackFailure) = es'.filter (!·.isRollbackFailure)) :
    (w.hear es).veil = (w'.hear es').veil := by
  have hheard : (w.veil.hear (es.filter (!·.isRollbackFailure))) =
      (w'.veil.hear (es'.filter (!·.isRollbackFailure))) := by
    rw [h, hes]
  simpa only [veil, hear, List.filter_append] using hheard

end Two

theorem events_release (w : World) : w.release.events = w.events := by
  rw [release]
  split <;> rfl

theorem events_discard (w : World) (i : ClientId) : (w.discard i).events = w.events := by
  rw [discard]
  split
  · exact w.events_release
  · rfl

theorem events_handOver (w : World) (i j : ClientId) : (w.handOver i j).2.events = w.events := by
  rw [handOver]
  split <;> rfl

/-- Events are only told by telling them. -/
theorem events_perform (w : World) (i : ClientId) {r : Request} (hr : ∀ e, r ≠ .emit e) :
    (w.perform i r).2.events = w.events := by
  cases r
  case emit e => exact (hr e rfl).elim
  case acquire =>
    rw [perform, acquire]
    split
    · rfl
    · split
      · rfl
      · dsimp only
        split <;> rfl
  case data c =>
    rw [perform, World.data]
    split <;> rfl
  case commit =>
    rw [perform, World.commit]
    split
    · rfl
    · exact events_release _
  case rollback =>
    rw [perform, World.rollback]
    split
    · rfl
    · exact events_release _
  case discard => exact w.events_discard i
  case leave => exact w.events_handOver i 0
  case takeUp => exact w.events_handOver 0 i
  case sleep d =>
    rw [perform, World.sleep]
    split <;> rfl
  all_goals rfl

theorem events_giveUp (w : World) (i : ClientId) (r : Request) :
    (w.giveUp i r).events = w.events := by
  cases r
  case acquire => exact events_discard { w with queue := w.queue.erase i } i
  all_goals rfl

theorem events_leaveBehind (w : World) (i : ClientId) : (w.leaveBehind i).events = w.events :=
  events_discard { w with queue := w.queue.erase i, timers := w.timers.remove i } i

def failures (w : World) : List Event := w.events.filter (·.isRollbackFailure)

theorem failures_hear (w : World) (es : List Event) :
    (w.hear es).failures = w.failures ++ es.filter (·.isRollbackFailure) :=
  List.filter_append ..

theorem failures_perform (w : World) (i : ClientId) {r : Request}
    (hr : ∀ e, r = .emit e → e.isRollbackFailure = false) :
    (w.perform i r).2.failures = w.failures := by
  by_cases he : ∃ e, r = .emit e
  · obtain ⟨e, rfl⟩ := he
    have hnone : [e].filter (·.isRollbackFailure) = [] := by
      rw [List.filter_cons, hr e rfl]
      rfl
    change (w.hear [e]).failures = w.failures
    rw [failures_hear, hnone, List.append_nil]
  · exact congrArg (List.filter _) (w.events_perform i fun e hr => he ⟨e, hr⟩)

end World

end WagerLedger

import WagerLedger.Proofs.Program.Watch
import WagerLedger.Proofs.World.Requests

/-! # Contexts as time goes on

A context that is over stays over: a signal that is set stays set, and the clock never goes
back. A look at a context and a wait for its end agree at every whole millisecond. Of the
requests that a settlement makes none moves the clock or a signal, and none but a commit
changes the ledger. -/
namespace WagerLedger

/-- The caller has not given up: the signal is not set, and the clock is strictly before the
deadline. -/
structure Context.Open (c : Context) (w : World) : Prop where
  uncancelled : ∀ s ∈ c.signal, w.signals.isCancelled s = false
  inTime : ∀ d ∈ c.deadline, w.clock * Duration.nanosPerMilli < d

/-- How the caller has given up: a cancellation comes before an expired deadline. -/
structure Context.Over (c : Context) (w : World) (e : SettlementError) : Prop where
  ended : ¬c.Open w
  error : e = if c.signal.any w.signals.isCancelled then .cancelled else .deadlineExceeded

def SettlementError.isOver : SettlementError → Bool
  | .cancelled | .deadlineExceeded => true
  | _ => false

theorem SettlementError.isOver_ofLedger (e : LedgerError) : (ofLedger e).isOver = false := by
  cases e <;> rfl

def Request.signals : Request → Bool
  | .createSignal | .cancel _ | .dropHandle _ => true
  | _ => false

namespace Signals

variable {s : Signals} {i : SignalId}

theorem isCancelled_create (h : s.isCancelled i = true) : s.create.2.isCancelled i = true := by
  obtain ⟨x, hx, hc⟩ := (Option.any_eq_true _ _).mp h
  have hi : i < s.list.length := (List.getElem?_eq_some_iff.mp hx).1
  refine (Option.any_eq_true _ _).mpr ⟨x, ?_, hc⟩
  exact (List.getElem?_append_left hi).trans hx

theorem isCancelled_modify {f : Signal → Signal} (hf : ∀ x, x.cancelled = true →
    (f x).cancelled = true) (j : SignalId) (h : s.isCancelled i = true) :
    isCancelled ⟨s.list.modify j f⟩ i = true := by
  obtain ⟨x, hx, hc⟩ := (Option.any_eq_true _ _).mp h
  refine (Option.any_eq_true _ _).mpr ⟨if j = i then f x else x, ?_, ?_⟩
  · change (s.list.modify j f)[i]? = _
    rw [List.getElem?_modify, show s.list[i]? = some x from hx]
    split <;> rfl
  · split
    · exact hf x hc
    · exact hc

end Signals

namespace Context

theorem cancelledBy_eq (c : Context) (s : Signals) :
    c.cancelledBy s = c.signal.any s.isCancelled := by
  unfold cancelledBy Signals.isCancelled
  cases c.signal with
  | none => rfl
  | some i =>
    rw [Option.bind_some, Option.any_some]
    cases s.get? i with
    | none => rfl
    | some x =>
      rw [Option.any_some]
      change (x.wait == .set) = x.cancelled
      unfold Signal.wait
      cases x.cancelled with
      | true => rfl
      | false => cases x.dropped <;> rfl

theorem ceil_le_iff {d n k : Nat} (hn : 0 < n) : (d + (n - 1)) / n ≤ k ↔ d ≤ k * n := by
  rw [Nat.div_le_iff_le_mul_add_pred hn, Nat.add_le_add_iff_right, Nat.mul_comm]

theorem any_ceil {n : Nat} (hn : 0 < n) (o : Option Instant) (k : Nat) :
    (o.map fun d => (d + (n - 1)) / n).any (· ≤ k) = o.any (· ≤ k * n) := by
  cases o with
  | none => rfl
  | some d => simp only [Option.map_some, Option.any_some, ceil_le_iff hn]

/-- A wait for the end of a context is over at the whole milliseconds at which a look would
find it over, and with the same error. -/
theorem done?_eq_check (c : Context) (s : Signals) (clock : Nat) :
    c.done? s clock = c.check s (clock * Duration.nanosPerMilli) := by
  rw [done?, check, cancelledBy_eq, alarm?, any_ceil (by decide)]

theorem check_of_le {c : Context} {s : Signals} {now later : Instant} {e : SettlementError}
    (hle : now ≤ later) (h : c.check s now = some e) : c.check s later = some e := by
  unfold check at h ⊢
  split at h
  · rename_i hset
    rwa [if_pos hset]
  · rename_i hset
    rw [if_neg hset]
    split at h
    · rename_i hdue
      obtain ⟨d, hd, hnow⟩ := (Option.any_eq_true _ _).mp hdue
      have hlater := Nat.le_trans (of_decide_eq_true hnow) hle
      rwa [if_pos ((Option.any_eq_true _ _).mpr ⟨d, hd, decide_eq_true hlater⟩)]
    · cases h

end Context

namespace World

def look (w : World) (c : Context) : Option SettlementError :=
  c.check w.signals (w.clock * Duration.nanosPerMilli)

/-- Time, the signals and the probes are as they were. -/
structure Steady (w w' : World) : Prop where
  clock : w'.clock = w.clock
  signals : w'.signals = w.signals
  probes : w'.probes = w.probes

/-- Time may have passed and signals may have been set. -/
structure Later (w w' : World) : Prop where
  clock : w.clock ≤ w'.clock
  cancelled : ∀ i, w.signals.isCancelled i = true → w'.signals.isCancelled i = true
  probes : w'.probes = w.probes

variable {w w' : World} {c : Context} {e : SettlementError}

theorem look_eq_none_iff : w.look c = none ↔ c.Open w := by
  unfold look Context.check
  constructor
  · intro h
    split at h
    · cases h
    · rename_i hc
      split at h
      · cases h
      · rename_i hd
        refine ⟨fun s hs => ?_, fun d hd' => ?_⟩
        · rw [show c.signal = some s from hs] at hc
          simpa using hc
        · rw [show c.deadline = some d from hd'] at hd
          simpa using hd
  · rintro ⟨hc, hd⟩
    rw [if_neg, if_neg]
    · intro h
      obtain ⟨d, hd', hle⟩ := (Option.any_eq_true _ _).mp h
      exact absurd (hd d hd') (by simpa using hle)
    · intro h
      obtain ⟨s, hs, hs'⟩ := (Option.any_eq_true _ _).mp h
      rw [hc s hs] at hs'
      cases hs'

theorem look_eq_some_iff : w.look c = some e ↔ c.Over w e := by
  have hiff : w.look c = some e ↔ ¬c.Open w ∧
      e = if c.signal.any w.signals.isCancelled then .cancelled else .deadlineExceeded := by
    rw [← look_eq_none_iff]
    unfold look Context.check
    split
    · simp [eq_comm]
    · split <;> simp [eq_comm]
  exact hiff.trans ⟨fun ⟨ho, he⟩ => ⟨ho, he⟩, fun h => ⟨h.ended, h.error⟩⟩

theorem isOver_of_look (h : w.look c = some e) : e.isOver = true := by
  rw [(look_eq_some_iff.mp h).error]
  split <;> rfl

theorem over?_eq_look (w : World) (c : Context) : w.over? c = w.look c :=
  c.done?_eq_check w.signals w.clock

theorem Steady.later (h : w.Steady w') : w.Later w' :=
  ⟨Nat.le_of_eq h.clock.symm, fun _ hi => by rw [h.signals, hi], h.probes⟩

theorem Later.refl (w : World) : w.Later w := ⟨Nat.le_refl _, fun _ => id, rfl⟩

theorem Later.trans {w'' : World} (h : w.Later w') (h' : w'.Later w'') : w.Later w'' :=
  ⟨Nat.le_trans h.clock h'.clock, fun i hi => h'.cancelled i (h.cancelled i hi),
    h'.probes.trans h.probes⟩

theorem Later.open (h : w.Later w') (hc : c.Open w') : c.Open w where
  uncancelled s hs := by
    have hset := h.cancelled s
    rw [hc.uncancelled s hs] at hset
    exact Bool.eq_false_iff.mpr fun hs' => Bool.false_ne_true (hset hs')
  inTime d hd := Nat.lt_of_le_of_lt (Nat.mul_le_mul_right _ h.clock) (hc.inTime d hd)

theorem steady_release (w : World) : w.Steady w.release := by
  unfold release
  split <;> exact ⟨rfl, rfl, rfl⟩

theorem steady_discard (w : World) (i : ClientId) : w.Steady (w.discard i) := by
  unfold discard
  split
  · exact w.steady_release
  · exact ⟨rfl, rfl, rfl⟩

theorem steady_handOver (w : World) (i j : ClientId) : w.Steady (w.handOver i j).2 := by
  unfold handOver
  split <;> exact ⟨rfl, rfl, rfl⟩

theorem steady_leaveBehind (w : World) (i : ClientId) : w.Steady (w.leaveBehind i) := by
  have h := steady_discard { w with queue := w.queue.erase i, timers := w.timers.remove i } i
  exact ⟨h.clock, h.signals, h.probes⟩

theorem steady_giveUp (w : World) (i : ClientId) (r : Request) : w.Steady (w.giveUp i r) := by
  cases r
  case acquire =>
    have h := steady_discard { w with queue := w.queue.erase i } i
    exact ⟨h.clock, h.signals, h.probes⟩
  all_goals exact ⟨rfl, rfl, rfl⟩

theorem steady_perform {r : Request} (hr : r.signals = false) (i : ClientId) :
    w.Steady (w.perform i r).2 := by
  -- Only requests that signal touch what a context reads, and only time moves the clock.
  cases r
  case acquire =>
    change w.Steady (w.acquire i).2
    unfold acquire
    split
    · exact ⟨rfl, rfl, rfl⟩
    · split
      · exact ⟨rfl, rfl, rfl⟩
      · split <;> exact ⟨rfl, rfl, rfl⟩
  case data c =>
    change w.Steady (w.data i c).2
    unfold data
    split <;> exact ⟨rfl, rfl, rfl⟩
  case commit =>
    change w.Steady (w.commit i).2
    unfold commit
    split
    · exact ⟨rfl, rfl, rfl⟩
    · have h (s : Store) := steady_release { w with store := s }
      exact ⟨(h _).clock, (h _).signals, (h _).probes⟩
  case rollback =>
    change w.Steady (w.rollback i).2
    unfold rollback
    split
    · exact ⟨rfl, rfl, rfl⟩
    · have h (s : Store) := steady_release { w with store := s }
      exact ⟨(h _).clock, (h _).signals, (h _).probes⟩
  case discard => exact w.steady_discard i
  case leave => exact w.steady_handOver i 0
  case takeUp => exact w.steady_handOver 0 i
  case sleep d =>
    change w.Steady (w.sleep i d).2
    unfold sleep
    dsimp only
    split <;> exact ⟨rfl, rfl, rfl⟩
  case createSignal => cases hr
  case cancel => cases hr
  case dropHandle => cases hr
  all_goals exact ⟨rfl, rfl, rfl⟩

theorem later_perform (w : World) (i : ClientId) (r : Request) : w.Later (w.perform i r).2 := by
  cases hr : r.signals with
  | false => exact (steady_perform hr i).later
  | true =>
    cases r
    case createSignal => exact ⟨Nat.le_refl _, fun _ => Signals.isCancelled_create, rfl⟩
    case cancel s => exact ⟨Nat.le_refl _, fun _ => Signals.isCancelled_modify (fun _ _ => rfl) s, rfl⟩
    case dropHandle s =>
      exact ⟨Nat.le_refl _, fun _ => Signals.isCancelled_modify (f := ({ · with dropped := true }))
        (fun _ h => h) s, rfl⟩
    all_goals cases hr

theorem ledger_discard (w : World) (i : ClientId) :
    (w.discard i).store.ledger = w.store.ledger := by
  unfold discard
  split
  · rw [release_store]
  · rfl

theorem ledger_giveUp (w : World) (i : ClientId) (r : Request) :
    (w.giveUp i r).store.ledger = w.store.ledger := by
  cases r
  case acquire => exact ledger_discard _ i
  all_goals rfl

/-- A settlement changes the ledger by commits only. -/
theorem ledger_perform {r : Request} (hr : r.isSettling = true) (hc : r ≠ .commit)
    (i : ClientId) : (w.perform i r).2.store.ledger = w.store.ledger := by
  cases r
  case arrive =>
    change (w.store.visit .begin).2.ledger = _
    rcases w.store.visit_cases .begin with ⟨f, hv⟩ | ⟨f, hv⟩ <;> rw [hv]
  case acquire =>
    change (w.acquire i).2.store.ledger = _
    unfold acquire
    split
    · rfl
    · split
      · rfl
      · split <;> rfl
  case data d =>
    change (w.data i d).2.store.ledger = _
    unfold data
    split
    · rfl
    · rename_i t ht
      rcases w.store.call_cases t d with ⟨-, p, f, -, hd⟩ | ⟨-, f, hd⟩ <;> rw [hd]
  case rollback =>
    change (w.rollback i).2.store.ledger = _
    unfold rollback
    split
    · rfl
    · exact (congrArg Store.ledger (release_store _)).trans w.store.rollback_ledger
  case commit => exact (hc rfl).elim
  case sleep d => exact (like_sleep w i d).ledger
  case check => rfl
  case poll => rfl
  case note => rfl
  case clock => rfl
  case entropy => rfl
  case emit => rfl
  all_goals cases hr

end World

end WagerLedger

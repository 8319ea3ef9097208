import WagerLedger.Proofs.Ledger.Store
import WagerLedger.Proofs.Program.Alike
import WagerLedger.Proofs.World.Timers

/-! # Worlds that go the same way

Two worlds without faults and observers are alike when their ledgers are, when the same client
holds the lock with a like transaction, the same clients wait for it, and every timer is due
the same time from now. A like request of one client then finds a like answer in both, or has
to wait in both, and the worlds stay alike. -/
namespace WagerLedger

namespace World

structure Alike (L : Likeness) (w w' : World) : Prop where
  ledger : w.store.ledger.Alike L w'.store.ledger
  faults : w.store.faults = .none
  faults' : w'.store.faults = .none
  clock : w.clock = w'.clock + L.lag
  holder : Option.Rel (fun h h' => h.1 = h'.1 ∧ h.2.Alike L h'.2) w.holder w'.holder
  queue : w'.queue = w.queue
  timers : ∀ i, w.timers.get? i = (w'.timers.get? i).map (· + L.lag)
  signals : w'.signals = w.signals
  entropy : w'.entropy = w.entropy
  sources : w'.sources = w.sources
  probes : w.probes = []
  probes' : w'.probes = []

namespace Alike

variable {L : Likeness} {w w' : World} {i j : ClientId} {c : Context}

theorem transaction? (h : w.Alike L w') (i : ClientId) :
    Option.Rel (Transaction.Alike L) (w.transaction? i) (w'.transaction? i) := by
  have hh := h.holder
  rw [World.transaction?, World.transaction?]
  generalize w.holder = x at hh ⊢
  generalize w'.holder = x' at hh ⊢
  cases hh with
  | none => exact .none
  | some hh =>
    simp only [hh.1]
    split
    · exact .some hh.2
    · exact .none

theorem check (h : w.Alike L w') (hc : L.Agrees c) :
    c.check w.signals (w.clock * Duration.nanosPerMilli) =
      c.check w'.signals (w'.clock * Duration.nanosPerMilli) := by
  rw [h.signals]
  rcases hc with hd | hlag
  · simp only [Context.check, hd, Option.any_none]
  · rw [h.clock, hlag, Nat.add_zero]

theorem over? (h : w.Alike L w') (hc : L.Agrees c) : w.over? c = w'.over? c := by
  rw [World.over?, World.over?, h.signals]
  rcases hc with hd | hlag
  · simp only [Context.done?, Context.alarm?, hd, Option.map_none, Option.any_none]
  · rw [h.clock, hlag, Nat.add_zero]

theorem release (h : w.Alike L w') : w.release.Alike L w'.release := by
  rw [World.release, World.release, h.queue]
  split
  · exact { h with holder := .none, queue := rfl }
  · exact { h with holder := .some ⟨rfl, Transaction.alike_empty⟩, queue := rfl }

theorem discard (h : w.Alike L w') (i : ClientId) : (w.discard i).Alike L (w'.discard i) := by
  have ht := h.transaction? i
  rw [World.discard, World.discard]
  generalize w.transaction? i = x at ht ⊢
  generalize w'.transaction? i = x' at ht ⊢
  cases ht with
  | none => exact h
  | some _ => exact h.release

theorem erase (h : w.Alike L w') (i : ClientId) :
    World.Alike L { w with queue := w.queue.erase i } { w' with queue := w'.queue.erase i } :=
  { h with queue := congrArg (List.erase · i) h.queue }

theorem acquire (h : w.Alike L w') (i : ClientId) :
    (w.acquire i).1 = (w'.acquire i).1 ∧ (w.acquire i).2.Alike L (w'.acquire i).2 := by
  rw [World.acquire, World.acquire]
  rcases rel_cases h.holder with ⟨hw, hw'⟩ | ⟨x, x', hw, hw', hh⟩
  · rw [hw, hw']
    exact ⟨rfl, { h with holder := .some ⟨rfl, Transaction.alike_empty⟩ }⟩
  · rw [hw, hw']
    simp only [hh.1, h.queue]
    split
    · exact ⟨rfl, h⟩
    · refine ⟨rfl, ?_⟩
      split
      · exact h
      · exact { h with holder := .some hh, queue := rfl }

theorem ends (h : w.Alike L w') {l l' : Ledger} (hl : l.Alike L l') :
    World.Alike L { w with store := ⟨l, .none⟩ }.release { w' with store := ⟨l', .none⟩ }.release :=
  release { h with ledger := hl, faults := rfl, faults' := rfl }

theorem store_eq (h : w.Alike L w') : w.store = ⟨w.store.ledger, .none⟩ := by
  rw [← h.faults]

theorem store_eq' (h : w.Alike L w') : w'.store = ⟨w'.store.ledger, .none⟩ := by
  rw [← h.faults']

theorem data (h : w.Alike L w') {d d' : DataCall} {A : d.Answer → d'.Answer → Prop}
    (hd : d.Alike L d' A) :
    Option.Rel (EndsAlike (LedgerError.Alike L) A) (w.data i d).1 (w'.data i d').1 ∧
      (w.data i d).2.Alike L (w'.data i d').2 := by
  have ht := h.transaction? i
  rw [World.data, World.data]
  generalize w.transaction? i = x at ht ⊢
  generalize w'.transaction? i = x' at ht ⊢
  cases ht with
  | none => exact ⟨.none, h⟩
  | @some t t' ht =>
    obtain ⟨hr, hs⟩ := h.ledger.run ht hd
    dsimp only
    rw [h.store_eq, h.store_eq', Store.call_quiet, Store.call_quiet]
    exact ⟨.some hr, { h with faults := rfl, faults' := rfl, holder := .some ⟨rfl, hs⟩ }⟩

theorem commit (h : w.Alike L w') (i : ClientId) :
    (w.commit i).1 = (w'.commit i).1 ∧ (w.commit i).2.Alike L (w'.commit i).2 := by
  have ht := h.transaction? i
  rw [World.commit, World.commit]
  generalize w.transaction? i = x at ht ⊢
  generalize w'.transaction? i = x' at ht ⊢
  cases ht with
  | none => exact ⟨rfl, h⟩
  | some ht =>
    dsimp only
    rw [h.store_eq, h.store_eq', Store.commit_quiet, Store.commit_quiet]
    exact ⟨rfl, h.ends (h.ledger.apply ht)⟩

theorem rollback (h : w.Alike L w') (i : ClientId) :
    (w.rollback i).1 = (w'.rollback i).1 ∧ (w.rollback i).2.Alike L (w'.rollback i).2 := by
  have ht := h.transaction? i
  rw [World.rollback, World.rollback]
  generalize w.transaction? i = x at ht ⊢
  generalize w'.transaction? i = x' at ht ⊢
  cases ht with
  | none => exact ⟨rfl, h⟩
  | some ht =>
    dsimp only
    rw [h.store_eq, h.store_eq', Store.rollback, Store.rollback, Store.visit_quiet,
      Store.visit_quiet]
    exact ⟨rfl, h.ends h.ledger⟩

theorem remove_timer (h : w.Alike L w') (i : ClientId) :
    World.Alike L { w with timers := w.timers.remove i }
      { w' with timers := w'.timers.remove i } :=
  { h with
    timers := fun j => by
      simp only [Table.get?_remove]
      split
      · rfl
      · exact h.timers j }

theorem due (h : w.Alike L w') (i : ClientId) (m : Nat) :
    (w.timers.get? i).getD (w.clock + m) = (w'.timers.get? i).getD (w'.clock + m) + L.lag := by
  rw [h.timers i, h.clock]
  cases w'.timers.get? i with
  | none => exact Nat.add_right_comm _ _ _
  | some _ => rfl

theorem rings (h : w.Alike L w') (i : ClientId) (m : Nat) :
    (w.timers.get? i).getD (w.clock + m) ≤ w.clock ↔
      (w'.timers.get? i).getD (w'.clock + m) ≤ w'.clock := by
  rw [h.due, h.clock, Nat.add_le_add_iff_right]

theorem put_timer (h : w.Alike L w') (i : ClientId) {t t' : Nat} (ht : t = t' + L.lag) :
    World.Alike L { w with timers := w.timers.put i t } { w' with timers := w'.timers.put i t' } :=
  { h with
    timers := fun j => by
      simp only [Table.get?_put]
      split
      · exact congrArg some ht
      · exact h.timers j }

theorem sleep (h : w.Alike L w') (i : ClientId) (d : Duration) :
    (w.sleep i d).1 = (w'.sleep i d).1 ∧ (w.sleep i d).2.Alike L (w'.sleep i d).2 := by
  have hrings := h.rings i d.sleepMillis
  have hdue := h.due i d.sleepMillis
  rw [World.sleep, World.sleep]
  generalize (w.timers.get? i).getD (w.clock + d.sleepMillis) = due at hrings hdue ⊢
  generalize (w'.timers.get? i).getD (w'.clock + d.sleepMillis) = due' at hrings hdue ⊢
  simp only [hrings]
  split
  · exact ⟨rfl, h.remove_timer i⟩
  · exact ⟨rfl, h.put_timer i hdue⟩

theorem perform_plain (h : w.Alike L w') {r : Request} (hr : r.isPlain = true) (i : ClientId) :
    (w.perform i r).1 = (w'.perform i r).1 ∧ (w.perform i r).2.Alike L (w'.perform i r).2 := by
  cases r
  case arrive =>
    simp only [perform]
    rw [h.store_eq, h.store_eq', Store.visit_quiet, Store.visit_quiet]
    exact ⟨rfl, { h with faults := rfl, faults' := rfl }⟩
  case acquire => exact h.acquire i
  case commit => exact h.commit i
  case rollback => exact h.rollback i
  case discard => exact ⟨rfl, h.discard i⟩
  case poll => exact ⟨rfl, h⟩
  case sleep d => exact h.sleep i d
  case never => exact ⟨rfl, h⟩
  case entropy =>
    refine ⟨?_, { h with sources := congrArg (· + 1) h.sources }⟩
    simp only [perform, h.entropy, h.sources]
  case isCancelled s =>
    refine ⟨?_, h⟩
    simp only [perform, h.signals]
  all_goals cases hr

theorem perform_signal (h : w.Alike L w') {r : Request} (hr : r.signals = true) (i : ClientId) :
    (w.perform i r).1 = (w'.perform i r).1 ∧ (w.perform i r).2.Alike L (w'.perform i r).2 := by
  cases r
  case createSignal =>
    simp only [perform, h.signals]
    exact ⟨trivial, { h with signals := rfl }⟩
  case cancel s => exact ⟨rfl, { h with signals := congrArg (Signals.cancel · s) h.signals }⟩
  case dropHandle s => exact ⟨rfl, { h with signals := congrArg (Signals.drop · s) h.signals }⟩
  all_goals cases hr

/-- A client with like requests gets like answers, or has to wait in both worlds. -/
theorem perform (h : w.Alike L w') {r r' : Request} {A : r.Answer → r'.Answer → Prop}
    (hr : r.Alike L r' A) (i : ClientId) :
    Option.Rel A (w.perform i r).1 (w'.perform i r').1 ∧
      (w.perform i r).2.Alike L (w'.perform i r').2 := by
  cases hr with
  | plain hr =>
    obtain ⟨ha, hw⟩ := h.perform_plain hr i
    exact ⟨ha ▸ rel_refl (fun _ => rfl) _, hw⟩
  | signal hr _ =>
    obtain ⟨ha, hw⟩ := h.perform_signal hr i
    exact ⟨ha ▸ rel_refl (fun _ => rfl) _, hw⟩
  | data hd => exact h.data hd
  | seed he hb =>
    obtain ⟨ha, hl⟩ := h.ledger.seed he hb
    exact ⟨.some ha, { h with ledger := hl }⟩
  | check hc => exact ⟨.some (h.check hc), h⟩
  | note c c' =>
    refine ⟨.some ⟨?_, ?_⟩, { h with }⟩
    · simp only [h.probes, List.filter_nil]
    · simp only [h.probes', List.filter_nil]
  | clock => exact ⟨.some h.clock, h⟩
  | emit e e' => exact ⟨.some rfl, { h with }⟩

/-- A context that is looked at in one world is looked at in the other. -/
theorem looks (h : w.Alike L w') {r r' : Request} {A : r.Answer → r'.Answer → Prop}
    (hr : r.Alike L r' A) (i : ClientId) : w.looks i r = w'.looks i r' := by
  cases hr with
  | @plain r hr =>
    cases r
    case acquire =>
      have ht : (w.transaction? i).isSome = (w'.transaction? i).isSome := by
        have hrel := h.transaction? i
        generalize w.transaction? i = x at hrel ⊢
        generalize w'.transaction? i = x' at hrel ⊢
        cases hrel <;> rfl
      simp only [World.looks, h.queue, ht]
    all_goals rfl
  | @signal r hr _ =>
    cases r
    case createSignal => rfl
    case cancel => rfl
    case dropHandle => rfl
    all_goals cases hr
  | data hd => rfl
  | seed he hb => rfl
  | check hc => rfl
  | note c c' => rfl
  | clock => rfl
  | emit e e' => rfl

theorem ended? (h : w.Alike L w') (hc : L.Agrees c) {r r' : Request}
    {A : r.Answer → r'.Answer → Prop} (hr : r.Alike L r' A) (i : ClientId) :
    w.ended? i c r = w'.ended? i c r' := by
  rw [World.ended?, World.ended?, h.looks hr, h.over? hc]

theorem giveUp (h : w.Alike L w') {r r' : Request} {A : r.Answer → r'.Answer → Prop}
    (hr : r.Alike L r' A) (i : ClientId) : (w.giveUp i r).Alike L (w'.giveUp i r') := by
  cases hr with
  | @plain r hr =>
    cases r
    case acquire => exact (h.erase i).discard i
    case sleep d => exact h.remove_timer i
    all_goals exact h
  | @signal r hr _ =>
    cases r
    case acquire => cases hr
    case sleep d => cases hr
    all_goals exact h
  | data hd => exact h
  | seed he hb => exact h
  | check hc => exact h
  | note c c' => exact h
  | clock => exact h
  | emit e e' => exact h

theorem leaveBehind (h : w.Alike L w') (i : ClientId) :
    (w.leaveBehind i).Alike L (w'.leaveBehind i) :=
  ((h.erase i).remove_timer i).discard i

theorem step {α α' : Type} {R : α → α' → Prop} {p : Program α} {p' : Program α'}
    (h : w.Alike L w') (hp : p.Alike L R p') (i : ClientId) :
    Option.Rel (Program.Alike L R) (p.step i w).1 (p'.step i w').1 ∧
      (p.step i w).2.Alike L (p'.step i w').2 := by
  cases hp with
  | done _ => exact ⟨.none, h⟩
  | crash => exact ⟨.none, h⟩
  | ask hr hk =>
    obtain ⟨ha, hw⟩ := h.perform hr i
    exact ⟨rel_map ha hk, hw⟩
  | @race c r r' A k k' hc hr he hk =>
    rw [Program.step, Program.step, ← h.ended? hc hr]
    cases w.ended? i c r with
    | some e => exact ⟨.some (he e), h.giveUp hr i⟩
    | none =>
      obtain ⟨ha, hw⟩ := h.perform hr i
      exact ⟨rel_map ha hk, hw⟩

end Alike

end World

end WagerLedger

import WagerLedger.Proofs.Program.Causes
import WagerLedger.Proofs.World.Veil

/-! # Which calls a window of faults hits

Only the calls that reach its point change a window, each of them by one. So the calls that
fail are told by their numbers, whatever else happens to the world meanwhile; and a call that
fails leaves the ledger and the open transaction as they were. -/
namespace WagerLedger

theorem errorOf?_iff {α : Type} {a : Except LedgerError α} {e : LedgerError} :
    errorOf? a = some e ↔ a = .error e :=
  ⟨errorOf?_eq_some, congrArg errorOf?⟩

namespace FaultWindow

/-- The call with number `n` through a window that is not touched otherwise fails. -/
def Hits (w : FaultWindow) (n : Nat) : Prop := w.skip ≤ n ∧ n < w.skip + w.remaining

instance (w : FaultWindow) (n : Nat) : Decidable (w.Hits n) := inferInstanceAs (Decidable (_ ∧ _))

def after (w : FaultWindow) (n : Nat) : FaultWindow :=
  if w.remaining = 0 then w else ⟨w.skip - n, w.remaining - (n - w.skip)⟩

theorem after_zero (w : FaultWindow) : w.after 0 = w := by
  unfold after
  split
  · rfl
  · rw [Nat.zero_sub, Nat.sub_zero, Nat.sub_zero]

theorem pass_after_fails (w : FaultWindow) (n : Nat) :
    (Faults.pass (w.after n)).1 = true ↔ w.Hits n := by
  obtain ⟨skip, times⟩ := w
  simp only [after, Faults.pass, Hits]
  by_cases htimes : times = 0
  · simp only [if_pos htimes, Bool.false_eq_true, false_iff]
    omega
  · simp only [if_neg htimes]
    split
    · simp only [Bool.false_eq_true, false_iff]
      omega
    · split
      · simp only [true_iff]
        omega
      · simp only [Bool.false_eq_true, false_iff]
        omega

theorem pass_after (w : FaultWindow) (n : Nat) :
    (Faults.pass (w.after n)).2 = w.after (n + 1) := by
  obtain ⟨skip, times⟩ := w
  simp only [after, Faults.pass]
  by_cases htimes : times = 0
  · simp only [if_pos htimes]
  · simp only [if_neg htimes]
    split
    · rw [FaultWindow.mk.injEq]
      omega
    · split
      · rw [FaultWindow.mk.injEq]
        omega
      · rw [FaultWindow.mk.injEq]
        omega

end FaultWindow

namespace Store

variable {s : Store} {p : FaultPoint}

theorem window_visit (s : Store) (p q : FaultPoint) :
    (s.visit p).2.faults.window q =
      if q = p then (Faults.pass (s.faults.window p)).2 else s.faults.window q := by
  rfl

theorem visit_error_iff (s : Store) (p : FaultPoint) :
    (s.visit p).1 = .error (Faults.error p) ↔ (Faults.pass (s.faults.window p)).1 = true := by
  simp only [visit, Faults.visit]
  cases (Faults.pass (s.faults.window p)).1 <;> simp

theorem call_error_iff {t : Transaction} {c : DataCall} (hp : c.point? = some p) :
    (s.call t c).1 = .error (Faults.error p) ↔ (Faults.pass (s.faults.window p)).1 = true := by
  constructor
  · intro h
    obtain ⟨-, k, hbefore, -⟩ := call_trips h
    rw [hbefore]
    rfl
  · intro h
    have hvisit : (s.visit? (some p)).1 = .error (Faults.error p) := (s.visit_error_iff p).mpr h
    unfold call
    rw [hp]
    rcases hv : s.visit? (some p) with ⟨⟨e⟩ | ⟨⟩, s'⟩
    · rw [hv] at hvisit
      cases hvisit
      rfl
    · rw [hv] at hvisit
      cases hvisit

theorem commit_error_iff {t : Transaction} : (s.commit t).1 = .error (Faults.error .commit) ↔
    (Faults.pass (s.faults.window .commit)).1 = true := by
  rw [← s.visit_error_iff .commit]
  unfold commit
  rcases s.visit .commit with ⟨⟨e⟩ | ⟨⟩, s'⟩
  · exact Iff.rfl
  · exact ⟨nofun, nofun⟩

theorem call_faults (s : Store) (t : Transaction) (c : DataCall) :
    (s.call t c).2.2.faults = (s.visit? c.point?).2.faults := by
  unfold call
  rcases s.visit? c.point? with ⟨⟨e⟩ | ⟨⟩, s'⟩ <;> rfl

theorem commit_faults (s : Store) (t : Transaction) :
    (s.commit t).2.faults = (s.visit .commit).2.faults := by
  unfold commit
  rcases s.visit .commit with ⟨⟨e⟩ | ⟨⟩, s'⟩ <;> rfl

end Store

namespace World

/-- What can happen to a world: a request of a client, or a client that waits no longer or goes
away, or time that passes. -/
inductive Happening
  | request (client : ClientId) (r : Request)
  | giveUp (client : ClientId) (r : Request)
  | leaveBehind (client : ClientId)
  | wait (millis : Nat)

namespace Happening

def after (w : World) : Happening → World
  | .request i r => (w.perform i r).2
  | .giveUp i r => w.giveUp i r
  | .leaveBehind i => w.leaveBehind i
  | .wait millis => { w with clock := w.clock + millis }

/-- A call is made that goes through the window of the point. A client that does not hold the
lock has no transaction to make calls in. -/
def reaches (p : FaultPoint) (w : World) : Happening → Bool
  | .request i r => decide (r.point? = some p) && (w.perform i r).1.isSome
  | _ => false

/-- The window of the point is not opened anew and not closed. -/
def spares (p : FaultPoint) : Happening → Bool
  | .request _ (.inject q _ _) => decide (q ≠ p)
  | .request _ .clearFaults => false
  | _ => true

end Happening

def happens (w : World) (os : List Happening) : World := os.foldl Happening.after w

/-- How many calls have reached a point. -/
def reached (p : FaultPoint) (w : World) : List Happening → Nat
  | [] => 0
  | o :: os => (if o.reaches p w then 1 else 0) + reached p (o.after w) os

variable {w : World} {p : FaultPoint} {i : ClientId} {r : Request} {a : r.Answer}

theorem discard_store (w : World) (i : ClientId) : (w.discard i).store = w.store := by
  unfold discard
  split
  · exact release_store w
  · rfl

theorem handOver_store (w : World) (i j : ClientId) : (w.handOver i j).2.store = w.store := by
  unfold handOver
  split <;> rfl

theorem acquire_store (w : World) (i : ClientId) : (w.acquire i).2.store = w.store := by
  unfold acquire
  split
  · rfl
  · split
    · rfl
    · split <;> rfl

theorem sleep_store (w : World) (i : ClientId) (d : Duration) :
    (w.sleep i d).2.store = w.store := by
  unfold sleep
  dsimp only
  split <;> rfl

/-- A call at a point is not made, or it goes through the window of the point, which tells
whether it fails by injection. -/
theorem perform_call (hr : r.point? = some p) :
    w.perform i r = (none, w) ∨ ∃ a, (w.perform i r).1 = some a ∧
      (w.perform i r).2.store.faults = (w.store.visit p).2.faults ∧
      (r.failure? a = some (Faults.error p) ↔
        (Faults.pass (w.store.faults.window p)).1 = true) := by
  cases r
  case arrive =>
    cases hr
    exact .inr ⟨_, rfl, rfl, errorOf?_iff.trans (w.store.visit_error_iff .begin)⟩
  case data c =>
    change w.data i c = _ ∨ ∃ a, (w.data i c).1 = some a ∧ (w.data i c).2.store.faults = _ ∧ _
    unfold World.data
    split
    · exact .inl rfl
    · refine .inr ⟨_, rfl, ?_, errorOf?_iff.trans (Store.call_error_iff hr)⟩
      change (w.store.call _ c).2.2.faults = _
      rw [Store.call_faults, show c.point? = some p from hr]
      rfl
  case commit =>
    cases hr
    change w.commit i = _ ∨ ∃ a, (w.commit i).1 = some a ∧ (w.commit i).2.store.faults = _ ∧ _
    unfold World.commit
    split
    · exact .inl rfl
    · refine .inr ⟨_, rfl, ?_, errorOf?_iff.trans Store.commit_error_iff⟩
      rw [release_store]
      exact Store.commit_faults _ _
  case rollback =>
    cases hr
    change w.rollback i = _ ∨
      ∃ a, (w.rollback i).1 = some a ∧ (w.rollback i).2.store.faults = _ ∧ _
    unfold World.rollback
    split
    · exact .inl rfl
    · refine .inr ⟨_, rfl, ?_, errorOf?_iff.trans (w.store.visit_error_iff .rollback)⟩
      rw [release_store]
      rfl
  all_goals cases hr

theorem window_pointless (hr : r.point? = none)
    (hp : (Happening.request i r).spares p = true) :
    (w.perform i r).2.store.faults.window p = w.store.faults.window p := by
  cases r
  case arrive => cases hr
  case commit => cases hr
  case rollback => cases hr
  case acquire => exact congrArg (fun s => s.faults.window p) (acquire_store w i)
  case data c =>
    change (w.data i c).2.store.faults.window p = _
    unfold World.data
    split
    · rfl
    · change (w.store.call _ c).2.2.faults.window p = _
      rw [Store.call_faults, show c.point? = none from hr]
      rfl
  case discard => exact congrArg (fun s => s.faults.window p) (discard_store w i)
  case leave => exact congrArg (fun s => s.faults.window p) (handOver_store w i 0)
  case takeUp => exact congrArg (fun s => s.faults.window p) (handOver_store w 0 i)
  case sleep d => exact congrArg (fun s => s.faults.window p) (sleep_store w i d)
  case inject q skip times => exact Faults.window_inject (of_decide_eq_true hp).symm skip times
  case clearFaults => cases hp
  all_goals rfl

/-- A window is changed by the calls that reach its point and by nothing else. -/
theorem window_after {o : Happening} (hp : o.spares p = true) :
    (o.after w).store.faults.window p =
      if o.reaches p w then (Faults.pass (w.store.faults.window p)).2
      else w.store.faults.window p := by
  cases o with
  | giveUp i r =>
    refine congrArg (fun s => s.faults.window p) (?_ : (w.giveUp i r).store = w.store)
    cases r
    case acquire => exact discard_store _ i
    all_goals rfl
  | leaveBehind i => exact congrArg (fun s => s.faults.window p) (discard_store _ i)
  | wait millis => rfl
  | request i r =>
    change (w.perform i r).2.store.faults.window p = _
    cases hr : r.point? with
    | none =>
      rw [window_pointless hr hp, if_neg]
      simp [Happening.reaches, hr]
    | some q =>
      rcases perform_call (w := w) (i := i) hr with hwaits | ⟨a, ha, hfaults, -⟩
      · rw [if_neg]
        · rw [hwaits]
        · simp [Happening.reaches, hwaits]
      · rw [hfaults, Store.window_visit]
        by_cases hq : p = q
        · rw [if_pos hq, if_pos, hq]
          simp [Happening.reaches, hr, ha, hq]
        · rw [if_neg hq, if_neg]
          simp [Happening.reaches, hr, Ne.symm hq]

theorem window_happens {win : FaultWindow} {n : Nat} {os : List Happening}
    (hw : w.store.faults.window p = win.after n) (hos : ∀ o ∈ os, o.spares p = true) :
    (w.happens os).store.faults.window p = win.after (n + w.reached p os) := by
  induction os generalizing w n with
  | nil => exact hw
  | cons o os ih =>
    have hstep := window_after (w := w) (hos o List.mem_cons_self)
    have hrest := fun o' ho' => hos o' (List.mem_cons_of_mem o ho')
    change ((o.after w).happens os).store.faults.window p = _
    rw [reached, ← Nat.add_assoc]
    by_cases ho : o.reaches p w = true
    · rw [if_pos ho, hw, FaultWindow.pass_after] at hstep
      rw [if_pos ho]
      exact ih hstep hrest
    · rw [if_neg ho] at hstep
      rw [if_neg ho]
      exact ih (hstep.trans hw) hrest

/-- What a call that has failed leaves as it was: the ledger, and for a data call the transaction,
in which its client can go on. -/
structure Unharmed (w : World) (i : ClientId) (r : Request) : Prop where
  ledger : (w.perform i r).2.store.ledger = w.store.ledger
  staged : ∀ c, r = .data c →
    ∃ t, w.holder = some (i, t) ∧ (w.perform i r).2.holder = some (i, t)

/-- No call that fails does anything, whether by injection or by itself. -/
theorem unharmed_of_failure {e : LedgerError} (ha : (w.perform i r).1 = some a)
    (hf : r.failure? a = some e) : w.Unharmed i r := by
  -- Only these four kinds of request can fail in the store.
  cases r
  case arrive => exact ⟨rfl, fun c hc => (nomatch hc)⟩
  case data c =>
    change (w.data i c).1 = some a at ha
    have hdata : ∃ t, w.holder = some (i, t) ∧ (w.data i c).2.holder = some (i, t) ∧
        (w.data i c).2.store.ledger = w.store.ledger := by
      unfold World.data at ha ⊢
      split at ha
      · cases ha
      · rename_i t ht
        have hanswer := (Option.some.inj ha).trans (errorOf?_eq_some hf)
        refine ⟨t, transaction?_eq_some ht, ?_⟩
        rcases w.store.call_cases t c with ⟨-, q, f, -, hc⟩ | ⟨-, f, hc⟩
        · rw [hc]
          exact ⟨rfl, rfl⟩
        · rw [hc] at hanswer ⊢
          exact ⟨congrArg (fun t => some (i, t)) (DataCall.run_of_error hanswer), rfl⟩
    obtain ⟨t, hbefore, hafter, hledger⟩ := hdata
    exact ⟨hledger, fun c hc => ⟨t, hbefore, hafter⟩⟩
  case commit =>
    refine ⟨?_, fun c hc => (nomatch hc)⟩
    change (w.commit i).1 = some a at ha
    change (w.commit i).2.store.ledger = _
    unfold World.commit at ha ⊢
    split at ha
    · cases ha
    · rename_i t ht
      have hanswer := (Option.some.inj ha).trans (errorOf?_eq_some hf)
      rw [release_store]
      rcases w.store.commit_cases t with ⟨f, hc⟩ | ⟨f, hc⟩
      · rw [hc]
      · rw [hc] at hanswer
        cases hanswer
  case rollback =>
    refine ⟨?_, fun c hc => (nomatch hc)⟩
    change (w.rollback i).2.store.ledger = _
    unfold World.rollback
    split
    · rfl
    · rw [release_store]
      exact w.store.rollback_ledger
  all_goals cases hf

def opened (w : World) (i : ClientId) (p : FaultPoint) (skip times : Nat) : World :=
  (w.perform i (.inject p skip times)).2

/-- Among the calls that reach a point after its window was opened, counted from zero and
whatever else happens meanwhile, those fail by injection whose number is in the window. And no
call that fails changes the ledger or, if it is a data call, the transaction that it is made in. -/
theorem faults_hit_window (w : World) (opener : ClientId) (p : FaultPoint) (skip times : Nat)
    {os : List Happening} (hos : ∀ o ∈ os, o.spares p = true) (i : ClientId) (r : Request)
    {a : r.Answer}
    (ha : (((w.opened opener p skip times).happens os).perform i r).1 = some a) :
    (r.point? = some p →
      (r.failure? a = some (.unavailable ("injected fault at " ++ toString p)) ↔
        skip ≤ (w.opened opener p skip times).reached p os ∧
          (w.opened opener p skip times).reached p os < skip + times)) ∧
    ∀ e, r.failure? a = some e → ((w.opened opener p skip times).happens os).Unharmed i r := by
  refine ⟨fun hr => ?_, fun e hf => unharmed_of_failure ha hf⟩
  have hopened : (w.opened opener p skip times).store.faults.window p =
      FaultWindow.after ⟨skip, times⟩ 0 := by
    rw [FaultWindow.after_zero]
    exact if_pos rfl
  have hwindow := window_happens hopened hos
  rw [Nat.zero_add] at hwindow
  rcases perform_call (w := (w.opened opener p skip times).happens os) (i := i) hr with
    hwaits | ⟨a', ha', -, hfails⟩
  · rw [hwaits] at ha
    cases ha
  · obtain rfl : a' = a := Option.some.inj (ha'.symm.trans ha)
    refine hfails.trans ?_
    rw [hwindow]
    exact FaultWindow.pass_after_fails ⟨skip, times⟩ _

/-- A new account and its first write, with a fault at another point in between. -/
def firstWrite : List Happening :=
  [.request 1 .acquire, .request 1 (.data (.insert .nil)), .request 2 (.inject .lockBalance 0 1),
    .request 1 (.data (.lockBalance 1)), .request 2 .arrive, .request 2 .acquire,
    .request 2 (.data (.writeBalance 1 .two)), .request 1 (.data (.writeBalance 1 .ten))]

def oneWrite : World := (start (fun _ => .ofList []) []).opened 0 .writeBalance 1 1

theorem faults_hit_window_secondWrite :
    (∀ o ∈ firstWrite, o.spares .writeBalance = true) ∧
      ((oneWrite.happens firstWrite).perform 1 (.data (.writeBalance 1 .two))).1 =
        some (.error (.unavailable "injected fault at write_balance")) ∧
      oneWrite.reached .writeBalance firstWrite = 1 ∧
      (oneWrite.happens firstWrite).Unharmed 1 (.data (.writeBalance 1 .two)) := by
  have hos : ∀ o ∈ firstWrite, o.spares .writeBalance = true := by decide
  have ha : ((oneWrite.happens firstWrite).perform 1 (.data (.writeBalance 1 .two))).1 =
      some (.error (.unavailable "injected fault at write_balance")) := by rfl
  obtain ⟨hnumber, hunharmed⟩ := faults_hit_window (start (fun _ => .ofList []) []) 0 .writeBalance
    1 1 hos 1 (.data (.writeBalance 1 .two)) ha
  have hone : 1 ≤ oneWrite.reached .writeBalance firstWrite ∧
      oneWrite.reached .writeBalance firstWrite < 2 := (hnumber rfl).mp rfl
  exact ⟨hos, ha, by omega, hunharmed _ rfl⟩

end World

end WagerLedger

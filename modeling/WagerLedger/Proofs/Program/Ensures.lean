import WagerLedger.Program

/-! # What a program ensures

A client stands to the store in one of four ways: outside of it, inside a transaction, with
the lock after it has created an account, or past the one change of the ledger that it makes.
`Ensures` follows a program through all answers that the store and the other clients can
give: faults and refusals at any call, any committed ledger at the moment the lock is got, and
a context that is over at any request of a race. -/
namespace WagerLedger

/-- How a client stands to the store; a change goes from the first ledger to the second. -/
inductive Phase
  | outside
  | inside (l : Ledger) (t : Transaction)
  | seeded (before after : Ledger)
  | past (before after : Ledger)

namespace Phase

def released : Phase → Phase
  | .inside .. => .outside
  | .seeded l l' => .past l l'
  | φ => φ

/-- The change that a client has made of the ledger. -/
def change? : Phase → Option (Ledger × Ledger)
  | .seeded l l' | .past l l' => some (l, l')
  | _ => none

def Working : Phase → Prop
  | .outside | .inside .. => True
  | _ => False

@[simp] theorem change?_released (φ : Phase) : φ.released.change? = φ.change? := by
  cases φ <;> rfl

/-- The request is in order in this phase, and whatever is answered to it, `P` holds of the
answer and the phase after it. -/
def Allows (φ : Phase) : (r : Request) → (r.Answer → Phase → Prop) → Prop
  | .arrive, P => φ = .outside ∧ ∀ a, P a .outside
  | .acquire, P => φ = .outside ∧ ∀ l, P () (.inside l .empty)
  | .data c, P => ∃ l t, φ = .inside l t ∧ (∀ e, P (.error e) (.inside l t)) ∧
      P (c.run l t).1 (.inside l (c.run l t).2)
  | .commit, P => ∃ l t, φ = .inside l t ∧ (∀ e, P (.error e) .outside) ∧
      P (.ok ()) (.past l (t.apply l))
  | .rollback, P => ∃ l t, φ = .inside l t ∧ ∀ a, P a .outside
  | .discard, P => P () φ.released
  | .leave, P => ∃ l t, φ = .inside l t ∧ P () .outside
  | .takeUp, P => φ = .outside ∧ P false .outside ∧ ∀ l t, P true (.inside l t)
  | .seed ext b, P => ∃ l, φ = .inside l .empty ∧
      (∀ e, (l.seed ext b).1 = .error e → P (.error e) (.inside l .empty)) ∧
      ∀ a, (l.seed ext b).1 = .ok a → P (.ok a) (.seeded l (l.seed ext b).2)
  | .emit _, P => P () φ
  | .clock, P => ∀ n, P n φ
  | _, P => φ.Working ∧ ∀ a, P a φ

theorem Allows.mono {φ : Phase} {r : Request} {P P' : r.Answer → Phase → Prop}
    (h : φ.Allows r P) (hP : ∀ a ψ, P a ψ → P' a ψ) : φ.Allows r P' := by
  cases r
  case arrive => exact ⟨h.1, fun a => hP _ _ (h.2 a)⟩
  case acquire => exact ⟨h.1, fun l => hP _ _ (h.2 l)⟩
  case data c =>
    obtain ⟨l, t, hφ, he, hr⟩ := h
    exact ⟨l, t, hφ, fun e => hP _ _ (he e), hP _ _ hr⟩
  case commit =>
    obtain ⟨l, t, hφ, he, hr⟩ := h
    exact ⟨l, t, hφ, fun e => hP _ _ (he e), hP _ _ hr⟩
  case rollback =>
    obtain ⟨l, t, hφ, ha⟩ := h
    exact ⟨l, t, hφ, fun a => hP _ _ (ha a)⟩
  case leave =>
    obtain ⟨l, t, hφ, ha⟩ := h
    exact ⟨l, t, hφ, hP _ _ ha⟩
  case takeUp => exact ⟨h.1, hP _ _ h.2.1, fun l t => hP _ _ (h.2.2 l t)⟩
  case seed ext b =>
    obtain ⟨l, hφ, he, ha⟩ := h
    exact ⟨l, hφ, fun e h => hP _ _ (he e h), fun a h => hP _ _ (ha a h)⟩
  case discard => exact hP _ _ h
  case emit => exact hP _ _ h
  case clock => exact fun n => hP _ _ (h n)
  all_goals exact ⟨h.1, fun a => hP _ _ (h.2 a)⟩

/-- A call that an observer can refuse is made by a working client, and the refusal comes to
it as an error that the call can have. -/
theorem Allows.refusal {φ : Phase} {r : Request} {P : r.Answer → Phase → Prop}
    (h : φ.Allows r P) {c : StoreCall} {refuse : LedgerError → r.Answer}
    (hr : r.observed? = some (c, refuse)) :
    φ.Working ∧ ∀ e, P (refuse e) (if c.isLast then φ.released else φ) := by
  cases r
  case arrive =>
    cases hr
    obtain ⟨rfl, ha⟩ := h
    exact ⟨trivial, fun e => ha _⟩
  case data c =>
    cases hr
    obtain ⟨l, t, rfl, he, -⟩ := h
    exact ⟨trivial, he⟩
  case commit =>
    cases hr
    obtain ⟨l, t, rfl, he, -⟩ := h
    exact ⟨trivial, he⟩
  case rollback =>
    cases hr
    obtain ⟨l, t, rfl, ha⟩ := h
    exact ⟨trivial, fun e => ha _⟩
  all_goals cases hr

/-- Besides looking at the clock, telling events and letting go of the lock, only a client that
is still working asks for anything. -/
theorem Allows.working {φ : Phase} {r : Request} {P : r.Answer → Phase → Prop}
    (h : φ.Allows r P) : (∃ e, r = .emit e) ∨ r = .clock ∨ r = .discard ∨ φ.Working := by
  cases r
  case emit e => exact .inl ⟨e, rfl⟩
  case clock => exact .inr (.inl rfl)
  case discard => exact .inr (.inr (.inl rfl))
  case arrive => exact .inr (.inr (.inr (h.1 ▸ trivial)))
  case acquire => exact .inr (.inr (.inr (h.1 ▸ trivial)))
  case takeUp => exact .inr (.inr (.inr (h.1 ▸ trivial)))
  case data =>
    obtain ⟨l, t, rfl, -⟩ := h
    exact .inr (.inr (.inr trivial))
  case commit =>
    obtain ⟨l, t, rfl, -⟩ := h
    exact .inr (.inr (.inr trivial))
  case rollback =>
    obtain ⟨l, t, rfl, -⟩ := h
    exact .inr (.inr (.inr trivial))
  case leave =>
    obtain ⟨l, t, rfl, -⟩ := h
    exact .inr (.inr (.inr trivial))
  case seed =>
    obtain ⟨l, rfl, -⟩ := h
    exact .inr (.inr (.inr trivial))
  all_goals exact .inr (.inr (.inr h.1))

theorem working_iff (φ : Phase) : φ.Working ↔ φ.change? = none := by
  cases φ with
  | outside => exact ⟨fun _ => rfl, fun _ => trivial⟩
  | inside => exact ⟨fun _ => rfl, fun _ => trivial⟩
  | seeded => exact ⟨fun h => h.elim, fun h => (nomatch h)⟩
  | past => exact ⟨fun h => h.elim, fun h => (nomatch h)⟩

end Phase

/-- What has to hold of the phase at each request of a program, and where it breaks off. -/
structure Bounds where
  asks : Phase → Prop
  breaks : Phase → Prop

namespace Program

/-- Run from a phase, the program keeps to its bounds and ends only as `Q` allows. -/
def Ensures {α : Type} (B : Bounds) (φ : Phase) : Program α → (Phase → α → Prop) → Prop
  | done a, Q => Q φ a
  | crash, _ => B.breaks φ.released
  | ask r k, Q => B.asks φ ∧ φ.Allows r fun a ψ => Ensures B ψ (k a) Q
  | race _ r k, Q => (B.asks φ ∧ φ.Working) ∧ (∀ e, Ensures B φ (k (.error e)) Q) ∧
      φ.Allows r fun a ψ => Ensures B ψ (k (.ok a)) Q

variable {α β : Type} {B : Bounds} {φ : Phase}

theorem Ensures.bind {p : Program α} {f : α → Program β} {Q : Phase → β → Prop}
    (h : p.Ensures B φ fun ψ a => (f a).Ensures B ψ Q) : (p >>= f).Ensures B φ Q := by
  change (p.bind f).Ensures B φ Q
  induction p generalizing φ with
  | done a => exact h
  | crash => exact h
  | ask r k ih => exact ⟨h.1, h.2.mono fun a ψ => ih a⟩
  | race c r k ih => exact ⟨h.1, fun e => ih _ (h.2.1 e), h.2.2.mono fun a ψ => ih _⟩

theorem Ensures.mono {p : Program α} {Q Q' : Phase → α → Prop} (h : p.Ensures B φ Q)
    (hQ : ∀ ψ a, Q ψ a → Q' ψ a) : p.Ensures B φ Q' := by
  induction p generalizing φ with
  | done a => exact hQ _ _ h
  | crash => exact h
  | ask r k ih => exact ⟨h.1, h.2.mono fun a ψ => ih a⟩
  | race c r k ih => exact ⟨h.1, fun e => ih _ (h.2.1 e), h.2.2.mono fun a ψ => ih _⟩

theorem Ensures.map {p : Program α} {f : α → β} {Q : Phase → β → Prop}
    (h : p.Ensures B φ fun ψ a => Q ψ (f a)) : (f <$> p).Ensures B φ Q :=
  Ensures.bind h

theorem ensures_request {r : Request} {Q : Phase → r.Answer → Prop} (hB : B.asks φ)
    (h : φ.Allows r fun a ψ => Q ψ a) : (request r).Ensures B φ Q := ⟨hB, h⟩

theorem ensures_emit {e : Event} {Q : Phase → Unit → Prop} (hB : B.asks φ) (h : Q φ ()) :
    (request (.emit e)).Ensures B φ Q := ⟨hB, h⟩

theorem Ensures.raced {A : Phase → Prop} {p : Program (Except SettlementError α)} {c : Context}
    {Q : Phase → Except SettlementError α → Prop} (h : p.Ensures ⟨A, B.breaks⟩ φ Q)
    (hB : ∀ ψ, A ψ → B.asks ψ ∧ ψ.Working) (hA : ∀ ψ e, A ψ → Q ψ (.error e)) :
    (p.raced c).Ensures B φ Q := by
  induction p generalizing φ with
  | done a => exact h
  | crash => exact h
  | ask r k ih =>
    rw [Program.raced]
    exact ⟨hB _ h.1, fun e => hA _ e h.1, h.2.mono fun a ψ => ih a⟩
  | race c' r k ih =>
    rw [Program.raced]
    exact ⟨hB _ h.1.1, fun e => ih _ (h.2.1 e), h.2.2.mono fun a ψ => ih _⟩

/-- Run against a context, a program can end early at its beginning and at each of its
requests. -/
theorem Ensures.against {A : Phase → Prop} {p : Program (Except SettlementError α)} {c : Context}
    {Q : Phase → Except SettlementError α → Prop} (hφ : A φ) (h : p.Ensures ⟨A, B.breaks⟩ φ Q)
    (hB : ∀ ψ, A ψ → B.asks ψ ∧ ψ.Working) (hA : ∀ ψ e, A ψ → Q ψ (.error e)) :
    (p.against c).Ensures B φ Q :=
  ⟨hB _ hφ, fun e => hA _ e hφ, (hB _ hφ).2, fun _ => h.raced hB hA⟩

theorem ensures_heldUp {c : StoreCall} {wait : Duration → Program α → Program α}
    {refuse : LedgerError → Program α} {go : Program α} {Q : Phase → α → Prop} (hB : B.asks φ)
    (hwait : ∀ d rest, rest.Ensures B φ Q → (wait d rest).Ensures B φ Q)
    (hrefuse : ∀ e, (refuse e).Ensures B (if c.isLast then φ.released else φ) Q)
    (hgo : go.Ensures B φ Q) (ps : List Probe) : (heldUp c wait refuse go ps).Ensures B φ Q := by
  induction ps with
  | nil => exact hgo
  | cons p ps ih =>
    have hrefused : ∀ e, (if c.isLast then ask .discard fun _ => refuse e
        else refuse e).Ensures B φ Q := by
      intro e
      have he := hrefuse e
      split
      · rename_i hc
        rw [if_pos hc] at he
        exact ⟨hB, he⟩
      · rename_i hc
        rwa [if_neg hc] at he
    rw [heldUp]
    cases p.refusal with
    | none =>
      cases p.delay with
      | none => exact ih
      | some d => exact hwait d _ ih
    | some e =>
      cases p.delay with
      | none => exact hrefused e
      | some d => exact hwait d _ (hrefused e)

/-- Noting, holding up and refusing calls leaves a program within what it ensures. -/
theorem Ensures.observed {p : Program α} {Q : Phase → α → Prop} (h : p.Ensures B φ Q) :
    p.observed.Ensures B φ Q := by
  induction p generalizing φ with
  | done a => exact h
  | crash => exact h
  | ask r k ih =>
    obtain ⟨hB, hr⟩ := h
    have hgo : (ask r fun a => (k a).observed).Ensures B φ Q := ⟨hB, hr.mono fun a ψ => ih a⟩
    rw [Program.observed]
    split
    · rename_i c refuse hc
      obtain ⟨hw, hrefuse⟩ := hr.refusal hc
      refine ⟨hB, hw, fun ps => ensures_heldUp hB ?_ (fun e => ih _ (hrefuse e)) hgo ps⟩
      intro d rest hrest
      exact ⟨hB, hw, fun _ => hrest⟩
    · exact hgo
  | race ctx r k ih =>
    obtain ⟨hB, he, hr⟩ := h
    have hover : ∀ e, (k (.error e)).observed.Ensures B φ Q := fun e => ih _ (he e)
    have hgo : (race ctx r fun a => (k a).observed).Ensures B φ Q :=
      ⟨hB, hover, hr.mono fun a ψ => ih _⟩
    rw [Program.observed]
    split
    · rename_i c refuse hc
      obtain ⟨hw, hrefuse⟩ := hr.refusal hc
      refine ⟨hB, hover, hw, fun ps => ensures_heldUp hB.1 ?_ (fun e => ih _ (hrefuse e)) hgo ps⟩
      intro d rest hrest
      exact ⟨hB, hover, hw, fun _ => hrest⟩
    · exact hgo

end Program

end WagerLedger

import WagerLedger.Ledger.Calls
import WagerLedger.Settlement

/-! # Watching a program

A watch follows a client by its requests alone. It has a state, says which requests may be made
in it, and goes on with each answer, with each race that is given up, and with each step in which
nothing is asked. A program is under a watch if all its requests may be made, whatever the
answers, and it ends only in states and with results that go together. -/
namespace WagerLedger

structure Watch where
  State : Type
  /-- Whether a request may be made, perhaps in a race against a context. -/
  may : State → Option Context → Request → Prop
  /-- Whether an answer can come, and what the state may be after it. -/
  next : State → (r : Request) → r.Answer → State → Prop
  /-- What the state may be after a race is given up. -/
  ended : State → Context → Request → SettlementError → State → Prop
  /-- The state after a step in which nothing is asked. -/
  idle : State → State
  /-- Where a program may break off. -/
  breaks : State → Prop

/-- Calls may be held up and refused: what is asked for that changes nothing, and a refusal is an
answer like any other. -/
structure Watch.Probed (W : Watch) : Prop where
  note : ∀ g x r call refuse, r.observed? = some (call, refuse) → W.may g x r →
    W.may g x (.note call) ∧ (∀ ps g', W.next g (.note call) ps g' → g' = g) ∧
      ∀ c e g', W.ended g c (.note call) e g' → W.ended g c r e g'
  sleep : ∀ g x r call refuse, r.observed? = some (call, refuse) → W.may g x r →
    ∀ d, W.may g x (.sleep d) ∧ (∀ a g', W.next g (.sleep d) a g' → g' = g) ∧
      ∀ c e g', W.ended g c (.sleep d) e g' → W.ended g c r e g'
  refuse : ∀ g x r call refuse, r.observed? = some (call, refuse) → W.may g x r → ∀ e,
    if call.isLast then W.may g none .discard ∧
      ∀ a g', W.next g .discard a g' → W.next g r (refuse e) g'
    else W.next g r (refuse e) g

/-- Nobody holds up or refuses the calls, and noting them goes unseen. -/
def Watch.Unprobed (W : Watch) : Prop :=
  ∀ g x r call refuse, r.observed? = some (call, refuse) → W.may g x r →
    W.may g x (.note call) ∧ (∀ ps g', W.next g (.note call) ps g' → ps = [] ∧ g' = g) ∧
      ∀ c e g', W.ended g c (.note call) e g' → W.ended g c r e g'

/-- Two watches on the same program. -/
def Watch.both (W W' : Watch) : Watch where
  State := W.State × W'.State
  may g x r := W.may g.1 x r ∧ W'.may g.2 x r
  next g r a g' := W.next g.1 r a g'.1 ∧ W'.next g.2 r a g'.2
  ended g c r e g' := W.ended g.1 c r e g'.1 ∧ W'.ended g.2 c r e g'.2
  idle g := (W.idle g.1, W'.idle g.2)
  breaks g := W.breaks g.1 ∧ W'.breaks g.2

namespace Program

variable {α β ε : Type} {W : Watch} {g : W.State}

def Under (W : Watch) (g : W.State) : Program α → (W.State → α → Prop) → Prop
  | done a, Q => Q g a
  | crash, _ => W.breaks g
  | ask r k, Q => W.may g none r ∧ ∀ a g', W.next g r a g' → Under W g' (k a) Q
  | race c r k, Q => W.may g (some c) r ∧
      (∀ e g', W.ended g c r e g' → Under W g' (k (.error e)) Q) ∧
      ∀ a g', W.next g r a g' → Under W g' (k (.ok a)) Q

theorem Under.bind {p : Program α} {f : α → Program β} {Q : W.State → β → Prop}
    (h : p.Under W g fun g' a => (f a).Under W g' Q) : (p >>= f).Under W g Q := by
  change (p.bind f).Under W g Q
  induction p generalizing g with
  | done a => exact h
  | crash => exact h
  | ask r k ih => exact ⟨h.1, fun a g' hg => ih a (h.2 a g' hg)⟩
  | race c r k ih =>
    exact ⟨h.1, fun e g' hg => ih _ (h.2.1 e g' hg), fun a g' hg => ih _ (h.2.2 a g' hg)⟩

theorem Under.mono {p : Program α} {Q Q' : W.State → α → Prop} (h : p.Under W g Q)
    (hQ : ∀ g' a, Q g' a → Q' g' a) : p.Under W g Q' := by
  induction p generalizing g with
  | done a => exact hQ g a h
  | crash => exact h
  | ask r k ih => exact ⟨h.1, fun a g' hg => ih a (h.2 a g' hg)⟩
  | race c r k ih =>
    exact ⟨h.1, fun e g' hg => ih _ (h.2.1 e g' hg), fun a g' hg => ih _ (h.2.2 a g' hg)⟩

theorem Under.map {p : Program α} {f : α → β} {Q : W.State → β → Prop}
    (h : p.Under W g fun g' a => Q g' (f a)) : (f <$> p).Under W g Q :=
  Under.bind h

theorem Under.raced {p : Program (Except SettlementError α)} {c : Context}
    {Q : W.State → Except SettlementError α → Prop} (h : p.Under W g Q)
    (hrace : ∀ g r, W.may g none r → W.may g (some c) r)
    (hover : ∀ g r e g', W.may g none r → W.ended g c r e g' → Q g' (.error e)) :
    (p.raced c).Under W g Q := by
  induction p generalizing g with
  | done a => exact h
  | crash => exact h
  | ask r k ih =>
    rw [Program.raced]
    exact ⟨hrace g r h.1, fun e g' hg => hover g r e g' h.1 hg, fun a g' hg => ih a (h.2 a g' hg)⟩
  | race c' r k ih =>
    rw [Program.raced]
    exact ⟨h.1, fun e g' hg => ih _ (h.2.1 e g' hg), fun a g' hg => ih _ (h.2.2 a g' hg)⟩

/-- Run against a context, a program can end early at its beginning and at each of its
requests. -/
theorem Under.against {p : Program (Except SettlementError α)} {c : Context}
    {Q : W.State → Except SettlementError α → Prop} (hpoll : W.may g none .poll)
    (h : ∀ g', W.next g .poll () g' → p.Under W g' Q)
    (hrace : ∀ g r, W.may g none r → W.may g (some c) r)
    (hover : ∀ g r e g', W.may g none r → W.ended g c r e g' → Q g' (.error e)) :
    (p.against c).Under W g Q :=
  ⟨hrace g .poll hpoll, fun e g' hg => hover g .poll e g' hpoll hg,
    fun _ g' hg => (h g' hg).raced hrace hover⟩

theorem Under.observed (hW : W.Unprobed) {p : Program α} {Q : W.State → α → Prop}
    (h : p.Under W g Q) : p.observed.Under W g Q := by
  induction p generalizing g with
  | done a => exact h
  | crash => exact h
  | ask r k ih =>
    have hgo : (ask r fun a => (k a).observed).Under W g Q :=
      ⟨h.1, fun a g' hg => ih a (h.2 a g' hg)⟩
    rw [Program.observed]
    split
    · rename_i call refuse hr
      obtain ⟨hmay, hnext, -⟩ := hW g none r call refuse hr h.1
      refine ⟨hmay, fun ps g' hg => ?_⟩
      obtain ⟨rfl, rfl⟩ := hnext ps g' hg
      exact hgo
    · exact hgo
  | race c r k ih =>
    have hover : ∀ e g', W.ended g c r e g' → ((k (.error e)).observed).Under W g' Q :=
      fun e g' hg => ih _ (h.2.1 e g' hg)
    have hgo : (race c r fun a => (k a).observed).Under W g Q :=
      ⟨h.1, hover, fun a g' hg => ih _ (h.2.2 a g' hg)⟩
    rw [Program.observed]
    split
    · rename_i call refuse hr
      obtain ⟨hmay, hnext, hgiven⟩ := hW g (some c) r call refuse hr h.1
      refine ⟨hmay, fun e g' hg => hover e g' (hgiven c e g' hg), fun ps g' hg => ?_⟩
      obtain ⟨rfl, rfl⟩ := hnext ps g' hg
      exact hgo
    · exact hgo

theorem Under.heldUp {Q : W.State → α → Prop} {c : StoreCall}
    {wait : Duration → Program α → Program α} {refuse : LedgerError → Program α} {go : Program α}
    (hwait : ∀ d p, p.Under W g Q → (wait d p).Under W g Q)
    (hrefuse : ∀ e, (if c.isLast then ask .discard fun _ => refuse e else refuse e).Under W g Q)
    (hgo : go.Under W g Q) (ps : List Probe) : (heldUp c wait refuse go ps).Under W g Q := by
  induction ps with
  | nil => exact hgo
  | cons p ps ih =>
    obtain ⟨name, nth, delay, refusal⟩ := p
    cases refusal with
    | none =>
      cases delay with
      | none => exact ih
      | some d => exact hwait d _ ih
    | some e =>
      cases delay with
      | none => exact hrefuse e
      | some d => exact hwait d _ (hrefuse e)

theorem Under.probed (hW : W.Probed) {p : Program α} {Q : W.State → α → Prop}
    (h : p.Under W g Q) : p.observed.Under W g Q := by
  induction p generalizing g with
  | done a => exact h
  | crash => exact h
  | ask r k ih =>
    have hgo : (ask r fun a => (k a).observed).Under W g Q :=
      ⟨h.1, fun a g' hg => ih a (h.2 a g' hg)⟩
    -- A probe holds the call up, or refuses it; in the end it is made as it would have been before.
    rw [Program.observed]
    split
    · rename_i call refuse hr
      obtain ⟨hmay, hnext, -⟩ := hW.note g none r call refuse hr h.1
      refine ⟨hmay, fun ps g' hg => ?_⟩
      obtain rfl := hnext ps g' hg
      refine Under.heldUp (fun d p hp => ?_) (fun e => ?_) hgo ps
      · obtain ⟨hmay, hnext, -⟩ := hW.sleep g' none r call refuse hr h.1 d
        exact ⟨hmay, fun a g'' hg => hnext a g'' hg ▸ hp⟩
      · have hrefuse := hW.refuse g' none r call refuse hr h.1 e
        split at hrefuse
        · rename_i hlast
          rw [if_pos hlast]
          exact ⟨hrefuse.1, fun a g'' hg => ih _ (h.2 _ g'' (hrefuse.2 a g'' hg))⟩
        · rename_i hlast
          rw [if_neg hlast]
          exact ih _ (h.2 _ g' hrefuse)
    · exact hgo
  | race c r k ih =>
    have hover : ∀ e g', W.ended g c r e g' → ((k (.error e)).observed).Under W g' Q :=
      fun e g' hg => ih _ (h.2.1 e g' hg)
    have hgo : (race c r fun a => (k a).observed).Under W g Q :=
      ⟨h.1, hover, fun a g' hg => ih _ (h.2.2 a g' hg)⟩
    rw [Program.observed]
    split
    · rename_i call refuse hr
      obtain ⟨hmay, hnext, hgiven⟩ := hW.note g (some c) r call refuse hr h.1
      refine ⟨hmay, fun e g' hg => hover e g' (hgiven c e g' hg), fun ps g' hg => ?_⟩
      obtain rfl := hnext ps g' hg
      refine Under.heldUp (fun d p hp => ?_) (fun e => ?_) hgo ps
      · obtain ⟨hmay, hnext, hgiven⟩ := hW.sleep g' (some c) r call refuse hr h.1 d
        exact ⟨hmay, fun e g'' hg => hover e g'' (hgiven c e g'' hg),
          fun a g'' hg => hnext a g'' hg ▸ hp⟩
      · have hrefuse := hW.refuse g' (some c) r call refuse hr h.1 e
        split at hrefuse
        · rename_i hlast
          rw [if_pos hlast]
          exact ⟨hrefuse.1, fun a g'' hg => ih _ (h.2.2 _ g'' (hrefuse.2 a g'' hg))⟩
        · rename_i hlast
          rw [if_neg hlast]
          exact ih _ (h.2.2 _ g' hrefuse)
    · exact hgo

def Leads (W : Watch) (g : W.State) (p : ExceptT ε Program α) (ok : W.State → α → Prop)
    (err : W.State → ε → Prop) : Prop :=
  p.run.Under W g fun g' r =>
    match r with
    | .ok a => ok g' a
    | .error e => err g' e

variable {ok : W.State → α → Prop} {err : W.State → ε → Prop}

theorem leads_pure {a : α} (h : ok g a) : Leads W g (pure a) ok err := h

theorem leads_throw {e : ε} (h : err g e) : Leads W g (throw e) ok err := h

theorem leads_bind {p : ExceptT ε Program α} {f : α → ExceptT ε Program β}
    {ok : W.State → β → Prop} (h : Leads W g p (fun g' a => Leads W g' (f a) ok err) err) :
    Leads W g (p >>= f) ok err := by
  refine Under.bind (Under.mono h fun g' r hr => ?_)
  cases r with
  | ok a => exact hr
  | error e => exact hr

theorem leads_lift {p : Program α} (h : p.Under W g ok) : Leads W g (ExceptT.lift p) ok err :=
  Under.map h

theorem Leads.mono {p : ExceptT ε Program α} {ok' : W.State → α → Prop} {err' : W.State → ε → Prop}
    (h : Leads W g p ok err) (hok : ∀ g' a, ok g' a → ok' g' a)
    (herr : ∀ g' e, err g' e → err' g' e) : Leads W g p ok' err' := by
  refine Under.mono h fun g' r hr => ?_
  cases r with
  | ok a => exact hok g' a hr
  | error e => exact herr g' e hr

theorem leads_ofLedger {p : LedgerProgram α} {f : LedgerError → SettlementError}
    {err : W.State → SettlementError → Prop} (h : Leads W g p ok fun g' e => err g' (f e)) :
    Leads W g (Settlement.ofLedger p f) ok err := by
  refine Under.map (Under.mono h fun g' r hr => ?_)
  cases r with
  | ok a => exact hr
  | error e => exact hr

theorem leads_against {p : SpinProgram α} {c : Context} {err : W.State → SettlementError → Prop}
    (hpoll : W.may g none .poll) (h : ∀ g', W.next g .poll () g' → Leads W g' p ok err)
    (hrace : ∀ g r, W.may g none r → W.may g (some c) r)
    (hover : ∀ g r e g', W.may g none r → W.ended g c r e g' → err g' e) :
    Leads W g (ExceptT.mk (p.run.against c)) ok err :=
  Under.against hpoll h hrace hover

theorem leads_body {p : ExceptT ε Program α} {f : Except ε α → SpinProgram β}
    {ok : W.State → β → Prop} {err : W.State → SettlementError → Prop}
    (h : Leads W g p (fun g' a => Leads W g' (f (.ok a)) ok err)
      fun g' e => Leads W g' (f (.error e)) ok err) :
    Leads W g (ExceptT.lift p.run >>= f) ok err := by
  refine leads_bind (leads_lift (Under.mono h fun g' r hr => ?_))
  cases r with
  | ok a => exact hr
  | error e => exact hr

/-- All requests of a program are of a kind; it races none of them and does not break off. -/
def Asks (S : Request → Prop) : Program α → Prop
  | done _ => True
  | crash => False
  | ask r k => S r ∧ ∀ a, (k a).Asks S
  | race .. => False

variable {S : Request → Prop}

theorem asks_bind {p : Program α} {f : α → Program β} (hp : p.Asks S) (hf : ∀ a, (f a).Asks S) :
    (p >>= f).Asks S := by
  change (p.bind f).Asks S
  induction p with
  | done a => exact hf a
  | crash => exact hp
  | ask r k ih => exact ⟨hp.1, fun a => ih a (hp.2 a)⟩
  | race c r k => exact hp

theorem Asks.mono {S' : Request → Prop} (hS : ∀ r, S r → S' r) {p : Program α} (h : p.Asks S) :
    p.Asks S' := by
  induction p with
  | done a => trivial
  | crash => exact h
  | ask r k ih => exact ⟨hS r h.1, fun a => ih a (h.2 a)⟩
  | race c r k => exact h

theorem asks_map {p : Program α} {f : α → β} (hp : p.Asks S) : (f <$> p).Asks S :=
  asks_bind hp fun _ => trivial

theorem asks_request {r : Request} (h : S r) : (request r).Asks S := ⟨h, fun _ => trivial⟩

theorem asks_bindE {p : ExceptT ε Program α} {f : α → ExceptT ε Program β} (hp : p.run.Asks S)
    (hf : ∀ a, (f a).run.Asks S) : (p >>= f).run.Asks S := by
  refine asks_bind hp fun r => ?_
  cases r with
  | ok a => exact hf a
  | error e => trivial

end Program

def Request.isBalancing : Request → Bool
  | .data (.lockBalance _) | .data (.writeBalance ..) | .emit _ => true
  | _ => false

def Request.isBooking : Request → Bool
  | .data _ | .entropy | .emit _ => true
  | _ => false

def Request.isClosing : Request → Bool
  | .note _ | .rollback | .clock | .emit _ => true
  | _ => false

/-- All that a settlement ever asks for. -/
def Request.isSettling : Request → Bool
  | .arrive | .acquire | .data _ | .commit | .rollback => true
  | .check _ | .poll | .note _ | .sleep _ | .clock | .entropy | .emit _ => true
  | _ => false

theorem Request.isBooking_of_isBalancing {r : Request} (h : r.isBalancing = true) :
    r.isBooking = true := by
  cases r <;> first | rfl | cases h

theorem Request.isSettling_of_isBooking {r : Request} (h : r.isBooking = true) :
    r.isSettling = true := by
  cases r <;> first | rfl | cases h

theorem Request.isSettling_of_isClosing {r : Request} (h : r.isClosing = true) :
    r.isSettling = true := by
  cases r <;> first | rfl | cases h

namespace Program

open LedgerProgram Settlement

theorem asks_adjust (id : AccountId) (delta : Decimal) :
    (adjust id delta).run.Asks (·.isBalancing = true) := by
  unfold adjust applyDelta
  split
  · trivial
  · refine asks_bindE (asks_request rfl) fun b => ?_
    split
    · trivial
    · split
      · trivial
      · split
        · trivial
        · split
          · trivial
          · refine asks_bindE (asks_request rfl) fun _ => asks_bindE ?_ fun _ => trivial
            exact asks_map (asks_request rfl)

theorem asks_credit (id : AccountId) (amount : Decimal) :
    (credit id amount).run.Asks (·.isBalancing = true) := by
  unfold credit
  split
  · exact asks_adjust id amount
  · trivial

theorem asks_debit (id : AccountId) (amount : Decimal) :
    (debit id amount).run.Asks (·.isBalancing = true) := by
  unfold debit
  split
  · exact asks_adjust id amount.neg
  · trivial

end Program

end WagerLedger

import WagerLedger.Proofs.Program.Likewise
import WagerLedger.Proofs.World.Alike
import WagerLedger.Session.Scenario

/-! # Sessions that go the same way

Like calls are made by like programs, round by round. So tasks that stand alike in like worlds
stand alike after every turn, and after every list of turns like calls have given like answers
or none. -/
namespace WagerLedger

section Relations

variable (L : Likeness)

/-- The same reply, or one with like amounts, accounts and spins in it. -/
inductive Reply.Alike : Reply → Reply → Prop
  | same (r : Reply) : Alike r r
  | account {a a' : Account} (h : a.Alike L a') : Alike (.account a) (.account a')
  | amount {d d' : Decimal} (h : L.amounts.rel d d') : Alike (.amount d) (.amount d')
  | settled {s s' : Spin} {n n' : Decimal} (h : s.Alike L s') (hn : L.amounts.rel n n') :
    Alike (.settled s n) (.settled s' n')
  | spins {l l' : List Spin} (h : List.Forall₂ (Spin.Alike L) l l') : Alike (.spins l) (.spins l')
  | config {c c' : Settings} (h : c.Alike L c') : Alike (.config c) (.config c')
  | ledgerError {e e' : LedgerError} (h : e.Alike L e') : Alike (.ledgerError e) (.ledgerError e')
  | settlementError {e e' : SettlementError} (h : e.Alike L e') :
    Alike (.settlementError e) (.settlementError e')

def Operation.isPlain : Operation → Bool
  | .sleep _ | .context .. | .checkContext _ | .awaitContext _ | .cancel _ | .dropHandle _ => true
  | _ => false

/-- The same calls, with like amounts. Contexts are only made where everything is compared on
one clock. -/
inductive Operation.Alike : Operation → Operation → Prop
  | seed {ext : Identifier} {b b' : Decimal} (h : L.scope.names ext) (hb : L.amounts.rel b b') :
    Alike (.seed ext b) (.seed ext b')
  | openAccount {ext : Identifier} (h : L.scope.names ext) : Alike (.openAccount ext) (.openAccount ext)
  | account {ext : Identifier} (h : L.scope.names ext) : Alike (.account ext) (.account ext)
  | deposit {ext : Identifier} {x x' : Decimal} (h : L.scope.names ext) (hx : L.amounts.rel x x') :
    Alike (.deposit ext x) (.deposit ext x')
  | withdraw {ext : Identifier} {x x' : Decimal} (h : L.scope.names ext) (hx : L.amounts.rel x x') :
    Alike (.withdraw ext x) (.withdraw ext x')
  | settle {ext : Identifier} {x x' : Decimal} (h : L.scope.names ext) (hx : L.amounts.rel x x')
    (context : Option String) : Alike (.settle ext x context) (.settle ext x' context)
  | history {ext : Identifier} (h : L.scope.names ext) (limit : Int) :
    Alike (.history ext limit) (.history ext limit)
  | engine {c c' : Settings} (h : c.Alike L c') : Alike (.engine c) (.engine c')
  | plain {op : Operation} (h : op.isPlain = true) (hall : L.scope = .all) (hlag : L.lag = 0) :
    Alike op op

inductive Stage.Alike : Stage → Stage → Prop
  | start {op op' : Operation} (h : op.Alike L op') : Alike (.start op) (.start op')
  | settle {s s' : Settlement} (h : s.Alike L s') : Alike (.settle s) (.settle s')
  | name (name : String) {c : Context} (h : L.Agrees c) (handle : Option SignalId) :
    Alike (.name name c handle) (.name name c handle)

structure Desk.Alike (d d' : Desk) : Prop where
  engine : d.engine.Alike L d'.engine
  contexts : d'.contexts = d.contexts
  handles : d'.handles = d.handles
  agrees : ∀ name c, d.contexts.get? name = some c → L.Agrees c

abbrev Likeness.StagesAlike : Stage ⊕ Reply → Stage ⊕ Reply → Prop :=
  Sum.LiftRel (Stage.Alike L) (Reply.Alike L)

inductive Ending.Alike : Ending Reply → Ending Reply → Prop
  | answered {r r' : Reply} (h : r.Alike L r') : Alike (.answered r) (.answered r')
  | crashed : Alike .crashed .crashed
  | blocked : Alike .blocked .blocked

def Likeness.EndAlike (e e' : Ending Reply × Nat) : Prop := e.1.Alike L e'.1 ∧ e.2 = e'.2 + L.lag

structure Task.Alike (t t' : Task Stage Reply) : Prop where
  client : t'.client = t.client
  state : Sum.LiftRel (Program.Alike L L.StagesAlike) L.EndAlike t.state t'.state

structure Tasks.Alike (s s' : Tasks Stage Reply Desk) : Prop where
  world : s.world.Alike L s'.world
  shared : s.shared.Alike L s'.shared
  list : List.Forall₂ (Task.Alike L) s.list s'.list

end Relations

variable {L : Likeness}

theorem Desk.Alike.context {d d' : Desk} (h : d.Alike L d') (name : Option String) :
    d'.context name = d.context name ∧ L.Agrees (d.context name) := by
  refine ⟨by rw [Desk.context, Desk.context, h.contexts], ?_⟩
  rw [Desk.context]
  cases hc : name.bind d.contexts.get? with
  | none => exact .inl rfl
  | some c =>
    obtain ⟨n, -, hn⟩ := Option.bind_eq_some_iff.mp hc
    exact h.agrees n c hn

theorem Reply.alike_ofLedger {α α' : Type} {R : α → α' → Prop} {f : α → Reply} {f' : α' → Reply}
    {r : Except LedgerError α} {r' : Except LedgerError α'}
    (h : EndsAlike (LedgerError.Alike L) R r r') (hf : ∀ a a', R a a' → (f a).Alike L (f' a')) :
    (ofLedger f r).Alike L (ofLedger f' r') := by
  cases h with
  | ok ha => exact hf _ _ ha
  | error he => exact .ledgerError he

theorem Reply.alike_ofSpin {α α' : Type} {R : α → α' → Prop} {f : α → Reply} {f' : α' → Reply}
    {r : Except SettlementError α} {r' : Except SettlementError α'}
    (h : EndsAlike (SettlementError.Alike L) R r r')
    (hf : ∀ a a', R a a' → (f a).Alike L (f' a')) : (ofSpin f r).Alike L (ofSpin f' r') := by
  cases h with
  | ok ha => exact hf _ _ ha
  | error he => exact .settlementError he

namespace Session

open Program

section Rounds

variable {α α' : Type} {R : α → α' → Prop} {p p' : Program Reply} {d d' : Desk}

theorem alike_answer (h : p.Alike L (Reply.Alike L) p') :
    (answer p).Alike L L.StagesAlike (answer p') :=
  h.map fun _ _ hr => .inr hr

theorem alike_reply {r r' : Reply} (h : r.Alike L r') :
    (pure (.inr r) : RoundProgram).Alike L L.StagesAlike (pure (.inr r')) :=
  alike_pure (.inr h)

theorem alike_wallet {q : LedgerProgram α} {q' : LedgerProgram α'} {f : α → Reply}
    {f' : α' → Reply} (h : AlikeT L (LedgerError.Alike L) R q q')
    (hf : ∀ a a', R a a' → (f a).Alike L (f' a')) :
    (wallet q f).Alike L L.StagesAlike (wallet q' f') :=
  alike_answer ((Alike.observed h).map fun _ _ hr => Reply.alike_ofLedger hr hf)

theorem alike_settled {s s' : Spin} (h : s.Alike L s') :
    (settled s).Alike L (Reply.Alike L) (settled s') := by
  have hnet := L.amounts.add? h.wager.win (L.amounts.neg h.wager.bet)
  rw [settled, settled, Spin.net?, Spin.net?, Decimal.sub?, Decimal.sub?]
  generalize s.win.add? s.bet.neg = net at hnet ⊢
  generalize s'.win.add? s'.bet.neg = net' at hnet ⊢
  cases hnet with
  | none => exact .crash
  | some hn => exact alike_pure (.settled h hn)

theorem alike_settleRound
    {r r' : Settlement ⊕ Except SettlementError Spin}
    (h : L.RoundsAlike (Settlement.Alike L) (Spin.Alike L) r r') :
    (settleRound r).Alike L L.StagesAlike (settleRound r') := by
  cases h with
  | inl hs => exact alike_pure (.inl (.settle hs))
  | inr hr =>
    cases hr with
    | ok hspin => exact alike_answer (alike_settled hspin)
    | error he => exact alike_reply (.settlementError he)

theorem alike_seed {ext : Identifier} {b b' : Decimal} (he : L.scope.names ext)
    (hb : L.amounts.rel b b') :
    (locked (.seed ext b) (Reply.ofLedger .account)).Alike L (Reply.Alike L)
      (locked (.seed ext b') (Reply.ofLedger .account)) :=
  (alike_plain rfl).bind fun _ _ _ => (alike_request (.seed he hb)).bind fun _ _ hr =>
    (alike_plain rfl).bind fun _ _ _ =>
      alike_pure (Reply.alike_ofLedger hr fun _ _ ha => .account ha)

theorem alike_named (hlag : L.lag = 0) (now : Instant) (name : String)
    (timeouts deadlines : List Duration) (c : Context) (handle : Option SignalId) :
    (match addDeadlines now timeouts deadlines c with
      | some c => (return .inl (.name name c handle) : RoundProgram)
      | none => .crash).Alike L L.StagesAlike
    (match addDeadlines now timeouts deadlines c with
      | some c => (return .inl (.name name c handle) : RoundProgram)
      | none => .crash) := by
  split
  · exact alike_pure (.inl (.name name (.inr hlag) handle))
  · exact .crash

theorem alike_makeContext (hd : d.Alike L d') (hall : L.scope = .all) (hlag : L.lag = 0)
    (name : String) (cancellable : Bool) (source : Option String)
    (timeouts deadlines : List Duration) :
    (makeContext d name cancellable source timeouts deadlines).Alike L L.StagesAlike
      (makeContext d' name cancellable source timeouts deadlines) := by
  refine Alike.bind (alike_request .clock) fun n n' hn => ?_
  have hn' : n = n' + L.lag := hn
  rw [hlag, Nat.add_zero] at hn'
  subst hn'
  have hfinish := alike_named hlag (n * Duration.nanosPerMilli) name timeouts deadlines
  cases source with
  | some s =>
    simp only [(hd.context (some s)).1]
    exact hfinish _ _
  | none =>
    dsimp only
    split
    · refine Alike.bind (alike_request (.signal (r := .createSignal) rfl hall)) ?_
      rintro s _ rfl
      exact hfinish _ _
    · exact hfinish _ _

theorem alike_await {c : Context} (hc : L.Agrees c) :
    (await c).Alike L (Reply.Alike L) (await c) := by
  refine Alike.bind (Alike.raced (R := Eq) hc ((alike_plain (r := .never) rfl).map
    fun a => nomatch a)) fun r r' hr => ?_
  cases hr with
  | error he => exact alike_pure (.settlementError he)
  | ok _ => exact alike_pure (.same _)

theorem alike_cancel (hall : L.scope = .all) (s : SignalId) :
    (cancel s).Alike L (Reply.Alike L) (cancel s) := by
  refine Alike.bind (alike_plain (r := .isCancelled s) rfl) ?_
  rintro before _ rfl
  refine Alike.bind (alike_request (.signal (r := .cancel s) rfl hall)) fun _ _ _ => ?_
  refine Alike.bind (alike_plain (r := .isCancelled s) rfl) ?_
  rintro after _ rfl
  exact alike_pure (.same _)

theorem start_plain (hd : d.Alike L d') {op : Operation} (hop : op.isPlain = true)
    (hall : L.scope = .all) (hlag : L.lag = 0) :
    (start d op).1.Alike L L.StagesAlike (start d' op).1 ∧
      (start d op).2.Alike L (start d' op).2 := by
  cases op
  case sleep span =>
    exact ⟨alike_answer ((alike_plain (r := .sleep span) rfl).map fun _ _ _ => .same _), hd⟩
  case context name cancellable source timeouts deadlines =>
    exact ⟨alike_makeContext hd hall hlag _ _ _ _ _, hd⟩
  case checkContext name =>
    obtain ⟨hc, hagrees⟩ := hd.context (some name)
    refine ⟨alike_answer ?_, hd⟩
    rw [hc]
    refine (alike_request (.check hagrees)).map ?_
    rintro e _ rfl
    exact .same _
  case awaitContext name =>
    obtain ⟨hc, hagrees⟩ := hd.context (some name)
    refine ⟨alike_answer ?_, hd⟩
    rw [hc]
    exact alike_await hagrees
  case cancel name =>
    simp only [start, hd.handles]
    split
    · exact ⟨alike_answer (alike_cancel hall _), hd⟩
    · exact ⟨alike_reply (.same _), hd⟩
  case dropHandle name =>
    simp only [start, hd.handles]
    split
    · rename_i s _
      refine ⟨alike_answer ((alike_request (.signal (r := .dropHandle s) rfl hall)).map
        fun _ _ _ => .same _), { hd with handles := ?_ }⟩
      rfl
    · exact ⟨alike_reply (.same _), hd⟩
  all_goals cases hop

theorem alike_start (hd : d.Alike L d') {op op' : Operation} (h : op.Alike L op') :
    (start d op).1.Alike L L.StagesAlike (start d' op').1 ∧
      (start d op).2.Alike L (start d' op').2 := by
  cases h with
  | seed he hb => exact ⟨alike_answer (alike_seed he hb), hd⟩
  | openAccount he => exact ⟨alike_wallet (alike_openAccount he) fun _ _ ha => .account ha, hd⟩
  | account he => exact ⟨alike_wallet (alike_account he) fun _ _ ha => .account ha, hd⟩
  | deposit he hx => exact ⟨alike_wallet (alike_deposit he hx) fun _ _ hb => .amount hb, hd⟩
  | withdraw he hx => exact ⟨alike_wallet (alike_withdraw he hx) fun _ _ hb => .amount hb, hd⟩
  | settle he hx context =>
    obtain ⟨hc, hagrees⟩ := hd.context context
    refine ⟨?_, hd⟩
    simp only [start, hc]
    exact (Program.alike_start hd.engine hagrees he hx).bind fun _ _ => alike_settleRound
  | history he limit =>
    exact ⟨alike_answer ((Alike.observed (alike_history he limit)).map fun _ _ hr =>
      Reply.alike_ofSpin hr fun _ _ hs => .spins hs), hd⟩
  | engine hc => exact ⟨alike_reply (.config hc), { hd with engine := hc }⟩
  | plain hop hall hlag => exact start_plain hd hop hall hlag

theorem alike_rounds (hd : d.Alike L d') {s s' : Stage} (h : s.Alike L s') :
    (rounds s d).1.Alike L L.StagesAlike (rounds s' d').1 ∧
      (rounds s d).2.Alike L (rounds s' d').2 := by
  cases h with
  | start hop => exact alike_start hd hop
  | settle hs =>
    exact ⟨(Alike.observed (alike_settlementRound hs)).bind fun _ _ => alike_settleRound, hd⟩
  | name name hc handle =>
    refine ⟨alike_reply (.same _), hd.engine, congrArg (Table.put · name _) hd.contexts, ?_, ?_⟩
    · simp only [rounds, named, hd.handles]
    · intro n c hn
      simp only [rounds, named, Table.get?_put] at hn
      split at hn
      · cases hn
        exact hc
      · exact hd.agrees n c hn

end Rounds

end Session

section Turns

variable {w w' : World} {d d' : Desk}

/-- Programs with nothing left to wait for give like answers. -/
theorem Program.Alike.answer? {n n' : Nat} (hn : n = n' + L.lag)
    {p p' : Session.RoundProgram} (h : p.Alike L L.StagesAlike p') :
    Option.Rel (Reply.Alike L) (p.answer? n) (p'.answer? n') := by
  induction h with
  | done h =>
    cases h with
    | inl h => exact .none
    | inr h => exact .some h
  | crash => exact .none
  | @ask r r' A k k' hr hk ih =>
    cases hr with
    | plain hr =>
      cases r
      case discard => exact ih () () rfl
      case emit => cases hr
      case clock => cases hr
      all_goals exact .none
    | signal hr _ =>
      cases r
      case discard => cases hr
      case emit => cases hr
      case clock => cases hr
      all_goals exact .none
    | clock => exact ih n n' hn
    | emit e e' => exact ih () () rfl
    | data _ => exact .none
    | seed _ _ => exact .none
    | check _ => exact .none
    | note _ _ => exact .none
  | race _ _ _ _ _ _ => exact .none

namespace Task.Alike

variable {t t' : Task Stage Reply}

theorem answer? (h : t.Alike L t') {n n' : Nat} (hn : n = n' + L.lag) :
    Option.Rel (Reply.Alike L) (t.answer? n) (t'.answer? n') := by
  obtain ⟨client, limit, state⟩ := t
  obtain ⟨client', limit', state'⟩ := t'
  obtain ⟨-, hs⟩ := h
  cases hs with
  | inl hp => exact hp.answer? hn
  | @inr e e' he =>
    obtain ⟨e, at₁⟩ := e
    obtain ⟨e', at₂⟩ := e'
    obtain ⟨he, -⟩ := he
    dsimp only at he
    cases he with
    | answered hr => exact .some hr
    | crashed => exact .none
    | blocked => exact .none

theorem ending? (h : t.Alike L t') : Option.Rel L.EndAlike t.ending? t'.ending? := by
  have hs := h.state
  rw [Task.ending?, Task.ending?]
  generalize t.state = x at hs ⊢
  generalize t'.state = x' at hs ⊢
  cases hs with
  | inl _ => exact .none
  | inr he => exact .some he

theorem stop (h : t.Alike L t') {e e' : Ending Reply} (he : e.Alike L e') {n n' : Nat}
    (hn : n = n' + L.lag) : (t.stop e n).Alike L (t'.stop e' n') :=
  ⟨h.client, .inr ⟨he, hn⟩⟩

theorem drop (h : t.Alike L t') (hw : w.Alike L w') :
    (t.drop w).1.Alike L (t'.drop w').1 ∧ (t.drop w).2.Alike L (t'.drop w').2 := by
  have hover : t'.isOver = t.isOver := by
    have hs := h.state
    rw [Task.isOver, Task.isOver]
    generalize t.state = x at hs ⊢
    generalize t'.state = x' at hs ⊢
    cases hs with
    | inl _ => rfl
    | inr _ => rfl
  rw [Task.drop, Task.drop, hover, h.client]
  split
  · exact ⟨h, hw⟩
  · exact ⟨h.stop .blocked hw.clock, hw.leaveBehind _⟩

theorem step (h : t.Alike L t') (hw : w.Alike L w') (hd : d.Alike L d') :
    Option.Rel (Task.Alike L) (t.step Session.rounds w d).1 (t'.step Session.rounds w' d').1 ∧
      (t.step Session.rounds w d).2.1.Alike L (t'.step Session.rounds w' d').2.1 ∧
      (t.step Session.rounds w d).2.2.Alike L (t'.step Session.rounds w' d').2.2 := by
  obtain ⟨client, limit, state⟩ := t
  obtain ⟨client', limit', state'⟩ := t'
  obtain ⟨hclient, hs⟩ := h
  dsimp only at hclient
  subst hclient
  cases hs with
  | inr he => exact ⟨.none, hw, hd⟩
  | @inl p p' hp =>
    have hgo := hw.step hp client'
    have hmap : ∀ {x x' : Option Session.RoundProgram},
        Option.Rel (Program.Alike L L.StagesAlike) x x' →
        Option.Rel (Task.Alike L) (x.map fun p => ⟨client', limit, .inl p⟩)
          (x'.map fun p => ⟨client', limit', .inl p⟩) :=
      fun h => rel_map h fun _ _ hp => ⟨rfl, .inl hp⟩
    cases hp with
    | done hr =>
      cases hr with
      | inl hs =>
        obtain ⟨hp, hd⟩ := Session.alike_rounds hd hs
        exact ⟨.some ⟨rfl, .inl hp⟩, hw, hd⟩
      | inr hr => exact ⟨.some ⟨rfl, .inr ⟨.answered hr, hw.clock⟩⟩, hw, hd⟩
    | crash => exact ⟨.some ⟨rfl, .inr ⟨.crashed, hw.clock⟩⟩, hw.leaveBehind _, hd⟩
    | ask hr hk => exact ⟨hmap hgo.1, hgo.2, hd⟩
    | race hc hr he hk => exact ⟨hmap hgo.1, hgo.2, hd⟩

end Task.Alike

namespace Tasks.Alike

variable {s s' : Tasks Stage Reply Desk}

theorem stepAt (h : s.Alike L s') (n : Nat) :
    (s.stepAt Session.rounds n).Alike L (s'.stepAt Session.rounds n) := by
  have hn := forall₂_getElem? h.list n
  rw [Tasks.stepAt, Tasks.stepAt]
  generalize s.list[n]? = x at hn ⊢
  generalize s'.list[n]? = x' at hn ⊢
  cases hn with
  | none => exact h
  | some ht =>
    obtain ⟨hstep, hw, hd⟩ := ht.step h.world h.shared
    exact ⟨hw, hd, forall₂_set h.list n (rel_getD hstep ht)⟩

theorem dropAt (h : s.Alike L s') (n : Nat) : (s.dropAt n).Alike L (s'.dropAt n) := by
  have hn := forall₂_getElem? h.list n
  rw [Tasks.dropAt, Tasks.dropAt]
  generalize s.list[n]? = x at hn ⊢
  generalize s'.list[n]? = x' at hn ⊢
  cases hn with
  | none => exact h
  | @some t t' ht =>
    have hsome : (t.answer? s.world.clock).isSome = (t'.answer? s'.world.clock).isSome := by
      have ha := ht.answer? h.world.clock
      generalize t.answer? s.world.clock = a at ha ⊢
      generalize t'.answer? s'.world.clock = a' at ha ⊢
      cases ha with
      | none => rfl
      | some _ => rfl
    dsimp only
    rw [hsome]
    split
    · exact h
    · obtain ⟨hd, hw⟩ := ht.drop h.world
      exact ⟨hw, h.shared, forall₂_set h.list n hd⟩

theorem turn (h : s.Alike L s') (u : Turn) :
    (s.turn Session.rounds u).Alike L (s'.turn Session.rounds u) := by
  cases u with
  | step n => exact h.stepAt n
  | drop n => exact h.dropAt n
  | wait millis =>
    refine ⟨{ h.world with clock := ?_ }, h.shared, h.list⟩
    rw [Tasks.turn, Tasks.turn, h.world.clock]
    exact Nat.add_right_comm _ _ _

theorem turns (h : s.Alike L s') (us : List Turn) :
    (s.turns Session.rounds us).Alike L (s'.turns Session.rounds us) := by
  induction us generalizing s s' with
  | nil => exact h
  | cons u us ih => exact ih (h.turn u)

end Tasks.Alike

end Turns

end WagerLedger

import WagerLedger.Proofs.Related
import WagerLedger.Proofs.Session.Discreet

/-! # Sessions under the veil

Faults at the rollbacks change nothing for those who make the calls: beat by beat, two sessions
that look the same under the veil do the same. A discreet program goes on from a rollback that
has failed, once that is told, as from one that has not. -/
namespace WagerLedger

namespace Program

variable {α : Type} {own : String → Program α → Prop} {Q : α → Prop} {p : Program α}
  {w w' : World}

theorem Discreet.told (h : p.Discreet own Q) : ∀ e ∈ p.told, e.isRollbackFailure = false := by
  induction h with
  | @ask r k hr _ ih =>
    cases r
    case emit e =>
      intro e' he'
      rcases List.mem_cons.mp he' with rfl | he'
      · exact Request.unsaid hr
      · exact ih () trivial e' he'
    all_goals exact nofun
  | done _ => exact nofun
  | crash => exact nofun
  | rollback _ _ _ _ _ => exact nofun
  | race _ _ _ _ _ => exact nofun

theorem Discreet.silent (h : p.Discreet own Q) : p.silent.Discreet own Q := by
  induction h with
  | @ask r k hr hk ih =>
    cases r
    case emit e => exact ih () trivial
    all_goals exact .ask hr hk
  | done h => exact .done h
  | crash => exact .crash
  | rollback cause ho herror hk _ => exact .rollback cause ho herror hk
  | race hr he hk _ _ => exact .race hr he hk

/-- The programs tell the same but for failed rollbacks, and then are one discreet program. -/
structure SameSilent (own : String → Program α → Prop) (Q : α → Prop) (q q' : Program α) : Prop where
  silent : q.silent = q'.silent
  discreet : q.silent.Discreet own Q
  told : q.told.filter (!·.isRollbackFailure) = q'.told.filter (!·.isRollbackFailure)

theorem SameSilent.refl (h : p.Discreet own Q) : SameSilent own Q p p := ⟨rfl, h.silent, rfl⟩

theorem SameSilent.symm {q q' : Program α} (h : SameSilent own Q q q') : SameSilent own Q q' q :=
  ⟨h.silent.symm, h.silent ▸ h.discreet, h.told.symm⟩

theorem SameSilent.trans {q q' q'' : Program α} (h : SameSilent own Q q q')
    (h' : SameSilent own Q q' q'') : SameSilent own Q q q'' :=
  ⟨h.silent.trans h'.silent, h.discreet, h.told.trans h'.told⟩

theorem same_answers {r : Request} {k : r.Answer → Program α} (hr : r.isDiscreet = true)
    (hk : ∀ a, r.Unprobed a → (k a).Discreet own Q) (hw : w.veil = w'.veil)
    (hprobes : w.probes = []) (i : ClientId) :
    Option.Rel (SameSilent own Q) ((w.perform i r).1.map k) ((w'.perform i r).1.map k) := by
  rw [← (World.same_perform hw i (Request.ne_rollback hr)).1]
  cases ha : (w.perform i r).1 with
  | none => exact .none
  | some a => exact .some (.refl (hk a (World.unprobed hprobes ha)))

theorem same_rollbacks {k : Except LedgerError Unit → Program α} {cause : String}
    (herror : ∀ e, k (.error e) = .ask (.emit (.rollbackFailed cause e)) fun _ => k (.ok ()))
    (hk : (k (.ok ())).Discreet own Q) (hw : w.veil = w'.veil) (i : ClientId) :
    Option.Rel (SameSilent own Q) ((w.rollback i).1.map k) ((w'.rollback i).1.map k) := by
  have hgoes (x : Except LedgerError Unit) : SameSilent own Q (k x) (k (.ok ())) := by
    cases x with
    | ok _ => exact .refl hk
    | error e =>
      rw [herror]
      exact ⟨rfl, hk.silent, rfl⟩
  have hsome := (World.same_rollback hw i).1
  cases hx : (w.rollback i).1 with
  | none =>
    rw [hx] at hsome
    rw [Option.isNone_iff_eq_none.mp (Option.isSome_eq_false_iff.mp hsome.symm)]
    exact .none
  | some x =>
    rw [hx] at hsome
    obtain ⟨x', hx'⟩ := Option.isSome_iff_exists.mp hsome.symm
    rw [hx']
    exact .some ((hgoes x).trans (hgoes x').symm)

theorem Discreet.same_step (h : p.Discreet own Q) (hw : w.veil = w'.veil) (hprobes : w.probes = [])
    (i : ClientId) : Option.Rel (SameSilent own Q) (p.step i w).1 (p.step i w').1 ∧
      (p.step i w).2.veil = (p.step i w').2.veil := by
  cases h with
  | done _ => exact ⟨.none, hw⟩
  | crash => exact ⟨.none, hw⟩
  | ask hr hk =>
    exact ⟨same_answers hr hk hw hprobes i, (World.same_perform hw i (Request.ne_rollback hr)).2⟩
  | rollback cause _ herror hk =>
    exact ⟨same_rollbacks herror hk hw i, (World.same_rollback hw i).2⟩
  | @race c r k hr he hk =>
    rw [Program.step, Program.step, ← World.ended?_of_veil hw]
    cases w.ended? i c r with
    | some e => exact ⟨.some (.refl (he e)), World.same_giveUp hw i r⟩
    | none =>
      exact ⟨same_answers (k := fun a => k (.ok a)) hr hk hw hprobes i,
        (World.same_perform hw i (Request.ne_rollback hr)).2⟩

end Program

def Session.injecting (skip times : Nat) : Session.RoundProgram :=
  Session.answer ((fun _ => .point .rollback) <$> Program.request (.inject .rollback skip times))

/-- The same program, with discreet rollbacks, or a call that injects faults at the rollbacks. -/
inductive Session.Same : Session.RoundProgram → Session.RoundProgram → Prop
  | discreet {p : Session.RoundProgram} (h : Session.Discreet p) : Same p p
  | fault (skip times skip' times' : Nat) :
    Same (.done (.inl (.start (.fault .rollback skip times))))
      (.done (.inl (.start (.fault .rollback skip' times'))))
  | inject (skip times skip' times' : Nat) :
    Same (Session.injecting skip times) (Session.injecting skip' times')

namespace Task

variable {t t' : Task Stage Reply} {w w' : World} {d : Desk}

/-- Tasks that have come to the same end, or go on the same way. -/
structure Same (t t' : Task Stage Reply) : Prop where
  client : t'.client = t.client
  state : Sum.LiftRel Session.Same Eq t.state t'.state

theorem Same.tell {client limit limit' : Nat} {p : Session.RoundProgram}
    (hp : Session.Discreet p) {x x' : Option Session.RoundProgram}
    (hx : Option.Rel (Program.SameSilent Abandoned Managed) x x') (hw : w.veil = w'.veil) :
    ((x.map fun p => Task.mk client limit (.inl p)).getD ⟨client, limit, .inl p⟩).silent.Same
        ((x'.map fun p => Task.mk client limit' (.inl p)).getD ⟨client, limit', .inl p⟩).silent ∧
      (w.hear ((x.map fun p => Task.mk client limit (.inl p)).getD
          ⟨client, limit, .inl p⟩).told).veil =
        (w'.hear ((x'.map fun p => Task.mk client limit' (.inl p)).getD
          ⟨client, limit', .inl p⟩).told).veil := by
  have hgoes {q q' : Session.RoundProgram} (hq : Program.SameSilent Abandoned Managed q q') :
      (Task.mk client limit (.inl q)).silent.Same (Task.mk client limit' (.inl q')).silent ∧
        (w.hear q.told).veil = (w'.hear q'.told).veil := by
    refine ⟨⟨rfl, .inl ?_⟩, World.same_hear hw hq.told⟩
    rw [← hq.silent]
    exact .discreet hq.discreet
  cases hx with
  | none => exact hgoes (.refl hp)
  | some hq => exact hgoes hq

theorem Same.stop {client limit limit' : Nat} {p p' : Session.RoundProgram} (e : Ending Reply)
    (hw : w.veil = w'.veil) :
    ((Task.mk client limit (.inl p)).stop e w.clock).Same
      ((Task.mk client limit' (.inl p')).stop e w'.clock) := by
  rw [World.clock_of_veil hw]
  exact ⟨rfl, .inr rfl⟩

theorem Same.beat (h : t.Same t') (hw : w.veil = w'.veil) (hprobes : w.probes = []) (d : Desk) :
    ((t.step Session.rounds w d).1.getD t).silent.Same
        ((t'.step Session.rounds w' d).1.getD t').silent ∧
      ((t.step Session.rounds w d).2.1.hear ((t.step Session.rounds w d).1.getD t).told).veil =
        ((t'.step Session.rounds w' d).2.1.hear
          ((t'.step Session.rounds w' d).1.getD t').told).veil ∧
      (t'.step Session.rounds w' d).2.2 = (t.step Session.rounds w d).2.2 := by
  obtain ⟨client', limit, state⟩ := t
  obtain ⟨client, limit', state'⟩ := t'
  obtain ⟨hclient, hstate⟩ := h
  obtain rfl : client = client' := hclient
  cases hstate with
  | inr he =>
    cases he
    exact ⟨⟨rfl, .inr rfl⟩, World.same_hear hw rfl, rfl⟩
  | inl hp =>
    -- The two programs differ in a fault that is set, or go through the same requests.
    cases hp with
    | fault skip times skip' times' =>
      exact ⟨⟨rfl, .inl (.inject skip times skip' times')⟩, World.same_hear hw rfl, rfl⟩
    | inject skip times skip' times' =>
      refine ⟨⟨rfl, .inl (.discreet (.done trivial))⟩, World.same_hear ?_ rfl, rfl⟩
      exact (World.inject_rollback_veil w skip times).trans
        (hw.trans (World.inject_rollback_veil w' skip' times').symm)
    | discreet hp =>
      rename_i p
      cases p with
      | done a =>
        cases a with
        | inl st =>
          have hnext : Session.Discreet (Session.rounds st d).1 := by
            cases hp with
            | done hst => exact Session.discreet_rounds d hst
          obtain ⟨ht, hworld⟩ := Same.tell hp (.some (.refl hnext)) hw
          exact ⟨ht, hworld, rfl⟩
        | inr r => exact ⟨.stop _ hw, World.same_hear hw rfl, rfl⟩
      | crash => exact ⟨.stop _ hw, World.same_hear (World.same_leaveBehind hw client) rfl, rfl⟩
      | ask r k =>
        obtain ⟨hx, hafter⟩ := hp.same_step hw hprobes client
        obtain ⟨ht, hworld⟩ := Same.tell hp hx hafter
        exact ⟨ht, hworld, rfl⟩
      | race c r k =>
        obtain ⟨hx, hafter⟩ := hp.same_step hw hprobes client
        obtain ⟨ht, hworld⟩ := Same.tell hp hx hafter
        exact ⟨ht, hworld, rfl⟩

theorem Same.ending? (h : t.Same t') : t'.ending? = t.ending? := by
  obtain ⟨client, limit, state⟩ := t
  obtain ⟨client', limit', state'⟩ := t'
  cases h.state with
  | inl _ => rfl
  | inr he => exact congrArg some he.symm

theorem Same.answer? (h : t.Same t') (clock : Nat) : t'.answer? clock = t.answer? clock := by
  obtain ⟨client, limit, state⟩ := t
  obtain ⟨client', limit', state'⟩ := t'
  cases h.state with
  | inl hp => cases hp <;> rfl
  | inr he =>
    cases he
    rfl

theorem Same.drop (h : t.Same t') (hw : w.veil = w'.veil) :
    (t.drop w).1.Same (t'.drop w').1 ∧ (t.drop w).2.veil = (t'.drop w').2.veil := by
  obtain ⟨client', limit, state⟩ := t
  obtain ⟨client, limit', state'⟩ := t'
  obtain ⟨hclient, hstate⟩ := h
  obtain rfl : client = client' := hclient
  cases hstate with
  | inl _ => exact ⟨.stop _ hw, World.same_leaveBehind hw client⟩
  | inr he => exact ⟨⟨rfl, .inr he⟩, hw⟩

end Task

namespace Tasks

variable {s s' : Tasks Stage Reply Desk}

/-- Sessions that look the same but for failed rollbacks. -/
structure Same (s s' : Tasks Stage Reply Desk) : Prop where
  world : s.world.veil = s'.world.veil
  probes : s.world.probes = []
  shared : s'.shared = s.shared
  list : List.Forall₂ Task.Same s.list s'.list

theorem probes_beat (s : Tasks Stage Reply Desk) (u : Turn) :
    (s.beat Session.rounds u).world.probes = s.world.probes := by
  obtain ⟨vs, hvs⟩ := s.beats_turns Session.rounds [u]
  change s.beat Session.rounds u = _ at hvs
  rw [hvs]
  exact (s.later_turns Session.rounds vs).probes

theorem Same.beatAt (h : s.Same s') (n : Nat) :
    (s.beatAt Session.rounds n).world.veil = (s'.beatAt Session.rounds n).world.veil ∧
      (s'.beatAt Session.rounds n).shared = (s.beatAt Session.rounds n).shared ∧
      List.Forall₂ Task.Same (s.beatAt Session.rounds n).list (s'.beatAt Session.rounds n).list := by
  have ht := forall₂_getElem? h.list n
  rw [Tasks.beatAt, Tasks.beatAt, h.shared]
  generalize s.list[n]? = x at ht ⊢
  generalize s'.list[n]? = x' at ht ⊢
  cases ht with
  | none => exact ⟨h.world, h.shared, h.list⟩
  | some ht =>
    obtain ⟨ht', hworld, hshared⟩ := ht.beat h.world h.probes s.shared
    exact ⟨hworld, hshared, forall₂_set h.list n ht'⟩

theorem Same.dropAt (h : s.Same s') (n : Nat) :
    (s.dropAt n).world.veil = (s'.dropAt n).world.veil ∧ (s'.dropAt n).shared = (s.dropAt n).shared ∧
      List.Forall₂ Task.Same (s.dropAt n).list (s'.dropAt n).list := by
  have ht := forall₂_getElem? h.list n
  rw [Tasks.dropAt, Tasks.dropAt]
  generalize s.list[n]? = x at ht ⊢
  generalize s'.list[n]? = x' at ht ⊢
  cases ht with
  | none => exact ⟨h.world, h.shared, h.list⟩
  | some ht =>
    dsimp only
    rw [ht.answer?, World.clock_of_veil h.world]
    split
    · exact ⟨h.world, h.shared, h.list⟩
    · obtain ⟨ht', hworld⟩ := ht.drop h.world
      exact ⟨hworld, h.shared, forall₂_set h.list n ht'⟩

theorem Same.beat (h : s.Same s') (u : Turn) :
    (s.beat Session.rounds u).Same (s'.beat Session.rounds u) := by
  have hprobes := (s.probes_beat u).trans h.probes
  cases u with
  | step n =>
    obtain ⟨hworld, hshared, hlist⟩ := h.beatAt n
    exact ⟨hworld, hprobes, hshared, hlist⟩
  | drop n =>
    obtain ⟨hworld, hshared, hlist⟩ := h.dropAt n
    exact ⟨hworld, hprobes, hshared, hlist⟩
  | wait millis =>
    refine ⟨?_, hprobes, h.shared, h.list⟩
    exact congrArg (fun w : World => { w with clock := w.clock + millis }) h.world

theorem Same.beats (h : s.Same s') (us : List Turn) :
    (s.beats Session.rounds us).Same (s'.beats Session.rounds us) := by
  induction us generalizing s s' with
  | nil => exact h
  | cons u us ih => exact ih (h.beat u)

end Tasks

end WagerLedger

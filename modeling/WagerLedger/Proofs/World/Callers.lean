import Mathlib.Data.List.Induction
import Mathlib.Order.MinMax
import WagerLedger.Proofs.World.Contexts
import WagerLedger.Settlement.Caller

/-! # What callers see of a context

Whatever callers do, a look at a context finds what the steps so far say: whether the handle of
its signal has cancelled, and else whether the earliest of its deadlines has come. The two ways
of observing a context agree, and neither takes back what it has said. -/
namespace WagerLedger

namespace Signals

variable {s : Signals} {i j : SignalId}

theorem isCancelled_of_length_le (h : s.list.length ≤ i) : s.isCancelled i = false := by
  rw [isCancelled, get?, List.getElem?_eq_none h]
  rfl

theorem isCancelled_create_eq (s : Signals) (i : SignalId) :
    s.create.2.isCancelled i = s.isCancelled i := by
  rcases lt_trichotomy i s.list.length with hlt | heq | hgt
  · simp only [isCancelled, get?, create, List.getElem?_append_left hlt]
  · subst heq
    rw [isCancelled_of_length_le le_rfl]
    simp [isCancelled, get?, create]
  · rw [isCancelled_of_length_le hgt.le,
      isCancelled_of_length_le (by simpa [create] using Nat.succ_le_of_lt hgt)]

theorem isCancelled_cancel (h : j < s.list.length) :
    (s.cancel j).isCancelled i = (s.isCancelled i || decide (i = j)) := by
  simp only [isCancelled, get?, cancel, List.getElem?_modify]
  by_cases hij : j = i
  · subst hij
    simp [h]
  · have hji : i ≠ j := Ne.symm hij
    cases s.list[i]? <;> simp [hij, hji]

theorem isCancelled_drop (s : Signals) (i j : SignalId) :
    (s.drop j).isCancelled i = s.isCancelled i := by
  simp only [isCancelled, get?, drop, List.getElem?_modify]
  cases s.list[i]? with
  | none => rfl
  | some x => by_cases hij : j = i <;> simp [hij]

end Signals

/-- What a context has been given: a handle, and deadlines in their order. -/
structure Context.Terms where
  handle : Option SignalId
  deadlines : List Instant

def Context.Terms.context (g : Context.Terms) : Context := ⟨g.handle, g.deadlines.min?⟩

theorem min?_concat_some {ds : List Nat} {e : Nat} (h : ds.min? = some e) (d : Nat) :
    (ds ++ [d]).min? = some (min e d) := by
  obtain ⟨hmem, hle⟩ := List.min?_eq_some_iff.mp h
  refine List.min?_eq_some_iff.mpr ⟨?_, fun b hb => ?_⟩
  · rcases min_choice e d with he | hd
    · simp only [he, List.mem_append, hmem, true_or]
    · simp only [hd, List.mem_append, List.mem_singleton, or_true]
  · rcases List.mem_append.mp hb with hb | hb
    · exact (min_le_left e d).trans (hle b hb)
    · exact (min_le_right e d).trans (List.mem_singleton.mp hb).ge

theorem Context.Terms.context_concat (g : Context.Terms) (d : Instant) :
    Context.Terms.context { g with deadlines := g.deadlines ++ [d] } = g.context.withDeadline d := by
  cases h : g.deadlines.min? with
  | none =>
    rw [context, context, List.min?_eq_none_iff.mp h]
    rfl
  | some e =>
    simp only [context, min?_concat_some h, h, Context.withDeadline]

namespace Caller

/-- What the steps so far come to, read off them alone. -/
structure Record where
  handles : Nat
  now : Instant
  terms : List Context.Terms

namespace Record

def bound (r : Record) (k : Nat) (d : Instant) : Record :=
  { r with terms := r.terms.modify k fun g => { g with deadlines := g.deadlines ++ [d] } }

def note (r : Record) : CallerStep → Record
  | .background => { r with terms := r.terms ++ [⟨none, []⟩] }
  | .cancellable =>
    { r with handles := r.handles + 1, terms := r.terms ++ [⟨some r.handles, []⟩] }
  | .clone k => { r with terms := r.terms ++ r.terms[k]?.toList }
  | .withDeadline k d => r.bound k d
  | .withTimeout k limit => r.bound k (r.now + limit.nanos)
  | .cancel _ | .dropHandle _ => r
  | .advance nanos => { r with now := r.now + nanos }

def of (steps : List CallerStep) : Record := steps.foldl note ⟨0, 0, []⟩

end Record

variable {w w' : Caller} {r : Record} {steps : List CallerStep} {a : CallerStep} {k : Nat}
  {c : Context}

/-- The contexts are those of the terms on record, and the signals that are set are those of the
handles that have cancelled. -/
structure Agrees (w : Caller) (r : Record) (steps : List CallerStep) : Prop where
  now : w.now = r.now
  handles : w.signals.list.length = r.handles
  contexts : w.contexts = r.terms.map Context.Terms.context
  cancelled : ∀ i, w.signals.isCancelled i = decide (.cancel i ∈ steps)

theorem holds_lt {i : SignalId} (h : w.holds i = true) : i < w.signals.list.length := by
  obtain ⟨x, hx, -⟩ := (Option.any_eq_true _ _).mp h
  exact (List.getElem?_eq_some_iff.mp hx).1

theorem bound?_eq_some {d : Instant} (h : w.bound? k d = some w') :
    w' = { w with contexts := w.contexts.modify k (·.withDeadline d) } := by
  unfold bound? at h
  split at h
  · exact (Option.some.inj h).symm
  · cases h

theorem instantAfter?_eq_some {start d : Instant} {limit : Duration}
    (h : instantAfter? start limit = some d) : d = start + limit.nanos := by
  unfold instantAfter? at h
  split at h
  · exact (Option.some.inj h).symm
  · cases h

theorem map_bound (terms : List Context.Terms) (k : Nat) (d : Instant) :
    (terms.modify k fun g => { g with deadlines := g.deadlines ++ [d] }).map
        Context.Terms.context =
      (terms.map Context.Terms.context).modify k (·.withDeadline d) := by
  refine List.ext_getElem? fun n => ?_
  simp only [List.getElem?_map, List.getElem?_modify, Option.map_eq_map]
  cases terms[n]? with
  | none => rfl
  | some g => by_cases hk : k = n <;> simp [hk, Context.Terms.context_concat]

theorem Agrees.bound (h : w.Agrees r steps) {d : Instant} (hw : w.bound? k d = some w')
    (ha : ∀ i, a ≠ .cancel i) : w'.Agrees (r.bound k d) (steps ++ [a]) := by
  rw [bound?_eq_some hw]
  refine ⟨h.now, h.handles, ?_, fun i => ?_⟩
  · rw [Record.bound, map_bound, h.contexts]
  · rw [h.cancelled i]
    simp [(ha i).symm]

/-- One step is recorded as what it does. -/
theorem Agrees.step (h : w.Agrees r steps) (hw : w.step a = some w') :
    w'.Agrees (r.note a) (steps ++ [a]) := by
  cases a with
  | background =>
    cases hw
    exact ⟨h.now, h.handles, by simp [keep, Record.note, h.contexts]; rfl, by simp [keep, h.cancelled]⟩
  | cancellable =>
    cases hw
    refine ⟨h.now, ?_, ?_, fun i => ?_⟩
    · simp [keep, Record.note, h.handles]
    · simp [keep, Record.note, h.contexts, h.handles]
      rfl
    · change w.signals.create.2.isCancelled i = _
      rw [Signals.isCancelled_create_eq, h.cancelled i]
      simp
  | clone k =>
    obtain ⟨c, hc, rfl⟩ := Option.map_eq_some_iff.mp hw
    refine ⟨h.now, h.handles, ?_, by simp [keep, h.cancelled]⟩
    rw [h.contexts, List.getElem?_map] at hc
    obtain ⟨g, hg, rfl⟩ := Option.map_eq_some_iff.mp hc
    simp [keep, Record.note, h.contexts, hg]
  | withDeadline k d => exact h.bound hw (by simp)
  | withTimeout k limit =>
    obtain ⟨d, hd, hw⟩ := Option.bind_eq_some_iff.mp hw
    obtain rfl := instantAfter?_eq_some hd
    rw [Record.note, ← h.now]
    exact h.bound hw (by simp)
  | cancel i =>
    rw [Caller.step] at hw
    split at hw
    · rename_i hi
      cases hw
      refine ⟨h.now, by simpa [Signals.cancel, Record.note] using h.handles, h.contexts, fun j => ?_⟩
      rw [Signals.isCancelled_cancel (holds_lt hi), h.cancelled j]
      simp
    · cases hw
  | dropHandle i =>
    rw [Caller.step] at hw
    split at hw
    · cases hw
      refine ⟨h.now, by simpa [Signals.drop, Record.note] using h.handles, h.contexts, fun j => ?_⟩
      rw [Signals.isCancelled_drop, h.cancelled j]
      simp
    · cases hw
  | advance nanos =>
    cases hw
    exact ⟨by simp [Record.note, h.now], h.handles, h.contexts, by simp [h.cancelled]⟩

theorem run_concat (steps : List CallerStep) (a : CallerStep) :
    run (steps ++ [a]) = (run steps).bind (Caller.step · a) := by
  simp [run, List.foldlM_append]

theorem agrees_run (h : run steps = some w) : w.Agrees (.of steps) steps := by
  induction steps using List.reverseRecOn generalizing w with
  | nil =>
    cases h
    exact ⟨rfl, rfl, rfl, fun i => by simp [start, Signals.isCancelled, Signals.get?, Signals.empty]⟩
  | append_singleton steps a ih =>
    rw [run_concat] at h
    obtain ⟨v, hv, hw⟩ := Option.bind_eq_some_iff.mp h
    rw [Record.of, List.foldl_append]
    exact (ih hv).step hw

/-- Time has not gone back, and what was set is set. -/
structure Later (w w' : Caller) : Prop where
  now : w.now ≤ w'.now
  cancelled : ∀ i, w.signals.isCancelled i = true → w'.signals.isCancelled i = true

theorem Later.of_signals (hnow : w'.now = w.now) (h : w'.signals = w.signals) : w.Later w' :=
  ⟨hnow.ge, fun i hi => by rwa [h]⟩

theorem step_later (h : w.step a = some w') : w.Later w' := by
  cases a with
  | background =>
    cases h
    exact .of_signals rfl rfl
  | cancellable =>
    cases h
    exact ⟨Nat.le_refl _, fun _ => Signals.isCancelled_create⟩
  | clone k =>
    obtain ⟨e, -, rfl⟩ := Option.map_eq_some_iff.mp h
    exact .of_signals rfl rfl
  | withDeadline k d =>
    rw [bound?_eq_some h]
    exact .of_signals rfl rfl
  | withTimeout k limit =>
    obtain ⟨d, -, h⟩ := Option.bind_eq_some_iff.mp h
    rw [bound?_eq_some h]
    exact .of_signals rfl rfl
  | cancel i =>
    rw [Caller.step] at h
    split at h
    · cases h
      exact ⟨Nat.le_refl _, fun _ => Signals.isCancelled_modify (fun _ _ => rfl) i⟩
    · cases h
  | dropHandle i =>
    rw [Caller.step] at h
    split at h
    · cases h
      exact ⟨Nat.le_refl _, fun j hj => (Signals.isCancelled_drop _ j i).trans hj⟩
    · cases h
  | advance nanos =>
    cases h
    exact ⟨Nat.le_add_right _ _, fun _ => id⟩

theorem bound?_context {d : Instant} (h : w.bound? k d = some w') {n : Nat}
    (hc : w.contexts[n]? = some c) :
    w'.contexts[n]? = some c ∨ w'.contexts[n]? = some (c.withDeadline d) := by
  rw [bound?_eq_some h]
  by_cases hk : k = n <;> simp [hc, hk]

/-- A context stays in its place, and may be given a deadline there. -/
theorem step_context (h : w.step a = some w') {n : Nat} (hc : w.contexts[n]? = some c) :
    w'.contexts[n]? = some c ∨ ∃ d, w'.contexts[n]? = some (c.withDeadline d) := by
  have hkeep : ∀ e, (w.contexts ++ [e])[n]? = some c := fun e =>
    (List.getElem?_append_left (List.getElem?_eq_some_iff.mp hc).1).trans hc
  cases a with
  | background =>
    cases h
    exact .inl (hkeep _)
  | cancellable =>
    cases h
    exact .inl (hkeep _)
  | clone k =>
    obtain ⟨e, -, rfl⟩ := Option.map_eq_some_iff.mp h
    exact .inl (hkeep e)
  | withDeadline k d => exact (bound?_context h hc).imp_right fun hd => ⟨d, hd⟩
  | withTimeout k limit =>
    obtain ⟨d, -, h⟩ := Option.bind_eq_some_iff.mp h
    exact (bound?_context h hc).imp_right fun hd => ⟨d, hd⟩
  | cancel i =>
    rw [Caller.step] at h
    split at h <;> cases h
    exact .inl hc
  | dropHandle i =>
    rw [Caller.step] at h
    split at h <;> cases h
    exact .inl hc
  | advance nanos =>
    cases h
    exact .inl hc

/-- What a look at `c` has found is not taken back by a later one at `c'`. -/
structure Lasts (w w' : Caller) (c c' : Context) : Prop where
  cancelled : c.signal.any w.signals.isCancelled = true →
    c'.signal.any w'.signals.isCancelled = true
  expired : c.deadline.any (· ≤ w.now) = true → c'.deadline.any (· ≤ w'.now) = true

theorem Lasts.trans {w'' : Caller} {c' c'' : Context} (h : w.Lasts w' c c')
    (h' : w'.Lasts w'' c' c'') : w.Lasts w'' c c'' :=
  ⟨h'.cancelled ∘ h.cancelled, h'.expired ∘ h.expired⟩

theorem Later.lasts (h : w.Later w') (c : Context) : w.Lasts w' c c where
  cancelled hc := by
    obtain ⟨i, hi, hset⟩ := (Option.any_eq_true _ _).mp hc
    exact (Option.any_eq_true _ _).mpr ⟨i, hi, h.cancelled i hset⟩
  expired hc := by
    obtain ⟨d, hd, hle⟩ := (Option.any_eq_true _ _).mp hc
    have hlater := (of_decide_eq_true hle).trans h.now
    exact (Option.any_eq_true _ _).mpr ⟨d, hd, decide_eq_true hlater⟩

theorem lasts_withDeadline (w : Caller) (c : Context) (d : Instant) :
    w.Lasts w c (c.withDeadline d) where
  cancelled := id
  expired h := by
    obtain ⟨e, he, hle⟩ := (Option.any_eq_true _ _).mp h
    have hmin := (min_le_left e d).trans (of_decide_eq_true hle)
    refine (Option.any_eq_true _ _).mpr ⟨min e d, ?_, decide_eq_true hmin⟩
    rw [Context.withDeadline, he]

theorem step_lasts (h : w.step a = some w') {n : Nat} (hc : w.contexts[n]? = some c) :
    ∃ c', w'.contexts[n]? = some c' ∧ w.Lasts w' c c' := by
  have hlater := step_later h
  rcases step_context h hc with hc' | ⟨d, hc'⟩
  · exact ⟨c, hc', hlater.lasts c⟩
  · exact ⟨_, hc', (lasts_withDeadline w c d).trans (hlater.lasts _)⟩

theorem run_lasts {more : List CallerStep} (h : run steps = some w)
    (h' : run (steps ++ more) = some w') {n : Nat} (hc : w.contexts[n]? = some c) :
    ∃ c', w'.contexts[n]? = some c' ∧ w.Lasts w' c c' := by
  induction more using List.reverseRecOn generalizing w' with
  | nil =>
    rw [List.append_nil, h] at h'
    cases h'
    exact ⟨c, hc, id, id⟩
  | append_singleton more a ih =>
    rw [← List.append_assoc, run_concat] at h'
    obtain ⟨v, hv, hstep⟩ := Option.bind_eq_some_iff.mp h'
    obtain ⟨e, he, hlasts⟩ := ih hv
    obtain ⟨c', hc', hlasts'⟩ := step_lasts hstep he
    exact ⟨c', hc', hlasts.trans hlasts'⟩

def look (w : Caller) (c : Context) : Option SettlementError := c.check w.signals w.now

def over? (w : Caller) (c : Context) : Option SettlementError :=
  c.done? w.signals (w.now / Duration.nanosPerMilli)

theorem look_eq_cancelled_iff :
    w.look c = some .cancelled ↔ c.signal.any w.signals.isCancelled = true := by
  unfold look Context.check
  split
  · simp [*]
  · split <;> simp [*]

theorem look_eq_none_iff :
    w.look c = none ↔ c.signal.any w.signals.isCancelled = false ∧
      c.deadline.any (· ≤ w.now) = false := by
  unfold look Context.check
  split
  · simp [*]
  · split <;> simp [*]

theorem Lasts.look {c' : Context} (h : w.Lasts w' c c') :
    (w.look c = some .cancelled → w'.look c' = some .cancelled) ∧
      (w'.look c' = none → w.look c = none) := by
  constructor
  · rw [look_eq_cancelled_iff, look_eq_cancelled_iff]
    exact h.cancelled
  · rw [look_eq_none_iff, look_eq_none_iff, Bool.eq_false_iff, Bool.eq_false_iff,
      Bool.eq_false_iff, Bool.eq_false_iff]
    exact fun hnone => ⟨hnone.1 ∘ h.cancelled, hnone.2 ∘ h.expired⟩

/-- A look finds the end that a wait has come to: they agree at the last whole millisecond, and
a look does not go back. -/
theorem look_of_over? {e : SettlementError} (h : w.over? c = some e) : w.look c = some e := by
  rw [over?, Context.done?_eq_check] at h
  exact Context.check_of_le (Nat.div_mul_le_self _ _) h

theorem over?_eq_look (h : w.now % Duration.nanosPerMilli = 0) (c : Context) :
    w.over? c = w.look c := by
  rw [over?, Context.done?_eq_check, Nat.div_mul_cancel (Nat.dvd_of_mod_eq_zero h), look]

theorem Agrees.look (h : w.Agrees r steps) (g : Context.Terms) :
    w.look g.context =
      if g.handle.any (fun i => .cancel i ∈ steps) then some .cancelled
      else if g.deadlines.min?.any (· ≤ w.now) then some .deadlineExceeded else none := by
  have hcancelled : w.signals.isCancelled = fun i => decide (.cancel i ∈ steps) :=
    funext h.cancelled
  rw [Caller.look, Context.check, Context.Terms.context, hcancelled]

/-- After any steps of callers a look at a context finds a cancellation if and only if the handle
of its signal has cancelled, else an expired deadline if and only if the earliest one it was given
has come, else nothing. The end of a wait is the error that a look finds at that moment, and at
whole milliseconds the two are the same; and no later steps take back a cancellation, or an
expired deadline for nothing. -/
theorem observations_agree (h : run steps = some w) (hc : w.contexts[k]? = some c) :
    (∃ g, (Record.of steps).terms[k]? = some g ∧
      w.look c = if g.handle.any (fun i => .cancel i ∈ steps) then some .cancelled
        else if g.deadlines.min?.any (· ≤ w.now) then some .deadlineExceeded else none) ∧
    (∀ e, w.over? c = some e → w.look c = some e) ∧
    (w.now % Duration.nanosPerMilli = 0 → w.over? c = w.look c) ∧
    ∀ more w', run (steps ++ more) = some w' → ∃ c', w'.contexts[k]? = some c' ∧
      (w.look c = some .cancelled → w'.look c' = some .cancelled) ∧
      (w.look c = some .deadlineExceeded → w'.look c' ≠ none) := by
  have hagrees := agrees_run h
  refine ⟨?_, fun e => look_of_over?, fun hwhole => over?_eq_look hwhole c, fun more w' h' => ?_⟩
  · rw [hagrees.contexts, List.getElem?_map] at hc
    obtain ⟨g, hg, rfl⟩ := Option.map_eq_some_iff.mp hc
    exact ⟨g, hg, hagrees.look g⟩
  · obtain ⟨c', hc', hlasts⟩ := run_lasts h h' hc
    refine ⟨c', hc', hlasts.look.1, fun hdue hnone => ?_⟩
    rw [hlasts.look.2 hnone] at hdue
    cases hdue

/-- A copy gets an earlier deadline than the context that it was made from, and then the handle
cancels both and goes. -/
def twoDeadlines : List CallerStep :=
  [.cancellable, .withDeadline 0 9000000, .clone 0, .withTimeout 1 (.ofMillis 2), .advance 2000000,
    .cancel 0, .dropHandle 0]

theorem observations_agree_twoDeadlines :
    ∃ w c, run twoDeadlines = some w ∧ w.contexts[1]? = some c ∧
      c.deadline = some 2000000 ∧ w.over? c = w.look c ∧
      ∃ g, (Record.of twoDeadlines).terms[1]? = some g ∧
        w.look c = if g.handle.any (fun i => .cancel i ∈ twoDeadlines) then some .cancelled
          else if g.deadlines.min?.any (· ≤ w.now) then some .deadlineExceeded else none := by
  have hrun : run twoDeadlines = some ⟨⟨[⟨true, true⟩]⟩, 2000000,
      [⟨some 0, some 9000000⟩, ⟨some 0, some 2000000⟩]⟩ := by decide +kernel
  have h := observations_agree (k := 1) hrun rfl
  exact ⟨_, _, hrun, rfl, rfl, h.2.2.1 (by decide), h.1⟩

end Caller

end WagerLedger

import WagerLedger.Proofs.Program.Causes
import WagerLedger.Proofs.Session.Meanwhile
import WagerLedger.Proofs.Session.Watching

/-! # Which calls of an attempt have failed

What is kept in mind of the calls of an attempt is true of its run: an error of a fault has come
from a step that tripped the fault, and a write is marked whether it was made or not. -/
namespace WagerLedger

open World

/-- A call that ends with the error of a fault has tripped it. -/
theorem World.trips_perform {w : World} {i : ClientId} {r : Request} {a : r.Answer}
    {p : FaultPoint} (ha : (w.perform i r).1 = some a)
    (hf : r.failure? a = some (Faults.error p)) :
    r.point? = some p ∧ w.store.Trips p (w.perform i r).2.store := by
  cases r
  case arrive =>
    have hvisit : (w.store.visit .begin).1 = .error (Faults.error p) :=
      (Option.some.inj ha).trans (errorOf?_eq_some hf)
    obtain ⟨heq, htrips⟩ := Store.visit_trips hvisit
    obtain rfl := Faults.error_injective heq
    exact ⟨rfl, htrips⟩
  case data d =>
    change (w.data i d).1 = some a at ha
    change _ ∧ w.store.Trips p (w.data i d).2.store
    unfold World.data at ha ⊢
    split at ha
    · cases ha
    · obtain ⟨hpoint, htrips⟩ := Store.call_trips ((Option.some.inj ha).trans (errorOf?_eq_some hf))
      exact ⟨hpoint, htrips⟩
  case commit =>
    change (w.commit i).1 = some a at ha
    change _ ∧ w.store.Trips p (w.commit i).2.store
    unfold World.commit at ha ⊢
    split at ha
    · cases ha
    · obtain ⟨heq, htrips⟩ := Store.commit_trips ((Option.some.inj ha).trans (errorOf?_eq_some hf))
      obtain rfl := Faults.error_injective heq
      exact ⟨rfl, (release_store _).symm ▸ htrips⟩
  case rollback =>
    change (w.rollback i).1 = some a at ha
    change _ ∧ w.store.Trips p (w.rollback i).2.store
    unfold World.rollback at ha ⊢
    split at ha
    · cases ha
    · obtain ⟨heq, htrips⟩ := Store.visit_trips ((Option.some.inj ha).trans (errorOf?_eq_some hf))
      obtain rfl := Faults.error_injective heq
      exact ⟨rfl, (release_store _).symm ▸ htrips⟩
  all_goals cases hf

namespace Scenario

variable {c : Scenario} {n : Nat} {v us x : List Turn} {u : Turn} {m : Marks} {r : Request}

/-- With its step after `x` the call hits the injected fault of a point. -/
structure Strikes (c : Scenario) (n : Nat) (x : List Turn) (p : FaultPoint) : Prop where
  request : ∃ r, c.request? x n = some r ∧ r.point? = some p
  trips : (c.after x).world.store.Trips p (c.after (x ++ [.step n])).world.store

/-- What the marks on the calls stand for. -/
structure Marked (c : Scenario) (n : Nat) (v us : List Turn) (m : Marks) : Prop where
  begun : v <+: us
  failures : ∀ p, Faults.error p ∈ m.failures →
    ∃ x, v <+: x ∧ x ++ [.step n] <+: us ∧ c.Strikes n x p
  wrote : ∀ x r, v <+: x → x ++ [.step n] <+: us → c.request? x n = some r → r.isWrite = true →
    m.wrote = true

theorem marked_start (c : Scenario) (n : Nat) (us : List Turn) :
    c.Marked n us us ⟨[], false⟩ := by
  refine ⟨List.prefix_rfl, nofun, fun x r hx hx' _ _ => ?_⟩
  have hlt : x.length < (x ++ [Turn.step n]).length := by simp
  exact absurd (hlt.trans_le hx'.length_le) hx.length_le.not_gt

theorem Marked.append (h : c.Marked n v us m)
    (hquiet : u = .step n → ∀ r, c.request? us n = some r → r.isWrite = true → m.wrote = true) :
    c.Marked n v (us ++ [u]) m where
  begun := h.begun.trans (List.prefix_append _ _)
  failures p hp := by
    obtain ⟨x, hx, hx', hstrikes⟩ := h.failures p hp
    exact ⟨x, hx, hx'.trans (List.prefix_append _ _), hstrikes⟩
  wrote x r hx hx' hr hwrite := by
    rcases List.prefix_concat_iff.mp hx' with heq | hx'
    · obtain ⟨rfl, hu⟩ := List.append_inj' heq rfl
      cases hu
      exact hquiet rfl r hr hwrite
    · exact h.wrote x r hx hx' hr hwrite

theorem Marked.step (h : c.Marked n v us m) (hr : c.request? us n = some r)
    {failures : List LedgerError}
    (hstrikes : ∀ p, Faults.error p ∈ failures →
      Faults.error p ∈ m.failures ∨ c.Strikes n us p) :
    c.Marked n v (us ++ [.step n]) ⟨failures, r.isWrite || m.wrote⟩ where
  begun := h.begun.trans (List.prefix_append _ _)
  failures p hp := by
    rcases hstrikes p hp with hold | hnew
    · obtain ⟨x, hx, hx', hx''⟩ := h.failures p hold
      exact ⟨x, hx, hx'.trans (List.prefix_append _ _), hx''⟩
    · exact ⟨us, h.begun, List.prefix_rfl, hnew⟩
  wrote x r' hx hx' hr' hwrite := by
    rcases List.prefix_concat_iff.mp hx' with heq | hx'
    · obtain ⟨rfl, -⟩ := List.append_inj' heq rfl
      cases hr.symm.trans hr'
      exact Bool.or_eq_true_iff.mpr (.inl hwrite)
    · exact Bool.or_eq_true_iff.mpr (.inr (h.wrote x r' hx hx' hr' hwrite))

theorem marks_follow (c : Scenario) (n : Nat) (v : List Turn) :
    marks.Follows c n (c.Marked n v) where
  other us m u hm hu _ := hm.append fun h => (hu h).elim
  idle us m hm hnone := by
    refine hm.append fun _ r hr => ?_
    rw [hnone] at hr
    cases hr
  wait us m x r hm _ hr ha _ := by
    have hsuspends := suspends_of_wait hr ha
    refine hm.append fun _ r' hr' hwrite => ?_
    cases hr.symm.trans hr'
    cases r <;> first | cases hwrite | cases hsuspends
  next us m x r a hm _ hr ha hworld := by
    refine ⟨_, rfl, hm.step hr fun p hp => ?_⟩
    rcases List.mem_append.mp hp with hnew | hold
    · obtain ⟨hpoint, htrips⟩ := World.trips_perform ha (Option.mem_toList.mp hnew)
      rw [← hworld] at htrips
      exact .inr ⟨⟨r, hr, hpoint⟩, htrips⟩
    · exact .inl hold
  ended us m x r e hm _ hr _ _ := ⟨_, trivial, hm.step hr fun _ => .inl⟩

end Scenario

end WagerLedger

import Mathlib.Data.List.Forall2
import WagerLedger.Ledger.Table

/-! # Related entry by entry

Options, lists and tables whose entries are related one by one, and what is kept of that by
looking them up and writing to them. -/
namespace WagerLedger

variable {α α' β β' κ κ' υ υ' : Type} {A : α → α' → Prop} {B : β → β' → Prop}

section Single

variable {R : α → α → Prop} {x y z : Option α}

theorem rel_refl (hR : ∀ a, R a a) (x : Option α) : Option.Rel R x x := by
  cases x with
  | none => exact .none
  | some a => exact .some (hR a)

theorem rel_symm (hR : ∀ {a b}, R a b → R b a) (h : Option.Rel R x y) : Option.Rel R y x := by
  cases h with
  | none => exact .none
  | some h => exact .some (hR h)

theorem rel_trans (hR : ∀ {a b c}, R a b → R b c → R a c) (h : Option.Rel R x y)
    (h' : Option.Rel R y z) : Option.Rel R x z := by
  cases h with
  | none => exact h'
  | some h =>
    cases h' with
    | some h' => exact .some (hR h h')

end Single

theorem rel_cases {x : Option α} {x' : Option α'} (h : Option.Rel A x x') :
    (x = none ∧ x' = none) ∨ ∃ a a', x = some a ∧ x' = some a' ∧ A a a' := by
  cases h with
  | none => exact .inl ⟨rfl, rfl⟩
  | some h => exact .inr ⟨_, _, rfl, rfl, h⟩

theorem rel_map {f : α → β} {g : α' → β'} {x : Option α} {x' : Option α'}
    (h : Option.Rel A x x') (hf : ∀ a a', A a a' → B (f a) (g a')) :
    Option.Rel B (x.map f) (x'.map g) := by
  cases h with
  | none => exact .none
  | some h => exact .some (hf _ _ h)

theorem rel_bind {f : α → Option β} {g : α' → Option β'} {x : Option α} {x' : Option α'}
    (h : Option.Rel A x x') (hf : ∀ a a', A a a' → Option.Rel B (f a) (g a')) :
    Option.Rel B (x.bind f) (x'.bind g) := by
  cases h with
  | none => exact .none
  | some h => exact hf _ _ h

theorem rel_or {x y : Option α} {x' y' : Option α'} (hx : Option.Rel A x x')
    (hy : Option.Rel A y y') : Option.Rel A (x.or y) (x'.or y') := by
  cases hx with
  | none => exact hy
  | some h => exact .some h

theorem rel_getD {x : Option α} {x' : Option α'} {a : α} {a' : α'} (hx : Option.Rel A x x')
    (ha : A a a') : A (x.getD a) (x'.getD a') := by
  cases hx with
  | none => exact ha
  | some h => exact h

theorem forall₂_find? {p : α → Bool} {q : α' → Bool} {xs : List α} {ys : List α'}
    (h : List.Forall₂ A xs ys) (hpq : ∀ a a', A a a' → p a = q a') :
    Option.Rel A (xs.find? p) (ys.find? q) := by
  induction h with
  | nil => exact .none
  | cons hab hrest ih =>
    rw [List.find?_cons, List.find?_cons, hpq _ _ hab]
    split
    · exact .some hab
    · exact ih

theorem forall₂_getElem? {xs : List α} {ys : List α'}
    (h : List.Forall₂ A xs ys) (n : Nat) : Option.Rel A xs[n]? ys[n]? := by
  induction h generalizing n with
  | nil => exact .none
  | cons ha _ ih =>
    cases n with
    | zero => exact .some ha
    | succ n => exact ih n

theorem forall₂_mapIdx {f : Nat → α → β} {g : Nat → α' → β'} {xs : List α} {ys : List α'}
    (h : List.Forall₂ A xs ys) (hf : ∀ n a a', A a a' → B (f n a) (g n a')) :
    List.Forall₂ B (xs.mapIdx f) (ys.mapIdx g) := by
  induction h generalizing f g with
  | nil => exact .nil
  | cons h _ ih =>
    rw [List.mapIdx_cons, List.mapIdx_cons]
    exact .cons (hf 0 _ _ h) (ih fun n => hf (n + 1))

theorem forall₂_set {xs : List α} {ys : List α'}
    (h : List.Forall₂ A xs ys) (n : Nat) {a : α} {b : α'} (ha : A a b) :
    List.Forall₂ A (xs.set n a) (ys.set n b) := by
  induction h generalizing n with
  | nil => exact .nil
  | cons hx hrest ih =>
    cases n with
    | zero => exact .cons ha hrest
    | succ n => exact .cons hx (ih n)

section Tables

variable [DecidableEq κ] [DecidableEq κ'] {K : κ → κ' → Prop} {V : υ → υ' → Prop}
  {es : List (κ × υ)} {es' : List (κ' × υ')} {k : κ} {k' : κ'}

theorem forall₂_lookup (h : List.Forall₂ (fun e e' => K e.1 e'.1 ∧ V e.2 e'.2) es es')
    (hk : ∀ j j', K j j' → (j = k ↔ j' = k')) :
    Option.Rel V (Table.lookup k es) (Table.lookup k' es') := by
  induction h with
  | nil => exact .none
  | cons he hrest ih =>
    simp only [Table.lookup, hk _ _ he.1]
    split
    · exact .some he.2
    · exact ih

theorem forall₂_write (h : List.Forall₂ (fun e e' => K e.1 e'.1 ∧ V e.2 e'.2) es es')
    (hkk : K k k') (hk : ∀ j j', K j j' → (j = k ↔ j' = k')) {v : υ} {v' : υ'} (hv : V v v') :
    List.Forall₂ (fun e e' => K e.1 e'.1 ∧ V e.2 e'.2) (Table.write k v es)
      (Table.write k' v' es') := by
  induction h with
  | nil => exact .cons ⟨hkk, hv⟩ .nil
  | cons he hrest ih =>
    simp only [Table.write, hk _ _ he.1]
    split
    · exact .cons ⟨hkk, hv⟩ hrest
    · exact .cons he ih

end Tables

end WagerLedger

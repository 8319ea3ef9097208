/-! # Tables

A table maps keys to values by a list of pairs. Writing a key that is there replaces its
value in place; a new key goes to the end. -/
namespace WagerLedger

structure Table (κ υ : Type) where
  entries : List (κ × υ)
deriving DecidableEq

namespace Table

variable {κ υ : Type} [DecidableEq κ]

def empty : Table κ υ := ⟨[]⟩

def keys (t : Table κ υ) : List κ := t.entries.map (·.1)

def lookup (k : κ) : List (κ × υ) → Option υ
  | [] => none
  | (j, v) :: rest => if j = k then some v else lookup k rest

def get? (t : Table κ υ) (k : κ) : Option υ := lookup k t.entries

def write (k : κ) (v : υ) : List (κ × υ) → List (κ × υ)
  | [] => [(k, v)]
  | (j, w) :: rest => if j = k then (k, v) :: rest else (j, w) :: write k v rest

def put (t : Table κ υ) (k : κ) (v : υ) : Table κ υ := ⟨write k v t.entries⟩

def remove (t : Table κ υ) (k : κ) : Table κ υ := ⟨t.entries.filter (·.1 ≠ k)⟩

/-- Changes the value of a key that is there. -/
def modify (t : Table κ υ) (k : κ) (f : υ → υ) : Table κ υ :=
  match t.get? k with
  | some v => t.put k (f v)
  | none => t

theorem lookup_write (k j : κ) (v : υ) (es : List (κ × υ)) :
    lookup j (write k v es) = if j = k then some v else lookup j es := by
  induction es with
  | nil => by_cases h : k = j <;> simp_all [write, lookup, eq_comm]
  | cons e rest ih =>
    obtain ⟨i, w⟩ := e
    by_cases hi : i = k
    · subst hi
      by_cases h : i = j <;> simp_all [write, lookup, eq_comm]
    · by_cases h : i = j
      · subst h; simp [write, lookup, hi]
      · simp [write, lookup, hi, h, ih]

@[simp] theorem get?_empty (k : κ) : (empty : Table κ υ).get? k = none := rfl

theorem get?_put (t : Table κ υ) (k j : κ) (v : υ) :
    (t.put k v).get? j = if j = k then some v else t.get? j :=
  lookup_write k j v t.entries

theorem mem_of_lookup {k : κ} {v : υ} {es : List (κ × υ)} (h : lookup k es = some v) :
    (k, v) ∈ es := by
  induction es with
  | nil => cases h
  | cons e rest ih =>
    rw [lookup] at h
    split at h
    · rename_i hk
      cases h
      rw [← hk]
      exact List.mem_cons_self
    · exact List.mem_cons_of_mem _ (ih h)

theorem mem_of_get? {t : Table κ υ} {k : κ} {v : υ} (h : t.get? k = some v) :
    (k, v) ∈ t.entries :=
  mem_of_lookup h

theorem get?_modify (t : Table κ υ) (k j : κ) (f : υ → υ) :
    (t.modify k f).get? j = if j = k then (t.get? k).map f else t.get? j := by
  unfold modify
  split <;> rename_i h
  · rw [get?_put, h]; rfl
  · split <;> rename_i hj
    · rw [hj, h]; rfl
    · rfl

end Table

end WagerLedger

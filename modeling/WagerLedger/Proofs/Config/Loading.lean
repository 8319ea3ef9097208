import Mathlib.Logic.Basic
import WagerLedger.Config.Environment

/-! # What loading a configuration comes to

A configuration is read from variables in one order and then checked in another. `Loads` says
what that comes to: the configuration that the variables give, if it passes all checks, and else
the error of the first variable that cannot be read or, if all can, of the first check that
fails. No other result is possible, so it is told exactly. -/
namespace WagerLedger

namespace Environment

variable {env : Environment} {name text : String}

def Sets (env : Environment) (name text : String) : Prop :=
  Table.get? env name = some text.toUTF8

def Unset (env : Environment) (name : String) : Prop := Table.get? env name = none

/-- A variable is set to bytes that are no text. -/
def Garbles (env : Environment) (name : String) : Prop :=
  ∃ bytes, Table.get? env name = some bytes ∧ ∀ text : String, bytes ≠ text.toUTF8

theorem fromUTF8?_eq_some {bytes : ByteArray} :
    String.fromUTF8? bytes = some text ↔ bytes = text.toUTF8 := by
  unfold String.fromUTF8?
  constructor
  · intro h
    split at h
    · cases h
      rfl
    · cases h
  · rintro rfl
    exact dif_pos text.isValidUTF8

theorem text?_eq_some : env.text? name = some text ↔ env.Sets name text := by
  unfold text? Sets
  cases Table.get? env name with
  | none => exact ⟨nofun, nofun⟩
  | some bytes =>
    rw [Option.bind_some, fromUTF8?_eq_some, Option.some.injEq]

theorem text?_eq_none : env.text? name = none ↔ env.Unset name ∨ env.Garbles name := by
  unfold text? Unset Garbles
  cases Table.get? env name with
  | none => exact ⟨fun _ => .inl rfl, fun _ => rfl⟩
  | some bytes =>
    rw [Option.bind_some, Option.eq_none_iff_forall_ne_some]
    constructor
    · intro h
      exact .inr ⟨bytes, rfl, fun text heq => h text (fromUTF8?_eq_some.mpr heq)⟩
    · rintro (h | ⟨bytes', hbytes, h⟩) text heq
      · cases h
      · cases hbytes
        exact h text (fromUTF8?_eq_some.mp heq)

end Environment

/-- A variable of a configuration: how its text is read without the blanks around it, the field
that it is for, and what that field is without it. -/
structure Variable (κ : Type) where
  name : String
  Value : Type
  read : List Char → Except String Value
  field : κ → Value
  default : Value

/-- A bound that a configuration is checked for: the variable that is blamed if it does not hold,
and for what. -/
structure Check (κ : Type) where
  name : String
  Holds : κ → Prop
  fault : κ → ConfigFault

variable {κ : Type} {env : Environment}

namespace Variable

variable {v : Variable κ} {a a' : v.Value}

/-- The value that an environment gives: what its text is read as, and the default only where it
is set to no text. -/
structure Gives (v : Variable κ) (env : Environment) (a : v.Value) : Prop where
  read : ∀ text, env.Sets v.name text → v.read (trim text.toList) = .ok a
  default : env.Unset v.name ∨ env.Garbles v.name → a = v.default

def Unreadable (v : Variable κ) (env : Environment) (text detail : String) : Prop :=
  env.Sets v.name text ∧ v.read (trim text.toList) = .error detail

def error (v : Variable κ) (text detail : String) : ConfigError :=
  .invalid v.name (.unreadable text detail)

theorem readOr_cases (v : Variable κ) (env : Environment) :
    (∃ a, env.readOr v.name v.read v.default = .ok a ∧ v.Gives env a) ∨
      ∃ text detail, env.readOr v.name v.read v.default = .error (v.error text detail) ∧
        v.Unreadable env text detail := by
  unfold Environment.readOr
  cases htext : env.text? v.name with
  | none =>
    refine .inl ⟨v.default, rfl, fun text hset => ?_, fun _ => rfl⟩
    rw [← Environment.text?_eq_some, htext] at hset
    cases hset
  | some text =>
    have hset := Environment.text?_eq_some.mp htext
    dsimp only
    cases hread : v.read (trim text.toList) with
    | error detail => exact .inr ⟨text, detail, rfl, hset, hread⟩
    | ok a =>
      refine .inl ⟨a, rfl, fun text' hset' => ?_, fun hnone => ?_⟩
      · rw [← Environment.text?_eq_some, htext] at hset'
        cases hset'
        exact hread
      · rw [← Environment.text?_eq_none, htext] at hnone
        cases hnone

theorem Gives.unique (h : v.Gives env a) (h' : v.Gives env a') : a = a' := by
  cases htext : env.text? v.name with
  | none =>
    have hnone := Environment.text?_eq_none.mp htext
    exact (h.default hnone).trans (h'.default hnone).symm
  | some text =>
    have hset := Environment.text?_eq_some.mp htext
    exact Except.ok.inj ((h.read text hset).symm.trans (h'.read text hset))

theorem Unreadable.not_gives {text detail : String} (h : v.Unreadable env text detail) :
    ¬∃ a, v.Gives env a := by
  rintro ⟨a, ha⟩
  have hread := ha.read text h.1
  rw [h.2] at hread
  cases hread

end Variable

/-- The error of the first variable that cannot be read. -/
def FirstUnreadable (vs : List (Variable κ)) (env : Environment) (e : ConfigError) : Prop :=
  ∃ before v after text detail, vs = before ++ v :: after ∧
    (∀ u ∈ before, ∃ a, u.Gives env a) ∧ v.Unreadable env text detail ∧ e = v.error text detail

/-- The error of the first check that fails. -/
def FirstFailing (ks : List (Check κ)) (c : κ) (e : ConfigError) : Prop :=
  ∃ before k after, ks = before ++ k :: after ∧ (∀ j ∈ before, j.Holds c) ∧ ¬k.Holds c ∧
    e = .invalid k.name (k.fault c)

/-- All fields are given by the environment. -/
def Given (vs : List (Variable κ)) (env : Environment) (c : κ) : Prop :=
  ∀ v ∈ vs, v.Gives env (v.field c)

/-- The result of reading the variables into a configuration of which more is known. -/
def Reads (vs : List (Variable κ)) (env : Environment) (P : κ → Prop) :
    Except ConfigError κ → Prop
  | .ok c => P c ∧ Given vs env c
  | .error e => FirstUnreadable vs env e

theorem reads_nil {P : κ → Prop} {c : κ} (h : P c) : Reads [] env P (.ok c) :=
  ⟨h, fun _ hv => (nomatch hv)⟩

/-- One more variable is read, and its value goes into its field. -/
theorem reads_cons {v : Variable κ} {vs : List (Variable κ)} {P : κ → Prop}
    {f : v.Value → Except ConfigError κ}
    (h : ∀ a, Reads vs env (fun c => v.field c = a ∧ P c) (f a)) :
    Reads (v :: vs) env P (env.readOr v.name v.read v.default >>= f) := by
  rcases v.readOr_cases env with ⟨a, hread, hgives⟩ | ⟨text, detail, hread, hunreadable⟩
  · have hrest := h a
    rw [hread]
    change Reads (v :: vs) env P (f a)
    cases hf : f a with
    | ok c =>
      rw [hf] at hrest
      obtain ⟨⟨hfield, hP⟩, hgiven⟩ := hrest
      refine ⟨hP, fun u hu => ?_⟩
      rcases List.mem_cons.mp hu with rfl | hu
      · rw [hfield]
        exact hgives
      · exact hgiven u hu
    | error e =>
      rw [hf] at hrest
      obtain ⟨before, u, after, text, detail, rfl, hbefore, hu⟩ := hrest
      refine ⟨v :: before, u, after, text, detail, rfl, fun w hw => ?_, hu⟩
      rcases List.mem_cons.mp hw with rfl | hw
      · exact ⟨a, hgives⟩
      · exact hbefore w hw
  · rw [hread]
    exact ⟨[], v, vs, text, detail, rfl, nofun, hunreadable, rfl⟩

def Checked (ks : List (Check κ)) (c : κ) : Except ConfigError Unit → Prop
  | .ok () => ∀ k ∈ ks, k.Holds c
  | .error e => FirstFailing ks c e

theorem checked_nil (c : κ) : Checked [] c (.ok ()) := nofun

theorem checked_cons {k : Check κ} {ks : List (Check κ)} {c : κ} {p : Prop} [Decidable p]
    {x : Except ConfigError Unit} (hk : p ↔ ¬k.Holds c) (h : Checked ks c x) :
    Checked (k :: ks) c (if p then .error (.invalid k.name (k.fault c)) else x) := by
  by_cases hp : p
  · rw [if_pos hp]
    exact ⟨[], k, ks, rfl, nofun, hk.mp hp, rfl⟩
  · rw [if_neg hp]
    have hholds : k.Holds c := not_not.mp fun hn => hp (hk.mpr hn)
    cases x with
    | ok =>
      intro j hj
      rcases List.mem_cons.mp hj with rfl | hj
      · exact hholds
      · exact h j hj
    | error e =>
      obtain ⟨before, j, after, rfl, hbefore, hj⟩ := h
      refine ⟨k :: before, j, after, rfl, fun i hi => ?_, hj⟩
      rcases List.mem_cons.mp hi with rfl | hi
      · exact hholds
      · exact hbefore i hi

/-- The result of reading and checking, for a configuration of which more is known. -/
def Loads (P : κ → Prop) (vs : List (Variable κ)) (ks : List (Check κ)) (env : Environment) :
    Except ConfigError κ → Prop
  | .ok c => P c ∧ Given vs env c ∧ ∀ k ∈ ks, k.Holds c
  | .error e => FirstUnreadable vs env e ∨ ∃ c, P c ∧ Given vs env c ∧ FirstFailing ks c e

section Loading

variable {P : κ → Prop} {vs : List (Variable κ)} {ks : List (Check κ)}

theorem loads_of_reads {x : Except ConfigError κ} {check : κ → Except ConfigError Unit}
    (hx : Reads vs env P x) (hcheck : ∀ c, Checked ks c (check c)) :
    Loads P vs ks env (do let c ← x; check c; return c) := by
  cases x with
  | error e => exact .inl hx
  | ok c =>
    have hchecked := hcheck c
    change Loads P vs ks env (check c >>= fun _ => .ok c)
    cases hc : check c with
    | ok =>
      rw [hc] at hchecked
      exact ⟨hx.1, hx.2, hchecked⟩
    | error e =>
      rw [hc] at hchecked
      exact .inr ⟨c, hx.1, hx.2, hchecked⟩

theorem FirstUnreadable.not_given {e : ConfigError} (h : FirstUnreadable vs env e) {c : κ} :
    ¬Given vs env c := by
  obtain ⟨before, v, after, text, detail, rfl, -, hv, -⟩ := h
  exact fun hgiven => hv.not_gives ⟨_, hgiven v (by simp)⟩

theorem FirstFailing.not_holds {c : κ} {e : ConfigError} (h : FirstFailing ks c e) :
    ¬∀ k ∈ ks, k.Holds c := by
  obtain ⟨before, k, after, rfl, -, hk, -⟩ := h
  exact fun hholds => hk (hholds k (by simp))

theorem first_mem {α : Type*} {p : α → Prop} {before before' after after' : List α} {a a' : α}
    (h : before ++ a :: after = before' ++ a' :: after') (ha : p a)
    (hbefore' : ∀ b ∈ before', ¬p b) : a' ∈ before ++ [a] := by
  induction before generalizing before' with
  | nil =>
    cases before' with
    | nil => exact List.mem_singleton.mpr (List.cons.inj h).1.symm
    | cons b before' =>
      obtain ⟨rfl, -⟩ := List.cons.inj h
      exact (hbefore' a List.mem_cons_self ha).elim
  | cons b before ih =>
    cases before' with
    | nil =>
      obtain ⟨rfl, -⟩ := List.cons.inj h
      exact List.mem_cons_self
    | cons b' before' =>
      refine List.mem_cons_of_mem b (ih (List.cons.inj h).2 fun c hc => ?_)
      exact hbefore' c (List.mem_cons_of_mem b' hc)

theorem first_unique {α : Type*} {p : α → Prop} {before before' after after' : List α} {a a' : α}
    (h : before ++ a :: after = before' ++ a' :: after') (ha : p a) (ha' : p a')
    (hbefore : ∀ b ∈ before, ¬p b) (hbefore' : ∀ b ∈ before', ¬p b) : a = a' := by
  rcases List.mem_append.mp (first_mem h ha hbefore') with hmem | hmem
  · exact (hbefore a' hmem ha').elim
  · exact (List.mem_singleton.mp hmem).symm

theorem FirstUnreadable.unique {e e' : ConfigError} (h : FirstUnreadable vs env e)
    (h' : FirstUnreadable vs env e') : e = e' := by
  obtain ⟨before, v, after, text, detail, rfl, hbefore, hv, rfl⟩ := h
  obtain ⟨before', v', after', text', detail', heq, hbefore', hv', rfl⟩ := h'
  obtain rfl : v = v' := first_unique (p := fun u => ¬∃ a, u.Gives env a) heq
    hv.not_gives hv'.not_gives (fun u hu hn => hn (hbefore u hu))
    fun u hu hn => hn (hbefore' u hu)
  have htext : some text = some text' :=
    (Environment.text?_eq_some.mpr hv.1).symm.trans (Environment.text?_eq_some.mpr hv'.1)
  cases htext
  obtain rfl : detail = detail' := Except.error.inj (hv.2.symm.trans hv'.2)
  rfl

theorem FirstFailing.unique {c : κ} {e e' : ConfigError} (h : FirstFailing ks c e)
    (h' : FirstFailing ks c e') : e = e' := by
  obtain ⟨before, k, after, rfl, hbefore, hk, rfl⟩ := h
  obtain ⟨before', k', after', heq, hbefore', hk', rfl⟩ := h'
  obtain rfl : k = k' := first_unique (p := fun j => ¬j.Holds c) heq hk hk'
    (fun j hj hn => hn (hbefore j hj)) fun j hj hn => hn (hbefore' j hj)
  rfl

/-- There is one result only, where what is known and the fields make the configuration. -/
theorem Loads.unique (hP : ∀ c c', P c → P c' → (∀ v ∈ vs, v.field c = v.field c') → c = c')
    {r r' : Except ConfigError κ} (h : Loads P vs ks env r) (h' : Loads P vs ks env r') :
    r = r' := by
  have hone : ∀ {c c'}, P c → P c' → Given vs env c → Given vs env c' → c = c' :=
    fun hc hc' hgiven hgiven' => hP _ _ hc hc' fun v hv => (hgiven v hv).unique (hgiven' v hv)
  cases r with
  | ok c =>
    obtain ⟨hc, hgiven, hholds⟩ := h
    cases r' with
    | ok c' =>
      obtain ⟨hc', hgiven', -⟩ := h'
      rw [hone hc hc' hgiven hgiven']
    | error e' =>
      rcases h' with hread | ⟨c', hc', hgiven', hfailing⟩
      · exact (hread.not_given hgiven).elim
      · obtain rfl := hone hc hc' hgiven hgiven'
        exact (hfailing.not_holds hholds).elim
  | error e =>
    rcases h with hread | ⟨c, hc, hgiven, hfailing⟩
    · cases r' with
      | ok c' => exact (hread.not_given h'.2.1).elim
      | error e' =>
        rcases h' with hread' | ⟨c', -, hgiven', -⟩
        · rw [hread.unique hread']
        · exact (hread.not_given hgiven').elim
    · cases r' with
      | ok c' =>
        obtain rfl := hone hc h'.1 hgiven h'.2.1
        exact (hfailing.not_holds h'.2.2).elim
      | error e' =>
        rcases h' with hread' | ⟨c', hc', hgiven', hfailing'⟩
        · exact (hread'.not_given hgiven).elim
        · obtain rfl := hone hc hc' hgiven hgiven'
          rw [hfailing.unique hfailing']

theorem Loads.blames {r : Except ConfigError κ} {before after : List (Variable κ)}
    {v : Variable κ} {text detail : String} (h : Loads P vs ks env r)
    (hvs : vs = before ++ v :: after) (hv : v.Unreadable env text detail) :
    ∃ w ∈ before ++ [v], ∃ fault, r = .error (.invalid w.name fault) := by
  have hgiven : ∀ c, ¬Given vs env c := fun c hc =>
    hv.not_gives ⟨_, hc v (by rw [hvs]; simp)⟩
  cases r with
  | ok c => exact (hgiven c h.2.1).elim
  | error e =>
    rcases h with ⟨before', w, after', text', detail', hvs', hbefore', -, rfl⟩ | ⟨c, -, hc, -⟩
    · refine ⟨w, first_mem (p := fun u => ¬∃ a, u.Gives env a) (hvs.symm.trans hvs') hv.not_gives
        fun u hu hn => hn (hbefore' u hu), _, rfl⟩
    · exact (hgiven c hc).elim

theorem Loads.congr {env' : Environment} {r : Except ConfigError κ}
    (henv : ∀ v ∈ vs, Table.get? env v.name = Table.get? env' v.name)
    (h : Loads P vs ks env r) : Loads P vs ks env' r := by
  have hgives : ∀ v ∈ vs, ∀ a, v.Gives env a → v.Gives env' a := by
    intro v hv a ha
    refine ⟨fun text hset => ha.read text ((henv v hv).trans hset), fun hnone => ha.default ?_⟩
    rw [Environment.Unset, Environment.Garbles, henv v hv]
    exact hnone
  have hunreadable : ∀ e, FirstUnreadable vs env e → FirstUnreadable vs env' e := by
    rintro e ⟨before, v, after, text, detail, rfl, hbefore, ⟨hset, hread⟩, he⟩
    refine ⟨before, v, after, text, detail, rfl, fun u hu => ?_, ⟨?_, hread⟩, he⟩
    · obtain ⟨a, ha⟩ := hbefore u hu
      exact ⟨a, hgives u (List.mem_append_left _ hu) a ha⟩
    · exact (henv v (by simp)).symm.trans hset
  have hgiven : ∀ c, Given vs env c → Given vs env' c := fun c hc v hv => hgives v hv _ (hc v hv)
  cases r with
  | ok c => exact ⟨h.1, hgiven c h.2.1, h.2.2⟩
  | error e =>
    rcases h with hread | ⟨c, hc, hcgiven, hfailing⟩
    · exact .inl (hunreadable e hread)
    · exact .inr ⟨c, hc, hgiven c hcgiven, hfailing⟩

end Loading

end WagerLedger

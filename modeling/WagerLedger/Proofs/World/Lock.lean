import WagerLedger.Proofs.Program.Ensures
import WagerLedger.World
import Mathlib.Logic.Function.Basic

/-! # The lock and those who wait for it

A client inside a transaction holds the lock and sees the ledger as it was when the lock came
to it. One that waits in the queue may be handed the lock before it asks again; until then it
is outside, with an empty transaction. `Agrees` says this of all clients at once, and a request
of one client keeps it, together with what the other clients rely on. -/
namespace WagerLedger

def Phase.Goes (φ ψ : Phase) (l l' : Ledger) : Prop :=
  (l' = l ∧ ψ.change? = φ.change?) ∨ (φ.change? = none ∧ ψ.change? = some (l, l'))

theorem Phase.Goes.trans {φ ψ χ : Phase} {l l' l'' : Ledger} (h : φ.Goes ψ l l')
    (h' : ψ.Goes χ l' l'') : φ.Goes χ l l'' := by
  rcases h with ⟨rfl, h⟩ | ⟨hφ, h⟩
  · rcases h' with ⟨rfl, h'⟩ | ⟨hψ, h'⟩
    · exact .inl ⟨rfl, h'.trans h⟩
    · exact .inr ⟨h.symm.trans hψ, h'⟩
  · rcases h' with ⟨rfl, h'⟩ | ⟨hψ, -⟩
    · exact .inr ⟨hφ, h'.trans h⟩
    · cases h.symm.trans hψ

/-- A client that has let go of the lock. -/
def Phase.Away : Phase → Prop
  | .outside | .past .. => True
  | _ => False

theorem Phase.away_released (φ : Phase) : φ.released.Away := by cases φ <;> trivial

theorem Phase.released_of_away {φ : Phase} (h : φ.Away) : φ.released = φ := by
  cases φ with
  | outside => rfl
  | past => rfl
  | inside => exact h.elim
  | seeded => exact h.elim

namespace World

/-- The ledger, the lock and its queue are as they were. -/
structure Like (w w' : World) : Prop where
  ledger : w'.store.ledger = w.store.ledger
  holder : w'.holder = w.holder
  queue : w'.queue = w.queue

/-- The holder of the lock does not wait for it, and nobody waits for a free lock. -/
structure Sound (w : World) : Prop where
  nodup : w.queue.Nodup
  clients : 0 ∉ w.queue
  apart : ∀ i t, w.holder = some (i, t) → i ∉ w.queue
  free : w.holder = none → w.queue = []

/-- How a client in some phase finds the world; `waiting` is whether it asks for the lock. -/
def Finds (w : World) (i : ClientId) (waiting : Prop) : Phase → Prop
  | .inside l t => w.holder = some (i, t) ∧ w.store.ledger = l
  | .seeded _ l' => (∃ t, w.holder = some (i, t)) ∧ w.store.ledger = l'
  | .outside => (∀ t, w.holder = some (i, t) → waiting ∧ t = .empty) ∧ (i ∈ w.queue → waiting)
  | .past .. => (∀ t, w.holder ≠ some (i, t)) ∧ i ∉ w.queue

/-- All calls find the world as their phases say; call `n` is made by client `n + 1`. -/
structure Agrees (w : World) (φ : Nat → Phase) (waits : Nat → Prop) : Prop where
  sound : w.Sound
  finds : ∀ n, w.Finds (n + 1) (waits n) (φ n)

/-- Call `n` has gone on to the phase `ψ`, and the other calls are not troubled by it. -/
structure Advances (w w' : World) (φ : Nat → Phase) (waits : Nat → Prop) (n : Nat) (ψ : Phase) :
    Prop where
  goes : (φ n).Goes ψ w.store.ledger w'.store.ledger
  sound : w'.Sound
  self : ∀ waiting, w'.Finds (n + 1) waiting ψ
  others : ∀ m, m ≠ n → w'.Finds (m + 1) (waits m) (φ m)

variable {w w' : World} {i : ClientId} {p q : Prop} {ψ : Phase}

theorem Sound.like (h : w.Sound) (hw : w.Like w') : w'.Sound where
  nodup := by rw [hw.queue]; exact h.nodup
  clients := by rw [hw.queue]; exact h.clients
  apart := by rw [hw.queue, hw.holder]; exact h.apart
  free := by rw [hw.queue, hw.holder]; exact h.free

theorem Sound.withStore (h : w.Sound) (s : Store) : Sound { w with store := s } :=
  ⟨h.nodup, h.clients, h.apart, h.free⟩

theorem Finds.requeue (h : w.Finds i p ψ) (hl : w'.store.ledger = w.store.ledger)
    (hh : w'.holder = w.holder) (hq : i ∈ w'.queue → i ∈ w.queue) : w'.Finds i p ψ := by
  cases ψ with
  | inside => exact ⟨hh.trans h.1, hl.trans h.2⟩
  | seeded =>
    obtain ⟨⟨t, ht⟩, hs⟩ := h
    exact ⟨⟨t, hh.trans ht⟩, hl.trans hs⟩
  | outside => exact ⟨fun t ht => h.1 t (hh.symm.trans ht), fun hi => h.2 (hq hi)⟩
  | past => exact ⟨fun t ht => h.1 t (hh.symm.trans ht), fun hi => h.2 (hq hi)⟩

theorem Finds.like (h : w.Finds i p ψ) (hw : w.Like w') : w'.Finds i p ψ :=
  h.requeue hw.ledger hw.holder fun hi => hw.queue ▸ hi

theorem Finds.mono (h : w.Finds i p ψ) (hpq : p → q) : w.Finds i q ψ := by
  cases ψ with
  | outside => exact ⟨fun t ht => ⟨hpq (h.1 t ht).1, (h.1 t ht).2⟩, fun hi => hpq (h.2 hi)⟩
  | inside => exact h
  | seeded => exact h
  | past => exact h

theorem Finds.away_of_free (h : w.Finds i p ψ) (hi : ∀ t, w.holder ≠ some (i, t)) : ψ.Away := by
  cases ψ with
  | outside => trivial
  | past => trivial
  | inside => exact (hi _ h.1).elim
  | seeded =>
    obtain ⟨⟨t, ht⟩, -⟩ := h
    exact (hi t ht).elim

theorem Finds.free (h : w.Finds i p ψ) (hψ : ψ.Away) (hp : ¬p) :
    (∀ t, w.holder ≠ some (i, t)) ∧ i ∉ w.queue := by
  cases ψ with
  | outside => exact ⟨fun t ht => hp (h.1 t ht).1, fun hi => hp (h.2 hi)⟩
  | past => exact h
  | inside => exact hψ.elim
  | seeded => exact hψ.elim

theorem finds_away (hψ : ψ.Away) (hh : ∀ t, w.holder ≠ some (i, t)) (hq : i ∉ w.queue) :
    w.Finds i p ψ := by
  cases ψ with
  | outside => exact ⟨fun t ht => (hh t ht).elim, fun hi => (hq hi).elim⟩
  | past => exact ⟨hh, hq⟩
  | inside => exact hψ.elim
  | seeded => exact hψ.elim

theorem Finds.frame (h : w.Finds i p ψ) (hi : ∀ t, w.holder ≠ some (i, t))
    (hh : ∀ t, w'.holder = some (i, t) → i ∈ w.queue ∧ t = .empty)
    (hq : i ∈ w'.queue → i ∈ w.queue) : w'.Finds i p ψ := by
  cases ψ with
  | inside => exact (hi _ h.1).elim
  | seeded =>
    obtain ⟨⟨t, ht⟩, -⟩ := h
    exact (hi t ht).elim
  | outside => exact ⟨fun t ht => ⟨h.2 (hh t ht).1, (hh t ht).2⟩, fun hi' => h.2 (hq hi')⟩
  | past => exact ⟨fun t ht => h.2 (hh t ht).1, fun hi' => h.2 (hq hi')⟩

theorem release_store (w : World) : w.release.store = w.store := by
  unfold release
  split <;> rfl

theorem Sound.release (h : w.Sound) : w.release.Sound := by
  have hnd := h.nodup
  have hcl := h.clients
  unfold World.release
  split
  · rename_i hq
    exact ⟨h.nodup, h.clients, fun _ _ ht => (nomatch ht), fun _ => hq⟩
  · rename_i j rest hq
    rw [hq, List.nodup_cons] at hnd
    rw [hq] at hcl
    refine ⟨hnd.2, List.not_mem_of_not_mem_cons hcl, fun i t ht => ?_, fun hn => (nomatch hn)⟩
    cases ht
    exact hnd.1

theorem release_frame (w : World) (i : ClientId) :
    (∀ t, w.release.holder = some (i, t) → i ∈ w.queue ∧ t = .empty) ∧
      (i ∈ w.release.queue → i ∈ w.queue) := by
  unfold release
  split
  · rename_i hq
    exact ⟨fun _ ht => (nomatch ht), id⟩
  · rename_i j rest hq
    rw [hq]
    refine ⟨fun t ht => ?_, fun hi => List.mem_cons_of_mem _ hi⟩
    cases ht
    exact ⟨List.mem_cons_self, rfl⟩

theorem Finds.release (h : w.Finds i p ψ) (hi : ∀ t, w.holder ≠ some (i, t)) :
    w.release.Finds i p ψ :=
  h.frame hi (release_frame w i).1 (release_frame w i).2

theorem finds_released (h : w.Sound) {t : Transaction} (ht : w.holder = some (i, t))
    (hψ : ψ.Away) : w.release.Finds i p ψ := by
  have hi := h.apart i t ht
  exact finds_away hψ (fun t' ht' => hi ((release_frame w i).1 t' ht').1)
    fun hq => hi ((release_frame w i).2 hq)

variable {φ : Nat → Phase} {waits : Nat → Prop} {n : Nat}

theorem holder_ne {t : Transaction} (ht : w.holder = some (n + 1, t)) {m : Nat} (hm : m ≠ n)
    (t' : Transaction) : w.holder ≠ some (m + 1, t') := by
  rw [ht]
  intro h
  cases h
  exact hm rfl

theorem advances_release (h : w.Agrees φ waits) {t : Transaction}
    (ht : w.holder = some (n + 1, t)) {s : Store} (hψ : ψ.Away)
    (hg : (φ n).Goes ψ w.store.ledger s.ledger) :
    Advances w { w with store := s }.release φ waits n ψ where
  goes := by rw [release_store]; exact hg
  sound := Sound.release (h.sound.withStore s)
  self _ := finds_released (h.sound.withStore s) ht hψ
  others m hm := by
    have hh := holder_ne ht hm
    refine Finds.release ?_ hh
    exact (h.finds m).frame hh (fun t' ht' => (hh t' ht').elim) id

theorem advances_hold (h : w.Agrees φ waits) {t : Transaction}
    (ht : w.holder = some (n + 1, t)) {s : Store} {t' : Transaction}
    (hψ : ∀ p, World.Finds { w with store := s, holder := some (n + 1, t') } (n + 1) p ψ)
    (hg : (φ n).Goes ψ w.store.ledger s.ledger) :
    Advances w { w with store := s, holder := some (n + 1, t') } φ waits n ψ where
  goes := hg
  sound := by
    refine ⟨h.sound.nodup, h.sound.clients, fun i t'' hi => ?_, fun hn => (nomatch hn)⟩
    cases hi
    exact h.sound.apart _ t ht
  self := hψ
  others m hm := by
    refine (h.finds m).frame (holder_ne ht hm) (fun t'' ht'' => ?_) id
    cases ht''
    exact (hm rfl).elim

theorem advances_like (h : w.Agrees φ waits) (hw : w.Like w') (hn : ¬waits n) :
    Advances w w' φ waits n (φ n) where
  goes := .inl ⟨hw.ledger, rfl⟩
  sound := h.sound.like hw
  self _ := ((h.finds n).like hw).mono fun hp => (hn hp).elim
  others m _ := (h.finds m).like hw

theorem transaction?_of_holder {t : Transaction} (h : w.holder = some (i, t)) :
    w.transaction? i = some t := by
  simp [transaction?, h]

theorem transaction?_eq_some {t : Transaction} (h : w.transaction? i = some t) :
    w.holder = some (i, t) := by
  unfold transaction? at h
  split at h
  · rename_i j t' hh
    split at h
    · rename_i hj
      cases h
      rw [hh, hj]
    · cases h
  · cases h

theorem Agrees.mono (h : w.Agrees φ waits) {waits' : Nat → Prop}
    (hw : ∀ m, waits m → waits' m) : w.Agrees φ waits' :=
  ⟨h.sound, fun m => (h.finds m).mono (hw m)⟩

theorem Advances.agrees (h : Advances w w' φ waits n ψ) {waits' : Nat → Prop}
    (hw : ∀ m, m ≠ n → waits m → waits' m) : w'.Agrees (Function.update φ n ψ) waits' where
  sound := h.sound
  finds m := by
    by_cases hm : m = n
    · rw [hm, Function.update_self]
      exact h.self _
    · rw [Function.update_of_ne hm]
      exact (h.others m hm).mono (hw m hm)

theorem Advances.trans (h : Advances w w' φ waits n ψ) {w'' : World} {χ : Phase}
    (h' : Advances w' w'' (Function.update φ n ψ) waits n χ) : Advances w w'' φ waits n χ where
  goes := by
    have hg := h'.goes
    rw [Function.update_self] at hg
    exact h.goes.trans hg
  sound := h'.sound
  self := h'.self
  others m hm := by
    have hf := h'.others m hm
    rwa [Function.update_of_ne hm] at hf

theorem Agrees.reset (h : w.Agrees φ waits) (hφ : (φ n).Away) (hn : ¬waits n) :
    w.Agrees (Function.update φ n .outside) waits where
  sound := h.sound
  finds m := by
    by_cases hm : m = n
    · rw [hm, Function.update_self]
      have hf := (h.finds n).free hφ hn
      exact finds_away trivial hf.1 hf.2
    · rw [Function.update_of_ne hm]
      exact h.finds m

theorem discard_cases (w : World) (i : ClientId) :
    (∃ t, w.holder = some (i, t) ∧ w.discard i = w.release) ∨
      ((∀ t, w.holder ≠ some (i, t)) ∧ w.discard i = w) := by
  unfold discard
  cases ht : w.transaction? i with
  | some t => exact .inl ⟨t, transaction?_eq_some ht, rfl⟩
  | none =>
    refine .inr ⟨fun t hi => ?_, rfl⟩
    rw [transaction?_of_holder hi] at ht
    cases ht

theorem advances_discard (h : w.Agrees φ waits) (hn : (φ n).Away → ¬waits n) :
    Advances w (w.discard (n + 1)) φ waits n (φ n).released := by
  rcases discard_cases w (n + 1) with ⟨t, ht, hd⟩ | ⟨hi, hd⟩
  · rw [hd]
    exact advances_release h ht (Phase.away_released _) (.inl ⟨rfl, Phase.change?_released _⟩)
  · have ha := (h.finds n).away_of_free hi
    rw [hd, Phase.released_of_away ha]
    exact advances_like h ⟨rfl, rfl, rfl⟩ (hn ha)

theorem Advances.discard (h : Advances w w' φ waits n ψ) (hψ : ¬ψ.Away) :
    Advances w (w'.discard (n + 1)) φ waits n ψ.released := by
  have hd := advances_discard (n := n) (h.agrees fun _ _ => id)
    (by rw [Function.update_self]; exact fun ha => (hψ ha).elim)
  rw [Function.update_self] at hd
  exact h.trans hd

theorem Agrees.erase (h : w.Agrees φ waits) (timers : Table ClientId Nat) :
    Agrees { w with queue := w.queue.erase i, timers := timers } φ waits where
  sound := by
    refine ⟨h.sound.nodup.erase i, fun hq => ?_, fun j t hj hq => ?_, fun hn => ?_⟩
    · exact h.sound.clients (List.mem_of_mem_erase hq)
    · exact h.sound.apart j t hj (List.mem_of_mem_erase hq)
    · rw [show w.queue = [] from h.sound.free hn]
      rfl
  finds m := (h.finds m).requeue rfl rfl List.mem_of_mem_erase

theorem advances_leave (h : w.Agrees φ waits) (timers : Table ClientId Nat) :
    Advances w (World.discard { w with queue := w.queue.erase (n + 1), timers := timers } (n + 1))
      φ waits n (φ n).released := by
  have he := h.erase (i := n + 1) timers
  rcases discard_cases { w with queue := w.queue.erase (n + 1), timers := timers } (n + 1) with
    ⟨t, ht, hd⟩ | ⟨hi, hd⟩
  · obtain ⟨hg, hs, hself, hothers⟩ :=
      advances_release he ht (Phase.away_released _) (.inl ⟨rfl, Phase.change?_released _⟩)
    rw [hd]
    exact ⟨hg, hs, hself, hothers⟩
  · have ha := (h.finds n).away_of_free hi
    rw [hd, Phase.released_of_away ha]
    exact ⟨.inl ⟨rfl, rfl⟩, he.sound, fun _ => finds_away ha hi h.sound.nodup.not_mem_erase,
      fun m _ => he.finds m⟩

end World

end WagerLedger

import WagerLedger.Proofs.Ledger.Store
import WagerLedger.Proofs.World.Lock

/-! # What one request does to the world

Whatever the world answers to a request that a program may make in its phase, the phase after
it goes with the world after it, and no other client is troubled. -/
namespace WagerLedger

def Request.isQuiet : Request → Bool
  | .acquire | .data _ | .commit | .rollback | .discard | .leave | .takeUp | .seed .. => false
  | _ => true

def Request.suspends : Request → Bool
  | .acquire | .sleep _ | .never => true
  | _ => false

theorem Phase.Allows.quiet {φ : Phase} {r : Request} {P : r.Answer → Phase → Prop}
    (h : φ.Allows r P) (hr : r.isQuiet = true) (a : r.Answer) : P a φ := by
  cases r
  case arrive =>
    obtain ⟨rfl, ha⟩ := h
    exact ha a
  case emit => exact h
  case clock => exact h a
  case acquire => cases hr
  case data => cases hr
  case commit => cases hr
  case rollback => cases hr
  case discard => cases hr
  case leave => cases hr
  case takeUp => cases hr
  case seed => cases hr
  all_goals exact h.2 a

namespace World

variable {w w' : World} {i : ClientId}

theorem like_sleep (w : World) (i : ClientId) (d : Duration) : w.Like (w.sleep i d).2 := by
  unfold sleep
  dsimp only
  split <;> exact ⟨rfl, rfl, rfl⟩

theorem like_perform {r : Request} (hr : r.isQuiet = true) : w.Like (w.perform i r).2 := by
  cases r
  case sleep d => exact like_sleep w i d
  case acquire => cases hr
  case data => cases hr
  case commit => cases hr
  case rollback => cases hr
  case discard => cases hr
  case leave => cases hr
  case takeUp => cases hr
  case seed => cases hr
  all_goals exact ⟨rfl, rfl, rfl⟩

theorem giveUp_like {r : Request} (hr : r ≠ .acquire) : w.Like (w.giveUp i r) := by
  cases r
  case acquire => exact (hr rfl).elim
  all_goals exact ⟨rfl, rfl, rfl⟩

variable {φ : Nat → Phase} {waits : Nat → Prop} {n : Nat}

theorem Agrees.like (h : w.Agrees φ waits) (hw : w.Like w') : w'.Agrees φ waits :=
  ⟨h.sound.like hw, fun m => (h.finds m).like hw⟩

theorem Agrees.holder_of_inside (h : w.Agrees φ waits) {l : Ledger} {t : Transaction}
    (hφ : φ n = .inside l t) : w.holder = some (n + 1, t) ∧ w.store.ledger = l := by
  have hf := h.finds n
  rw [hφ] at hf
  exact hf

/-- A client that asks for a lock held by another one goes to the end of the queue. -/
theorem Agrees.enqueue (h : w.Agrees φ waits) (hφ : φ n = .outside) (hn : waits n)
    (hf : ∀ t, w.holder = some (n + 1, t) → waits n ∧ t = .empty) {t : Transaction}
    (hi : w.holder = some (i, t)) (hne : i ≠ n + 1) (hq : n + 1 ∉ w.queue) :
    Agrees { w with queue := w.queue ++ [n + 1] } φ waits where
  sound := by
    refine ⟨?_, fun hin => ?_, fun k t' hk hin => ?_, fun hfree => ?_⟩
    · rw [List.nodup_append]
      refine ⟨h.sound.nodup, List.pairwise_singleton _ _, fun a ha b hb hab => ?_⟩
      rw [List.mem_singleton.mp hb] at hab
      exact hq (hab ▸ ha)
    · rcases List.mem_append.mp hin with hin | hin
      · exact h.sound.clients hin
      · exact absurd (List.mem_singleton.mp hin) (Nat.succ_ne_zero n).symm
    · rcases List.mem_append.mp hin with hin | hin
      · exact h.sound.apart k t' hk hin
      · rw [List.mem_singleton.mp hin] at hk
        have hk' : some (i, t) = some (n + 1, t') := hi.symm.trans hk
        cases hk'
        exact hne rfl
    · have hfree' : some (i, t) = none := hi.symm.trans hfree
      cases hfree'
  finds m := by
    by_cases hm : m = n
    · rw [hm, hφ]
      exact ⟨hf, fun _ => hn⟩
    · refine (h.finds m).requeue rfl rfl fun hin => ?_
      rcases List.mem_append.mp hin with hin | hin
      · exact hin
      · exact absurd (Nat.succ.inj (List.mem_singleton.mp hin)) hm

/-- The lock comes to a client outside, or the client waits for it in the queue. -/
theorem acquire_spec (h : w.Agrees φ waits) (hφ : φ n = .outside) (hn : waits n) :
    ((w.acquire (n + 1)).1 = some () ∧ Advances w (w.acquire (n + 1)).2 φ waits n
        (.inside w.store.ledger .empty)) ∨
      ((w.acquire (n + 1)).1 = none ∧ (w.acquire (n + 1)).2.store = w.store ∧
        (w.acquire (n + 1)).2.Agrees φ waits) := by
  have hf := h.finds n
  rw [hφ] at hf
  have hg : (φ n).Goes (.inside w.store.ledger .empty) w.store.ledger w.store.ledger :=
    .inl ⟨rfl, by rw [hφ]; rfl⟩
  unfold acquire
  split
  · rename_i hfree
    have hq := h.sound.free hfree
    have hnone : ∀ m t, w.holder ≠ some (m, t) := fun m t ht => by rw [hfree] at ht; cases ht
    refine .inl ⟨rfl, hg, ⟨h.sound.nodup, h.sound.clients, fun _ _ _ => ?_,
      fun hn => (nomatch hn)⟩, fun _ => ⟨rfl, rfl⟩, fun m hm => ?_⟩
    · rw [show World.queue _ = [] from hq]
      exact List.not_mem_nil
    · refine (h.finds m).frame (hnone _) (fun t ht => ?_) id
      cases ht
      exact (hm rfl).elim
  · rename_i j t hj
    split
    · rename_i hi
      rw [hi] at hj
      obtain ⟨-, rfl⟩ := hf.1 t hj
      exact .inl ⟨rfl, hg, h.sound, fun _ => ⟨hj, rfl⟩, fun m _ => h.finds m⟩
    · rename_i hi
      refine .inr ⟨rfl, ?_, ?_⟩
      · split <;> rfl
      · split
        · exact h
        · rename_i hq
          exact h.enqueue hφ hn hf.1 hj hi hq

theorem handOver_of_holder {j : ClientId} {t : Transaction} (h : w.holder = some (i, t)) :
    w.handOver i j = (true, { w with holder := some (j, t) }) := by
  rw [handOver, transaction?_of_holder h]

theorem Sound.handOver (h : w.Sound) {j : ClientId} (hj : j ∉ w.queue) :
    (w.handOver i j).2.Sound := by
  unfold World.handOver
  split
  · refine ⟨h.nodup, h.clients, fun k t' hk => ?_, fun hn => (nomatch hn)⟩
    cases hk
    exact hj
  · exact h

theorem advances_leaveOpen (h : w.Agrees φ waits) {l : Ledger} {t : Transaction}
    (hφ : φ n = .inside l t) : Advances w (w.handOver (n + 1) 0).2 φ waits n .outside := by
  obtain ⟨ht, -⟩ := h.holder_of_inside hφ
  have hs := h.sound.handOver (i := n + 1) h.sound.clients
  have hq := h.sound.apart _ _ ht
  rw [handOver_of_holder ht] at hs ⊢
  refine ⟨.inl ⟨rfl, by rw [hφ]; rfl⟩, hs, fun _ => ?_, fun m hm => ?_⟩
  · exact finds_away trivial (fun t' ht' => by cases ht') hq
  · exact (h.finds m).frame (holder_ne ht hm) (fun t' ht' => by cases ht') id

theorem advances_takeUp (h : w.Agrees φ waits) (hφ : φ n = .outside) (hn : ¬waits n) :
    ((w.handOver 0 (n + 1)).1 = false ∧ Advances w (w.handOver 0 (n + 1)).2 φ waits n .outside) ∨
      ∃ t, (w.handOver 0 (n + 1)).1 = true ∧
        Advances w (w.handOver 0 (n + 1)).2 φ waits n (.inside w.store.ledger t) := by
  have hf := h.finds n
  rw [hφ] at hf
  have hq : n + 1 ∉ w.queue := fun hin => hn (hf.2 hin)
  have hs := h.sound.handOver (i := 0) hq
  cases ht : w.transaction? 0 with
  | none =>
    have hd : w.handOver 0 (n + 1) = (false, w) := by rw [handOver, ht]
    have := advances_like h ⟨rfl, rfl, rfl⟩ hn
    rw [hφ] at this
    exact .inl (by rw [hd]; exact ⟨rfl, this⟩)
  | some t =>
    have h0 := transaction?_eq_some ht
    rw [handOver_of_holder h0] at hs ⊢
    refine .inr ⟨t, rfl, .inl ⟨rfl, by rw [hφ]; rfl⟩, hs, fun _ => ⟨rfl, rfl⟩, fun m hm => ?_⟩
    refine (h.finds m).frame (fun t' ht' => ?_) (fun t' ht' => ?_) id
    · rw [h0] at ht'
      cases ht'
    · cases ht'
      exact (hm rfl).elim

theorem data_spec (h : w.Agrees φ waits) {c : DataCall} {l : Ledger} {t : Transaction}
    (hφ : φ n = .inside l t) :
    (w.store.trips c = true ∧ ∃ e, (w.data (n + 1) c).1 = some (.error e) ∧
        Advances w (w.data (n + 1) c).2 φ waits n (.inside l t)) ∨
      (w.store.trips c = false ∧ (w.data (n + 1) c).1 = some (c.run l t).1 ∧
        Advances w (w.data (n + 1) c).2 φ waits n (.inside l (c.run l t).2)) := by
  obtain ⟨ht, rfl⟩ := h.holder_of_inside hφ
  have hg : ∀ t', (φ n).Goes (.inside w.store.ledger t') w.store.ledger w.store.ledger :=
    fun t' => .inl ⟨rfl, by rw [hφ]; rfl⟩
  unfold data
  rw [transaction?_of_holder ht]
  rcases w.store.call_cases t c with ⟨htrip, p, f, -, hc⟩ | ⟨htrip, f, hc⟩
  · simp only [hc]
    exact .inl ⟨htrip, _, rfl, advances_hold h ht (fun _ => ⟨rfl, rfl⟩) (hg t)⟩
  · simp only [hc]
    exact .inr ⟨htrip, trivial, advances_hold h ht (fun _ => ⟨rfl, rfl⟩) (hg _)⟩

theorem commit_spec (h : w.Agrees φ waits) {l : Ledger} {t : Transaction}
    (hφ : φ n = .inside l t) :
    (∃ e, (w.commit (n + 1)).1 = some (.error e) ∧
        Advances w (w.commit (n + 1)).2 φ waits n .outside) ∨
      ((w.commit (n + 1)).1 = some (.ok ()) ∧
        Advances w (w.commit (n + 1)).2 φ waits n (.past l (t.apply l))) := by
  obtain ⟨ht, rfl⟩ := h.holder_of_inside hφ
  unfold commit
  rw [transaction?_of_holder ht]
  rcases w.store.commit_cases t with ⟨f, hc⟩ | ⟨f, hc⟩
  · simp only [hc]
    exact .inl ⟨_, rfl, advances_release h ht trivial (.inl ⟨rfl, by rw [hφ]; rfl⟩)⟩
  · simp only [hc]
    exact .inr ⟨trivial, advances_release h ht trivial (.inr ⟨by rw [hφ]; rfl, rfl⟩)⟩

theorem rollback_spec (h : w.Agrees φ waits) {l : Ledger} {t : Transaction}
    (hφ : φ n = .inside l t) :
    ∃ a, (w.rollback (n + 1)).1 = some a ∧ Advances w (w.rollback (n + 1)).2 φ waits n .outside := by
  obtain ⟨ht, rfl⟩ := h.holder_of_inside hφ
  unfold rollback
  rw [transaction?_of_holder ht]
  refine ⟨_, rfl, advances_release h ht trivial (.inl ⟨w.store.rollback_ledger, ?_⟩)⟩
  rw [hφ]
  rfl

theorem seed_spec (h : w.Agrees φ waits) (ext : Identifier) (b : Decimal) {l : Ledger}
    (hφ : φ n = .inside l .empty) :
    (∃ e, (l.seed ext b).1 = .error e ∧ (w.perform (n + 1) (.seed ext b)).1 = some (.error e) ∧
        Advances w (w.perform (n + 1) (.seed ext b)).2 φ waits n (.inside l .empty)) ∨
      ∃ a, (l.seed ext b).1 = .ok a ∧ (w.perform (n + 1) (.seed ext b)).1 = some (.ok a) ∧
        Advances w (w.perform (n + 1) (.seed ext b)).2 φ waits n
          (.seeded l (l.seed ext b).2) := by
  obtain ⟨ht, rfl⟩ := h.holder_of_inside hφ
  have hw : (w.perform (n + 1) (.seed ext b)).2 =
      { w with store := ⟨(w.store.ledger.seed ext b).2, w.store.faults⟩,
               holder := some (n + 1, .empty) } := by
    rw [← ht]
    rfl
  rw [hw]
  cases hs : (w.store.ledger.seed ext b).1 with
  | error e =>
    have hl : (w.store.ledger.seed ext b).2 = w.store.ledger := by
      unfold Ledger.seed at hs ⊢
      split at hs
      · rfl
      · cases hs
    refine .inl ⟨e, rfl, congrArg some hs, ?_⟩
    refine advances_hold h ht (fun _ => ⟨rfl, hl⟩) (.inl ⟨hl, ?_⟩)
    rw [hφ]
  | ok a =>
    refine .inr ⟨a, rfl, congrArg some hs, ?_⟩
    exact advances_hold h ht (fun _ => ⟨⟨_, rfl⟩, rfl⟩) (.inr ⟨by rw [hφ]; rfl, rfl⟩)

/-- An answered request takes its client to a phase that goes with the answer. -/
theorem perform_some (h : w.Agrees φ waits) {r : Request} {P : r.Answer → Phase → Prop}
    (hr : (φ n).Allows r P) (hn : waits n ↔ r = .acquire) {a : r.Answer}
    (ha : (w.perform (n + 1) r).1 = some a) :
    ∃ ψ, P a ψ ∧ Advances w (w.perform (n + 1) r).2 φ waits n ψ := by
  cases r
  case acquire =>
    rcases acquire_spec h hr.1 (hn.mpr rfl) with ⟨-, hadv⟩ | ⟨hnone, -⟩
    · exact ⟨_, hr.2 _, hadv⟩
    · cases hnone.symm.trans ha
  case data c =>
    obtain ⟨l, t, hφ, herr, hok⟩ := hr
    rcases data_spec h hφ with ⟨-, e, ha', hadv⟩ | ⟨-, ha', hadv⟩
    · cases ha'.symm.trans ha
      exact ⟨_, herr e, hadv⟩
    · cases ha'.symm.trans ha
      exact ⟨_, hok, hadv⟩
  case commit =>
    obtain ⟨l, t, hφ, herr, hok⟩ := hr
    rcases commit_spec h hφ with ⟨e, ha', hadv⟩ | ⟨ha', hadv⟩
    · cases ha'.symm.trans ha
      exact ⟨_, herr e, hadv⟩
    · cases ha'.symm.trans ha
      exact ⟨_, hok, hadv⟩
  case rollback =>
    obtain ⟨l, t, hφ, hany⟩ := hr
    obtain ⟨a', -, hadv⟩ := rollback_spec h hφ
    exact ⟨_, hany a, hadv⟩
  case discard => exact ⟨_, hr, advances_discard h fun _ hw => nomatch hn.mp hw⟩
  case leave =>
    obtain ⟨l, t, hφ, hout⟩ := hr
    exact ⟨_, hout, advances_leaveOpen h hφ⟩
  case takeUp =>
    obtain ⟨hφ, hfalse, htrue⟩ := hr
    rcases advances_takeUp h hφ (fun hw => nomatch hn.mp hw) with ⟨ha', hadv⟩ | ⟨t, ha', hadv⟩
    · cases (congrArg some ha').symm.trans ha
      exact ⟨_, hfalse, hadv⟩
    · cases (congrArg some ha').symm.trans ha
      exact ⟨_, htrue _ t, hadv⟩
  case seed ext b =>
    obtain ⟨l, hφ, herr, hok⟩ := hr
    rcases seed_spec h ext b hφ with ⟨e, he, ha', hadv⟩ | ⟨b', hb, ha', hadv⟩
    · cases ha'.symm.trans ha
      exact ⟨_, herr e he, hadv⟩
    · cases ha'.symm.trans ha
      exact ⟨_, hok _ hb, hadv⟩
  all_goals
    exact ⟨_, hr.quiet rfl a, advances_like h (like_perform rfl) fun hw => nomatch hn.mp hw⟩

theorem suspends_of_none (h : w.Agrees φ waits) {r : Request} {P : r.Answer → Phase → Prop}
    (hr : (φ n).Allows r P) (ha : (w.perform (n + 1) r).1 = none) : r.suspends = true := by
  cases r
  case acquire => rfl
  case sleep => rfl
  case never => rfl
  case data c =>
    obtain ⟨l, t, hφ, -⟩ := hr
    rcases data_spec h hφ with ⟨-, e, ha', -⟩ | ⟨-, ha', -⟩ <;> cases ha'.symm.trans ha
  case commit =>
    obtain ⟨l, t, hφ, -⟩ := hr
    rcases commit_spec h hφ with ⟨e, ha', -⟩ | ⟨ha', -⟩ <;> cases ha'.symm.trans ha
  case rollback =>
    obtain ⟨l, t, hφ, -⟩ := hr
    obtain ⟨a', ha', -⟩ := rollback_spec h hφ
    cases ha'.symm.trans ha
  all_goals cases ha

theorem perform_none (h : w.Agrees φ waits) {r : Request} {P : r.Answer → Phase → Prop}
    (hr : (φ n).Allows r P) (hn : waits n ↔ r = .acquire) (ha : (w.perform (n + 1) r).1 = none) :
    (w.perform (n + 1) r).2.store.ledger = w.store.ledger ∧
      (w.perform (n + 1) r).2.Agrees φ waits := by
  have hsuspends := suspends_of_none h hr ha
  cases r
  case acquire =>
    rcases acquire_spec h hr.1 (hn.mpr rfl) with ⟨hsome, -⟩ | ⟨-, hs, hw⟩
    · cases hsome.symm.trans ha
    · exact ⟨congrArg Store.ledger hs, hw⟩
  case sleep d => exact ⟨(like_sleep w _ d).ledger, h.like (like_sleep w _ d)⟩
  case never => exact ⟨rfl, h⟩
  all_goals cases hsuspends

/-- A request that is given up leaves its client where it is, and lets go of the lock if that
has come meanwhile. -/
theorem advances_giveUp (h : w.Agrees φ waits) {r : Request} {P : r.Answer → Phase → Prop}
    (hr : (φ n).Allows r P) (hn : waits n ↔ r = .acquire) :
    Advances w (w.giveUp (n + 1) r) φ waits n (φ n) := by
  by_cases ha : r = .acquire
  · subst ha
    have hadv := advances_leave h (n := n) w.timers
    have hφ : (φ n).released = φ n := by rw [hr.1]; rfl
    rwa [hφ] at hadv
  · exact advances_like h (giveUp_like ha) fun hw => ha (hn.mp hw)

end World

end WagerLedger

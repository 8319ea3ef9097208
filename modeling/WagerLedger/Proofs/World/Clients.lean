import WagerLedger.Clients
import WagerLedger.Proofs.World.Requests

/-! # What the clients have seen

A client with an open transaction holds the lock, so all calls of one transaction are answered
on the ledger that the blocks before it have left. `Serial` says this of the committed blocks
and of all clients at once, and every step of every client keeps it. -/
namespace WagerLedger

def Replays {σ α : Type} (next : σ → α → σ) (Seen : σ → α → Prop) : σ → List α → Prop
  | _, [] => True
  | s, a :: as => Seen s a ∧ Replays next Seen (next s a) as

theorem replays_append {σ α : Type} {next : σ → α → σ} {Seen : σ → α → Prop} {s : σ}
    (as bs : List α) : Replays next Seen s (as ++ bs) ↔
      Replays next Seen s as ∧ Replays next Seen (as.foldl next s) bs := by
  induction as generalizing s with
  | nil => simp [Replays]
  | cons a as ih => simp [Replays, ih, and_assoc]

namespace AnsweredCall

def after (l : Ledger) (t : Transaction) (a : AnsweredCall) : Transaction :=
  if a.tripped then t else (a.call.run l t).2

def Seen (l : Ledger) (t : Transaction) (a : AnsweredCall) : Prop :=
  a.tripped = false → a.answer = (a.call.run l t).1

end AnsweredCall

namespace Block

def after (l : Ledger) : Block → Ledger
  | .transaction calls => (calls.foldl (AnsweredCall.after l) .empty).apply l
  | .seed ext b _ => (l.seed ext b).2

def Seen (l : Ledger) : Block → Prop
  | .transaction calls => Replays (AnsweredCall.after l) (AnsweredCall.Seen l) .empty calls
  | .seed ext b a => (l.seed ext b).1 = .ok a

end Block

namespace Client

def Waits : Client → Prop
  | .waiting _ => True
  | _ => False

/-- Where a client stands to the store, by what it does. -/
def Stands (φ : Phase) : Client → Prop
  | .idle => φ.Away
  | .waiting _ => φ = .outside
  | .inside calls => ∃ l, Replays (AnsweredCall.after l) (AnsweredCall.Seen l) .empty calls ∧
      φ = .inside l (calls.foldl (AnsweredCall.after l) .empty)

end Client

namespace Clients

variable {c : Clients} {φ : Nat → Phase} {l₀ : Ledger} {n : Nat} {ψ : Phase}

def waits (c : Clients) (n : Nat) : Prop := (c.client n).Waits

/-- The clients stand to the store as the phases say, and the ledger is what the committed
blocks make of `l₀`, each of them as it was seen. -/
structure Serial (l₀ : Ledger) (φ : Nat → Phase) (c : Clients) : Prop where
  agrees : c.world.Agrees φ c.waits
  stands : ∀ n, (c.client n).Stands (φ n)
  seen : Replays Block.after Block.Seen l₀ c.committed
  ledger : c.committed.foldl Block.after l₀ = c.world.store.ledger

@[simp] theorem put_committed (a : Client) (w : World) :
    (c.put n a w).committed = c.committed := rfl

@[simp] theorem put_client (a : Client) (w : World) : (c.put n a w).client n = a := if_pos rfl

theorem put_put (a a' : Client) (w w' : World) : (c.put n a w).put n a' w' = c.put n a' w' := by
  simp only [put, Clients.mk.injEq, true_and, and_true]
  funext m
  by_cases hm : m = n
  · rw [if_pos hm, if_pos hm]
  · rw [if_neg hm, if_neg hm, if_neg hm]

theorem put_client_of_ne {m : Nat} (h : m ≠ n) (a : Client) (w : World) :
    (c.put n a w).client m = c.client m := if_neg h

theorem Serial.put_stands (h : c.Serial l₀ φ) {w : World} {a : Client}
    (hw : World.Advances c.world w φ c.waits n ψ) (ha : a.Stands ψ) :
    (c.put n a w).world.Agrees (Function.update φ n ψ) (c.put n a w).waits ∧
      ∀ m, ((c.put n a w).client m).Stands (Function.update φ n ψ m) := by
  refine ⟨hw.agrees fun m hm hp => ?_, fun m => ?_⟩
  · rw [waits, put_client_of_ne hm]
    exact hp
  · by_cases hm : m = n
    · rw [hm, put_client, Function.update_self]
      exact ha
    · rw [put_client_of_ne hm, Function.update_of_ne hm]
      exact h.stands m

theorem Serial.put (h : c.Serial l₀ φ) {w : World} {a : Client}
    (hw : World.Advances c.world w φ c.waits n ψ) (ha : a.Stands ψ) (hψ : ψ.change? = none) :
    (c.put n a w).Serial l₀ (Function.update φ n ψ) where
  agrees := (h.put_stands hw ha).1
  stands := (h.put_stands hw ha).2
  seen := h.seen
  ledger := by
    rcases hw.goes with ⟨hl, -⟩ | ⟨-, hl⟩
    · exact h.ledger.trans hl.symm
    · cases hψ.symm.trans hl

theorem Serial.put_note (h : c.Serial l₀ φ) {w : World} {b : Block}
    (hw : World.Advances c.world w φ c.waits n ψ) (ha : ψ.Away) (hφ : (φ n).change? = none)
    (hψ : ψ.change? = some (c.world.store.ledger, b.after c.world.store.ledger))
    (hb : b.Seen c.world.store.ledger) :
    ((c.put n .idle w).note b).Serial l₀ (Function.update φ n ψ) where
  agrees := (h.put_stands (a := .idle) hw ha).1
  stands := (h.put_stands (a := .idle) hw ha).2
  seen := by
    refine (replays_append _ _).mpr ⟨h.seen, ?_, trivial⟩
    rw [put_committed, h.ledger]
    exact hb
  ledger := by
    have hl : w.store.ledger = b.after c.world.store.ledger := by
      rcases hw.goes with ⟨-, hl⟩ | ⟨-, hl⟩
      · cases hψ.symm.trans (hl.trans hφ)
      · exact (Prod.mk.inj (Option.some.inj (hl.symm.trans hψ))).2
    change (c.committed ++ [b]).foldl Block.after l₀ = w.store.ledger
    rw [List.foldl_append, h.ledger, hl]
    rfl

theorem Serial.put_same (h : c.Serial l₀ φ) {w : World} {a : Client} (hc : c.client n = a)
    (hw : w.Agrees φ c.waits) (hl : w.store.ledger = c.world.store.ledger) :
    (c.put n a w).Serial l₀ φ := by
  have hclient : (c.put n a w).client = c.client := by
    funext m
    by_cases hm : m = n
    · rw [hm, put_client, hc]
    · exact put_client_of_ne hm a w
  refine ⟨?_, ?_, h.seen, h.ledger.trans hl.symm⟩
  · unfold waits
    rw [hclient]
    exact hw
  · rw [hclient]
    exact h.stands

theorem Serial.reset (h : c.Serial l₀ φ) (hc : c.client n = .idle) :
    c.Serial l₀ (Function.update φ n .outside) where
  agrees := by
    have ha := h.stands n
    rw [hc] at ha
    exact h.agrees.reset ha (by rw [waits, hc]; exact id)
  stands m := by
    by_cases hm : m = n
    · rw [hm, hc, Function.update_self]
      trivial
    · rw [Function.update_of_ne hm]
      exact h.stands m
  seen := h.seen
  ledger := h.ledger

theorem Serial.outside (h : c.Serial l₀ φ) {p : Purpose} (hc : c.client n = .waiting p) :
    φ n = .outside := by
  have hs := h.stands n
  rwa [hc] at hs

theorem Serial.inside (h : c.Serial l₀ φ) {calls : List AnsweredCall}
    (hc : c.client n = .inside calls) :
    Replays (AnsweredCall.after c.world.store.ledger) (AnsweredCall.Seen c.world.store.ledger)
        .empty calls ∧
      φ n = .inside c.world.store.ledger
        (calls.foldl (AnsweredCall.after c.world.store.ledger) .empty) := by
  have hs := h.stands n
  rw [hc] at hs
  obtain ⟨l, hseen, hφ⟩ := hs
  obtain ⟨-, rfl⟩ := h.agrees.holder_of_inside hφ
  exact ⟨hseen, hφ⟩

theorem Serial.put_idle (h : c.Serial l₀ φ) (hc : c.client n = .idle) {w : World} {a : Client}
    (hw : c.world.Like w) (ha : a.Stands .outside) : ∃ φ', (c.put n a w).Serial l₀ φ' := by
  have h' := h.reset hc
  have hadv := World.advances_like (n := n) h'.agrees hw (by rw [waits, hc]; exact id)
  rw [Function.update_self] at hadv
  exact ⟨_, h'.put hadv ha rfl⟩

theorem Serial.arrive (h : c.Serial l₀ φ) (hc : c.client n = .idle) :
    ∃ φ', (c.arrive n).Serial l₀ φ' := by
  have hw : c.world.Like (c.world.perform (n + 1) .arrive).2 := World.like_perform rfl
  unfold Clients.arrive
  rcases hp : c.world.perform (n + 1) .arrive with ⟨a, w⟩
  rw [hp] at hw
  match a with
  | some (.ok ()) => exact h.put_idle hc hw rfl
  | some (.error e) => exact h.put_idle hc hw trivial
  | none => exact h.put_idle hc hw trivial

theorem Serial.enter (h : c.Serial l₀ φ) {w : World} (hφ : φ n = .outside)
    (hw : World.Advances c.world w φ c.waits n (.inside c.world.store.ledger .empty))
    (p : Purpose) : ∃ φ', (c.enter n w p).Serial l₀ φ' := by
  cases p with
  | transaction => exact ⟨_, h.put hw ⟨_, trivial, rfl⟩ rfl⟩
  | seed ext b =>
    have hseed := World.seed_spec (hw.agrees fun _ _ => id) ext b (Function.update_self ..)
    simp only [Clients.enter]
    rcases hp : w.perform (n + 1) (.seed ext b) with ⟨a, w'⟩
    rw [hp] at hseed
    rcases hseed with ⟨e, -, rfl, hw'⟩ | ⟨account, ha, rfl, hw'⟩
    · exact ⟨_, h.put (a := .idle) (hw.trans (hw'.discard id)) trivial rfl⟩
    · exact ⟨_, h.put_note (b := .seed ext b account) (hw.trans (hw'.discard id)) trivial
        (by rw [hφ]; rfl) rfl ha⟩

theorem Serial.poll (h : c.Serial l₀ φ) {p : Purpose} (hc : c.client n = .waiting p) :
    ∃ φ', (c.poll n p).Serial l₀ φ' := by
  have hφ := h.outside hc
  have hacquire := World.acquire_spec h.agrees hφ (by rw [waits, hc]; trivial)
  unfold Clients.poll
  rcases hp : c.world.perform (n + 1) .acquire with ⟨a, w⟩
  change c.world.acquire (n + 1) = _ at hp
  rw [hp] at hacquire
  rcases hacquire with ⟨rfl, hw⟩ | ⟨rfl, hs, hw⟩
  · exact h.enter hφ hw p
  · exact ⟨φ, h.put_same hc hw (congrArg Store.ledger hs)⟩

theorem Serial.data (h : c.Serial l₀ φ) {calls : List AnsweredCall}
    (hc : c.client n = .inside calls) (d : DataCall) : ∃ φ', (c.data n calls d).Serial l₀ φ' := by
  obtain ⟨hseen, hφ⟩ := h.inside hc
  have hdata := World.data_spec h.agrees (c := d) hφ
  unfold Clients.data
  rcases hp : c.world.perform (n + 1) (.data d) with ⟨a, w⟩
  change c.world.data (n + 1) d = _ at hp
  rw [hp] at hdata
  rcases hdata with ⟨htrip, e, rfl, hw⟩ | ⟨htrip, rfl, hw⟩
  · refine ⟨_, h.put hw ⟨_, (replays_append _ _).mpr ⟨hseen, ?_, trivial⟩, ?_⟩ rfl⟩
    · intro ht
      cases htrip.symm.trans ht
    · rw [List.foldl_append]
      simp [AnsweredCall.after, htrip]
  · refine ⟨_, h.put hw ⟨_, (replays_append _ _).mpr ⟨hseen, fun _ => rfl, trivial⟩, ?_⟩ rfl⟩
    rw [List.foldl_append]
    simp [AnsweredCall.after, htrip]

theorem Serial.commit (h : c.Serial l₀ φ) {calls : List AnsweredCall}
    (hc : c.client n = .inside calls) : ∃ φ', (c.commit n calls).Serial l₀ φ' := by
  obtain ⟨hseen, hφ⟩ := h.inside hc
  have hcommit := World.commit_spec h.agrees hφ
  unfold Clients.commit
  rcases hp : c.world.perform (n + 1) .commit with ⟨a, w⟩
  change c.world.commit (n + 1) = _ at hp
  rw [hp] at hcommit
  rcases hcommit with ⟨e, rfl, hw⟩ | ⟨rfl, hw⟩
  · exact ⟨_, h.put (a := .idle) hw trivial rfl⟩
  · exact ⟨_, h.put_note (b := .transaction calls) hw trivial (by rw [hφ]; rfl) rfl hseen⟩

/-- What holds of the clients holds after each step of each of them. -/
theorem Serial.step (h : c.Serial l₀ φ) (n : Nat) (s : ClientStep) :
    ∃ φ', (c.step n s).Serial l₀ φ' := by
  have hquiet : ∀ r : Request, r.isQuiet = true →
      (c.put n (c.client n) (c.world.perform (n + 1) r).2).Serial l₀ φ := fun r hr =>
    h.put_same rfl (h.agrees.like (World.like_perform hr)) (World.like_perform hr).ledger
  unfold Clients.step
  split
  case h_1 p skip times => exact ⟨φ, hquiet (.inject p skip times) rfl⟩
  case h_2 => exact ⟨φ, hquiet .clearFaults rfl⟩
  case h_3 hc => exact h.arrive hc
  case h_4 ext b hc => exact h.put_idle hc ⟨rfl, rfl, rfl⟩ rfl
  case h_5 p hc => exact h.poll hc
  case h_6 p hc =>
    have hw := World.advances_leave (n := n) h.agrees c.world.timers
    rw [h.outside hc] at hw
    exact ⟨_, h.put (a := .idle) hw trivial rfl⟩
  case h_7 calls d hc => exact h.data hc d
  case h_8 calls hc => exact h.commit hc
  case h_9 calls hc =>
    obtain ⟨a, -, hw⟩ := World.rollback_spec h.agrees (h.inside hc).2
    exact ⟨_, h.put (a := .idle) hw trivial rfl⟩
  case h_10 calls hc =>
    have hw := World.advances_discard (n := n) h.agrees
      (by rw [(h.inside hc).2]; exact fun ha => ha.elim)
    rw [(h.inside hc).2] at hw
    exact ⟨_, h.put (a := .idle) hw trivial rfl⟩
  case h_11 => exact ⟨φ, h⟩

theorem serial_on (s : Store) : (on s).Serial s.ledger fun _ => .outside where
  agrees := ⟨⟨List.nodup_nil, List.not_mem_nil, fun _ _ ht => (nomatch ht), fun _ => rfl⟩,
    fun _ => ⟨fun _ ht => (nomatch ht), fun hq => (nomatch hq)⟩⟩
  stands _ := trivial
  seen := trivial
  ledger := rfl

theorem Serial.run (h : c.Serial l₀ φ) (steps : List (Nat × ClientStep)) :
    ∃ φ', (c.run steps).Serial l₀ φ' := by
  induction steps generalizing c φ with
  | nil => exact ⟨φ, h⟩
  | cons x steps ih =>
    obtain ⟨φ', h'⟩ := h.step x.1 x.2
    exact ih h'

end Clients

end WagerLedger

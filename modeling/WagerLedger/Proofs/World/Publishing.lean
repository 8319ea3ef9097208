import WagerLedger.Proofs.Ledger.Published
import WagerLedger.Proofs.World.Clients
import WagerLedger.Proofs.World.Contexts

/-! # What a transaction leaves to the next one

While a transaction is open, the committed ledger stands still, whatever the other clients do. A
commit that succeeds then publishes all that the transaction has seen, and nothing else; with
every other end the ledger is as it was before the transaction began. -/
namespace WagerLedger

theorem Store.call_untripped {s : Store} {d : DataCall} (h : s.trips d = false) (t : Transaction) :
    (s.call t d).1 = (d.run s.ledger t).1 := by
  rcases s.call_cases t d with ⟨htrip, -⟩ | ⟨-, f, hcall⟩
  · rw [h] at htrip
    cases htrip
  · rw [hcall]

namespace World

variable {w w' : World} {i : ClientId}

theorem ledger_commit {t : Transaction} (ht : w.transaction? i = some t)
    {r : Except LedgerError Unit} (h : w.perform i .commit = (some r, w')) :
    w'.store.ledger = match r with
      | .ok () => t.apply w.store.ledger
      | .error _ => w.store.ledger := by
  simp only [perform, commit, ht] at h
  rcases w.store.commit_cases t with ⟨f, hcommit⟩ | ⟨f, hcommit⟩
  · rw [hcommit] at h
    cases h
    rw [release_store]
  · rw [hcommit] at h
    cases h
    rw [release_store]

end World

namespace AnsweredCall

/-- What a transaction has staged, by whatever calls and faults, goes on with the numberings of
the ledger and has no balance twice. -/
theorem staged_foldl (l : Ledger) (calls : List AnsweredCall) {t : Transaction}
    (h : t.Continues l ∧ t.Keyed) :
    (calls.foldl (after l) t).Continues l ∧ (calls.foldl (after l) t).Keyed := by
  induction calls generalizing t with
  | nil => exact h
  | cons a calls ih =>
    refine ih ?_
    unfold after
    split
    · exact h
    · exact ⟨h.1.run a.call, h.2.run a.call⟩

end AnsweredCall

def ClientStep.ends : ClientStep → Bool
  | .commit | .rollback | .drop => true
  | _ => false

namespace Clients

variable {c : Clients} {φ : Nat → Phase} {l₀ : Ledger} {n : Nat} {calls : List AnsweredCall}

theorem inside_put {m : Nat} {a : Client} (w : World) (hn : c.client n = .inside calls)
    (ha : m = n → ∃ calls', a = .inside calls') :
    ∃ calls', (c.put m a w).client n = .inside calls' := by
  by_cases hm : m = n
  · obtain ⟨calls', rfl⟩ := ha hm
    exact ⟨calls', by rw [hm, put_client]⟩
  · exact ⟨calls, by rw [put_client_of_ne (Ne.symm hm), hn]⟩

theorem Serial.inside_unique (h : c.Serial l₀ φ) {m : Nat} {calls' : List AnsweredCall}
    (hn : c.client n = .inside calls) (hm : c.client m = .inside calls') : m = n := by
  obtain ⟨hholder, -⟩ := h.agrees.holder_of_inside (h.inside hn).2
  obtain ⟨hholder', -⟩ := h.agrees.holder_of_inside (h.inside hm).2
  rw [hholder, Option.some.injEq, Prod.mk.injEq] at hholder'
  exact (Nat.succ.inj hholder'.1).symm

/-- A step that does not end the open transaction leaves it open on the same ledger. -/
theorem Serial.step_inside (h : c.Serial l₀ φ) (hn : c.client n = .inside calls) {m : Nat}
    {s : ClientStep} (hs : m = n → s.ends = false) :
    (c.step m s).world.store.ledger = c.world.store.ledger ∧
      ∃ calls', (c.step m s).client n = .inside calls' := by
  have hother : ∀ {a : Client}, c.client m = a → (∀ calls', a ≠ .inside calls') →
      ∀ a', m = n → ∃ calls', a' = Client.inside calls' := by
    rintro a hm hne a' rfl
    exact absurd (hm.symm.trans hn) (hne calls)
  have hquiet : ∀ r : Request, r.isQuiet = true →
      (c.world.perform (m + 1) r).2.store.ledger = c.world.store.ledger :=
    fun r hr => (World.like_perform hr).ledger
  have hkeep : m = n → ∃ calls', c.client m = .inside calls' := by
    rintro rfl
    exact ⟨calls, hn⟩
  have hwaiting : ∀ (p : Purpose) (calls' : List AnsweredCall),
      Client.waiting p ≠ .inside calls' := by
    intro p calls' heq
    cases heq
  have hidle : ∀ calls' : List AnsweredCall, Client.idle ≠ .inside calls' := by
    intro calls' heq
    cases heq
  -- Only the client inside can change the ledger, and only by ending its transaction.
  unfold Clients.step
  split
  case h_1 p skip times => exact ⟨hquiet (.inject p skip times) rfl, inside_put _ hn hkeep⟩
  case h_2 => exact ⟨hquiet .clearFaults rfl, inside_put _ hn hkeep⟩
  case h_3 hm =>
    have hl := hquiet .arrive rfl
    unfold Clients.arrive
    rcases hp : c.world.perform (m + 1) .arrive with ⟨a, w⟩
    rw [hp] at hl
    cases a with
    | none => exact ⟨hl, inside_put _ hn (hother hm hidle _)⟩
    | some r =>
      cases r with
      | ok u => exact ⟨hl, inside_put _ hn (hother hm hidle _)⟩
      | error e => exact ⟨hl, inside_put _ hn (hother hm hidle _)⟩
  case h_4 ext b hm => exact ⟨rfl, inside_put _ hn (hother hm hidle _)⟩
  case h_5 p hm =>
    -- The lock is taken, so who asks for it goes on waiting.
    obtain ⟨hholder, -⟩ := h.agrees.holder_of_inside (h.inside hn).2
    have hne : n + 1 ≠ m + 1 := by
      intro heq
      rw [← Nat.succ.inj heq, hn] at hm
      cases hm
    have hl := World.ledger_perform (w := c.world) (r := .acquire) rfl (by simp) (m + 1)
    have hwaits : (c.world.perform (m + 1) .acquire).1 = none := by
      simp only [World.perform, World.acquire, hholder, if_neg hne]
    unfold Clients.poll
    rcases hp : c.world.perform (m + 1) .acquire with ⟨a, w⟩
    rw [hp] at hl hwaits
    subst hwaits
    exact ⟨hl, inside_put _ hn (hother hm (hwaiting p) _)⟩
  case h_6 p hm =>
    exact ⟨World.ledger_giveUp c.world (m + 1) .acquire,
      inside_put _ hn (hother hm (hwaiting p) _)⟩
  case h_7 calls' d hm =>
    have hl := World.ledger_perform (w := c.world) (r := .data d) rfl (by simp) (m + 1)
    unfold Clients.data
    rcases hp : c.world.perform (m + 1) (.data d) with ⟨a, w⟩
    rw [hp] at hl
    cases a with
    | some a => exact ⟨hl, inside_put _ hn fun _ => ⟨_, rfl⟩⟩
    | none => exact ⟨hl, inside_put _ hn fun _ => ⟨_, rfl⟩⟩
  case h_8 calls' hm => cases hs (h.inside_unique hn hm)
  case h_9 calls' hm => cases hs (h.inside_unique hn hm)
  case h_10 calls' hm => cases hs (h.inside_unique hn hm)
  case h_11 => exact ⟨rfl, calls, hn⟩

theorem Serial.run_inside (h : c.Serial l₀ φ) (hn : c.client n = .inside calls)
    {steps : List (Nat × ClientStep)} (hsteps : ∀ x ∈ steps, x.1 = n → x.2.ends = false) :
    (c.run steps).world.store.ledger = c.world.store.ledger ∧
      ∃ calls', (c.run steps).client n = .inside calls' := by
  induction steps generalizing c φ calls with
  | nil => exact ⟨rfl, calls, hn⟩
  | cons x steps ih =>
    obtain ⟨φ', h'⟩ := h.step x.1 x.2
    obtain ⟨hl, calls', hn'⟩ := h.step_inside hn (hsteps x List.mem_cons_self)
    obtain ⟨hl', hopen⟩ := ih h' hn' fun y hy => hsteps y (List.mem_cons_of_mem x hy)
    exact ⟨hl'.trans hl, hopen⟩

/-- The lock comes with the ledger as it is. -/
theorem ledger_opens (hopens : (c.step n .poll).client n = .inside calls) :
    (c.step n .poll).world.store.ledger = c.world.store.ledger := by
  cases hn : c.client n with
  | idle => simp only [step, hn]
  | inside calls' => simp only [step, hn]
  | waiting p =>
    have hl := World.ledger_perform (w := c.world) (r := .acquire) rfl (by simp) (n + 1)
    have hstep : c.step n .poll = c.poll n p := by simp only [step, hn]
    rw [hstep] at hopens ⊢
    unfold Clients.poll at hopens ⊢
    rcases hp : c.world.perform (n + 1) .acquire with ⟨a, w⟩
    rw [hp] at hl hopens
    cases a with
    | none => exact hl
    | some a =>
      cases p with
      | transaction => exact hl
      | seed ext b =>
        -- Who seeds an account does not open a transaction.
        simp only [enter] at hopens
        split at hopens
        · rename_i w' _
          change (c.put n .idle (w'.discard (n + 1))).client n = _ at hopens
          rw [put_client] at hopens
          cases hopens
        · rw [put_client] at hopens
          cases hopens

/-- The transaction of client `n` ends in `w` without a commit that succeeds. -/
def Abandons (c : Clients) (n : Nat) (w : World) : Prop :=
  (∃ e, c.world.perform (n + 1) .commit = (some (.error e), w)) ∨
    (∃ a, c.world.perform (n + 1) .rollback = (a, w)) ∨
      c.world.perform (n + 1) .discard = (some (), w)

theorem Abandons.ledger {w : World} (h : c.Abandons n w) {t : Transaction}
    (ht : c.world.transaction? (n + 1) = some t) :
    w.store.ledger = c.world.store.ledger := by
  rcases h with ⟨e, hcommit⟩ | ⟨a, hrollback⟩ | hdiscard
  · exact World.ledger_commit ht hcommit
  · have hl := World.ledger_perform (w := c.world) (r := .rollback) rfl nofun (n + 1)
    rwa [hrollback] at hl
  · cases hdiscard
    exact World.ledger_discard c.world (n + 1)

/-- In `c₀`, which the clients have come to on the store, client `n` opens a transaction, and in
`c` it is still open. -/
structure Opened (s : Store) (n : Nat) (c₀ c : Clients) : Prop where
  reached : ∃ steps, c₀ = (on s).run steps
  opens : (c₀.step n .poll).client n = .inside []
  stays : ∃ steps, c = (c₀.step n .poll).run steps ∧ ∀ x ∈ steps, x.1 = n → x.2.ends = false

theorem Opened.transaction {s : Store} {c₀ c : Clients} (h : Opened s n c₀ c) :
    ∃ t, c.world.transaction? (n + 1) = some t ∧ t.Continues c.world.store.ledger ∧ t.Keyed ∧
      c.world.store.ledger = c₀.world.store.ledger := by
  obtain ⟨⟨before, hbefore⟩, hopens, during, hduring, hstays⟩ := h
  obtain ⟨φ, hserial⟩ := (serial_on s).run before
  rw [← hbefore] at hserial
  obtain ⟨φ', hserial'⟩ := hserial.step n .poll
  obtain ⟨hl, calls, hn⟩ := hserial'.run_inside hopens hstays
  obtain ⟨φ'', hserial''⟩ := hserial'.run during
  rw [← hduring] at hl hn hserial''
  obtain ⟨hholder, -⟩ := hserial''.agrees.holder_of_inside (hserial''.inside hn).2
  obtain ⟨hcontinues, hkeyed⟩ := AnsweredCall.staged_foldl c.world.store.ledger calls
    ⟨Transaction.continues_empty _, List.nodup_nil⟩
  exact ⟨_, World.transaction?_of_holder hholder, hcontinues, hkeyed,
    hl.trans (ledger_opens hopens)⟩

/-- After any steps of any clients, let a client open a transaction, and let it and the others
take steps of which none ends it. If it commits, a new transaction that trips no fault is answered
every call as the committed one would have been, whatever the order in which the balances are
applied. With any other end it is answered as one begun before the transaction was. -/
theorem commit_publishes {s : Store} {c₀ c : Clients} (h : Opened s n c₀ c) :
    ∃ t, c.world.transaction? (n + 1) = some t ∧
      (∀ w, c.world.perform (n + 1) .commit = (some (.ok ()), w) →
        w.store.ledger = t.apply c.world.store.ledger ∧
          ∀ d : DataCall, w.store.trips d = false →
            (w.store.call .empty d).1 = (d.run c.world.store.ledger t).1) ∧
      (∀ es : List (AccountId × Decimal), es.Perm t.balances.entries → ∀ d : DataCall,
        (d.run ((t.inOrder es).apply c.world.store.ledger) .empty).1 =
          (d.run c.world.store.ledger t).1) ∧
      ∀ w, c.Abandons n w → ∀ d, w.store.trips d = false → c₀.world.store.trips d = false →
        (w.store.call .empty d).1 = (c₀.world.store.call .empty d).1 := by
  obtain ⟨t, ht, hcontinues, hkeyed, hl⟩ := h.transaction
  refine ⟨t, ht, fun w hcommit => ?_, fun es hes d => ?_, fun w hends d hd hd₀ => ?_⟩
  · have hledger := World.ledger_commit ht hcommit
    refine ⟨hledger, fun d hd => ?_⟩
    rw [Store.call_untripped hd, hledger]
    exact DataCall.run_apply hcontinues hkeyed (List.Perm.refl _) d
  · exact DataCall.run_apply hcontinues hkeyed hes d
  · rw [Store.call_untripped hd, Store.call_untripped hd₀, hends.ledger ht, hl]

def beforeMixed : Clients :=
  (on .empty).run [(0, .seed .nil .two), (0, .poll), (0, .begin)]

/-- What the clients do then: client 0 opens an account, writes three balances, two of them of
the new account, and appends a spin, while client 1 comes to wait for the lock. -/
def mixedSteps : List (Nat × ClientStep) :=
  [(0, .data (.insert ⟨1, by decide⟩)), (1, .begin), (0, .data (.writeBalance 2 .ten)),
    (1, .poll), (0, .data (.writeBalance 1 .ten)), (0, .data (.writeBalance 2 .two)),
    (0, .data (.append ⟨2, .two, .ten⟩))]

def afterMixed : Clients := (beforeMixed.step 0 .poll).run mixedSteps

theorem opened_mixed : Opened .empty 0 beforeMixed afterMixed where
  reached := ⟨_, rfl⟩
  opens := rfl
  stays := by
    refine ⟨mixedSteps, rfl, fun x hx _ => ?_⟩
    have hends : ∀ y ∈ mixedSteps.map (·.2.ends), y = false := by decide
    exact hends _ (List.mem_map_of_mem hx)

/-- The commit succeeds, and what it publishes is the last balance of each account. -/
theorem commit_publishes_mixed :
    Opened .empty 0 beforeMixed afterMixed ∧
      (afterMixed.world.perform 1 .commit).1 = some (.ok ()) ∧
      (afterMixed.world.perform 1 .commit).2.store.ledger.balance? 2 = some .two ∧
      ∃ t, afterMixed.world.transaction? 1 = some t ∧
        (∀ w, afterMixed.world.perform 1 .commit = (some (.ok ()), w) →
          w.store.ledger = t.apply afterMixed.world.store.ledger ∧
            ∀ d : DataCall, w.store.trips d = false →
              (w.store.call .empty d).1 = (d.run afterMixed.world.store.ledger t).1) ∧
        (∀ es : List (AccountId × Decimal), es.Perm t.balances.entries → ∀ d : DataCall,
          (d.run ((t.inOrder es).apply afterMixed.world.store.ledger) .empty).1 =
            (d.run afterMixed.world.store.ledger t).1) ∧
        ∀ w, afterMixed.Abandons 0 w → ∀ d, w.store.trips d = false →
          beforeMixed.world.store.trips d = false →
          (w.store.call .empty d).1 = (beforeMixed.world.store.call .empty d).1 :=
  ⟨opened_mixed, rfl, by decide +kernel, commit_publishes opened_mixed⟩

end Clients

end WagerLedger

import WagerLedger.Proofs.Session.Atomicity
import WagerLedger.Proofs.Session.Numbering

/-! # The history is what was settled

Every committed spin is logged with the call that settled it and the turn in which it was
committed. No other call touches the log and no call settles twice, so what a history reads of
an account is the log of the settlements on it, as far as it goes at that moment. -/
namespace WagerLedger

theorem Ledger.Numbered.spins_increasing {l : Ledger} (h : l.Numbered) :
    l.spins.Pairwise (·.id < ·.id) := by
  rw [List.pairwise_iff_getElem]
  intro i j hi hj hij
  rw [h.spinIds i _ (List.getElem?_eq_getElem hi), h.spinIds j _ (List.getElem?_eq_getElem hj)]
  exact Int.add_lt_add_right (Int.ofNat_lt.mpr hij) 1

theorem Transaction.list_empty (l : Ledger) (id : AccountId) (limit : Int) :
    empty.list l id (max limit 0) = ((l.spinsOf id).reverse).take limit.toNat := by
  have hlimit : (max limit 0).toNat = limit.toNat := by omega
  rw [list, hlimit, Ledger.spinsOf, List.filter_reverse]
  simp [empty]

namespace Operation

variable {P : Odds → Prop} {op : Operation} {l l' : Ledger} {r : Option Reply}

theorem Makes.spins (h : op.Makes P l l' r) (hop : ∀ m, op ≠ .move m) :
    (l'.spins = l.spins ∧ ∀ ext bet ctx, op ≠ .settle ext bet ctx) ∨
      ∃ ext bet ctx s, op = .settle ext bet ctx ∧ l'.spins = l.spins ++ [s] ∧
        (∃ a, l.find? ext = some a ∧ s.accountId = a.id) ∧ r = s.net?.map (.settled s) := by
  rcases h.cases hop with ⟨rfl, ext, rfl | ⟨limit, rfl⟩⟩ | ⟨ext, b, a, hop, hseed, -⟩ |
    ⟨ext, amount, delta, before, after, hop, hmoves, -⟩ |
    ⟨ext, bet, ctx, s, rfl, ⟨-, -, before, between, after, hs⟩, hr⟩
  · exact .inl ⟨rfl, nofun⟩
  · exact .inl ⟨rfl, nofun⟩
  · obtain ⟨-, -, rfl⟩ := Ledger.seed_eq_ok hseed
    rcases hop with rfl | ⟨rfl, -⟩
    · exact .inl ⟨rfl, nofun⟩
    · exact .inl ⟨rfl, nofun⟩
  · obtain ⟨a, -, -, rfl⟩ := hmoves.account
    rcases hop with ⟨rfl, -⟩ | ⟨rfl, -⟩
    · exact .inl ⟨rfl, nofun⟩
    · exact .inl ⟨rfl, nofun⟩
  · refine .inr ⟨ext, bet, ctx, s, rfl, ?_, hs.account, hr⟩
    rw [hs.ledger_eq]
    rfl

theorem Makes.index (h : op.Makes P l l' r) (hop : ∀ m, op ≠ .move m) {ext : Identifier}
    {id : AccountId} (hid : l.index.get? ext = some id) : l'.index.get? ext = some id := by
  rcases h.cases hop with ⟨rfl, -⟩ | ⟨ext', b, a, -, hseed, -⟩ |
    ⟨ext', amount, delta, before, after, -, hmoves, -⟩ |
    ⟨ext', bet, ctx, s, -, ⟨-, -, before, between, after, hs⟩, -⟩
  · exact hid
  · obtain ⟨hnew, rfl, rfl⟩ := Ledger.seed_eq_ok hseed
    rw [Ledger.index_addAccount, if_neg, hid]
    rintro rfl
    rw [hnew] at hid
    cases hid
  · obtain ⟨a, -, -, rfl⟩ := hmoves.account
    exact hid
  · rw [hs.ledger_eq]
    exact hid

end Operation

/-- A committed spin, the call that settled it, and its turn that committed it. -/
structure SettledSpin where
  turn : Nat
  call : Nat
  spin : Spin

namespace Scenario

/-- A call on the account of an external id commits a spin. -/
structure Settles (c : Scenario) (us : List Turn) (ext : Identifier) (e : SettledSpin) : Prop where
  call : ∃ bet ctx, c.calls[e.call]? = some (.settle ext bet ctx)
  turn : us[e.turn]? = some (.step e.call)
  spins : (c.ledger (us.take (e.turn + 1))).spins = (c.ledger (us.take e.turn)).spins ++ [e.spin]

variable {c : Scenario} {us : List Turn} {u : Turn} {φ φ' : Nat → Phase} {ext : Identifier}

theorem Settles.lt {e : SettledSpin} (h : c.Settles us ext e) : e.turn < us.length :=
  (List.getElem?_eq_some_iff.mp h.turn).1

theorem Settles.task {e : SettledSpin} (h : c.Settles us ext e) :
    us[e.turn]?.bind Turn.task? = some e.call := by
  rw [h.turn]
  rfl

theorem Settles.not_still {e : SettledSpin} (h : c.Settles us ext e) : ¬c.Still us e.turn := by
  intro hstill
  have hlen := congrArg List.length h.spins
  rw [hstill, List.length_append, List.length_singleton] at hlen
  omega

theorem Settles.append {e : SettledSpin} (h : c.Settles us ext e) (vs : List Turn) :
    c.Settles (us ++ vs) ext e where
  call := h.call
  turn := by rw [List.getElem?_append_left h.lt, h.turn]
  spins := by
    rw [List.take_append_of_le_length h.lt, List.take_append_of_le_length h.lt.le, h.spins]

theorem Tells.unique {n : Nat} {x : Option (Ledger × Ledger)} (h : c.Tells us n x) {j k : Nat}
    (hj : us[j]?.bind Turn.task? = some n) (hjs : ¬c.Still us j)
    (hk : us[k]?.bind Turn.task? = some n) (hks : ¬c.Still us k) : j = k := by
  cases x with
  | none => exact (hjs (h j hj)).elim
  | some x =>
    obtain ⟨i, -, -, -, hothers⟩ := h
    have hji : j = i := by_contra fun hne => hjs (hothers j hne hj)
    have hki : k = i := by_contra fun hne => hks (hothers k hne hk)
    rw [hji, hki]

/-- The log of all settlements of a run: in the order of their turns, all of them, and at each
moment the spins of the ledger. -/
structure Logs (c : Scenario) (us : List Turn) (φ : Nat → Phase) (log : List SettledSpin) :
    Prop where
  sorted : log.Pairwise (·.turn < ·.turn)
  entries : ∀ e ∈ log, ∃ ext, c.Settles us ext e ∧
    (c.ledger us).index.get? ext = some e.spin.accountId
  all : ∀ n ext bet ctx, c.calls[n]? = some (.settle ext bet ctx) → (φ n).change?.isSome →
    ∃ e ∈ log, e.call = n
  spins : ∀ k, (c.ledger (us.take k)).spins = (log.filter (·.turn < k)).map (·.spin)
  index : ∀ k ext id, (c.ledger (us.take k)).index.get? ext = some id →
    (c.ledger us).index.get? ext = some id

theorem logs_start (c : Scenario) : c.Logs [] (fun _ => .outside) [] where
  sorted := .nil
  entries _ h := nomatch h
  all _ _ _ _ _ h := nomatch h
  spins k := by
    rw [List.take_nil]
    rfl
  index k ext id h := by rwa [List.take_nil] at h

theorem take_append_cases (us : List Turn) (u : Turn) (k : Nat) :
    (k ≤ us.length ∧ (us ++ [u]).take k = us.take k) ∨
      (us.length < k ∧ (us ++ [u]).take k = us ++ [u]) := by
  rcases le_or_gt k us.length with hle | hgt
  · exact .inl ⟨hle, List.take_append_of_le_length hle⟩
  · exact .inr ⟨hgt, List.take_of_length_le (by simp; omega)⟩

variable {log : List SettledSpin}

theorem Logs.filter_eq (h : c.Logs us φ log) {k : Nat} (hk : us.length ≤ k) :
    log.filter (·.turn < k) = log := by
  rw [List.filter_eq_self]
  intro e he
  obtain ⟨ext, hs, -⟩ := h.entries e he
  exact decide_eq_true (hs.lt.trans_le hk)

/-- A turn without a new spin. -/
theorem Logs.keep (h : c.Logs us φ log)
    (hspins : (c.ledger (us ++ [u])).spins = (c.ledger us).spins)
    (hindex : ∀ ext id, (c.ledger us).index.get? ext = some id →
      (c.ledger (us ++ [u])).index.get? ext = some id)
    (hall : ∀ n ext bet ctx, c.calls[n]? = some (.settle ext bet ctx) → (φ' n).change?.isSome →
      (φ n).change?.isSome) : c.Logs (us ++ [u]) φ' log where
  sorted := h.sorted
  entries e he := by
    obtain ⟨ext, hs, hid⟩ := h.entries e he
    exact ⟨ext, hs.append [u], hindex ext _ hid⟩
  all n ext bet ctx hop hn := h.all n ext bet ctx hop (hall n ext bet ctx hop hn)
  spins k := by
    rcases take_append_cases us u k with ⟨hle, htake⟩ | ⟨hlt, htake⟩
    · rw [htake, h.spins k]
    · have hall := h.spins us.length
      rw [List.take_length, h.filter_eq le_rfl] at hall
      rw [htake, h.filter_eq hlt.le, hspins, hall]
  index k ext id hid := by
    rcases take_append_cases us u k with ⟨hle, htake⟩ | ⟨hlt, htake⟩
    · rw [htake] at hid
      exact hindex ext id (h.index k ext id hid)
    · rwa [htake] at hid

/-- A turn that commits a spin. -/
theorem Logs.settle (h : c.Logs us φ log) {n : Nat} {bet : Decimal} {ctx : Option String}
    {s : Spin} (hop : c.calls[n]? = some (.settle ext bet ctx)) (hu : u = .step n)
    (hspins : (c.ledger (us ++ [u])).spins = (c.ledger us).spins ++ [s])
    (hindex : ∀ ext id, (c.ledger us).index.get? ext = some id →
      (c.ledger (us ++ [u])).index.get? ext = some id)
    (hs : (c.ledger us).index.get? ext = some s.accountId)
    (hothers : ∀ m, m ≠ n → (φ' m).change? = (φ m).change?) :
    c.Logs (us ++ [u]) φ' (log ++ [⟨us.length, n, s⟩]) := by
  have hnew : c.Settles (us ++ [u]) ext ⟨us.length, n, s⟩ := by
    refine ⟨⟨bet, ctx, hop⟩, ?_, ?_⟩
    · rw [List.getElem?_concat_length, hu]
    · rw [List.take_left, List.take_of_length_le (by simp), hspins]
  have hlt : ∀ e ∈ log, e.turn < us.length := by
    intro e he
    obtain ⟨ext', hs', -⟩ := h.entries e he
    exact hs'.lt
  -- The new entry is the last one: its turn is after those of all others.
  refine ⟨?_, fun e he => ?_, fun m ext' bet' ctx' hop' hm => ?_, fun k => ?_,
    fun k ext' id hid => ?_⟩
  · rw [List.pairwise_append]
    refine ⟨h.sorted, List.pairwise_singleton _ _, fun e he e' he' => ?_⟩
    rw [List.mem_singleton.mp he']
    exact hlt e he
  · rcases List.mem_append.mp he with he | he
    · obtain ⟨ext', hs', hid⟩ := h.entries e he
      exact ⟨ext', hs'.append [u], hindex ext' _ hid⟩
    · rw [List.mem_singleton.mp he]
      exact ⟨ext, hnew, hindex ext _ hs⟩
  · by_cases hmn : m = n
    · exact ⟨_, List.mem_append_right _ (List.mem_singleton_self _), hmn.symm⟩
    · rw [hothers m hmn] at hm
      obtain ⟨e, he, hcall⟩ := h.all m ext' bet' ctx' hop' hm
      exact ⟨e, List.mem_append_left _ he, hcall⟩
  · rw [List.filter_append, List.map_append]
    rcases take_append_cases us u k with ⟨hle, htake⟩ | ⟨hlt', htake⟩
    · rw [htake, h.spins k, List.filter_singleton, decide_eq_false (not_lt.mpr hle)]
      exact (List.append_nil _).symm
    · have hall := h.spins us.length
      rw [List.take_length, h.filter_eq le_rfl] at hall
      rw [htake, h.filter_eq hlt'.le, hspins, hall, List.filter_singleton, decide_eq_true hlt']
      rfl
  · rcases take_append_cases us u k with ⟨hle, htake⟩ | ⟨hlt', htake⟩
    · rw [htake] at hid
      exact hindex ext' id (h.index k ext' id hid)
    · rwa [htake] at hid

theorem logs_turn (hmoves : ∀ m, .move m ∉ c.calls) (h : ∃ log, c.Logs us φ log)
    (hturned : Tracks.Turned (fun _ => True) c.calls u (c.ledger us) (c.ledger (us ++ [u])) φ φ') :
    ∃ log, c.Logs (us ++ [u]) φ' log := by
  obtain ⟨log, hlog⟩ := h
  cases hturned with
  | same ledger change =>
    refine ⟨log, hlog.keep (by rw [ledger]) (fun ext id hid => by rwa [ledger]) ?_⟩
    intro n _ _ _ _ hn
    rwa [change n] at hn
  | change n turn before after others makes =>
    obtain ⟨op, r, hop, hm⟩ := makes
    have hmove : ∀ m, op ≠ .move m := by
      rintro m rfl
      exact hmoves m (List.mem_of_getElem? hop)
    have hindex : ∀ ext id, (c.ledger us).index.get? ext = some id →
        (c.ledger (us ++ [u])).index.get? ext = some id := fun ext id => hm.index hmove
    rcases hm.spins hmove with ⟨hspins, hne⟩ | ⟨ext, bet, ctx, s, rfl, hspins, ⟨a, ha, hs⟩, -⟩
    · refine ⟨log, hlog.keep hspins hindex fun m ext bet ctx hop' hm' => ?_⟩
      by_cases hmn : m = n
      · rw [hmn, hop] at hop'
        cases hop'
        exact (hne ext bet ctx rfl).elim
      · rwa [others m hmn] at hm'
    · have hid := ((c.numbered us).ledger.consistent.find? ha).1
      exact ⟨_, hlog.settle hop turn hspins hindex (hs ▸ hid) others⟩

theorem logs_run (hmoves : ∀ m, .move m ∉ c.calls) (us : List Turn) :
    ∃ φ log, Tracks (fun _ => True) c.calls (c.after us) φ ∧
      (∀ n, c.Tells us n (φ n).change?) ∧ c.Logs us φ log := by
  obtain ⟨φ, htracks, htells, log, hlog⟩ := c.run_induction (P := fun _ => True)
    (M := fun us φ => (∀ n, c.Tells us n (φ n).change?) ∧ ∃ log, c.Logs us φ log) trivial
    (fun _ _ => trivial) ⟨fun _ _ hk => (nomatch hk), [], c.logs_start⟩
    (fun _ _ _ _ h hturned => ⟨tells_turn h.1 hturned, logs_turn hmoves h.2 hturned⟩) us
  exact ⟨φ, log, htracks, htells, hlog⟩

theorem Logs.mem (h : c.Logs us φ log) (htells : ∀ n, c.Tells us n (φ n).change?)
    {e : SettledSpin} (hs : c.Settles us ext e) : e ∈ log := by
  obtain ⟨bet, ctx, hop⟩ := hs.call
  have htell := htells e.call
  have hchange : (φ e.call).change?.isSome := by
    rw [Option.isSome_iff_ne_none]
    intro hnone
    rw [hnone] at htell
    exact hs.not_still (htell _ hs.task)
  obtain ⟨e', he', hcall⟩ := h.all _ _ _ _ hop hchange
  obtain ⟨ext', hs', -⟩ := h.entries e' he'
  have heq : e'.turn = e.turn :=
    htell.unique (hcall ▸ hs'.task) hs'.not_still hs.task hs.not_still
  have hspin : e'.spin = e.spin := by
    have hspins := hs'.spins
    rw [heq, hs.spins, List.append_cancel_left_eq] at hspins
    exact (List.singleton_inj.mp hspins).symm
  obtain ⟨turn, call, spin⟩ := e
  obtain ⟨turn', call', spin'⟩ := e'
  subst hcall heq hspin
  exact he'

theorem Settles.answer {P : Odds → Prop} (htracks : Tracks P c.calls (c.after us) φ)
    (htells : ∀ n, c.Tells us n (φ n).change?)
    {e : SettledSpin} (hs : c.Settles us ext e) :
    c.answer? us e.call = e.spin.net?.map (.settled e.spin) := by
  obtain ⟨bet, ctx, hop⟩ := hs.call
  have htell := htells e.call
  cases hφ : (φ e.call).change? with
  | none =>
    rw [hφ] at htell
    exact (hs.not_still (htell _ hs.task)).elim
  | some x =>
    obtain ⟨l, l'⟩ := x
    rw [hφ] at htell
    obtain ⟨k, hk, rfl, rfl, hothers⟩ := htell
    have heq : e.turn = k := by_contra fun hne => hs.not_still (hothers _ hne hs.task)
    have hm := (answered htracks hop).2 _ _ hφ
    rcases hm.spins (fun m h => nomatch h) with ⟨-, hne⟩ | ⟨_, _, _, s, -, hspins, -, hr⟩
    · exact (hne ext bet ctx rfl).elim
    · rw [← heq, hs.spins, List.append_cancel_left_eq] at hspins
      rw [List.singleton_inj.mp hspins]
      exact hr

/-- A settlement that has answered with a spin has committed it. -/
theorem settles_of_answer (c : Scenario) {us : List Turn} {n : Nat} {bet : Decimal}
    {ctx : Option String} (hop : c.calls[n]? = some (.settle ext bet ctx)) {s : Spin} {net : Decimal}
    (hans : c.answer? us n = some (.settled s net)) : ∃ k, c.Settles us ext ⟨k, n, s⟩ := by
  obtain ⟨φ, htracks, htells⟩ := c.run_induction (P := fun _ => True)
    (M := fun us φ => ∀ n, c.Tells us n (φ n).change?) trivial (fun _ _ => trivial)
    (fun _ _ hk => (nomatch hk)) (fun _ _ _ _ => tells_turn) us
  obtain ⟨hrefuses, hmakes⟩ := answered htracks hop
  rw [hans] at hrefuses hmakes
  have htell := htells n
  cases hφ : (φ n).change? with
  | none =>
    obtain ⟨e, he⟩ := hrefuses hφ _ rfl
    cases he
  | some x =>
    obtain ⟨l, l'⟩ := x
    rw [hφ] at htell
    obtain ⟨k, hk, rfl, rfl, -⟩ := htell
    rcases (hmakes _ _ hφ).spins (fun m h => nomatch h) with ⟨-, hne⟩ | ⟨_, _, _, s', -, hspins, -, hr⟩
    · exact (hne ext bet ctx rfl).elim
    · obtain ⟨net', -, hr⟩ := Option.map_eq_some_iff.mp hr.symm
      cases hr
      exact ⟨k, ⟨bet, ctx, hop⟩, hk, hspins⟩

/-- All settlements on the account of an external id that were committed before a turn, in the
order of their commits, each call once. -/
structure Settlements (c : Scenario) (us : List Turn) (ext : Identifier) (turn : Nat)
    (settled : List SettledSpin) : Prop where
  sorted : settled.Pairwise (·.turn < ·.turn)
  once : (settled.map (·.call)).Nodup
  mem_iff : ∀ e, e ∈ settled ↔ e.turn < turn ∧ c.Settles us ext e

theorem Logs.settlements (h : c.Logs us φ log) (htells : ∀ n, c.Tells us n (φ n).change?)
    {id : AccountId} (hid : (c.ledger us).index.get? ext = some id) (k : Nat) :
    c.Settlements us ext k ((log.filter (·.turn < k)).filter (·.spin.accountId = id)) where
  sorted := (h.sorted.filter _).filter _
  once := by
    have hmem : ∀ e ∈ (log.filter (·.turn < k)).filter (·.spin.accountId = id), e ∈ log :=
      fun e he => (List.mem_filter.mp (List.mem_filter.mp he).1).1
    rw [List.Nodup, List.pairwise_map]
    refine ((h.sorted.filter _).filter _).imp_of_mem fun he he' hlt hcall => ?_
    obtain ⟨_, hs, -⟩ := h.entries _ (hmem _ he)
    obtain ⟨_, hs', -⟩ := h.entries _ (hmem _ he')
    exact hlt.ne ((htells _).unique hs.task hs.not_still (hcall ▸ hs'.task) hs'.not_still)
  mem_iff e := by
    simp only [List.mem_filter, decide_eq_true_eq]
    constructor
    · rintro ⟨⟨he, hlt⟩, hacc⟩
      obtain ⟨ext', hs, hid'⟩ := h.entries e he
      rw [hacc] at hid'
      have hext := (c.numbered us).ledger.index_injective hid hid'
      exact ⟨hlt, hext ▸ hs⟩
    · rintro ⟨hlt, hs⟩
      have he := h.mem htells hs
      refine ⟨⟨he, hlt⟩, ?_⟩
      obtain ⟨ext', hs', hid'⟩ := h.entries e he
      obtain ⟨bet, ctx, hop⟩ := hs.call
      obtain ⟨bet', ctx', hop'⟩ := hs'.call
      rw [hop] at hop'
      cases hop'
      rw [hid] at hid'
      exact (Option.some.inj hid').symm

/-- A history that answers has, at one of its turns, read the settlements on its account: it
tells those committed by then, newest first and at most so many as it was asked for. Each of
them is the answer of the call that settled it, and every call that has answered by then is
there. The ids go down, no other account is in it, the account's spins are the whole of it
reversed, and a smaller limit gives a prefix. -/
theorem history_settled (hmoves : ∀ m, .move m ∉ c.calls) {n : Nat} {limit : Int}
    {spins : List Spin} (hcall : c.calls[n]? = some (.history ext limit))
    (hans : c.answer? us n = some (.spins spins)) :
    ∃ turn a settled, us[turn]? = some (.step n) ∧
      (c.ledger (us.take turn)).find? ext = some a ∧ c.Settlements us ext turn settled ∧
      spins = ((settled.map (·.spin)).reverse).take limit.toNat ∧
      (∀ e ∈ settled, c.answer? us e.call = e.spin.net?.map (.settled e.spin)) ∧
      (∀ m bet ctx s net, c.calls[m]? = some (.settle ext bet ctx) →
        c.answer? (us.take turn) m = some (.settled s net) →
        ∃ e ∈ settled, e.call = m ∧ e.spin = s) ∧
      spins.Pairwise (·.id > ·.id) ∧ (∀ s ∈ spins, s.accountId = a.id) ∧
      (c.ledger (us.take turn)).spinsOf a.id = settled.map (·.spin) ∧
      ∀ limit' ≤ limit,
        Transaction.empty.list (c.ledger (us.take turn)) a.id (max limit' 0) <+: spins := by
  obtain ⟨φ, log, htracks, htells, hlog⟩ := logs_run hmoves us
  obtain ⟨hrefuses, hmakes⟩ := answered htracks hcall
  rw [hans] at hrefuses hmakes
  have htell := htells n
  cases hφ : (φ n).change? with
  | none =>
    obtain ⟨e, he⟩ := hrefuses hφ _ rfl
    cases he
  | some x =>
    obtain ⟨l, l'⟩ := x
    rw [hφ] at htell
    -- The answer was made in turn `k`; the log has the spins that were committed before it.
    obtain ⟨k, hk, rfl, -, -⟩ := htell
    obtain ⟨-, a, ha, hr⟩ := hmakes _ _ hφ
    have hspins : spins = Transaction.empty.list (c.ledger (us.take k)) a.id (max limit 0) := by
      cases hr
      rfl
    have hnumbered := (c.numbered (us.take k)).ledger
    have hid := hlog.index k ext a.id (hnumbered.consistent.find? ha).1
    have hsettlements := hlog.settlements htells hid k
    have hlist : (c.ledger (us.take k)).spinsOf a.id =
        ((log.filter (·.turn < k)).filter (·.spin.accountId = a.id)).map (·.spin) := by
      rw [Ledger.spinsOf, hlog.spins k, List.filter_map]
      rfl
    rw [Transaction.list_empty] at hspins
    refine ⟨k, a, _, hk, ha, hsettlements, hlist ▸ hspins, fun e he => ?_,
      fun m bet ctx s net hop hm => ?_, ?_, fun s hs => ?_, hlist, fun limit' hle => ?_⟩
    · exact ((hsettlements.mem_iff e).mp he).2.answer htracks htells
    · obtain ⟨j, hs⟩ := c.settles_of_answer hop hm
      have hlt : j < k := hs.lt.trans_le (List.length_take_le _ _)
      refine ⟨⟨j, m, s⟩, (hsettlements.mem_iff _).mpr ⟨hlt, ?_⟩, rfl, rfl⟩
      have hs' := hs.append (us.drop k)
      rwa [List.take_append_drop] at hs'
    · rw [hspins]
      refine List.Pairwise.sublist (List.take_sublist _ _) ?_
      rw [List.pairwise_reverse]
      exact hnumbered.spins_increasing.filter _
    · rw [hspins] at hs
      have hs' := List.mem_reverse.mp (List.mem_of_mem_take hs)
      exact of_decide_eq_true (List.mem_filter.mp hs').2
    · rw [hspins, Transaction.list_empty]
      exact List.take_prefix_take_left (Int.toNat_le_toNat hle)

/-- Two settlements that win ten times their bet, and the newest of them. -/
def twoWins : Scenario where
  config := .standard
  entropy _ := .ofList []
  probes := []
  calls := [.seed .nil .ten, .settle .nil .two none, .settle .nil .two none, .history .nil 1]

def twoWinsTurns : List Turn :=
  List.replicate 5 (.step 0) ++ List.replicate 35 (.step 1) ++ List.replicate 35 (.step 2) ++
    List.replicate 20 (.step 3)

theorem history_settled_twoWins :
    (∀ m, .move m ∉ twoWins.calls) ∧ twoWins.calls[3]? = some (.history .nil 1) ∧
      twoWins.answer? twoWinsTurns 3 = some (.spins [{ oneWinSpin with id := 2 }]) ∧
      ∃ turn settled, twoWins.Settlements twoWinsTurns .nil turn settled ∧
        [{ oneWinSpin with id := 2 }] = ((settled.map (·.spin)).reverse).take 1 := by
  have hmoves : ∀ m, .move m ∉ twoWins.calls := by
    intro m h
    simp [twoWins] at h
  have hans : twoWins.answer? twoWinsTurns 3 = some (.spins [{ oneWinSpin with id := 2 }]) := by
    decide +kernel
  obtain ⟨turn, a, settled, -, -, hsettled, hspins, -⟩ :=
    history_settled hmoves (show twoWins.calls[3]? = some (.history .nil 1) from rfl) hans
  exact ⟨hmoves, rfl, hans, turn, settled, hsettled, hspins⟩

end Scenario

end WagerLedger

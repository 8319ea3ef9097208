import WagerLedger.Proofs.Session.LoneCall

/-! # Accounts do not interfere

Calls are made one after the other. Each of them changes no other account than its own, and two
ledgers with the same passbook of an external id are all the same to the calls on it. So the
calls on other accounts can be left out, and nothing that the caller sees changes but ids. -/
namespace WagerLedger

def LoneCall.on (ext : Identifier) (c : LoneCall) : Bool :=
  decide (c.op.externalId? = some ext)

/-- A reply without the ids that the ledger has given out. -/
def Reply.withoutIds : Reply → Reply
  | .account a => .account { a with id := 0 }
  | .spin s => .spin s.withoutIds
  | .settled s net => .settled s.withoutIds net
  | .spins l => .spins (l.map Spin.withoutIds)
  | .ledgerError (.accountNotFound _) => .ledgerError (.accountNotFound 0)
  | .settlementError (.storage (.accountNotFound _)) =>
    .settlementError (.storage (.accountNotFound 0))
  | r => r

/-- The replies to the calls on one external id, without ids. -/
def repliesOn (ext : Identifier) (cs : List LoneCall) (rs : List Reply) : List Reply :=
  ((cs.zip rs).filter fun x => x.1.on ext).map fun x => x.2.withoutIds

section Alike

variable {ext : Identifier} {id id' : AccountId} {lag : Nat}

theorem LedgerError.eq_of_alike {e e' : LedgerError}
    (h : e.Alike (.oneAccount ext id id' lag) e') :
    (Reply.ledgerError e).withoutIds = (Reply.ledgerError e').withoutIds ∧
      (Reply.settlementError (.storage e)).withoutIds =
        (Reply.settlementError (.storage e')).withoutIds := by
  cases h with
  | same e => exact ⟨rfl, rfl⟩
  | accountNotFound _ => exact ⟨rfl, rfl⟩
  | @insufficientFunds a a' r r' ha hr =>
    obtain rfl : a = a' := ha
    obtain rfl : r = r' := hr
    exact ⟨rfl, rfl⟩
  | @invalidAmount a a' h =>
    obtain rfl : a = a' := h
    exact ⟨rfl, rfl⟩

theorem SettlementError.eq_of_alike {e e' : SettlementError}
    (h : e.Alike (.oneAccount ext id id' lag) e') :
    (Reply.settlementError e).withoutIds = (Reply.settlementError e').withoutIds := by
  cases h with
  | same e => rfl
  | @insufficientFunds a a' r r' ha hr =>
    obtain rfl : a = a' := ha
    obtain rfl : r = r' := hr
    rfl
  | @invalidBet b b' h =>
    obtain rfl : b = b' := h
    rfl
  | @payoutOverflow b b' m m' hb hm =>
    obtain rfl : b = b' := hb
    obtain rfl : m = m' := hm
    rfl
  | storage h => exact (LedgerError.eq_of_alike h).2

theorem Settings.eq_of_alike {c c' : Settings} (h : c.Alike (.oneAccount ext id id' lag) c') :
    c = c' := by
  obtain ⟨⟨p3, p2, m3, m2⟩, retry⟩ := c
  obtain ⟨⟨p3', p2', m3', m2'⟩, retry'⟩ := c'
  obtain ⟨⟨h1, h2, h3, h4⟩, h5⟩ := h
  obtain rfl : p3' = p3 := h1
  obtain rfl : p2' = p2 := h2
  obtain rfl : m3 = m3' := h3
  obtain rfl : m2 = m2' := h4
  obtain rfl : retry' = retry := h5
  rfl

theorem Reply.withoutIds_eq {r r' : Reply} (h : r.Alike (.oneAccount ext id id' lag) r') :
    r.withoutIds = r'.withoutIds := by
  cases h with
  | same r => rfl
  | @account a a' ha =>
    obtain ⟨i, e, b⟩ := a
    obtain ⟨i', e', b'⟩ := a'
    obtain rfl : e' = e := ha.externalId
    obtain rfl : b = b' := ha.balance
    rfl
  | @amount d d' h =>
    obtain rfl : d = d' := h
    rfl
  | @settled s s' n n' hs hn =>
    obtain rfl : n = n' := hn
    rw [withoutIds, withoutIds, Ledger.withoutIds_eq hs]
  | spins h => rw [withoutIds, withoutIds, Ledger.withoutIds_map h]
  | config h => rw [Settings.eq_of_alike h]
  | ledgerError h => exact (LedgerError.eq_of_alike h).1
  | settlementError h => exact SettlementError.eq_of_alike h

end Alike

namespace LoneCall

variable {c : LoneCall} {w w' : World} {ext : Identifier} {lag : Nat}

/-- With the same passbook before, a call returns the same but for ids, and leaves the same
passbook. -/
theorem in_step (hc : c.op.externalId? = some ext) (h : w.AtRest) (h' : w'.AtRest)
    (hclock : w.clock = w'.clock + lag)
    (hbook : w.store.ledger.passbook? ext = w'.store.ledger.passbook? ext) :
    (c.reply? w).map Reply.withoutIds = (c.reply? w').map Reply.withoutIds ∧
      (c.after w).world.clock = (c.after w').world.clock + lag ∧
      (c.after w).world.store.ledger.passbook? ext =
        (c.after w').world.store.ledger.passbook? ext := by
  obtain ⟨id, id', hl⟩ := Ledger.alike_of_passbook? h.numbered h'.numbered hbook lag
  have halike : (c.after w).Alike (.oneAccount ext id id' lag) (c.after w') :=
    (alike_start hc h h' hclock hl).turns c.turns
  refine ⟨?_, halike.world.clock, halike.world.ledger.passbook?⟩
  have hending := rel_bind (forall₂_getElem? halike.list 0) fun t t' ht => ht.ending?
  rw [reply?, reply?]
  generalize (c.after w).list[0]?.bind Task.ending? = e at hending ⊢
  generalize (c.after w').list[0]?.bind Task.ending? = e' at hending ⊢
  cases hending with
  | none => rfl
  | @some e e' he =>
    obtain ⟨ending, moment⟩ := e
    obtain ⟨ending', moment'⟩ := e'
    obtain ⟨hkind, -⟩ := he
    cases hkind with
    | answered hr => exact congrArg some (Reply.withoutIds_eq hr)
    | crashed => rfl
    | blocked => rfl

end LoneCall

section Calls

variable {ext : Identifier} {c : LoneCall} {cs : List LoneCall} {r : Reply} {rs : List Reply}
  {w w' v : World}

theorem on_iff : c.on ext = true ↔ c.op.externalId? = some ext := decide_eq_true_iff

theorem repliesOn_cons_of_on (h : c.on ext = true) :
    repliesOn ext (c :: cs) (r :: rs) = r.withoutIds :: repliesOn ext cs rs := by
  rw [repliesOn, List.zip_cons_cons, List.filter_cons, if_pos h, List.map_cons, repliesOn]

theorem repliesOn_cons_of_not_on (h : c.on ext ≠ true) :
    repliesOn ext (c :: cs) (r :: rs) = repliesOn ext cs rs := by
  rw [repliesOn, List.zip_cons_cons, List.filter_cons, if_neg h, repliesOn]

theorem replies?_cons (h : w.replies? (c :: cs) = some (rs, v)) :
    ∃ r rs', c.reply? w = some r ∧ (c.after w).world.replies? cs = some (rs', v) ∧
      rs = r :: rs' := by
  obtain ⟨r, hr, hrest⟩ := Option.bind_eq_some_iff.mp h
  obtain ⟨⟨rs', v'⟩, hrs, heq⟩ := Option.map_eq_some_iff.mp hrest
  cases heq
  exact ⟨r, rs', hr, hrs, rfl⟩

/-- The second world has the same passbook, and less time may have gone by in it. -/
structure World.InStep (ext : Identifier) (w w' : World) : Prop where
  atRest : w.AtRest
  atRest' : w'.AtRest
  book : w.store.ledger.passbook? ext = w'.store.ledger.passbook? ext
  clock : w'.clock ≤ w.clock

theorem World.InStep.left (h : w.InStep ext w') {other : Identifier}
    (hc : c.op.externalId? = some other) (hne : other ≠ ext) (hr : c.reply? w = some r) :
    (c.after w).world.InStep ext w' where
  atRest := LoneCall.atRest_after h.atRest hc hr
  atRest' := h.atRest'
  book := (LoneCall.leaves_after h.atRest hc hne).passbook?.trans h.book
  clock := h.clock.trans (c.clock_after w)

theorem World.InStep.both (h : w.InStep ext w') (hc : c.op.externalId? = some ext)
    (hr : c.reply? w = some r) : ∃ r', c.reply? w' = some r' ∧ r.withoutIds = r'.withoutIds ∧
      (c.after w).world.InStep ext (c.after w').world := by
  obtain ⟨hreply, hclock, hbook⟩ := LoneCall.in_step hc h.atRest h.atRest'
    (Nat.add_sub_of_le h.clock).symm h.book
  rw [hr, Option.map_some] at hreply
  obtain ⟨r', hr', hids⟩ := Option.map_eq_some_iff.mp hreply.symm
  refine ⟨r', hr', hids.symm, LoneCall.atRest_after h.atRest hc hr,
    LoneCall.atRest_after h.atRest' hc hr', hbook, ?_⟩
  rw [hclock]
  exact Nat.le_add_right _ _

theorem World.InStep.replies? (hcs : ∀ c ∈ cs, c.op.externalId?.isSome = true)
    (h : w.InStep ext w') (hrs : w.replies? cs = some (rs, v)) :
    ∃ rs' v', w'.replies? (cs.filter (·.on ext)) = some (rs', v') ∧
      repliesOn ext cs rs = rs'.map Reply.withoutIds ∧ v.InStep ext v' := by
  induction cs generalizing w w' rs with
  | nil =>
    cases hrs
    exact ⟨[], w', rfl, rfl, h⟩
  | cons c cs ih =>
    obtain ⟨r, rs, hr, hrest, rfl⟩ := replies?_cons hrs
    obtain ⟨other, hc⟩ := Option.isSome_iff_exists.mp (hcs c List.mem_cons_self)
    have hrestOn := fun c' hc' => hcs c' (List.mem_cons_of_mem c hc')
    by_cases hon : c.on ext = true
    · obtain ⟨r', hr', hids, hstep⟩ := h.both (on_iff.mp hon) hr
      obtain ⟨rs', v', hrs', hreplies, hv⟩ := ih hrestOn hstep hrest
      refine ⟨r' :: rs', v', ?_, ?_, hv⟩
      · rw [List.filter_cons_of_pos hon, World.replies?, hr', Option.bind_some, hrs']
        rfl
      · rw [repliesOn_cons_of_on hon, hids, hreplies, List.map_cons]
    · have hne : other ≠ ext := by
        rintro rfl
        exact hon (on_iff.mpr hc)
      rw [List.filter_cons_of_neg hon, repliesOn_cons_of_not_on hon]
      exact ih hrestOn (h.left hc hne hr) hrest

theorem atRest_start (entropy : Nat → Words) : (World.start entropy []).AtRest :=
  ⟨rfl, rfl, fun _ => rfl, rfl, rfl, rfl, Ledger.numbered_empty⟩

/-- Of any calls that have been made one after the other, those on other external ids can be
left out: the calls on one external id return the same but for ids, and its balance and its
spins are the same. And no call ever changes an account of another external id than its own. -/
theorem accounts_apart {entropy : Nat → Words}
    (hcs : ∀ c ∈ cs, c.op.externalId?.isSome = true)
    (hrs : (World.start entropy []).replies? cs = some (rs, w)) :
    (∀ ext, ∃ rs' w', (World.start entropy []).replies? (cs.filter (·.on ext)) = some (rs', w') ∧
      repliesOn ext cs rs = rs'.map Reply.withoutIds ∧
      w.store.ledger.passbook? ext = w'.store.ledger.passbook? ext) ∧
    ∀ (c : LoneCall) (ext other : Identifier), c.op.externalId? = some ext → ext ≠ other →
      w.store.ledger.Leaves (c.after w).world.store.ledger other := by
  have hstart (ext : Identifier) : (World.start entropy []).InStep ext (World.start entropy []) :=
    ⟨atRest_start entropy, atRest_start entropy, rfl, Nat.le_refl _⟩
  refine ⟨fun ext => ?_, fun c ext other hc hne => ?_⟩
  · obtain ⟨rs', w', hrs', hreplies, hw⟩ := (hstart ext).replies? hcs hrs
    exact ⟨rs', w', hrs', hreplies, hw.book⟩
  · obtain ⟨rs', w', -, -, hw⟩ := (hstart ext).replies? hcs hrs
    exact LoneCall.leaves_after hw.atRest hc hne

/-- A call that its client takes up at once and goes on with. -/
def promptly (op : Operation) : LoneCall where
  op := op
  config := .standard
  entropy _ := .ofList []
  turns := List.replicate 40 (.step 0)

def otherId : Identifier := ⟨Identifier.nil.value + 1, by decide⟩

/-- Two accounts that bet in turn. -/
def twoAccounts : List LoneCall :=
  [promptly (.seed otherId .ten), promptly (.seed .nil .ten),
    promptly (.settle otherId .two none), promptly (.settle .nil .two none),
    promptly (.withdraw otherId .ten), promptly (.history .nil 5)]

theorem accounts_apart_twoAccounts :
    ∃ rs w, (World.start (fun _ => .ofList []) []).replies? twoAccounts = some (rs, w) ∧
      (∀ ext, ∃ rs' w',
        (World.start (fun _ => .ofList []) []).replies? (twoAccounts.filter (·.on ext)) =
          some (rs', w') ∧
        repliesOn ext twoAccounts rs = rs'.map Reply.withoutIds ∧
        w.store.ledger.passbook? ext = w'.store.ledger.passbook? ext) ∧
      ∀ (c : LoneCall) (ext other : Identifier), c.op.externalId? = some ext → ext ≠ other →
        w.store.ledger.Leaves (c.after w).world.store.ledger other := by
  have hreturn : ((World.start (fun _ => .ofList []) []).replies? twoAccounts).isSome = true := by
    decide +kernel
  obtain ⟨⟨rs, w⟩, hrs⟩ := Option.isSome_iff_exists.mp hreturn
  exact ⟨rs, w, hrs, accounts_apart (by decide) hrs⟩

end Calls

end WagerLedger

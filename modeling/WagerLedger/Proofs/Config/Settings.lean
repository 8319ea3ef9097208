import WagerLedger.Config.Settings
import WagerLedger.Proofs.Backoff.Range
import WagerLedger.Proofs.Config.Loading

/-! # Loading settings

The nine variables of the settings in the order in which they are read, and the checks in the
order in which they are made, with their bounds as bounds of numbers: a double that is no number,
or an infinite one, keeps none of them. -/
namespace WagerLedger

theorem Duration.ofNanos?_millis {n : Nat} (h : n ≤ 18446744073709551615) :
    ofNanos? (n * nanosPerMilli) = some (ofMillis n) := by
  have hlt : n * nanosPerMilli < 18446744073709551616000000000 := by
    change n * 1000000 < _
    omega
  have hnanos : ofNanos? (n * nanosPerMilli) = some ⟨_, hlt⟩ := dif_pos hlt
  rw [ofMillis, ofNanos, hnanos, Option.getD_some]

theorem Duration.readMillis_eq (cs : List Char) :
    readMillis cs = ofMillis <$> Digits.read 18446744073709551615 cs := by
  unfold readMillis
  cases hread : Digits.read 18446744073709551615 cs with
  | error e => rfl
  | ok n =>
    have hbind : ∀ f : Nat → Except WholeNumberError Duration, (Except.ok n >>= f) = f n :=
      fun _ => rfl
    rw [hbind, ofNanos?_millis (Digits.read_le hread)]
    rfl

theorem Environment.readMillis_eq :
    readMillis = fun cs => Duration.ofMillis <$> readWhole 18446744073709551615 cs := by
  funext cs
  rw [readMillis, readWhole, Duration.readMillis_eq]
  cases Digits.read 18446744073709551615 cs with
  | error e => rfl
  | ok n => rfl

def Binary64.IsProbability (x : Binary64) : Prop := x.isFinite = true ∧ 0 ≤ x.toRat ∧ x.toRat ≤ 1

theorem Binary64.inUnitInterval_iff_isProbability (x : Binary64) :
    x.inUnitInterval = true ↔ x.IsProbability :=
  ⟨fun h => ⟨isFinite_of_inUnitInterval h,
      (inUnitInterval_iff (isFinite_of_inUnitInterval h)).mp h⟩,
    fun h => (inUnitInterval_iff h.1).mpr h.2⟩

namespace Settings

/-- A variable for a whole number of milliseconds. -/
def millisVariable (name : String) (field : Settings → Duration) (default : Nat) :
    Variable Settings where
  name := name
  Value := Duration
  read cs := Duration.ofMillis <$> Environment.readWhole 18446744073709551615 cs
  field := field
  default := .ofMillis default

def doubleVariable (name : String) (field : Settings → Binary64) : Variable Settings where
  name := name
  Value := Binary64
  read := Environment.readDouble
  field := field
  default := field standard

def decimalVariable (name : String) (field : Settings → Decimal) : Variable Settings where
  name := name
  Value := Decimal
  read := Environment.readDecimal
  field := field
  default := field standard

def inputs : List (Variable Settings) :=
  [doubleVariable "THREE_MATCH_PROBABILITY" (·.odds.threeMatchProbability),
    doubleVariable "TWO_MATCH_PROBABILITY" (·.odds.twoMatchProbability),
    decimalVariable "MULTIPLIER_THREE" (·.odds.threeMatchMultiplier),
    decimalVariable "MULTIPLIER_TWO" (·.odds.twoMatchMultiplier),
    millisVariable "SPIN_RETRY_INITIAL_INTERVAL_MS" (·.retry.initialInterval) 500,
    doubleVariable "SPIN_RETRY_MULTIPLIER" (·.retry.multiplier),
    millisVariable "SPIN_RETRY_MAX_ELAPSED_MS" (·.retry.maxElapsed) 2000,
    millisVariable "SPIN_RETRY_MAX_INTERVAL_MS" (·.retry.maxInterval) 60000,
    doubleVariable "SPIN_RETRY_RANDOMIZATION" (·.retry.randomizationFactor)]

def checks : List (Check Settings) :=
  [⟨"THREE_MATCH_PROBABILITY", (·.odds.threeMatchProbability.IsProbability),
      fun c => .improbable c.odds.threeMatchProbability⟩,
    ⟨"TWO_MATCH_PROBABILITY", (·.odds.twoMatchProbability.IsProbability),
      fun c => .improbable c.odds.twoMatchProbability⟩,
    ⟨"MULTIPLIER_THREE", (0 ≤ ·.odds.threeMatchMultiplier.toRat),
      fun c => .negativeMultiplier c.odds.threeMatchMultiplier⟩,
    ⟨"MULTIPLIER_TWO", (0 ≤ ·.odds.twoMatchMultiplier.toRat),
      fun c => .negativeMultiplier c.odds.twoMatchMultiplier⟩,
    ⟨"SPIN_RETRY_INITIAL_INTERVAL_MS", (0 < ·.retry.initialInterval.nanos),
      fun _ => .notPositive⟩,
    ⟨"SPIN_RETRY_MULTIPLIER",
      fun c => c.retry.multiplier.isFinite = true ∧ 1 ≤ c.retry.multiplier.toRat,
      fun c => .notGrowing c.retry.multiplier⟩,
    ⟨"SPIN_RETRY_MAX_INTERVAL_MS",
      fun c => c.retry.initialInterval.nanos ≤ c.retry.maxInterval.nanos,
      fun c => .belowInitialInterval c.retry.initialInterval⟩,
    ⟨"SPIN_RETRY_RANDOMIZATION", (·.retry.randomizationFactor.IsProbability),
      fun _ => .outsideUnitInterval⟩]

theorem read_reads (env : Environment) : Reads inputs env (fun _ => True) (read env) := by
  unfold read
  rw [Environment.readMillis_eq]
  exact reads_cons fun p3 => reads_cons fun p2 => reads_cons fun m3 => reads_cons fun m2 =>
    reads_cons fun initial => reads_cons fun multiplier => reads_cons fun elapsed =>
      reads_cons fun interval => reads_cons fun factor =>
        reads_nil ⟨rfl, rfl, rfl, rfl, rfl, rfl, rfl, rfl, rfl, trivial⟩

theorem requireProbability_bind {name : String} {p : Binary64} {x : Except ConfigError Unit} :
    (requireProbability name p >>= fun _ => x) =
      if p.inUnitInterval = false then .error (.invalid name (.improbable p)) else x := by
  unfold requireProbability
  cases p.inUnitInterval <;> rfl

theorem requireMultiplier_bind {name : String} {m : Decimal} {x : Except ConfigError Unit} :
    (requireMultiplier name m >>= fun _ => x) =
      if m.isNegative = true then .error (.invalid name (.negativeMultiplier m)) else x := by
  unfold requireMultiplier
  cases m.isNegative <;> rfl

theorem inUnitInterval_eq_false_iff (x : Binary64) :
    x.inUnitInterval = false ↔ ¬x.IsProbability := by
  rw [← x.inUnitInterval_iff_isProbability, Bool.not_eq_true]

theorem isNegative_iff_not_nonneg (m : Decimal) : m.isNegative = true ↔ ¬0 ≤ m.toRat := by
  rw [m.isNegative_iff, not_le]

theorem growth_iff (x : Binary64) :
    (!x.isFinite || x.less Binary64.one) = true ↔ ¬(x.isFinite = true ∧ 1 ≤ x.toRat) := by
  cases hx : x.isFinite with
  | false => simp
  | true => simp [Binary64.less_iff hx (y := Binary64.one) rfl]

theorem validate_checked (c : Settings) : Checked checks c c.validate := by
  have hretry : Checked (checks.drop 4) c (validateRetry c.retry) := by
    refine checked_cons ?_ (checked_cons ?_ (checked_cons ?_ (checked_cons ?_ (checked_nil c))))
    · change (c.retry.initialInterval.nanos == 0) = true ↔ ¬0 < c.retry.initialInterval.nanos
      rw [beq_iff_eq]
      omega
    · exact growth_iff c.retry.multiplier
    · exact not_le.symm
    · rw [Bool.not_eq_true']
      exact inUnitInterval_eq_false_iff _
  unfold validate
  rw [requireProbability_bind, requireProbability_bind, requireMultiplier_bind,
    requireMultiplier_bind]
  exact checked_cons (inUnitInterval_eq_false_iff _) (checked_cons (inUnitInterval_eq_false_iff _)
    (checked_cons (isNegative_iff_not_nonneg _)
      (checked_cons (isNegative_iff_not_nonneg _) hretry)))

theorem eq_of_fields {c c' : Settings} (h : ∀ v ∈ inputs, v.field c = v.field c') : c = c' := by
  obtain ⟨⟨p3, p2, m3, m2⟩, ⟨initial, multiplier, elapsed, interval, factor⟩⟩ := c
  obtain ⟨⟨p3', p2', m3', m2'⟩, ⟨initial', multiplier', elapsed', interval', factor'⟩⟩ := c'
  simp only [inputs, List.forall_mem_cons] at h
  obtain ⟨h₁, h₂, h₃, h₄, h₅, h₆, h₇, h₈, h₉, -⟩ := h
  obtain rfl : p3 = p3' := h₁
  obtain rfl : p2 = p2' := h₂
  obtain rfl : m3 = m3' := h₃
  obtain rfl : m2 = m2' := h₄
  obtain rfl : initial = initial' := h₅
  obtain rfl : multiplier = multiplier' := h₆
  obtain rfl : elapsed = elapsed' := h₇
  obtain rfl : interval = interval' := h₈
  obtain rfl : factor = factor' := h₉
  rfl

theorem ofEnvironment_eq_iff (env : Environment) (r : Except ConfigError Settings) :
    ofEnvironment env = r ↔ Loads (fun _ => True) inputs checks env r := by
  have hloads := loads_of_reads (read_reads env) validate_checked
  refine ⟨fun h => h ▸ hloads, fun h => hloads.unique (fun c c' _ _ => eq_of_fields) h⟩

end Settings

end WagerLedger

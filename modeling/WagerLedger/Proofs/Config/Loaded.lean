import WagerLedger.Proofs.Config.Pool
import WagerLedger.Proofs.Config.Settings

/-! # What an environment is loaded as

Settings and the configuration of a pool are what their variables give, and the first fault is
told where there is one. A default stands in for a variable that is not set, and also for one
that is set to bytes that are no text. -/
namespace WagerLedger

/-- The result of loading: the variables are read in their order and what they give is checked in
the order of the checks, so it is a configuration exactly when all can be read and all bounds
hold, and otherwise the first fault. Other variables do not matter. -/
theorem loaded_exactly (env : Environment) :
    (∀ r, Settings.ofEnvironment env = r ↔
      Loads (fun _ => True) Settings.inputs Settings.checks env r) ∧
    (∀ url, env.Sets "DATABASE_URL" url → ∀ r, PoolConfig.ofEnvironment env = r ↔
      Loads (·.databaseUrl = url) PoolConfig.inputs PoolConfig.checks env r) ∧
    (∀ env' : Environment,
      (∀ v ∈ Settings.inputs, Table.get? env v.name = Table.get? env' v.name) →
      Settings.ofEnvironment env' = Settings.ofEnvironment env) ∧
    ∀ env' : Environment, Table.get? env "DATABASE_URL" = Table.get? env' "DATABASE_URL" →
      (∀ v ∈ PoolConfig.inputs, Table.get? env v.name = Table.get? env' v.name) →
      PoolConfig.ofEnvironment env' = PoolConfig.ofEnvironment env := by
  refine ⟨Settings.ofEnvironment_eq_iff env, fun url hurl => PoolConfig.ofEnvironment_eq_iff hurl,
    fun env' henv => ?_, fun env' hurl henv => ?_⟩
  · have hloads := (Settings.ofEnvironment_eq_iff env _).mp rfl
    exact (Settings.ofEnvironment_eq_iff env' _).mpr (hloads.congr henv)
  · cases htext : env.text? "DATABASE_URL" with
    | none =>
      have hnone := Environment.text?_eq_none.mp htext
      rw [PoolConfig.ofEnvironment_eq_missing hnone, PoolConfig.ofEnvironment_eq_missing]
      rw [Environment.Unset, Environment.Garbles, ← hurl]
      exact hnone
    | some url =>
      have hset := Environment.text?_eq_some.mp htext
      have hloads := (PoolConfig.ofEnvironment_eq_iff hset _).mp rfl
      exact (PoolConfig.ofEnvironment_eq_iff (hurl.symm.trans hset) _).mpr (hloads.congr henv)

/-- An initial interval above the default cap, behind it a random part that is no number, and a
pool with too many connections at rest. -/
def mixedEnvironment : Environment :=
  ⟨[("SPIN_RETRY_INITIAL_INTERVAL_MS", " 90000 ".toUTF8),
    ("SPIN_RETRY_RANDOMIZATION", "NaN".toUTF8), ("DATABASE_URL", "db".toUTF8),
    ("DB_MIN_CONNECTIONS", "21".toUTF8)]⟩

theorem loaded_exactly_mixed :
    mixedEnvironment.Sets "DATABASE_URL" "db" ∧
      Loads (fun _ => True) Settings.inputs Settings.checks mixedEnvironment
        (.error (.invalid "SPIN_RETRY_MAX_INTERVAL_MS" (.belowInitialInterval (.ofMillis 90000)))) ∧
      Loads (·.databaseUrl = "db") PoolConfig.inputs PoolConfig.checks mixedEnvironment
        (.error (.invalid "DB_MIN_CONNECTIONS" (.aboveMaximum 20))) := by
  have hurl : mixedEnvironment.Sets "DATABASE_URL" "db" := rfl
  exact ⟨hurl, ((loaded_exactly mixedEnvironment).1 _).mp (by decide +kernel),
    ((loaded_exactly mixedEnvironment).2.1 "db" hurl _).mp (by decide +kernel)⟩

/-- Loaded fields are read from the texts of their variables, and the default is taken only where
a variable is not set to a text. A text that cannot be read never passes: its variable is blamed,
or one that is read before it. The address of a pool is missing if it is not set to a text. -/
theorem defaults_without_text (env : Environment) :
    (∀ s, Settings.ofEnvironment env = .ok s → Given Settings.inputs env s) ∧
    (∀ before v after text detail, Settings.inputs = before ++ v :: after →
      v.Unreadable env text detail →
      ∃ w ∈ before ++ [v], ∃ fault,
        Settings.ofEnvironment env = .error (.invalid w.name fault)) ∧
    (∀ c, PoolConfig.ofEnvironment env = .ok c →
      Given PoolConfig.inputs env c ∧ env.Sets "DATABASE_URL" c.databaseUrl) ∧
    (∀ before v after text detail, PoolConfig.inputs = before ++ v :: after →
      v.Unreadable env text detail →
      PoolConfig.ofEnvironment env = .error PoolConfig.missingUrl ∨
        ∃ w ∈ before ++ [v], ∃ fault,
          PoolConfig.ofEnvironment env = .error (.invalid w.name fault)) ∧
    ((∃ hint, PoolConfig.ofEnvironment env = .error (.missing "DATABASE_URL" hint)) ↔
      env.Unset "DATABASE_URL" ∨ env.Garbles "DATABASE_URL") := by
  have hslot := (Settings.ofEnvironment_eq_iff env _).mp rfl
  refine ⟨fun s hs => ?_, fun before v after text detail hvs hv => hslot.blames hvs hv, ?_⟩
  · rw [hs] at hslot
    exact hslot.2.1
  · cases htext : env.text? "DATABASE_URL" with
    | none =>
      have hnone := Environment.text?_eq_none.mp htext
      have hmissing := PoolConfig.ofEnvironment_eq_missing hnone
      refine ⟨fun c hc => ?_, fun before v after text detail _ _ => .inl hmissing,
        fun _ => hnone, fun _ => ⟨_, hmissing⟩⟩
      rw [hmissing] at hc
      cases hc
    | some url =>
      have hset := Environment.text?_eq_some.mp htext
      have hpool := (PoolConfig.ofEnvironment_eq_iff hset _).mp rfl
      refine ⟨fun c hc => ?_, fun before v after text detail hvs hv =>
        .inr (hpool.blames hvs hv), ?_, fun hnone => ?_⟩
      · rw [hc] at hpool
        exact ⟨hpool.2.1, hpool.1 ▸ hset⟩
      · rintro ⟨hint, herror⟩
        rw [herror] at hpool
        rcases hpool with ⟨_, v, _, _, _, -, -, -, he⟩ | ⟨c, -, -, _, k, _, -, -, -, he⟩
        · cases he
        · cases he
      · rw [← Environment.text?_eq_none, htext] at hnone
        cases hnone

def garbledEnvironment : Environment :=
  ⟨[("THREE_MATCH_PROBABILITY", ⟨#[255]⟩), ("MULTIPLIER_TWO", " 10 ".toUTF8),
    ("DATABASE_URL", ⟨#[255]⟩)]⟩

def garbledSettings : Settings :=
  ⟨{ Odds.standard with twoMatchMultiplier := .ten }, .standard⟩

theorem garbles_of_get {env : Environment} {name : String}
    (h : Table.get? env name = some ⟨#[255]⟩) : env.Garbles name := by
  refine ⟨⟨#[255]⟩, h, fun text htext => ?_⟩
  have hnone : String.fromUTF8? ⟨#[255]⟩ = none := by decide +kernel
  rw [Environment.fromUTF8?_eq_some.mpr htext] at hnone
  cases hnone

theorem defaults_without_text_garbled :
    Settings.ofEnvironment garbledEnvironment = .ok garbledSettings ∧
      Given Settings.inputs garbledEnvironment garbledSettings ∧
      ∃ hint, PoolConfig.ofEnvironment garbledEnvironment =
        .error (.missing "DATABASE_URL" hint) := by
  have hok : Settings.ofEnvironment garbledEnvironment = .ok garbledSettings := by decide +kernel
  obtain ⟨hgiven, -, -, -, hmissing⟩ := defaults_without_text garbledEnvironment
  exact ⟨hok, hgiven _ hok, hmissing.mpr (.inr (garbles_of_get rfl))⟩

/-- The probability is set, and the default is taken for it; the address is set, and it is told
to be missing. -/
theorem garbled_taken_for_unset :
    garbledEnvironment.Garbles "THREE_MATCH_PROBABILITY" ∧
      ¬garbledEnvironment.Unset "THREE_MATCH_PROBABILITY" ∧
      Settings.ofEnvironment garbledEnvironment = .ok garbledSettings ∧
      garbledSettings.odds.threeMatchProbability = Odds.standard.threeMatchProbability ∧
      ¬garbledEnvironment.Unset "DATABASE_URL" ∧
      PoolConfig.ofEnvironment garbledEnvironment = .error PoolConfig.missingUrl :=
  ⟨garbles_of_get rfl, nofun, by decide +kernel, rfl, nofun, by decide +kernel⟩

end WagerLedger

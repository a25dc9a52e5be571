import DocumentCommand.Proofs.Config.Precedence

/-!
# Environments one over another

An environment that is asked after another one counts more, and both together are one environment
(`Layered`).  A count that is no count says nothing, so the later environment does not always hide
the variable of the earlier one: it does so where its text is a count.  What the log is set up with
from the environment alone is what the environment makes of a configuration without settings.
-/

namespace DocumentCommand.Config

/-- One environment that stands for two: each variable is that of the later one where the later one
says something, and else that of the earlier one. -/
structure Layered (earlier later both : String → Option String) : Prop where
  logDir : Prevails (fun directory => later "NEXUS_MODEL_LOG_DIR" = some directory)
    (earlier "NEXUS_MODEL_LOG_DIR") (both "NEXUS_MODEL_LOG_DIR")
  logLevel : Prevails (fun level => later "NEXUS_MODEL_LOG_LEVEL" = some level)
    (earlier "NEXUS_MODEL_LOG_LEVEL") (both "NEXUS_MODEL_LOG_LEVEL")
  logRetention : Prevails
    (fun text => later "NEXUS_MODEL_LOG_RETENTION" = some text ∧ ∃ count, IsCount text count)
    (earlier "NEXUS_MODEL_LOG_RETENTION") (both "NEXUS_MODEL_LOG_RETENTION")

/-- What prevails is the first of what is said and what stood there before. -/
theorem Prevails.eq_or {α : Type} {env : α → Prop} {said file result : Option α}
    (prevails : Prevails env file result) (same : ∀ v, said = some v ↔ env v) :
    result = said.or file := by
  cases said with
  | some v => rw [prevails.environment v ((same v).1 rfl), Option.some_or]
  | none =>
      have nothing : ∀ v, ¬env v := fun v here => by cases (same v).2 here
      rw [prevails.file nothing, Option.none_or]

/-- The text that an environment has for the number of old files, where it is a count. -/
def countText? (lookup : String → Option String) : Option String :=
  (lookup Field.logRetention.envName).filter fun text => (countOfText? text).isSome

theorem countText?_eq_some_iff {lookup : String → Option String} {text : String} :
    countText? lookup = some text ↔
      lookup "NEXUS_MODEL_LOG_RETENTION" = some text ∧ ∃ count, IsCount text count := by
  simp only [countText?, Option.filter_eq_some_iff, Option.isSome_iff_exists,
    countOfText?_eq_some_iff]
  rfl

/-- Texts that are no counts may be left out before counts are read. -/
theorem bind_countText? (lookup : String → Option String) :
    (countText? lookup).bind countOfText?
      = (lookup Field.logRetention.envName).bind countOfText? := by
  rw [countText?]
  cases lookup Field.logRetention.envName with
  | none => rfl
  | some text =>
      cases count : countOfText? text <;> simp [Option.filter, count]

variable {earlier later both : String → Option String}

theorem Layered.logDir_eq (layered : Layered earlier later both) :
    both Field.logDir.envName
      = (later Field.logDir.envName).or (earlier Field.logDir.envName) :=
  layered.logDir.eq_or fun _ => Iff.rfl

theorem Layered.logLevel_eq (layered : Layered earlier later both) :
    both Field.logLevel.envName
      = (later Field.logLevel.envName).or (earlier Field.logLevel.envName) :=
  layered.logLevel.eq_or fun _ => Iff.rfl

/-- The number of old files is that of the later environment if it has a count, and else that of the
earlier one. -/
theorem Layered.count_eq (layered : Layered earlier later both) :
    (both Field.logRetention.envName).bind countOfText?
      = ((later Field.logRetention.envName).bind countOfText?).or
          ((earlier Field.logRetention.envName).bind countOfText?) := by
  have text : both Field.logRetention.envName
      = (countText? later).or (earlier Field.logRetention.envName) :=
    layered.logRetention.eq_or fun _ => countText?_eq_some_iff
  rw [text, ← bind_countText? later]
  cases said : countText? later with
  | none => rfl
  | some text =>
      obtain ⟨-, count, written⟩ := countText?_eq_some_iff.1 said
      have read : countOfText? text = some count := countOfText?_eq_some_iff.2 written
      simp only [Option.some_or, Option.bind_some, read]

/-- Two environments one after the other do what one environment does that stands for both. -/
theorem applyEnv_applyEnv (layered : Layered earlier later both) (c : Config) :
    (c.applyEnv earlier).applyEnv later = c.applyEnv both := by
  simp only [applyEnv, layered.logDir_eq, layered.logLevel_eq, layered.count_eq, Option.or_assoc]

/-- An environment stands for itself asked twice. -/
theorem layered_self (lookup : String → Option String) : Layered lookup lookup lookup := by
  constructor
  case logDir => exact ⟨fun _ here => here, fun _ => rfl⟩
  case logLevel => exact ⟨fun _ here => here, fun _ => rfl⟩
  case logRetention => exact ⟨fun _ here => here.1, fun _ => rfl⟩

/-- The environment that stands for two. -/
def layers (earlier later : String → Option String) (name : String) : Option String :=
  if name = Field.logRetention.envName then (countText? later).or (earlier name)
  else (later name).or (earlier name)

theorem layered_layers (earlier later : String → Option String) :
    Layered earlier later (layers earlier later) := by
  constructor
  case logDir => exact prevails_or fun _ => Iff.rfl
  case logLevel => exact prevails_or fun _ => Iff.rfl
  case logRetention => exact prevails_or fun _ => countText?_eq_some_iff

/-- The log is set up from the environment alone with what the environment says, which is what it
makes of a configuration without settings; a number of old files that is no count is none.  Asking
an environment twice is asking it once, and two environments one after the other do what one does
that stands for both. -/
theorem applyEnv_layered :
    (∀ environment, Loaded environment {} (Logging.settingsOf environment) ∧
      Logging.settingsOf environment = applyEnv {} environment ∧
      ∀ folder, Logging.configureFromEnv environment folder
        = Logging.configure environment (applyEnv {} environment) folder) ∧
    ∀ (c : Config) (earlier later : String → Option String),
      (c.applyEnv earlier).applyEnv earlier = c.applyEnv earlier ∧
      (∃ both, Layered earlier later both) ∧
      ∀ both, Layered earlier later both →
        (c.applyEnv earlier).applyEnv later = c.applyEnv both := by
  have passed (environment : String → Option String) :
      Logging.settingsOf environment = applyEnv {} environment := by
    simp only [Logging.settingsOf, applyEnv, Option.or_none]
  constructor
  · intro environment
    refine ⟨?_, passed environment, fun folder => ?_⟩
    · rw [passed]
      exact loaded_applyEnv environment {}
    · rw [Logging.configureFromEnv, passed]
  · intro c earlier later
    refine ⟨?_, ⟨_, layered_layers earlier later⟩, fun both layered => ?_⟩
    · exact applyEnv_applyEnv (layered_self earlier) c
    · exact applyEnv_applyEnv layered c

/-- An environment with a directory, and a number of old files that carries a sign. -/
def serviceEnvironment (name : String) : Option String :=
  if name = "NEXUS_MODEL_LOG_DIR" then some "/var/log"
  else if name = "NEXUS_MODEL_LOG_RETENTION" then some "+3"
  else none

/-- An environment with a level, and a number of old files that does not fit 64 bits. -/
def sessionEnvironment (name : String) : Option String :=
  if name = "NEXUS_MODEL_LOG_LEVEL" then some "warn"
  else if name = "NEXUS_MODEL_LOG_RETENTION" then some "18446744073709551616"
  else none

/-- The environment that stands for these two. -/
def sessionOfService (name : String) : Option String :=
  if name = "NEXUS_MODEL_LOG_LEVEL" then some "warn" else serviceEnvironment name

/-- The number that does not fit leaves the earlier one in place. -/
theorem applyEnv_layered_session :
    Layered serviceEnvironment sessionEnvironment sessionOfService ∧
    (applyEnv {} serviceEnvironment).applyEnv sessionEnvironment = applyEnv {} sessionOfService ∧
    applyEnv {} sessionOfService = ⟨some "/var/log", some "warn", some 3⟩ := by
  have layered : Layered serviceEnvironment sessionEnvironment sessionOfService := by
    constructor
    case logDir =>
      refine ⟨?_, fun _ => rfl⟩
      rintro directory ⟨⟩
    case logLevel => exact ⟨fun _ here => here, fun nothing => absurd rfl (nothing "warn")⟩
    case logRetention =>
      refine ⟨?_, fun _ => rfl⟩
      rintro text ⟨here, count, written⟩
      obtain rfl : "18446744073709551616" = text := Option.some.inj here
      have refused : countOfText? "18446744073709551616" = none := by decide
      cases refused.symm.trans (countOfText?_eq_some_iff.2 written)
  exact ⟨layered, (applyEnv_layered.2 {} _ _).2.2 _ layered, rfl⟩

end DocumentCommand.Config

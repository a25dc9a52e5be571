import DocumentCommand.Proofs.Logging.Settings
import Mathlib.Data.List.Induction

/-!
# Where settings come from

The file that a configuration is loaded from decides alone whether loading fails
(`load_eq_error_iff`), and each setting that is loaded is what the environment says, else what the
file says (`Loaded`).  A count in the environment is digits with an optional plus sign
(`IsCount`); what is no count says nothing.
-/

namespace DocumentCommand.Config

/-! ### Counts -/

/-- The number that a run of digits writes, from its last digit. -/
inductive IsNumeral : List Char → Nat → Prop where
  | digit {c : Char} : c.isDigit = true → IsNumeral [c] (c.toNat - '0'.toNat)
  | snoc {digits : List Char} {n : Nat} {c : Char} : IsNumeral digits n → c.isDigit = true →
      IsNumeral (digits ++ [c]) (10 * n + (c.toNat - '0'.toNat))

/-- The text writes a count of 64 bits: digits, and perhaps a plus sign before them. -/
def IsCount (text : String) (n : UInt64) : Prop :=
  ∃ digits, (text.toList = digits ∨ text.toList = '+' :: digits) ∧ IsNumeral digits n.toNat

open Text.Digits

theorem IsNumeral.isDigit {digits : List Char} {n : Nat} (numeral : IsNumeral digits n) :
    digits ≠ [] ∧ digits.all Char.isDigit = true := by
  induction numeral with
  | digit first => exact ⟨List.cons_ne_nil _ _, by simp [first]⟩
  | snoc _ last ih => exact ⟨by simp, by simp [ih.2, last]⟩

theorem IsNumeral.value_eq {digits : List Char} {n : Nat} (numeral : IsNumeral digits n) :
    value digits = n := by
  induction numeral with
  | digit _ => simp [value, Nat.ofDigitChars_cons]
  | snoc _ _ ih =>
      rw [value, Nat.ofDigitChars_append, ← value, ih]
      rfl

theorem isNumeral_value {digits : List Char} (nonempty : digits ≠ [])
    (all : digits.all Char.isDigit = true) : IsNumeral digits (value digits) := by
  induction digits using List.reverseRecOn with
  | nil => contradiction
  | append_singleton digits c ih =>
      rw [List.all_append, Bool.and_eq_true] at all
      have last : c.isDigit = true := by simpa using all.2
      by_cases first : digits = []
      · subst first
        simpa [value, Nat.ofDigitChars_cons] using IsNumeral.digit last
      · rw [value, Nat.ofDigitChars_append, ← value]
        exact .snoc (ih first all.1) last

theorem readNat?_eq_some_iff {digits : List Char} {n : Nat} :
    readNat? digits = some n ↔ IsNumeral digits n := by
  rw [readNat?]
  constructor
  · intro read
    split at read
    · next digit =>
        cases read
        exact isNumeral_value digit.1 digit.2
    · cases read
  · intro numeral
    rw [if_pos numeral.isDigit, numeral.value_eq]

theorem readUnsigned?_eq_some_iff {text : List Char} {n : Nat} :
    readUnsigned? text = some n ↔
      ∃ digits, (text = digits ∨ text = '+' :: digits) ∧ IsNumeral digits n := by
  unfold readUnsigned?
  split
  · next digits =>
      rw [readNat?_eq_some_iff]
      constructor
      · exact fun numeral => ⟨digits, .inr rfl, numeral⟩
      · rintro ⟨digits', rfl | same, numeral⟩
        · exact absurd numeral.isDigit.2 (by simp)
        · rwa [(List.cons.inj same).2]
  · next unsigned =>
      rw [readNat?_eq_some_iff]
      constructor
      · exact fun numeral => ⟨text, .inl rfl, numeral⟩
      · rintro ⟨digits, rfl | rfl, numeral⟩
        · exact numeral
        · exact absurd rfl (unsigned digits)

/-- The counts that are read are those that the text writes. -/
theorem countOfText?_eq_some_iff {text : String} {n : UInt64} :
    countOfText? text = some n ↔ IsCount text n := by
  rw [countOfText?, Option.bind_eq_some_iff, IsCount]
  simp only [Integer.uint64?_eq_some_iff, readUnsigned?_eq_some_iff]
  constructor
  · rintro ⟨m, written, rfl⟩
    exact written
  · exact fun written => ⟨_, written, rfl⟩

/-! ### Files -/

/-- The file that a configuration is loaded from: the one that was asked for, else the default file
if it is there. -/
inductive Chosen (explicit : Option File) (default : File) : File → Prop where
  | explicit {file : File} : explicit = some file → Chosen explicit default file
  | default : explicit = none → default ≠ .absent → Chosen explicit default default

/-- The file is not there, cannot be read, or is no configuration. -/
def File.Unusable (file : File) : Prop :=
  file = .absent ∨ file = .unreadable ∨
    ∃ content, file = .text content ∧ ∀ c, ofToml content ≠ .ok c

/-- What is known before the environment is asked: what the chosen file says, nothing where there is
none. -/
inductive Says (explicit : Option File) (default : File) : Config → Prop where
  | file {content : List Char} {c : Config} : Chosen explicit default (.text content) →
      ofToml content = .ok c → Says explicit default c
  | nothing : explicit = none → default = .absent → Says explicit default {}

theorem File.unusable_iff {file : File} : file.Unusable ↔ ∃ e, file.read = .error e := by
  constructor
  · rintro (rfl | rfl | ⟨content, rfl, none⟩)
    · exact ⟨.io, rfl⟩
    · exact ⟨.io, rfl⟩
    · cases read : ofToml content with
      | ok c => exact absurd read (none c)
      | error e => exact ⟨e, read⟩
  · rintro ⟨e, refused⟩
    cases file with
    | absent => exact .inl rfl
    | unreadable => exact .inr (.inl rfl)
    | text content =>
        refine .inr (.inr ⟨content, rfl, fun c read => ?_⟩)
        cases read.symm.trans refused

variable {explicit : Option File} {default : File} {lookup : String → Option String} {c : Config}

/-- A file that is chosen is read, and then the environment is asked. -/
theorem load_of_chosen {file : File} (chosen : Chosen explicit default file) :
    load explicit default lookup = (·.applyEnv lookup) <$> file.read := by
  have asked (read : Except Error Config) :
      (do let c ← read; return c.applyEnv lookup) = (·.applyEnv lookup) <$> read := by
    cases read <;> rfl
  cases chosen with
  | explicit given =>
      subst given
      exact asked file.read
  | default nothing present =>
      subst nothing
      cases default with
      | absent => contradiction
      | unreadable => rfl
      | text content => exact asked (ofToml content)

/-- A file is chosen unless none was asked for and the default file is not there. -/
theorem chosen_or_nothing (explicit : Option File) (default : File) :
    (∃ file, Chosen explicit default file) ∨ explicit = none ∧ default = .absent := by
  cases explicit with
  | some file => exact .inl ⟨file, .explicit rfl⟩
  | none =>
      by_cases absent : default = .absent
      · exact .inr ⟨rfl, absent⟩
      · exact .inl ⟨default, .default rfl absent⟩

/-- What the environment says stands, and where it says nothing what the file says. -/
structure Prevails {α : Type} (env : α → Prop) (file result : Option α) : Prop where
  environment : ∀ v, env v → result = some v
  file : (∀ v, ¬env v) → result = file

/-- A configuration as the environment leaves it of what a file says. -/
structure Loaded (lookup : String → Option String) (file c : Config) : Prop where
  logDir : Prevails (fun directory => lookup "NEXUS_MODEL_LOG_DIR" = some directory)
    file.logDir c.logDir
  logLevel : Prevails (fun level => lookup "NEXUS_MODEL_LOG_LEVEL" = some level)
    file.logLevel c.logLevel
  logRetention : Prevails
    (fun count => ∃ text, lookup "NEXUS_MODEL_LOG_RETENTION" = some text ∧ IsCount text count)
    file.logRetention c.logRetention

theorem prevails_or {α : Type} {env : α → Prop} {said file : Option α}
    (same : ∀ v, said = some v ↔ env v) : Prevails env file (said.or file) := by
  constructor
  case environment =>
    intro v here
    rw [(same v).2 here, Option.some_or]
  case file =>
    intro nothing
    have unsaid : said = none := Option.eq_none_iff_forall_ne_some.2 fun v here =>
      nothing v ((same v).1 here)
    rw [unsaid, Option.none_or]

theorem loaded_applyEnv (lookup : String → Option String) (c : Config) :
    Loaded lookup c (c.applyEnv lookup) := by
  constructor
  case logDir => exact prevails_or fun _ => Iff.rfl
  case logLevel => exact prevails_or fun _ => Iff.rfl
  case logRetention =>
    refine prevails_or fun count => ?_
    simp only [Option.bind_eq_some_iff, countOfText?_eq_some_iff]
    rfl

/-- Loading fails when the chosen file is of no use, whatever the environment holds. -/
theorem load_eq_error_iff : (∃ e, load explicit default lookup = .error e) ↔
    ∃ file, Chosen explicit default file ∧ file.Unusable := by
  simp only [File.unusable_iff]
  constructor
  · rintro ⟨e, failed⟩
    rcases chosen_or_nothing explicit default with ⟨file, chosen⟩ | ⟨rfl, rfl⟩
    · rw [load_of_chosen chosen] at failed
      cases read : file.read with
      | ok c =>
          rw [read] at failed
          cases failed
      | error e => exact ⟨file, chosen, e, read⟩
    · cases failed
  · rintro ⟨file, chosen, e, refused⟩
    refine ⟨e, ?_⟩
    rw [load_of_chosen chosen, refused]
    rfl

/-- What is loaded is what the environment says, and else what the file says. -/
theorem loaded_of_load (done : load explicit default lookup = .ok c) :
    ∃ file, Says explicit default file ∧ Loaded lookup file c := by
  rcases chosen_or_nothing explicit default with ⟨file, chosen⟩ | ⟨rfl, rfl⟩
  · rw [load_of_chosen chosen] at done
    cases read : file.read with
    | error e =>
        rw [read] at done
        cases done
    | ok said =>
        rw [read] at done
        cases done
        cases file with
        | text content => exact ⟨said, .file chosen read, loaded_applyEnv lookup said⟩
        | _ => cases read
  · cases done
    exact ⟨{}, .nothing rfl rfl, loaded_applyEnv lookup {}⟩

/-- A configuration from its sources to the log.  Loading fails when the chosen file cannot be read
or is no configuration, and for no other reason.  Each setting that is loaded is what the
environment says, else what the file says, else unset.  Of the settings a log is built unless
something is in the way of its files, and it has the directory, the level and the number of old
files that they stand for. -/
theorem load_build (explicit : Option File) (default : File) (lookup : String → Option String) :
    ((∃ e, load explicit default lookup = .error e) ↔
      ∃ file, Chosen explicit default file ∧ file.Unusable) ∧
    ∀ c, load explicit default lookup = .ok c →
      (∃ file, Says explicit default file ∧ Loaded lookup file c) ∧
      ∀ environment before,
        ((∃ built, Logging.build environment c before = .ok built) ↔
          ∃ base, Logging.Base before c.logDir base ∧ Logging.Ready environment before base) ∧
        ∀ setup after, Logging.build environment c before = .ok (setup, after) →
          Logging.Settled environment c setup before after :=
  ⟨load_eq_error_iff, fun _ done => ⟨loaded_of_load done, fun _ _ =>
    ⟨Logging.build_isOk_iff, fun _ _ => Logging.settled_of_build⟩⟩⟩

/-- An environment that sets the directory and the level, and a number of old files that is no
count. -/
def traceEnvironment (name : String) : Option String :=
  if name = "NEXUS_MODEL_LOG_DIR" then some "/var/log"
  else if name = "NEXUS_MODEL_LOG_LEVEL" then some "Trace"
  else if name = "NEXUS_MODEL_LOG_RETENTION" then some "two"
  else none

/-- What is loaded in that environment where the file says two old files. -/
def traceConfig : Config := ⟨some "/var/log", some "Trace", some 2⟩

theorem ofToml_two : ofToml "log_retention = 2".toList = .ok { logRetention := some 2 } := by
  have value : Toml.scanValue? 36 Toml.maxDepth "2".toList
      = some (.found (.integer 2), []) := by
    rw [Toml.scanValue?.eq_def]
    rfl
  have table : Toml.Table.ofText? "log_retention = 2".toList
      = some [("log_retention", .value (.found (.integer 2)))] := by
    have line : Toml.Table.ofText? "log_retention = 2".toList
        = (Toml.scanValue? 36 Toml.maxDepth "2".toList).bind fun found =>
          (Toml.Table.current (Toml.Table.assign found.1 ["log_retention"]) [] []).bind fun table =>
            (Toml.dropLineEnd? false found.2).bind fun rest =>
              Toml.scanLines? 17 [] table rest := rfl
    rw [line, value]
    rfl
  rw [ofToml, table]
  simp only [ofTable, List.mergeSort_singleton]
  rfl

/-- A process that works in a directory of the root, where there is nothing else. -/
def traceSystem : Logging.FileSystem where
  files := []
  directories := [["srv"]]
  closed := []
  current := ["srv"]
  told := true
  current_proper := by decide
  current_stands := by
    intro l above
    rcases List.prefix_concat_iff.1 (show l <+: [] ++ ["srv"] from above) with rfl | above
    · exact .inr (List.mem_singleton_self _)
    · exact .inl (List.prefix_nil.1 above)

/-- The directory and the level are those of the environment, the number of old files is that of the
file, and the log files stand in the directory, which is made from the root. -/
theorem load_build_trace :
    load none (.text "log_retention = 2".toList) traceEnvironment = .ok traceConfig ∧
    (∃ file, Says none (.text "log_retention = 2".toList) file ∧
      Loaded traceEnvironment file traceConfig) ∧
    ∃ setup after, Logging.build traceEnvironment traceConfig traceSystem = .ok (setup, after) ∧
      Logging.Settled traceEnvironment traceConfig setup traceSystem after ∧
      setup.base = "/var/log" ∧ setup.rootLevel = .trace ∧
      setup.appenders.map (·.path) = ["/var/log/app.log", "/var/log/command.log"] ∧
      after.files = [["var", "log", "app.log"], ["var", "log", "command.log"]] ∧
      after.directories = [["srv"], ["var"], ["var", "log"]] := by
  have done : load none (.text "log_retention = 2".toList) traceEnvironment = .ok traceConfig := by
    have chosen : Chosen none (.text "log_retention = 2".toList)
        (.text "log_retention = 2".toList) := .default rfl (by simp)
    rw [load_of_chosen chosen, File.read, ofToml_two]
    rfl
  obtain ⟨loaded, settled⟩ := (load_build none _ traceEnvironment).2 traceConfig done
  obtain ⟨after, opened, files, directories⟩ : ∃ after, Logging.openFiles traceEnvironment
      (Logging.Setup.ofOptions "/var/log" (some "Trace") (some 2)) traceSystem = some after ∧
      after.files = [["var", "log", "app.log"], ["var", "log", "command.log"]] ∧
      after.directories = [["srv"], ["var"], ["var", "log"]] := ⟨_, rfl, rfl, rfl⟩
  have built : Logging.build traceEnvironment traceConfig traceSystem
      = .ok (Logging.Setup.ofOptions "/var/log" (some "Trace") (some 2), after) :=
    Logging.build_eq_ok_iff.2 ⟨rfl, opened⟩
  exact ⟨done, loaded, _, _, built, (settled _ _).2 _ _ built, rfl, rfl, rfl, files, directories⟩

end DocumentCommand.Config

import DocumentCommand.Proofs.Logging.Opening
import Mathlib.Data.List.Forall2

/-!
# The settings of the log

What a configuration makes of the log (`Settled`): the directory that is given or the working one,
the level that its text names in any case (`Level.Meant`), the number of old files that both
appenders keep (`Setup.toNat_clamp`), and the two files, which are opened where the directory leads,
and nothing else.
-/

namespace DocumentCommand.Logging

/-! ### Levels -/

/-- The same character, or the two cases of one letter of the English alphabet. -/
def SameLetter (c d : Char) : Prop :=
  c = d ∨ (c.isLower = true ∧ d.toNat + 32 = c.toNat) ∨ (d.isLower = true ∧ c.toNat + 32 = d.toNat)

/-- The same text but for the case of letters. -/
def SameText (s t : String) : Prop :=
  List.Forall₂ SameLetter s.toList t.toList

theorem isLower_iff {c : Char} : c.isLower = true ↔ 97 ≤ c.toNat ∧ c.toNat ≤ 122 := by
  have range : c.isLower = (decide ('a'.val ≤ c.val) && decide (c.val ≤ 'z'.val)) := rfl
  simp [range, UInt32.le_iff_toNat_le, ← Char.toNat_val]

theorem toNat_toUpper (c : Char) :
    c.toUpper.toNat = if c.isLower = true then c.toNat - 32 else c.toNat := by
  by_cases lower : c.isLower = true
  · obtain ⟨least, greatest⟩ := isLower_iff.1 lower
    have small : 'a'.val ≤ c.val ∧ c.val ≤ 'z'.val := by
      simpa [UInt32.le_iff_toNat_le] using And.intro least greatest
    have upper : c.toUpper.val = c.val + ('A'.val - 'a'.val) := by
      delta Char.toUpper
      rw [dif_pos small]
    rw [if_pos lower, ← Char.toNat_val, upper, UInt32.toNat_add, Char.toNat_val]
    simp
    omega
  · have other : ¬('a'.val ≤ c.val ∧ c.val ≤ 'z'.val) := by
      simpa [UInt32.le_iff_toNat_le, isLower_iff] using lower
    have same : c.toUpper = c := dif_neg other
    rw [if_neg lower, same]

theorem toUpper_eq_iff {c d : Char} : c.toUpper = d.toUpper ↔ SameLetter c d := by
  rw [← Char.toNat_inj, toNat_toUpper, toNat_toUpper, SameLetter, ← Char.toNat_inj]
  simp only [isLower_iff]
  split <;> split <;> omega

theorem map_toUpper_eq_iff {s t : String} :
    s.toList.map Char.toUpper = t.toList.map Char.toUpper ↔ SameText s t := by
  rw [SameText, ← List.forall₂_eq_eq_eq, List.forall₂_map_left_iff, List.forall₂_map_right_iff]
  simp only [toUpper_eq_iff]

namespace Level

/-- The level that a text means: the one that it names in any case, and `info` where it names no
other. -/
inductive Meant (text : Option String) : Level → Prop where
  | named {t : String} {l : Level} : text = some t → l ≠ .info → SameText t l.name → Meant text l
  | other : (∀ (t : String) (l : Level), text = some t → l ≠ .info → ¬SameText t l.name) →
      Meant text .info

theorem map_toUpper_name (l : Level) : l.name.toList.map Char.toUpper = l.name.toList := by
  cases l <;> decide

/-- A text names a level when its letters, all made capital, are the name. -/
theorem sameText_name_iff {t : String} {l : Level} :
    SameText t l.name ↔ l.name.toList = t.toList.map Char.toUpper := by
  rw [← map_toUpper_eq_iff, map_toUpper_name, eq_comm]

/-- A text that names a level is read as that level. -/
theorem ofText_of_sameText {t : String} {l : Level} (same : SameText t l.name) :
    ofText (some t) = l := by
  rw [sameText_name_iff] at same
  rw [ofText]
  have injective : ∀ m : Level, m.name.toList = l.name.toList → m = l := by
    intro m
    cases m <;> cases l <;> decide
  cases found : all.find? fun m => m.name.toList = t.toList.map Char.toUpper with
  | none =>
      have member : l ∈ all := by cases l <;> decide
      exact absurd same (by simpa using List.find?_eq_none.1 found l member)
  | some m =>
      have named : m.name.toList = t.toList.map Char.toUpper := by simpa using List.find?_some found
      exact injective m (named.trans same.symm)

/-- A text that names no level is read as `info`. -/
theorem ofText_of_nameless {t : String} (nameless : ∀ l : Level, ¬SameText t l.name) :
    ofText (some t) = .info := by
  have none : (all.find? fun m => m.name.toList = t.toList.map Char.toUpper) = none := by
    refine List.find?_eq_none.2 fun l _ => ?_
    rw [decide_eq_true_eq, ← sameText_name_iff]
    exact nameless l
  rw [ofText, none]
  rfl

theorem meant_ofText (text : Option String) : Meant text (ofText text) := by
  by_cases special : ofText text = .info
  · rw [special]
    refine .other fun t l given different same => different ?_
    rw [← ofText_of_sameText same, ← given, special]
  · cases text with
    | none => exact absurd rfl special
    | some t =>
        by_cases nameless : ∀ l : Level, ¬SameText t l.name
        · exact absurd (ofText_of_nameless nameless) special
        · obtain ⟨l, same⟩ := not_forall_not.1 nameless
          rw [ofText_of_sameText same] at special ⊢
          exact .named rfl special same

/-- A text means one level, the one that is read. -/
theorem meant_iff {text : Option String} {l : Level} : Meant text l ↔ l = ofText text := by
  constructor
  · rintro (⟨rfl, -, same⟩ | nameless)
    · exact (ofText_of_sameText same).symm
    · have read := meant_ofText text
      generalize ofText text = l at read ⊢
      rcases read with ⟨given, different, same⟩ | _
      · exact absurd same (nameless _ _ given different)
      · rfl
  · rintro rfl
    exact meant_ofText text

end Level

/-! ### Old files -/

/-- A count of old files is cut to 32 bits. -/
theorem Setup.toNat_clamp (n : UInt64) :
    (Setup.clamp n).toNat = min n.toNat (UInt32.size - 1) := by
  have size : UInt32.size = 4294967296 := rfl
  rw [Setup.clamp, Integer.uint32?]
  by_cases small : n.toNat < UInt32.size
  · have fits : 0 ≤ (n.toNat : Int) ∧ (n.toNat : Int) < UInt32.size := by omega
    rw [if_pos fits, Option.getD_some, Int.toNat_natCast, UInt32.toNat_ofNat_of_lt' small]
    omega
  · have large : ¬(0 ≤ (n.toNat : Int) ∧ (n.toNat : Int) < UInt32.size) := by omega
    rw [if_neg large, Option.getD_none, UInt32.toNat_ofNat_of_lt' (by decide)]
    omega

/-! ### Setting up -/

/-- What the log of a process is made of for a configuration: a setup, and a file system as it was
before and as it is with the files of the log. -/
structure Settled (lookup : String → Option String) (c : Config) (setup : Setup)
    (before after : FileSystem) : Prop where
  base : Base before c.logDir setup.base
  current : c.logDir = none → LeadsTo before.current setup.base before.current
  rootLevel : ∀ l, Level.Meant c.logLevel l ↔ l = setup.rootLevel
  loggers : setup.loggers.map Logger.name = [commandTarget]
  level : ∀ logger ∈ setup.loggers, logger.level = setup.rootLevel
  appenders : setup.appenders.map Appender.name = ["app", "command"]
  paths : ∀ appender ∈ setup.appenders,
    appender.path = Path.join setup.base (appender.name ++ ".log") ∧
      appender.rollPattern = Path.join setup.base (appender.name ++ ".\x7b\x7d.log")
  keep : ∀ appender ∈ setup.appenders, appender.keep.toNat =
    match c.logRetention with
    | some count => min count.toNat (UInt32.size - 1)
    | none => 7
  files : ∃ place, (∀ m, Place lookup before setup.base m ↔ m = place) ∧
    (Reference.names setup.base.toList = [] → LeadsTo before.current setup.base place) ∧
    before.Grown after (fun file => file = place ++ ["app.log"] ∨ file = place ++ ["command.log"])
      (fun d => Passes before.current setup.base d ∨
        Passes before.current (target lookup setup.base) d)

variable {lookup : String → Option String} {c : Config} {setup : Setup} {before after : FileSystem}

/-- A log is built of its setup and of the file system in which its files are opened. -/
theorem build_eq_ok_iff : build lookup c before = .ok (setup, after) ↔
    setup = Setup.ofOptions (c.logDir.getD before.currentPath) c.logLevel c.logRetention ∧
      openFiles lookup setup before = some after := by
  rw [build]
  cases opened : openFiles lookup
      (Setup.ofOptions (c.logDir.getD before.currentPath) c.logLevel c.logRetention) before with
  | none =>
      refine ⟨fun built => by simp at built, ?_⟩
      rintro ⟨rfl, opened'⟩
      cases opened.symm.trans opened'
  | some made =>
      simp only [Except.ok.injEq, Prod.mk.injEq]
      constructor
      · rintro ⟨rfl, rfl⟩
        exact ⟨rfl, opened⟩
      · rintro ⟨rfl, opened'⟩
        exact ⟨rfl, Option.some.inj (opened.symm.trans opened')⟩

/-- Whether a log is built is a matter of its files alone, whatever its level and the number of its
old files. -/
theorem build_isOk_iff : (∃ built, build lookup c before = .ok built) ↔
    ∃ base, Base before c.logDir base ∧ Ready lookup before base := by
  simp only [base_iff, exists_eq_left]
  rw [← openFiles_isSome_iff]
  constructor
  · rintro ⟨⟨setup, after⟩, built⟩
    obtain ⟨rfl, opened⟩ := build_eq_ok_iff.1 built
    exact ⟨after, opened⟩
  · rintro ⟨after, opened⟩
    exact ⟨_, build_eq_ok_iff.2 ⟨rfl, opened⟩⟩

/-- A log that is built is settled by its configuration. -/
theorem settled_of_build (built : build lookup c before = .ok (setup, after)) :
    Settled lookup c setup before after := by
  obtain ⟨rfl, opened⟩ := build_eq_ok_iff.1 built
  constructor
  case base => exact base_iff.2 rfl
  case current =>
    intro nothing
    simpa [nothing, Setup.ofOptions] using leadsTo_currentPath before
  case rootLevel => exact fun l => Level.meant_iff
  case loggers => rfl
  case level => exact List.forall_mem_singleton.2 rfl
  case appenders => rfl
  case paths =>
    intro appender member
    obtain ⟨name, -, rfl⟩ := List.mem_map.1 member
    exact ⟨rfl, rfl⟩
  case keep =>
    intro appender member
    obtain ⟨name, -, rfl⟩ := List.mem_map.1 member
    rw [Setup.appender, Setup.toNat_clamp]
    cases c.logRetention with
    | none => rfl
    | some count => rfl
  case files =>
    obtain ⟨place, placed⟩ := exists_leadsTo before
      (target lookup (c.logDir.getD before.currentPath))
    refine ⟨place, placed, fun nothing => ?_, openFiles_grown opened ((placed place).2 rfl)⟩
    exact (place_iff_of_names_eq_nil nothing).1 ((placed place).2 rfl)

end DocumentCommand.Logging

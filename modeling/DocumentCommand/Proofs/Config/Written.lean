import DocumentCommand.Config.Basic
import DocumentCommand.Proofs.Reading.Record
import DocumentCommand.Proofs.Toml.Lines

/-!
# Configurations written down

A configuration is written down as one line for each setting, in any order and with its strings
escaped in any way, and is read back from such a text (`ofToml_lines`).  Settings of different keys
do not meet, so the order in which a table is looked at does not matter.  One more line makes the
text useless when its key is not that of a setting, or has been written before.
-/

namespace DocumentCommand.Config

open Toml (Scalar Table)

/-- The value that a setting is written as. -/
def value? (c : Config) : Field → Option Scalar
  | .logDir => c.logDir.map fun s => .found (.string s)
  | .logLevel => c.logLevel.map fun s => .found (.string s)
  | .logRetention => c.logRetention.map fun n => .found (.integer n.toNat)

/-- The settings that are there, each under its key. -/
def entries (c : Config) : List (String × Scalar) :=
  Field.all.filterMap fun f => (c.value? f).map (f.key, ·)

/-- The configuration with a setting of another one. -/
def copy (d c : Config) : Field → Config
  | .logDir => { d with logDir := c.logDir }
  | .logLevel => { d with logLevel := c.logLevel }
  | .logRetention => { d with logRetention := c.logRetention }

theorem copy_right_comm (d c : Config) (f g : Field) :
    (d.copy c f).copy c g = (d.copy c g).copy c f := by
  cases f <;> cases g <;> rfl

theorem readCount_integer {n : Int} {count : UInt64} (fits : Integer.uint64? n = some count) :
    readCount (.found (.integer n)) = .ok count := by
  rw [readCount, fits]

/-- A setting that is written is read back. -/
theorem setFromFile_value {c : Config} {f : Field} {v : Scalar} (written : c.value? f = some v)
    (d : Config) : d.setFromFile f v = .ok (d.copy c f) := by
  cases f with
  | logDir | logLevel =>
      obtain ⟨s, given, rfl⟩ := Option.map_eq_some_iff.1 written
      rw [setFromFile, readString, copy, given]
      rfl
  | logRetention =>
      obtain ⟨n, given, rfl⟩ := Option.map_eq_some_iff.1 written
      have read := readCount_integer (Integer.uint64?_eq_some_iff.2 (Eq.refl n.toNat))
      rw [setFromFile, read, copy, given]
      rfl

theorem find?_key (f : Field) : (Field.all.find? fun g => g.key = f.key) = some f := by
  cases f <;> decide

theorem find?_eq_none {key : String} (unknown : key ∉ Field.all.map Field.key) :
    (Field.all.find? fun g => g.key = key) = none := by
  refine List.find?_eq_none.2 fun g member same => unknown ?_
  exact List.mem_map.2 ⟨g, member, of_decide_eq_true same⟩

/-- The configuration with the setting of a key of another one. -/
def copyEntry (c d : Config) (e : String × Toml.Item) : Config :=
  match Field.all.find? fun f => f.key = e.1 with
  | some f => d.copy c f
  | none => d

theorem copyEntry_right_comm (c d : Config) (e e' : String × Toml.Item) :
    c.copyEntry (c.copyEntry d e) e' = c.copyEntry (c.copyEntry d e') e := by
  unfold copyEntry
  split <;> split <;> first | exact copy_right_comm .. | rfl

/-- The table that a configuration is written as. -/
def table (c : Config) : Table :=
  Table.ofEntries c.entries

theorem readEntry_table {c : Config} {e : String × Toml.Item} (member : e ∈ c.table) (d : Config) :
    d.readEntry e = .ok (c.copyEntry d e) := by
  obtain ⟨entry, named, rfl⟩ := List.mem_map.1 member
  obtain ⟨f, -, written⟩ := List.mem_filterMap.1 named
  obtain ⟨v, value, rfl⟩ := Option.map_eq_some_iff.1 written
  simp only [readEntry, copyEntry, find?_key, Toml.Item.scalar]
  exact setFromFile_value value d

/-- Settings that are written are read back, in whichever order they are looked at. -/
theorem foldlM_readEntry {c : Config} {items : Table} (written : ∀ e ∈ items, e ∈ c.table)
    (d : Config) : items.foldlM readEntry d = .ok (items.foldl c.copyEntry d) := by
  induction items generalizing d with
  | nil => rfl
  | cons e items ih =>
      obtain ⟨first, written⟩ := List.forall_mem_cons.1 written
      rw [List.foldlM_cons, readEntry_table first]
      exact ih written _

theorem foldl_copyEntry_table (c : Config) : c.table.foldl c.copyEntry {} = c := by
  obtain ⟨directory, level, retention⟩ := c
  cases directory <;> cases level <;> cases retention <;> rfl

/-- A table of the settings in any order is the configuration. -/
theorem ofTable_perm {c : Config} {items : Table} (perm : items.Perm c.table) :
    ofTable items = .ok c := by
  have sorted : (items.mergeSort fun a b => a.1 ≤ b.1).Perm c.table :=
    (List.mergeSort_perm items _).trans perm
  rw [ofTable, foldlM_readEntry fun e member => sorted.mem_iff.1 member,
    sorted.foldl_eq' fun e _ e' _ d => copyEntry_right_comm c d e e', foldl_copyEntry_table]

/-- A table of the settings and of something under an unknown key is refused for that key. -/
theorem ofTable_unknown {c : Config} {items : Table} {key : String} {item : Toml.Item}
    (perm : items.Perm ((key, item) :: c.table)) (unknown : key ∉ Field.all.map Field.key) :
    ofTable items = .error (.unknownField key (Field.all.map Field.key)) := by
  have sorted : (items.mergeSort fun a b => a.1 ≤ b.1).Perm ((key, item) :: c.table) :=
    (List.mergeSort_perm items _).trans perm
  obtain ⟨front, back, split⟩ := List.append_of_mem (sorted.mem_iff.2 List.mem_cons_self)
  rw [split] at sorted
  have others : (front ++ back).Perm c.table := (List.perm_middle.symm.trans sorted).cons_inv
  have written : ∀ e ∈ front, e ∈ c.table :=
    fun e member => others.mem_iff.1 (List.mem_append_left back member)
  have refused (d : Config) : d.readEntry (key, item)
      = .error (.unknownField key (Field.all.map Field.key)) := by
    rw [readEntry, find?_eq_none unknown]
  rw [ofTable, split, List.foldlM_append, foldlM_readEntry written]
  rw [Reading.ok_bind, List.foldlM_cons, refused]
  rfl

/-! ### Texts -/

theorem keys_entries (c : Config) :
    c.entries.map Prod.fst = (Field.all.filter fun f => (c.value? f).isSome).map Field.key := by
  obtain ⟨directory, level, retention⟩ := c
  cases directory <;> cases level <;> cases retention <;> rfl

theorem keys_entries_sublist (c : Config) :
    (c.entries.map Prod.fst).Sublist (Field.all.map Field.key) := by
  rw [keys_entries]
  exact List.filter_sublist.map Field.key

theorem nodup_entries (c : Config) : (c.entries.map Prod.fst).Nodup :=
  c.keys_entries_sublist.nodup (by decide)

theorem exists_field_of_mem_entries {c : Config} {e : String × Scalar} (member : e ∈ c.entries) :
    ∃ f v, c.value? f = some v ∧ e = (f.key, v) := by
  obtain ⟨f, -, named⟩ := List.mem_filterMap.1 member
  obtain ⟨v, value, rfl⟩ := Option.map_eq_some_iff.1 named
  exact ⟨f, v, value, rfl⟩

theorem exists_writes {c : Config} {f : Field} {v : Scalar} (value : c.value? f = some v) :
    ∃ text, Toml.Writes v text := by
  cases f with
  | logDir | logLevel =>
      obtain ⟨s, -, rfl⟩ := Option.map_eq_some_iff.1 value
      obtain ⟨inside, spells⟩ := Toml.exists_spells s.toList
      exact ⟨_, .string spells⟩
  | logRetention =>
      obtain ⟨n, -, rfl⟩ := Option.map_eq_some_iff.1 value
      exact ⟨_, .count n⟩

variable {c : Config} {lines : List (String × Scalar)}

theorem Field.isBare_key (f : Field) : Toml.IsBare f.key := by
  cases f <;> decide

theorem writable_of_perm (perm : lines.Perm c.entries) :
    ∀ e ∈ lines, Toml.IsBare e.1 ∧ ∃ value, Toml.Writes e.2 value := by
  intro e member
  obtain ⟨f, v, value, rfl⟩ := exists_field_of_mem_entries (perm.mem_iff.1 member)
  exact ⟨f.isBare_key, exists_writes value⟩

theorem ofToml_of_perm (perm : lines.Perm c.entries) {text : List Char}
    (written : Toml.Lines lines text) : ofToml text = .ok c := by
  have distinct : (lines.map Prod.fst).Nodup := (perm.map Prod.fst).nodup_iff.2 c.nodup_entries
  have read : ofTable (Table.ofEntries lines) = .ok c := ofTable_perm (perm.map _)
  rw [ofToml, Table.ofText?_lines written, if_pos distinct]
  simp only [read]

section Insertion

variable {front back : List (String × Scalar)} {key : String} {b : Bool}

/-- One more line can be written anywhere. -/
theorem exists_lines_insert (perm : (front ++ back).Perm c.entries) (bare : Toml.IsBare key) :
    ∃ text, Toml.Lines (front ++ (key, .found (.bool b)) :: back) text := by
  have each : ∀ e ∈ front ++ (key, .found (.bool b)) :: back,
      Toml.IsBare e.1 ∧ ∃ value, Toml.Writes e.2 value := by
    intro e member
    rw [List.perm_middle.mem_iff, List.mem_cons] at member
    rcases member with rfl | member
    · exact ⟨bare, _, .bool b⟩
    · exact writable_of_perm perm e member
  exact Toml.exists_lines each

theorem ofToml_unknown (perm : (front ++ back).Perm c.entries)
    (unknown : key ∉ Field.all.map Field.key) {text : List Char}
    (written : Toml.Lines (front ++ (key, .found (.bool b)) :: back) text) :
    ofToml text
      = .error (.toml (some (.unknownField key (Field.all.map Field.key)))) := by
  have all : (front ++ (key, .found (.bool b)) :: back).Perm
      ((key, .found (.bool b)) :: c.entries) := List.perm_middle.trans (perm.cons _)
  have distinct : ((front ++ (key, .found (.bool b)) :: back).map Prod.fst).Nodup := by
    rw [(all.map Prod.fst).nodup_iff, List.map_cons, List.nodup_cons]
    exact ⟨fun member => unknown (c.keys_entries_sublist.subset member), c.nodup_entries⟩
  have refused := ofTable_unknown (c := c) (all.map fun e => (e.1, Toml.Item.value e.2)) unknown
  rw [ofToml, Table.ofText?_lines written, if_pos distinct]
  simp only [Table.ofEntries, refused]

theorem ofToml_twice (again : key ∈ (front ++ back).map Prod.fst) {text : List Char}
    (written : Toml.Lines (front ++ (key, .found (.bool b)) :: back) text) :
    ofToml text = .error (.toml none) := by
  have twice : ¬((front ++ (key, .found (.bool b)) :: back).map Prod.fst).Nodup := by
    rw [(List.perm_middle.map Prod.fst).nodup_iff, List.map_cons, List.nodup_cons]
    exact fun distinct => distinct.1 again
  rw [ofToml, Table.ofText?_lines written, if_neg twice]

end Insertion

/-- A configuration is written down in lines of any order, and is read back from every text of these
lines.  With one more line for a truth value, wherever it stands, the text is refused when the key
of that line is not one of a setting or has a line already. -/
theorem ofToml_lines (c : Config) (lines : List (String × Scalar)) (perm : lines.Perm c.entries) :
    (∃ text, Toml.Lines lines text) ∧
    (∀ text, Toml.Lines lines text → ofToml text = .ok c) ∧
    ∀ (front back : List (String × Scalar)) (key : String) (b : Bool), lines = front ++ back →
      Toml.IsBare key →
      (∃ text, Toml.Lines (front ++ (key, .found (.bool b)) :: back) text) ∧
      ∀ text, Toml.Lines (front ++ (key, .found (.bool b)) :: back) text →
        (key ∉ ["log_dir", "log_level", "log_retention"] →
          ofToml text = .error (.toml (some
            (.unknownField key ["log_dir", "log_level", "log_retention"])))) ∧
        (key ∈ lines.map Prod.fst → ofToml text = .error (.toml none)) := by
  refine ⟨Toml.exists_lines (writable_of_perm perm), fun _ => ofToml_of_perm perm, ?_⟩
  rintro front back key b rfl bare
  refine ⟨exists_lines_insert perm bare, fun text written => ⟨fun unknown => ?_, fun again => ?_⟩⟩
  · exact ofToml_unknown perm unknown written
  · exact ofToml_twice again written

/-- A configuration with characters that have to be escaped. -/
def escapedConfig : Config := ⟨some "\"\\", some "i\x07", some 3⟩

/-- The settings of that configuration, the last one first. -/
def escapedLines : List (String × Scalar) :=
  [("log_retention", .found (.integer 3)), ("log_dir", .found (.string "\"\\")),
    ("log_level", .found (.string "i\x07"))]

/-- The lines of that configuration, with something behind the first one. -/
def escapedText (inserted : String) : List Char :=
  "log_retention = 3\r\n".toList ++ inserted.toList
    ++ "log_dir = \"\\\"\\\\\"\nlog_level = \"i\\u0007\"".toList

/-- The configuration is read back from its lines.  With a line for an unknown key it is refused,
and so it is with a second line for the directory. -/
theorem ofToml_lines_escaped :
    escapedLines.Perm escapedConfig.entries ∧
    ofToml (escapedText "") = .ok escapedConfig ∧
    ofToml (escapedText "x = true\n")
      = .error (.toml (some (.unknownField "x" ["log_dir", "log_level", "log_retention"]))) ∧
    ofToml (escapedText "log_dir = true\n") = .error (.toml none) := by
  have perm : escapedLines.Perm escapedConfig.entries := by decide
  have directory : Toml.Spells "\"\\".toList ['\\', '"', '\\', '\\'] :=
    .short rfl (.short rfl .nil)
  have bell : Text.Hex.natValue? ['0', '0', '0', '7'] = some '\x07'.toNat := by decide
  have level : Toml.Spells "i\x07".toList ['i', '\\', 'u', '0', '0', '0', '7'] :=
    .plain (by decide) (by decide) (by decide) (.numeric (by decide) bell .nil)
  have strings : Toml.Lines (escapedLines.drop 1)
      "log_dir = \"\\\"\\\\\"\nlog_level = \"i\\u0007\"".toList :=
    .cons (by decide) (.string directory) .feed (.last (by decide) (.string level))
  obtain ⟨-, read, more⟩ := ofToml_lines escapedConfig escapedLines perm
  have inserted := more (escapedLines.take 1) (escapedLines.drop 1)
  refine ⟨perm, ?whole, ?unknown, ?twice⟩
  case whole => exact read _ (.cons (by decide) (.count 3) .carriage strings)
  case unknown =>
    refine ((inserted "x" true rfl (by decide)).2 _ ?_).1 (by decide)
    exact .cons (by decide) (.count 3) .carriage (.cons (by decide) (.bool true) .feed strings)
  case twice =>
    refine ((inserted "log_dir" true rfl (by decide)).2 _ ?_).2 (by decide)
    exact .cons (by decide) (.count 3) .carriage (.cons (by decide) (.bool true) .feed strings)

end DocumentCommand.Config

import DocumentCommand.Logging.Setup
import DocumentCommand.Proofs.Logging.Making

/-!
# Opening the log files

The log files stand in one directory (`Base`), and are opened where it leads with the values of the
variables in it (`Place`).  The two files and the directories on the way to them are all that is
made (`openFiles_grown`), and they are opened unless something is in the way (`Ready`).
-/

namespace DocumentCommand.Logging

/-- The directory of the log files: the one that is given, and else the path of the working one, a
dot where the process is not told that. -/
inductive Base (f : FileSystem) : Option String → String → Prop where
  | given (directory : String) : Base f (some directory) directory
  | told : f.told = true → Base f none ("/" ++ "/".intercalate f.current)
  | untold : f.told = false → Base f none "."

theorem base_iff {f : FileSystem} {directory : Option String} {base : String} :
    Base f directory base ↔ base = directory.getD f.currentPath := by
  constructor
  · rintro (_ | told | untold)
    · rfl
    · rw [Option.getD_none, FileSystem.currentPath, if_pos told]
    · rw [Option.getD_none, FileSystem.currentPath, if_neg (by simp [untold])]
  · rintro rfl
    cases directory with
    | some directory => exact .given directory
    | none =>
        rw [Option.getD_none, FileSystem.currentPath]
        split
        · next told => exact .told told
        · next untold => exact .untold (Bool.eq_false_iff.2 untold)

/-- The path of the directory where the log files are opened: their base with the values of the
variables in it. -/
def target (lookup : String → Option String) (base : String) : String :=
  Reference.expandPath lookup (Path.folder base)

/-- The place of the log files: where their base leads with the values of the variables in it. -/
def Place (lookup : String → Option String) (f : FileSystem) (base : String) (m : Location) :
    Prop :=
  LeadsTo f.current (target lookup base) m

/-- A log file may be opened, and no directory on the way to it takes its place. -/
structure Unhindered (lookup : String → Option String) (f : FileSystem) (base : String)
    (file : Location) : Prop where
  opens : f.Opens file
  beside_base : ¬Passes f.current base file
  beside_target : ¬Passes f.current (target lookup base) file

/-- Nothing is in the way of making the directory of the log files and of opening them. -/
structure Ready (lookup : String → Option String) (f : FileSystem) (base : String) : Prop where
  directory : f.Clear base
  ends : f.Ends base
  opening : f.Clear (target lookup base)
  files : ∀ m, Place lookup f base m → ∀ name ∈ ["app.log", "command.log"],
    Unhindered lookup f base (m ++ [name])

variable {lookup : String → Option String} {f g after : FileSystem} {base name : String}
  {level : Option String} {retention : Option UInt64} {m : Location}

theorem isFolder_target (lookup : String → Option String) (base : String) :
    Path.IsFolder (target lookup base) :=
  Reference.isFolder_expandPath lookup (Path.isFolder_folder base)

/-- The path of a log file is its name behind the directory of the log files. -/
theorem expandPath_join (lookup : String → Option String) (base : String)
    (unclosed : '\x7d' ∉ name.toList) :
    Reference.expandPath lookup (Path.join base name) = target lookup base ++ name := by
  rw [Path.join, Reference.expandPath_append lookup _ unclosed, target]

/-- A base without variables leads to the place of the log files by itself. -/
theorem place_iff_of_names_eq_nil (nothing : Reference.names base.toList = []) :
    Place lookup f base m ↔ LeadsTo f.current base m := by
  have folded : Reference.names (Path.folder base).toList = [] := by
    rw [Path.folder]
    split
    · exact nothing
    · rw [String.toList_append, Reference.names_append (by decide), nothing]
  rw [Place, target, Reference.expandPath_of_names_eq_nil lookup folded, leadsTo_folder_iff]

/-- The two files are opened one after the other, once their directory is made. -/
theorem openFiles_eq_some_iff :
    openFiles lookup (Setup.ofOptions base level retention) f = some after ↔ ∃ made one,
      f.makePath base = some made ∧
      made.openFile (target lookup base ++ "app.log") = some one ∧
      one.openFile (target lookup base ++ "command.log") = some after := by
  have app : Reference.expandPath lookup (Path.join base ("app" ++ ".log"))
      = target lookup base ++ "app.log" := expandPath_join lookup base (by decide)
  have command : Reference.expandPath lookup (Path.join base ("command" ++ ".log"))
      = target lookup base ++ "command.log" := expandPath_join lookup base (by decide)
  simp only [openFiles, Setup.ofOptions, Setup.appender, List.map_cons, List.map_nil,
    List.foldlM_cons, List.foldlM_nil, app, command]
  simp only [Option.bind_eq_bind, Option.bind_eq_some_iff, Option.pure_def, Option.some.injEq,
    exists_eq_right, exists_and_left]

/-- A log file is opened after other files and directories unless something is in the way, in which
those directories are not. -/
theorem openFile_isSome_iff_of_grown {files directories : Location → Prop}
    (grown : f.Grown g files directories) (made : ∀ d, directories d → f.Takes d)
    (apart : ∀ d, Passes f.current (target lookup base) d → ¬files d)
    (fresh : ∀ m, ¬files (m ++ [name])) (plain : '/' ∉ name.toList)
    (proper : Path.isProper name = true) :
    (∃ h, g.openFile (target lookup base ++ name) = some h) ↔
      f.Clear (target lookup base) ∧ ∀ m, Place lookup f base m →
        f.Opens (m ++ [name]) ∧ ¬directories (m ++ [name]) ∧
          ¬Passes f.current (target lookup base) (m ++ [name]) := by
  rw [FileSystem.openFile_append_isSome_iff (isFolder_target lookup base) plain proper,
    grown.clear_iff apart made, grown.current]
  simp only [grown.opens_iff (fresh _), and_assoc, Place]

theorem openFile_grown_of_place (opened : f.openFile (target lookup base ++ name) = some g)
    (placed : Place lookup f base m) (plain : '/' ∉ name.toList)
    (proper : Path.isProper name = true) :
    f.Grown g (· = m ++ [name]) (Passes f.current (target lookup base)) := by
  obtain ⟨n, leads, grown⟩ :=
    FileSystem.openFile_append_grown (isFolder_target lookup base) plain proper opened
  obtain ⟨place, unique⟩ := exists_leadsTo f (target lookup base)
  rwa [(unique m).1 placed, ← (unique n).1 leads]

/-- The log adds its two files, and the directories that lead to them. -/
theorem openFiles_grown
    (opened : openFiles lookup (Setup.ofOptions base level retention) f = some after)
    (placed : Place lookup f base m) :
    f.Grown after (fun file => file = m ++ ["app.log"] ∨ file = m ++ ["command.log"])
      (fun d => Passes f.current base d ∨ Passes f.current (target lookup base) d) := by
  obtain ⟨made, one, directory, first, second⟩ := openFiles_eq_some_iff.1 opened
  have grown := FileSystem.makePath_grown directory
  have placed' : Place lookup made base m := by rwa [Place, grown.current]
  have grown' := openFile_grown_of_place first placed' (by decide) (by decide)
  have placed'' : Place lookup one base m := by rwa [Place, grown'.current]
  have grown'' := openFile_grown_of_place second placed'' (by decide) (by decide)
  refine ((grown.trans grown').trans grown'').congr (fun _ => by rw [false_or]) fun d => ?_
  rw [grown'.current, grown.current, or_assoc, or_self]

section

variable {made one : FileSystem} (directory : f.makePath base = some made)
include directory

/-- The first log file is opened in the directory that is made unless something is in the way. -/
theorem openFile_app_isSome_iff :
    (∃ one, made.openFile (target lookup base ++ "app.log") = some one) ↔
      f.Clear (target lookup base) ∧
        ∀ m, Place lookup f base m → Unhindered lookup f base (m ++ ["app.log"]) := by
  have clear := (FileSystem.makePath_isSome_iff.1 ⟨made, directory⟩).1
  rw [openFile_isSome_iff_of_grown (FileSystem.makePath_grown directory)
    (fun _ => clear.takes) (fun _ _ => id) (fun _ => id) (by decide) (by decide)]
  refine and_congr_right fun _ => forall₂_congr fun m _ => ?_
  exact ⟨fun ⟨opens, base, target⟩ => ⟨opens, base, target⟩,
    fun ⟨opens, base, target⟩ => ⟨opens, base, target⟩⟩

/-- The first log file is not in the way of the second one. -/
theorem openFile_command_isSome_iff
    (first : made.openFile (target lookup base ++ "app.log") = some one) :
    (∃ after, one.openFile (target lookup base ++ "command.log") = some after) ↔
      ∀ m, Place lookup f base m → Unhindered lookup f base (m ++ ["command.log"]) := by
  obtain ⟨clear, unhindered⟩ := (openFile_app_isSome_iff directory).1 ⟨one, first⟩
  have clearBase := (FileSystem.makePath_isSome_iff.1 ⟨made, directory⟩).1
  have grown := FileSystem.makePath_grown directory
  obtain ⟨m, placed⟩ := exists_leadsTo f (target lookup base)
  have placed : Place lookup f base m := (placed m).2 rfl
  have placed' : Place lookup made base m := by rwa [Place, grown.current]
  have grown' := openFile_grown_of_place first placed' (by decide) (by decide)
  rw [openFile_isSome_iff_of_grown (grown.trans grown') ?made ?apart ?fresh (by decide) (by decide)]
  case made =>
    rw [grown.current]
    rintro d (passes | passes)
    · exact clearBase.takes passes
    · exact clear.takes passes
  case apart =>
    intro d passes file
    obtain rfl : d = m ++ ["app.log"] := by simpa using file
    exact (unhindered m placed).beside_target passes
  case fresh =>
    intro n file
    simp at file
  rw [grown.current]
  refine ⟨fun file m placed => ?_, fun file => ⟨clear, fun m placed => ?_⟩⟩
  · obtain ⟨opens, aside, -⟩ := file.2 m placed
    exact ⟨opens, fun passes => aside (.inl passes), fun passes => aside (.inr passes)⟩
  · obtain ⟨opens, base, target⟩ := file m placed
    exact ⟨opens, fun passes => passes.elim base target, target⟩

end

/-- The log files are opened unless something is in their way. -/
theorem openFiles_isSome_iff :
    (∃ after, openFiles lookup (Setup.ofOptions base level retention) f = some after) ↔
      Ready lookup f base := by
  constructor
  · rintro ⟨after, opened⟩
    obtain ⟨made, one, directory, first, second⟩ := openFiles_eq_some_iff.1 opened
    obtain ⟨clear, ends⟩ := FileSystem.makePath_isSome_iff.1 ⟨made, directory⟩
    obtain ⟨opening, app⟩ := (openFile_app_isSome_iff directory).1 ⟨one, first⟩
    have command := (openFile_command_isSome_iff directory first).1 ⟨after, second⟩
    refine ⟨clear, ends, opening, fun m placed => ?_⟩
    simpa using ⟨app m placed, command m placed⟩
  · rintro ⟨clear, ends, opening, files⟩
    have file (m : Location) (placed : Place lookup f base m) :
        Unhindered lookup f base (m ++ ["app.log"]) ∧
          Unhindered lookup f base (m ++ ["command.log"]) := by
      simpa using files m placed
    obtain ⟨made, directory⟩ := FileSystem.makePath_isSome_iff.2 ⟨clear, ends⟩
    obtain ⟨one, first⟩ :=
      (openFile_app_isSome_iff directory).2 ⟨opening, fun m placed => (file m placed).1⟩
    obtain ⟨after, second⟩ :=
      (openFile_command_isSome_iff directory first).2 fun m placed => (file m placed).2
    exact ⟨after, openFiles_eq_some_iff.2 ⟨made, one, directory, first, second⟩⟩

end DocumentCommand.Logging

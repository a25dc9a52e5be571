import DocumentCommand.Proofs.Logging.Places

/-!
# What paths make

Going along a path makes the directories that the path goes down into, and opening a file makes that
file.  Each operation is told by what it adds (`FileSystem.Grown`) and by when it is done: the way
has to be free (`FileSystem.Clear`), and the file has to be one that may be written
(`FileSystem.Opens`).
-/

namespace DocumentCommand.Logging

variable {f g h : FileSystem} {path part : String} {parts rest : List String}
  {l m n d : Location}

/-! ### Directories on the way -/

namespace FileSystem

/-- A file system has more files and directories than another one, and is otherwise the same. -/
structure Grown (f g : FileSystem) (newFiles newDirectories : Location → Prop) : Prop where
  files : ∀ x, x ∈ g.files ↔ x ∈ f.files ∨ newFiles x
  directories : ∀ d, d ∈ g.directories ↔ d ∈ f.directories ∨ newDirectories d
  closed : g.closed = f.closed
  current : g.current = f.current

/-- A location and all above it are directories. -/
def Stands (f : FileSystem) (l : Location) : Prop :=
  ∀ m, m <+: l → m = [] ∨ m ∈ f.directories

/-- There is a directory at a location, or one may be made there. -/
structure Takes (f : FileSystem) (d : Location) : Prop where
  file : d ∉ f.files
  writable : d ∈ f.directories ∨ d.dropLast ∉ f.closed

/-- Nothing is in the way of making the directories along the parts of a path from a location. -/
structure Free (f : FileSystem) (l : Location) (parts : List String) : Prop where
  names : ∀ part ∈ parts, Path.isName part = true
  takes : ∀ d, Enters l parts d → f.Takes d

/-- Nothing is in the way of making the directories of a path. -/
def Clear (f : FileSystem) (path : String) : Prop :=
  ∀ start parts, Starts f.current path start → Path.Parts path parts → f.Free start parts

theorem clear_iff : f.Clear path ↔ f.Free (f.start path) (Path.split path) := by
  constructor
  · exact fun clear => clear _ _ (starts_iff.2 rfl) (Path.parts_split path)
  · intro free start parts starts made
    rwa [starts_iff.1 starts, made.eq_split]

theorem Clear.takes (clear : f.Clear path) (passes : Passes f.current path d) : f.Takes d :=
  (clear_iff.1 clear).takes d (passes_iff.1 passes)

theorem hasDirectory_iff : f.hasDirectory l = true ↔ l = [] ∨ l ∈ f.directories := by
  simp [hasDirectory]

theorem stands_current (f : FileSystem) : f.Stands f.current := f.current_stands

theorem stands_start (f : FileSystem) (path : String) : f.Stands (f.start path) := by
  rw [start]
  split
  · exact fun m above => .inl (List.prefix_nil.1 above)
  · exact f.stands_current

theorem Stands.hasDirectory (stands : f.Stands l) : f.hasDirectory l = true :=
  hasDirectory_iff.2 (stands l (List.prefix_refl l))

theorem Stands.dropLast (stands : f.Stands l) : f.Stands l.dropLast :=
  fun m above => stands m (above.trans (List.dropLast_prefix l))

theorem Stands.concat (stands : f.Stands l) (there : l ++ [part] ∈ f.directories) :
    f.Stands (l ++ [part]) := by
  intro m above
  rcases List.prefix_concat_iff.1 above with rfl | above
  · exact .inr there
  · exact stands m above

namespace Grown

variable {files files' directories directories' : Location → Prop}

theorem refl (f : FileSystem) : Grown f f (fun _ => False) (fun _ => False) := by
  constructor <;> simp

theorem trans (first : Grown f g files directories) (second : Grown g h files' directories') :
    Grown f h (fun x => files x ∨ files' x) (fun d => directories d ∨ directories' d) where
  files x := by rw [second.files, first.files, or_assoc]
  directories d := by rw [second.directories, first.directories, or_assoc]
  closed := second.closed.trans first.closed
  current := second.current.trans first.current

/-- The same growth, told in other words. -/
theorem congr (grown : Grown f g files directories) (sameFiles : ∀ x, files x ↔ files' x)
    (sameDirectories : ∀ d, directories d ↔ directories' d) : Grown f g files' directories' where
  files x := by rw [grown.files, sameFiles]
  directories d := by rw [grown.directories, sameDirectories]
  closed := grown.closed
  current := grown.current

theorem stands (grown : Grown f g files directories) (stands : f.Stands l) : g.Stands l :=
  fun m above => (stands m above).imp_right fun there => (grown.directories m).2 (.inl there)

theorem start (grown : Grown f g files directories) (path : String) :
    g.start path = f.start path := by
  rw [FileSystem.start, FileSystem.start, grown.current]

end Grown

theorem makeDirectory_grown (made : f.makeDirectory l = some g) (below : l ≠ []) :
    Grown f g (fun _ => False) (· = l) := by
  rw [makeDirectory] at made
  split at made
  · cases made
  · split at made
    · next there =>
        cases made
        have old : l ∈ f.directories := (hasDirectory_iff.1 there).resolve_left below
        refine ⟨by simp, fun d => ⟨.inl, fun found => ?_⟩, rfl, rfl⟩
        exact found.elim id fun same => same ▸ old
    · split at made
      · cases made
        constructor <;> simp [addDirectory]
      · cases made

theorem hasDirectory_concat_iff :
    f.hasDirectory (l ++ [part]) = true ↔ l ++ [part] ∈ f.directories := by
  simp [hasDirectory]

theorem takesNew_concat_iff (stands : f.Stands l) :
    f.takesNew (l ++ [part]) = true ↔ l ∉ f.closed := by
  simp [takesNew, stands.hasDirectory]

/-- A directory is made in one that is there, unless something is in the way. -/
theorem makeDirectory_isSome_iff (stands : f.Stands l) :
    (∃ g, f.makeDirectory (l ++ [part]) = some g) ↔ f.Takes (l ++ [part]) := by
  rw [makeDirectory]
  constructor
  · rintro ⟨g, made⟩
    split at made
    · cases made
    · next file =>
        refine ⟨file, ?_⟩
        split at made
        · next there => exact .inl (hasDirectory_concat_iff.1 there)
        · split at made
          · next new =>
              rw [List.dropLast_concat]
              exact .inr ((takesNew_concat_iff stands).1 new)
          · cases made
  · rintro ⟨file, writable⟩
    rw [if_neg file]
    split
    · exact ⟨f, rfl⟩
    · next absent =>
        have writable := writable.resolve_left fun there => absent (hasDirectory_concat_iff.2 there)
        rw [List.dropLast_concat] at writable
        rw [if_pos ((takesNew_concat_iff stands).2 writable)]
        exact ⟨_, rfl⟩

theorem visit_grown (visited : f.visit l part = some g) :
    Grown f g (fun _ => False) (fun d => Path.descends part = true ∧ d = l ++ [part]) := by
  rw [visit] at visited
  split at visited
  · cases visited
  · split at visited
    · next down =>
        exact (makeDirectory_grown visited (by simp)).congr (fun _ => Iff.rfl) (by simp [down])
    · next level =>
        cases visited
        exact (Grown.refl f).congr (fun _ => Iff.rfl) (by simp [level])

theorem visit_isSome_iff (stands : f.Stands l) : (∃ g, f.visit l part = some g) ↔
    Path.isName part = true ∧ (Path.descends part = true → f.Takes (l ++ [part])) := by
  rw [visit]
  by_cases named : Path.isName part = true
  · by_cases down : Path.descends part = true
    · simp [named, down, makeDirectory_isSome_iff stands]
    · simp [named, down]
  · simp [named]

/-- Where a part leads there is a directory once the part is visited. -/
theorem visit_stands (visited : f.visit l part = some g) (stands : f.Stands l)
    (step : Step l part m) : g.Stands m := by
  have kept : g.Stands l := (visit_grown visited).stands stands
  cases step with
  | stay | root => exact kept
  | up m last => simpa using kept.dropLast
  | down _ down =>
      refine kept.concat (((visit_grown visited).directories _).2 (.inr ⟨?_, rfl⟩))
      exact Path.descends_iff.2 down

/-- Going along a path makes the directories that it goes down into, and no others. -/
theorem enter_grown (entered : f.enter l parts = some (g, m)) :
    Leads l parts m ∧ Grown f g (fun _ => False) (Enters l parts) := by
  induction parts generalizing f l with
  | nil =>
      cases entered
      refine ⟨.here m, (Grown.refl g).congr (fun _ => Iff.rfl) fun d => ?_⟩
      exact iff_of_false id not_enters_nil
  | cons part rest ih =>
      obtain ⟨f', visited, entered⟩ := Option.bind_eq_some_iff.1 entered
      obtain ⟨leads, grown⟩ := ih entered
      refine ⟨leads_cons_iff.2 leads, ((visit_grown visited).trans grown).congr (by simp) ?_⟩
      exact fun d => enters_cons_iff.symm

theorem enter_stands (entered : f.enter l parts = some (g, m)) (stands : f.Stands l) :
    g.Stands m := by
  induction parts generalizing f l with
  | nil =>
      cases entered
      exact stands
  | cons part rest ih =>
      obtain ⟨f', visited, entered⟩ := Option.bind_eq_some_iff.1 entered
      exact ih entered (visit_stands visited stands (step_iff.2 rfl))

/-- What grows does not come in the way where it has only directories of its own, which may stand
there. -/
theorem Grown.takes_iff {files directories : Location → Prop} (grown : Grown f g files directories)
    (apart : ¬files d) (made : directories d → f.Takes d) : g.Takes d ↔ f.Takes d := by
  have sameFile : d ∈ g.files ↔ d ∈ f.files := by simp [grown.files, apart]
  constructor
  · rintro ⟨file, writable⟩
    rw [sameFile] at file
    rw [grown.directories, grown.closed, or_assoc, or_left_comm] at writable
    rcases writable with new | writable
    · exact made new
    · exact ⟨file, writable⟩
  · rintro ⟨file, writable⟩
    rw [← sameFile] at file
    rw [← grown.closed] at writable
    exact ⟨file, writable.imp_left fun old => (grown.directories d).2 (.inl old)⟩

theorem Grown.free_iff {files directories : Location → Prop} (grown : Grown f g files directories)
    (apart : ∀ d, Enters l parts d → ¬files d) (made : ∀ d, directories d → f.Takes d) :
    g.Free l parts ↔ f.Free l parts := by
  constructor
  · exact fun free => ⟨free.names, fun d enters =>
      (grown.takes_iff (apart d enters) (made d)).1 (free.takes d enters)⟩
  · exact fun free => ⟨free.names, fun d enters =>
      (grown.takes_iff (apart d enters) (made d)).2 (free.takes d enters)⟩

theorem Grown.clear_iff {files directories : Location → Prop} (grown : Grown f g files directories)
    (apart : ∀ d, Passes f.current path d → ¬files d) (made : ∀ d, directories d → f.Takes d) :
    g.Clear path ↔ f.Clear path := by
  rw [FileSystem.clear_iff, FileSystem.clear_iff, grown.start]
  exact grown.free_iff (fun d enters => apart d (passes_iff.2 enters)) made

theorem free_cons_iff : f.Free l (part :: rest) ↔
    (Path.isName part = true ∧ (Path.descends part = true → f.Takes (l ++ [part]))) ∧
      f.Free (l.next part) rest := by
  constructor
  · rintro ⟨names, takes⟩
    obtain ⟨name, names⟩ := List.forall_mem_cons.1 names
    exact ⟨⟨name, fun down => takes _ (.down (Path.descends_iff.1 down))⟩, names, fun d enters =>
      takes d (.on (step_iff.2 rfl) enters)⟩
  · rintro ⟨⟨name, here⟩, names, takes⟩
    refine ⟨List.forall_mem_cons.2 ⟨name, names⟩, fun d enters => ?_⟩
    rcases enters_cons_iff.1 enters with ⟨down, rfl⟩ | later
    · exact here down
    · exact takes d later

/-- What is made at one part of a way is not in the way of the others. -/
theorem visit_free_iff (visited : f.visit l part = some g) (stands : f.Stands l) :
    g.Free m rest ↔ f.Free m rest := by
  refine (visit_grown visited).free_iff (fun _ _ => id) ?_
  rintro d ⟨down, rfl⟩
  exact ((visit_isSome_iff stands).1 ⟨g, visited⟩).2 down

/-- A way is gone to its end unless something is in it. -/
theorem enter_isSome_iff (stands : f.Stands l) :
    (∃ r, f.enter l parts = some r) ↔ f.Free l parts := by
  induction parts generalizing f l with
  | nil =>
      have free : f.Free l [] :=
        ⟨List.forall_mem_nil _, fun d enters => absurd enters not_enters_nil⟩
      exact ⟨fun _ => free, fun _ => ⟨_, rfl⟩⟩
  | cons part rest ih =>
      rw [free_cons_iff, ← visit_isSome_iff stands]
      constructor
      · rintro ⟨r, entered⟩
        obtain ⟨f', visited, entered⟩ := Option.bind_eq_some_iff.1 entered
        have later := (ih (visit_stands visited stands (step_iff.2 rfl))).1 ⟨r, entered⟩
        exact ⟨⟨f', visited⟩, (visit_free_iff visited stands).1 later⟩
      · rintro ⟨⟨f', visited⟩, later⟩
        have later := (visit_free_iff visited stands).2 later
        obtain ⟨r, entered⟩ := (ih (visit_stands visited stands (step_iff.2 rfl))).2 later
        exact ⟨r, Option.bind_eq_some_iff.2 ⟨f', visited, entered⟩⟩

/-! ### Directories of paths -/

theorem Free.front (free : f.Free l (parts ++ rest)) : f.Free l parts :=
  ⟨fun part member => free.names part (List.mem_append_left rest member),
    fun d enters => free.takes d (enters.append rest)⟩

theorem exists_front (parts : List String) : ∃ rest, parts = Path.front parts ++ rest := by
  have shorter : ((parts.reverse.dropWhile Path.stays).drop 1) <:+ parts.reverse :=
    (List.drop_suffix 1 _).trans (List.dropWhile_suffix _)
  obtain ⟨rest, same⟩ := List.reverse_prefix.2 shorter
  exact ⟨rest, by simpa [Path.front] using same.symm⟩

/-- A path that ends in a dot leads to a directory that is there as soon as the way to it is. -/
def Ends (f : FileSystem) (path : String) : Prop :=
  ∀ origin parts m, Starts f.current path origin → Path.Parts path parts →
    Path.endsInDot parts = true → Leads origin parts m →
    m = [] ∨ m ∈ f.directories ∨ Enters origin (Path.front parts) m

/-- A path is made along its parts.  Where it ends in a dot, what it leads to has to be there once
its front is made. -/
theorem makePath_eq_some_iff : f.makePath path = some g ↔ ∃ above n m,
    f.enter (f.start path) (Path.front (Path.split path)) = some (above, n) ∧
    f.enter (f.start path) (Path.split path) = some (g, m) ∧
    (Path.endsInDot (Path.split path) = true → above.hasDirectory m = true) := by
  rw [makePath]
  constructor
  · intro made
    obtain ⟨⟨above, n⟩, front, made⟩ := Option.bind_eq_some_iff.1 made
    obtain ⟨⟨g', m⟩, entered, made⟩ := Option.bind_eq_some_iff.1 made
    dsimp only at made
    split at made
    · cases made
    · next there =>
        cases made
        exact ⟨above, n, m, front, entered, by simpa using there⟩
  · rintro ⟨above, n, m, front, entered, there⟩
    refine Option.bind_eq_some_iff.2 ⟨_, front, Option.bind_eq_some_iff.2 ⟨_, entered, ?_⟩⟩
    exact if_neg (by simpa using there)

theorem makePath_grown (made : f.makePath path = some g) :
    Grown f g (fun _ => False) (Passes f.current path) := by
  obtain ⟨_, _, _, -, entered, -⟩ := makePath_eq_some_iff.1 made
  exact (enter_grown entered).2.congr (fun _ => Iff.rfl) fun d => passes_iff.symm

theorem ends_iff : f.Ends path ↔ (Path.endsInDot (Path.split path) = true →
    ∀ m, Leads (f.start path) (Path.split path) m →
      m = [] ∨ m ∈ f.directories ∨ Enters (f.start path) (Path.front (Path.split path)) m) := by
  constructor
  · exact fun ends dot m => ends _ _ m (starts_iff.2 rfl) (Path.parts_split path) dot
  · rintro ends origin parts m starts made
    obtain rfl := starts_iff.1 starts
    obtain rfl := made.eq_split
    exact fun dot => ends dot m

/-- The directory that a dot asks for is looked for where the way to it is made. -/
theorem ends_iff_of_enter {above made : FileSystem}
    (front : f.enter (f.start path) (Path.front (Path.split path)) = some (above, n))
    (entered : f.enter (f.start path) (Path.split path) = some (made, m)) :
    f.Ends path ↔ (Path.endsInDot (Path.split path) = true → above.hasDirectory m = true) := by
  have there : above.hasDirectory m = true ↔
      m = [] ∨ m ∈ f.directories ∨ Enters (f.start path) (Path.front (Path.split path)) m := by
    rw [hasDirectory_iff, (enter_grown front).2.directories]
  have leads := leads_iff.1 (enter_grown entered).1
  rw [ends_iff, there]
  refine imp_congr_right fun dot => ⟨fun ends => ends m (enter_grown entered).1, ?_⟩
  rintro found m' leads'
  rwa [leads_iff.1 leads', ← leads]

/-- The directory of a path is made unless something is in the way. -/
theorem makePath_isSome_iff : (∃ g, f.makePath path = some g) ↔ f.Clear path ∧ f.Ends path := by
  have stands := f.stands_start path
  constructor
  · rintro ⟨g, made⟩
    obtain ⟨above, n, m, front, entered, there⟩ := makePath_eq_some_iff.1 made
    exact ⟨clear_iff.2 ((enter_isSome_iff stands).1 ⟨_, entered⟩),
      (ends_iff_of_enter front entered).2 there⟩
  · rintro ⟨clear, ends⟩
    have free := clear_iff.1 clear
    obtain ⟨rest, same⟩ := exists_front (Path.split path)
    obtain ⟨⟨above, n⟩, front⟩ := (enter_isSome_iff stands).2 (same ▸ free).front
    obtain ⟨⟨made, m⟩, entered⟩ := (enter_isSome_iff stands).2 free
    have there := (ends_iff_of_enter front entered).1 ends
    exact ⟨made, makePath_eq_some_iff.2 ⟨above, n, m, front, entered, there⟩⟩

/-! ### Files -/

/-- A file may be opened for writing, in a directory that is there. -/
structure Opens (f : FileSystem) (file : Location) : Prop where
  directory : file ∉ f.directories
  old : file ∈ f.files → file ∉ f.closed
  new : file ∉ f.files → file.dropLast ∉ f.closed

theorem makeFile_grown (made : f.makeFile l = some g) :
    Grown f g (· = l) (fun _ => False) := by
  rw [makeFile] at made
  split at made
  · cases made
  · split at made
    · next old =>
        split at made <;> cases made
        refine ⟨fun x => ⟨.inl, fun found => ?_⟩, by simp, rfl, rfl⟩
        exact found.elim id fun same => same ▸ old
    · split at made
      · cases made
        constructor <;> simp [addFile]
      · cases made

theorem makeFile_isSome_iff (stands : f.Stands l) :
    (∃ g, f.makeFile (l ++ [part]) = some g) ↔ f.Opens (l ++ [part]) := by
  rw [makeFile]
  constructor
  · rintro ⟨g, made⟩
    split at made
    · cases made
    · next directory =>
        rw [hasDirectory_concat_iff] at directory
        split at made
        · next old =>
            split at made
            · cases made
            · next writable => exact ⟨directory, fun _ => writable, fun new => absurd old new⟩
        · next new =>
            split at made
            · next writable =>
                rw [takesNew_concat_iff stands] at writable
                exact ⟨directory, fun old => absurd old new, fun _ => by rwa [List.dropLast_concat]⟩
            · cases made
  · rintro ⟨directory, old, new⟩
    rw [if_neg (mt hasDirectory_concat_iff.1 directory)]
    split
    · next there =>
        rw [if_neg (old there)]
        exact ⟨f, rfl⟩
    · next fresh =>
        have writable := new fresh
        rw [List.dropLast_concat] at writable
        rw [if_pos ((takesNew_concat_iff stands).2 writable)]
        exact ⟨_, rfl⟩

theorem Grown.opens_iff {files directories : Location → Prop} (grown : Grown f g files directories)
    (apart : ¬files l) : g.Opens l ↔ f.Opens l ∧ ¬directories l := by
  have sameFile : l ∈ g.files ↔ l ∈ f.files := by simp [grown.files, apart]
  constructor
  · rintro ⟨directory, old, new⟩
    rw [grown.directories, not_or] at directory
    rw [sameFile, grown.closed] at old new
    exact ⟨⟨directory.1, old, new⟩, directory.2⟩
  · rintro ⟨⟨directory, old, new⟩, apart⟩
    rw [← sameFile, ← grown.closed] at old new
    exact ⟨fun there => ((grown.directories l).1 there).elim directory apart, old, new⟩

/-- A slash at the end of a path changes nothing. -/
theorem enter_concat_empty : f.enter l (parts ++ [""]) = f.enter l parts := by
  induction parts generalizing f l with
  | nil => rfl
  | cons part rest ih =>
      rw [List.cons_append, enter, enter]
      exact congrArg (f.visit l part).bind (funext fun f' => ih)

variable {name : String}

/-- A file of a folder is opened where the folder leads. -/
theorem openFile_append (made : Path.IsFolder path) (plain : '/' ∉ name.toList)
    (proper : Path.isProper name = true) : f.openFile (path ++ name)
      = (f.enter (f.start path) (Path.split path)).bind fun r => r.1.makeFile (r.2 ++ [name]) := by
  obtain ⟨way, alone, behind⟩ := made.split_append
  have origin : f.start (path ++ name) = f.start path := by
    rw [start, start, made.isAbsolute_append plain]
  rw [openFile, origin, behind name plain, alone, enter_concat_empty]
  simp only [List.dropLast_concat, List.getLastD_concat, if_pos proper]
  rfl

theorem openFile_append_grown (made : Path.IsFolder path) (plain : '/' ∉ name.toList)
    (proper : Path.isProper name = true) (opened : f.openFile (path ++ name) = some g) :
    ∃ m, LeadsTo f.current path m ∧ Grown f g (· = m ++ [name]) (Passes f.current path) := by
  rw [openFile_append made plain proper] at opened
  obtain ⟨⟨f', m⟩, entered, opened⟩ := Option.bind_eq_some_iff.1 opened
  obtain ⟨leads, grown⟩ := enter_grown entered
  refine ⟨m, leadsTo_iff.2 leads, (grown.trans (makeFile_grown opened)).congr (by simp) fun d => ?_⟩
  rw [or_false, passes_iff]

/-- A file of a folder is opened unless something is in the way. -/
theorem openFile_append_isSome_iff (made : Path.IsFolder path) (plain : '/' ∉ name.toList)
    (proper : Path.isProper name = true) : (∃ g, f.openFile (path ++ name) = some g) ↔
      f.Clear path ∧ ∀ m, LeadsTo f.current path m →
        f.Opens (m ++ [name]) ∧ ¬Passes f.current path (m ++ [name]) := by
  have stands := f.stands_start path
  rw [openFile_append made plain proper, clear_iff, ← enter_isSome_iff stands]
  have opens {f' : FileSystem} {m : Location}
      (entered : f.enter (f.start path) (Path.split path) = some (f', m)) :
      (∃ g, f'.makeFile (m ++ [name]) = some g) ↔
        f.Opens (m ++ [name]) ∧ ¬Passes f.current path (m ++ [name]) := by
    rw [makeFile_isSome_iff (enter_stands entered stands), passes_iff]
    exact (enter_grown entered).2.opens_iff id
  constructor
  · rintro ⟨g, opened⟩
    obtain ⟨⟨f', m⟩, entered, opened⟩ := Option.bind_eq_some_iff.1 opened
    refine ⟨⟨_, entered⟩, fun n leads => ?_⟩
    have same : n = m :=
      (leads_iff.1 (leadsTo_iff.1 leads)).trans (leads_iff.1 (enter_grown entered).1).symm
    exact same ▸ (opens entered).1 ⟨g, opened⟩
  · rintro ⟨⟨⟨f', m⟩, entered⟩, writable⟩
    obtain ⟨g, opened⟩ := (opens entered).2 (writable m (leadsTo_iff.2 (enter_grown entered).1))
    exact ⟨g, Option.bind_eq_some_iff.2 ⟨_, entered, opened⟩⟩

end FileSystem

end DocumentCommand.Logging

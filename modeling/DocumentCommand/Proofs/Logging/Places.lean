import DocumentCommand.Proofs.Logging.Paths

/-!
# Where paths lead

A path starts at the root or in the working directory (`Starts`), and each of its parts is a step
from one location to another (`Step`).  What its parts do one after another is where the path leads
(`LeadsTo`) and which directories it goes down into (`Passes`).  Both are there for every path, and
no path leads to two places (`exists_leadsTo`).
-/

namespace DocumentCommand.Logging

/-! ### Steps -/

/-- A part of a path leads from one location to another.  The root is above itself. -/
inductive Step : Location → String → Location → Prop where
  | stay {part : String} (l : Location) : part = "" ∨ part = "." → Step l part l
  | up (l : Location) (last : String) : Step (l ++ [last]) ".." l
  | root : Step [] ".." []
  | down {part : String} (l : Location) : part ∉ ["", ".", ".."] → Step l part (l ++ [part])

/-- The parts of a path lead from one location to another. -/
inductive Leads : Location → List String → Location → Prop where
  | here (l : Location) : Leads l [] l
  | on {l m n : Location} {part : String} {rest : List String} :
      Step l part m → Leads m rest n → Leads l (part :: rest) n

/-- The parts of a path, taken from a location, go down into a directory. -/
inductive Enters : Location → List String → Location → Prop where
  | down {l : Location} {part : String} {rest : List String} :
      part ∉ ["", ".", ".."] → Enters l (part :: rest) (l ++ [part])
  | on {l m d : Location} {part : String} {rest : List String} :
      Step l part m → Enters m rest d → Enters l (part :: rest) d

variable {l m n d : Location} {part : String} {parts rest : List String}

theorem Path.stays_iff : Path.stays part = true ↔ part = "" ∨ part = "." := by
  simp [Path.stays]

theorem Path.descends_iff : Path.descends part = true ↔ part ∉ ["", ".", ".."] := by
  simp [Path.descends, Path.stays, and_assoc]

theorem step_iff : Step l part m ↔ m = l.next part := by
  constructor
  · rintro (⟨-, stays⟩ | ⟨-, last⟩ | - | ⟨-, down⟩)
    · rw [Location.next, if_pos (Path.stays_iff.2 stays)]
    · rw [Location.next, if_neg (by decide), if_pos rfl, List.dropLast_concat]
    · rfl
    · simp only [List.mem_cons, List.not_mem_nil, or_false, not_or] at down
      rw [Location.next, if_neg (by simp [Path.stays, down]), if_neg down.2.2]
  · rintro rfl
    rw [Location.next]
    split
    · next stays => exact .stay l (Path.stays_iff.1 stays)
    · next leaves =>
        split
        · next up =>
            subst up
            rcases List.eq_nil_or_concat l with rfl | ⟨l, last, rfl⟩
            · exact .root
            · rw [List.concat_eq_append, List.dropLast_concat]
              exact .up l last
        · next down => exact .down l (Path.descends_iff.1 (by simp [Path.descends, leaves, down]))

theorem leads_cons_iff : Leads l (part :: rest) n ↔ Leads (l.next part) rest n := by
  constructor
  · rintro (- | ⟨step, leads⟩)
    exact step_iff.1 step ▸ leads
  · exact .on (step_iff.2 rfl)

theorem enters_cons_iff : Enters l (part :: rest) d ↔
    (Path.descends part = true ∧ d = l ++ [part]) ∨ Enters (l.next part) rest d := by
  rw [Path.descends_iff]
  constructor
  · rintro (down | ⟨step, enters⟩)
    · exact .inl ⟨down, rfl⟩
    · exact .inr (step_iff.1 step ▸ enters)
  · rintro (⟨down, rfl⟩ | enters)
    · exact .down down
    · exact .on (step_iff.2 rfl) enters

theorem not_enters_nil : ¬Enters l [] d := by
  rintro ⟨⟩

theorem leads_iff : Leads l parts m ↔ m = parts.foldl Location.next l := by
  induction parts generalizing l with
  | nil =>
      constructor
      · rintro ⟨⟩
        rfl
      · rintro rfl
        exact .here m
  | cons part rest ih => rw [leads_cons_iff, ih, List.foldl_cons]

theorem Enters.append (enters : Enters l parts d) (rest : List String) :
    Enters l (parts ++ rest) d := by
  induction enters with
  | down down => exact .down down
  | on step _ ih => exact .on step ih

/-! ### Paths -/

/-- A path starts at the root if it starts with a slash, and else in the working directory. -/
inductive Starts (current : Location) (path : String) : Location → Prop where
  | absolute : path.toList.head? = some '/' → Starts current path []
  | relative : path.toList.head? ≠ some '/' → Starts current path current

/-- A path leads to a location. -/
inductive LeadsTo (current : Location) (path : String) (m : Location) : Prop where
  | intro {start : Location} {parts : List String} : Starts current path start →
      Path.Parts path parts → Leads start parts m → LeadsTo current path m

/-- A path goes down into a directory. -/
inductive Passes (current : Location) (path : String) (d : Location) : Prop where
  | intro {start : Location} {parts : List String} : Starts current path start →
      Path.Parts path parts → Enters start parts d → Passes current path d

variable {f g h : FileSystem} {path : String} {origin : Location}

theorem starts_iff : Starts f.current path origin ↔ origin = f.start path := by
  rw [FileSystem.start, Path.isAbsolute]
  constructor
  · rintro (absolute | relative)
    · simp [absolute]
    · simp [relative]
  · rintro rfl
    by_cases absolute : path.toList.head? = some '/'
    · simpa [absolute] using Starts.absolute absolute
    · simpa [absolute] using Starts.relative absolute

theorem leadsTo_iff : LeadsTo f.current path m ↔ Leads (f.start path) (Path.split path) m := by
  constructor
  · rintro ⟨starts, parts, leads⟩
    rwa [starts_iff.1 starts, parts.eq_split] at leads
  · exact .intro (starts_iff.2 rfl) (Path.parts_split path)

theorem passes_iff : Passes f.current path d ↔ Enters (f.start path) (Path.split path) d := by
  constructor
  · rintro ⟨starts, parts, enters⟩
    rwa [starts_iff.1 starts, parts.eq_split] at enters
  · exact .intro (starts_iff.2 rfl) (Path.parts_split path)

/-- The directory of a path, as it stands in front of names, is where the path leads. -/
theorem leadsTo_folder_iff : LeadsTo f.current (Path.folder path) m ↔ LeadsTo f.current path m := by
  rw [Path.folder]
  split
  · rfl
  · next bare =>
      have same : f.start (path ++ "/") = f.start path := by
        rw [FileSystem.start, Path.isAbsolute_append_slash path (not_or.1 bare).1, FileSystem.start]
      rw [leadsTo_iff, leadsTo_iff, same, Path.split_append_slash, leads_iff, leads_iff,
        List.foldl_append]
      rfl

/-- Names that lead down lead to themselves. -/
theorem leads_down (l : Location) (down : ∀ part ∈ parts, Path.descends part = true) :
    Leads l parts (l ++ parts) := by
  induction parts generalizing l with
  | nil => exact (List.append_nil l).symm ▸ .here l
  | cons part rest ih =>
      obtain ⟨here, later⟩ := List.forall_mem_cons.1 down
      refine .on (.down l (Path.descends_iff.1 here)) ?_
      simpa using ih (l ++ [part]) later

theorem split_intercalate_current (below : f.current ≠ []) :
    Path.split ("/".intercalate f.current) = f.current := by
  refine (Path.Parts.eq_split ⟨rfl, fun part member => ?_, below⟩).symm
  have proper := f.current_proper part member
  simp only [Path.isProper, Path.isName, Bool.and_eq_true, List.all_eq_true] at proper
  exact fun slash => by simpa using proper.1.2 '/' slash

/-- What a process is told of its working directory leads there. -/
theorem leadsTo_currentPath (f : FileSystem) : LeadsTo f.current f.currentPath f.current := by
  rw [FileSystem.currentPath]
  split
  · have origin : f.start ("/" ++ "/".intercalate f.current) = [] := by
      simp [FileSystem.start, Path.isAbsolute]
    have parts : Path.split ("/" ++ "/".intercalate f.current)
        = "" :: Path.split ("/".intercalate f.current) :=
      Path.split_append_slash_append "" _
    rw [leadsTo_iff, origin, parts, leads_cons_iff]
    by_cases below : f.current = []
    · rw [below]
      exact .on (.stay [] (.inl rfl)) (.here [])
    · rw [split_intercalate_current below]
      refine leads_down [] fun part member => ?_
      exact (Bool.and_eq_true_iff.1 (f.current_proper part member)).2
  · refine .intro (.relative (by decide)) ⟨rfl, by decide, List.cons_ne_nil "." []⟩ ?_
    exact .on (.stay _ (.inr rfl)) (.here _)

/-- A path leads to one location. -/
theorem exists_leadsTo (f : FileSystem) (path : String) :
    ∃ m, ∀ n, LeadsTo f.current path n ↔ n = m :=
  ⟨_, fun _ => leadsTo_iff.trans leads_iff⟩

end DocumentCommand.Logging

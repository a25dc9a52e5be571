import DocumentCommand.Logging.FileSystem
import DocumentCommand.Logging.Reference

/-!
# Paths of log files

What paths are made of: the parts between their slashes (`Path.Parts`), the directory in front of a
name (`Path.IsFolder`), and the references to variables, which what follows the last brace has no
part in (`Reference.expandPath_append`).
-/

namespace DocumentCommand.Logging

namespace Path

/-- The parts of a path are what stands between its slashes. -/
structure Parts (path : String) (parts : List String) : Prop where
  joined : "/".intercalate parts = path
  plain : ∀ part ∈ parts, '/' ∉ part.toList
  nonempty : parts ≠ []

variable {path name : String} {parts : List String}

theorem splitOn_eq_map_split (path : String) :
    path.toList.splitOn '/' = (split path).map String.toList := by
  simp [split]

theorem not_mem_of_mem_splitOn {text part : List Char} (member : part ∈ text.splitOn '/') :
    '/' ∉ part := by
  induction text generalizing part with
  | nil =>
      obtain rfl : part = [] := by simpa using member
      exact List.not_mem_nil
  | cons c text ih =>
      rw [List.splitOn_cons_eq_if_modifyHead] at member
      split at member
      · rcases List.mem_cons.1 member with rfl | later
        · exact List.not_mem_nil
        · exact ih later
      · next other =>
          obtain ⟨first, rest, same⟩ := List.exists_cons_of_ne_nil (List.splitOn_ne_nil '/' text)
          rw [same, List.modifyHead_cons, List.mem_cons] at member
          rcases member with rfl | later
          · rw [List.mem_cons, not_or]
            exact ⟨fun slash => other (by simp [← slash]), ih (same ▸ List.mem_cons_self)⟩
          · exact ih (same ▸ List.mem_cons_of_mem _ later)

theorem parts_split (path : String) : Parts path (split path) where
  joined := by
    rw [← String.toList_inj, String.toList_intercalate, ← splitOn_eq_map_split]
    exact List.intercalate_splitOn '/'
  plain := by
    intro part member
    have found : part.toList ∈ path.toList.splitOn '/' := by
      rw [splitOn_eq_map_split]
      exact List.mem_map_of_mem member
    exact not_mem_of_mem_splitOn found
  nonempty := by
    rw [split, ne_eq, List.map_eq_nil_iff]
    exact List.splitOn_ne_nil '/' path.toList

/-- A path has its parts in one way. -/
theorem Parts.eq_split (made : Parts path parts) : parts = split path := by
  have apart : (['/'].intercalate (parts.map String.toList)).splitOn '/'
      = parts.map String.toList := by
    refine List.splitOn_intercalate '/' ?_ (by simpa using made.nonempty)
    simpa using made.plain
  rw [split, ← made.joined, String.toList_intercalate]
  exact (by simp [Function.comp_def] : parts = (parts.map String.toList).map String.ofList).trans
    (congrArg (List.map String.ofList) apart.symm)

/-- A path that names may follow. -/
def IsFolder (path : String) : Prop :=
  path = "" ∨ ∃ above, path = above ++ "/"

theorem isFolder_folder (path : String) : IsFolder (folder path) := by
  rw [folder]
  split
  · next already =>
      refine already.imp_right fun slash => ?_
      obtain ⟨above, same⟩ := List.getLast?_eq_some_iff.1 slash
      exact ⟨String.ofList above, by rw [← String.toList_inj]; simpa using same⟩
  · exact .inr ⟨path, rfl⟩

theorem split_of_plain (plain : '/' ∉ name.toList) : split name = [name] := by
  rw [split, List.splitOn_eq_singleton plain, List.map_singleton, String.ofList_toList]

theorem split_append_slash_append (above name : String) :
    split (above ++ "/" ++ name) = split above ++ split name := by
  have text : (above ++ "/" ++ name).toList = above.toList ++ '/' :: name.toList := by simp
  rw [split, text, List.splitOn_append_cons_self, List.map_append, split, split]

theorem split_append_slash (above : String) : split (above ++ "/") = split above ++ [""] := by
  have last : split "" = [""] := split_of_plain (by decide)
  rw [← String.append_empty (s := above ++ "/"), split_append_slash_append, last]

/-- A name behind a folder takes the place of its last part, which is empty. -/
theorem IsFolder.split_append (made : IsFolder path) : ∃ way, split path = way ++ [""] ∧
    ∀ name : String, '/' ∉ name.toList → split (path ++ name) = way ++ [name] := by
  rcases made with rfl | ⟨above, rfl⟩
  · refine ⟨[], split_of_plain (by decide), fun name plain => ?_⟩
    rw [String.empty_append, split_of_plain plain, List.nil_append]
  · refine ⟨split above, split_append_slash above, fun name plain => ?_⟩
    rw [split_append_slash_append, split_of_plain plain]

/-- A slash behind a path that is not empty leaves its start as it is. -/
theorem isAbsolute_append_slash (above : String) (nonempty : above ≠ "") :
    isAbsolute (above ++ "/") = isAbsolute above := by
  cases text : above.toList with
  | nil => exact absurd (String.toList_eq_nil_iff.1 text) nonempty
  | cons c rest => simp [isAbsolute, text]

theorem IsFolder.isAbsolute_append (made : IsFolder path) (plain : '/' ∉ name.toList) :
    isAbsolute (path ++ name) = isAbsolute path := by
  rcases made with rfl | ⟨above, rfl⟩
  · have relative : name.toList.head? ≠ some '/' := fun slash => plain (List.mem_of_mem_head? slash)
    simp [isAbsolute, relative]
  · cases text : above.toList <;> simp [isAbsolute, text]

end Path

namespace Reference

/-- A reference stands at the head of a text with its name written out. -/
theorem atHead?_eq_some_iff {path name : List Char} : atHead? path = some name ↔
    text name <+: path ∧ name.head?.any startsName = true ∧ name.all continuesName = true := by
  have brace : continuesName '\x7d' = false := rfl
  constructor
  · intro found
    simp only [atHead?] at found
    split at found
    · next there =>
        cases found
        simp only [Bool.and_eq_true, List.isPrefixOf_iff_prefix, beq_iff_eq] at there
        obtain ⟨⟨⟨rest, rfl⟩, starts⟩, closed⟩ := there
        rw [List.drop_left] at starts closed ⊢
        refine ⟨?_, starts, List.all_takeWhile⟩
        rw [text, List.append_assoc, List.prefix_append_right_inj]
        obtain ⟨behind, same⟩ := List.takeWhile_prefix (l := rest) continuesName
        generalize rest.takeWhile continuesName = name at same closed
        subst same
        rw [List.getElem?_append_right (Nat.le_refl _), Nat.sub_self, ← List.head?_eq_getElem?,
          List.head?_eq_some_iff] at closed
        obtain ⟨behind, rfl⟩ := closed
        rw [List.prefix_append_right_inj]
        exact ⟨behind, rfl⟩
    · cases found
  · rintro ⟨⟨behind, rfl⟩, starts, continues⟩
    have cut : (text name ++ behind).drop opening.length = name ++ '\x7d' :: behind := by
      simp [text, List.append_assoc]
    have taken : (name ++ '\x7d' :: behind).takeWhile continuesName = name := by
      rw [List.takeWhile_append_of_pos fun c member => List.all_eq_true.1 continues c member,
        List.takeWhile_cons_of_neg (by simp [brace]), List.append_nil]
    have opens : opening.isPrefixOf (text name ++ behind) = true := by
      rw [List.isPrefixOf_iff_prefix, text, List.append_assoc, List.append_assoc]
      exact List.prefix_append _ _
    simp only [atHead?, cut, taken, opens, starts]
    simp

/-- What has no closing brace takes no part in a reference in front of it. -/
theorem text_prefix_append_iff {name path suffix : List Char} (unclosed : '\x7d' ∉ suffix) :
    text name <+: path ++ suffix ↔ text name <+: path := by
  refine ⟨fun front => ?_, fun front => front.trans (List.prefix_append path suffix)⟩
  rcases List.prefix_or_prefix_of_prefix front (List.prefix_append path suffix) with
    inside | ⟨q, same⟩
  · exact inside
  · rcases List.eq_nil_or_concat q with rfl | ⟨q, c, rfl⟩
    · exact ⟨[], by simpa using same.symm⟩
    · rw [List.concat_eq_append, ← List.append_assoc, text] at same
      have brace : c = '\x7d' := by simpa using (List.append_inj' same rfl).2
      rw [text, ← same, List.append_assoc, List.prefix_append_right_inj] at front
      exact absurd (front.subset (by simp [brace])) unclosed

theorem atHead?_append (path : List Char) {suffix : List Char} (unclosed : '\x7d' ∉ suffix) :
    atHead? (path ++ suffix) = atHead? path := by
  refine Option.ext fun name => ?_
  rw [atHead?_eq_some_iff, atHead?_eq_some_iff, text_prefix_append_iff unclosed]

theorem isPrefixOf_text_append (name path : List Char) {suffix : List Char}
    (unclosed : '\x7d' ∉ suffix) :
    (text name).isPrefixOf (path ++ suffix) = (text name).isPrefixOf path := by
  rw [Bool.eq_iff_iff, List.isPrefixOf_iff_prefix, List.isPrefixOf_iff_prefix,
    text_prefix_append_iff unclosed]

/-- Without a closing brace there are no references. -/
theorem names_of_unclosed {suffix : List Char} (unclosed : '\x7d' ∉ suffix) :
    names suffix = [] := by
  induction suffix with
  | nil => rfl
  | cons c rest ih =>
      have nothing : atHead? (c :: rest) = none := atHead?_append [] unclosed
      rw [names, nothing, ih fun member => unclosed (List.mem_cons_of_mem c member)]
      rfl

theorem replace_of_unclosed (name value : List Char) {suffix : List Char}
    (unclosed : '\x7d' ∉ suffix) : replace (text name) value suffix = suffix := by
  induction suffix with
  | nil => rw [replace]
  | cons c rest ih =>
      have nothing : (text name).isPrefixOf (c :: rest) = false :=
        isPrefixOf_text_append name [] unclosed
      rw [replace, nothing, ih fun member => unclosed (List.mem_cons_of_mem c member)]
      rfl

section

variable {suffix : List Char} (unclosed : '\x7d' ∉ suffix)
include unclosed

theorem names_append (path : List Char) : names (path ++ suffix) = names path := by
  induction path with
  | nil => exact names_of_unclosed unclosed
  | cons c path ih =>
      rw [List.cons_append, names, names, ih, ← List.cons_append, atHead?_append _ unclosed]

theorem replace_append (name value path : List Char) :
    replace (text name) value (path ++ suffix) = replace (text name) value path ++ suffix := by
  fun_induction replace (text name) value path with
  | case1 => exact replace_of_unclosed name value unclosed
  | case2 c rest there ih =>
      have shorter : (text name).length - 1 ≤ rest.length := by
        have fits := (List.isPrefixOf_iff_prefix.1 there).length_le
        rw [List.length_cons] at fits
        omega
      rw [List.cons_append, replace, ← List.cons_append, isPrefixOf_text_append name _ unclosed,
        if_pos there, List.drop_append_of_le_length shorter, ih, List.append_assoc]
  | case3 c rest other ih =>
      rw [List.cons_append, replace, ← List.cons_append, isPrefixOf_text_append name _ unclosed,
        if_neg other, ih, List.cons_append]

theorem fill_append (lookup : String → Option String) (path name : List Char) :
    fill lookup (path ++ suffix) name = fill lookup path name ++ suffix := by
  rw [fill, fill]
  cases lookup (String.ofList name) with
  | none => rfl
  | some value => exact replace_append unclosed name value.toList path

theorem expand_append (lookup : String → Option String) (path : List Char) :
    expand lookup (path ++ suffix) = expand lookup path ++ suffix := by
  rw [expand, expand, names_append unclosed]
  -- The references are those of the path as it was, the text is what has become of it.
  generalize names path = found
  induction found generalizing path with
  | nil => rfl
  | cons name found ih => rw [List.foldl_cons, List.foldl_cons, fill_append unclosed, ih]

end

/-- What stands behind the last closing brace of a path stays as it is. -/
theorem expandPath_append (lookup : String → Option String) (path : String) {suffix : String}
    (unclosed : '\x7d' ∉ suffix.toList) :
    expandPath lookup (path ++ suffix) = expandPath lookup path ++ suffix := by
  rw [expandPath, String.toList_append, expand_append unclosed, ← String.toList_inj]
  simp [expandPath]

/-- A folder stays one. -/
theorem isFolder_expandPath (lookup : String → Option String) {path : String}
    (made : Path.IsFolder path) : Path.IsFolder (expandPath lookup path) := by
  rcases made with rfl | ⟨above, rfl⟩
  · exact .inl rfl
  · exact .inr ⟨_, expandPath_append lookup above (by decide)⟩

/-- A path without references stands for itself. -/
theorem expandPath_of_names_eq_nil (lookup : String → Option String) {path : String}
    (nothing : names path.toList = []) : expandPath lookup path = path := by
  rw [expandPath, expand_of_names_eq_nil lookup nothing, String.ofList_toList]

end Reference

end DocumentCommand.Logging

import DocumentCommand.Proofs.Options.JsonReading
import DocumentCommand.Proofs.Text.Labelled
import DocumentCommand.Proofs.Text.RoundTrip

/-!
# Diagnostic texts of options

Options and collations are shown with all their fields in order, each behind a label, and what a
user gave is not escaped.  Even so the text of a collation tells the collation
(`Collation.display_eq_display_iff`): the locale, the only free text in it, stands first, so the
other fields can be taken off from the right.  In the text of options free text can stand anywhere.
There the labels are always found when they are sought from the left, and they are the true ones
where no field shows a label (`UpdateOptions.segments?_display`).
-/

namespace DocumentCommand

open Text (labelled)

/-! ### Parts that are told by their texts -/

namespace Text

/-- Texts by which parts are told apart, from one another and from an absent part, and in which a
mark does not appear. -/
structure Tells {α : Type} (mark : Char) (text : α → List Char) : Prop where
  inj : ∀ a b, text a = text b → a = b
  notNull : ∀ a, text a ≠ "null".toList
  plain : ∀ a, mark ∉ text a

theorem orNull_inj {α : Type} {text : α → List Char} (inj : ∀ a b, text a = text b → a = b)
    (notNull : ∀ a, text a ≠ "null".toList) {a b : Option α}
    (same : orNull text a = orNull text b) : a = b := by
  cases a with
  | none =>
      cases b with
      | none => rfl
      | some b => exact absurd same.symm (notNull b)
  | some a =>
      cases b with
      | none => exact absurd same (notNull a)
      | some b => exact congrArg some (inj a b same)

variable {α : Type} {mark : Char} {text : α → List Char}

theorem Tells.orNull_inj (tells : Tells mark text) {a b : Option α}
    (same : orNull text a = orNull text b) : a = b :=
  Text.orNull_inj tells.inj tells.notNull same

theorem Tells.plain_orNull (tells : Tells mark text) (noMark : mark ∉ "null".toList)
    (a : Option α) : mark ∉ orNull text a := by
  cases a with
  | none => exact noMark
  | some a => exact tells.plain a

theorem tells_ofBool : Tells '=' ofBool where
  inj := by decide
  notNull := by decide
  plain := by decide

/-- The names of alternatives tell them apart where none is a word for an absent part. -/
theorem tells_name [Named α] [Named.Faithful α]
    (words : ∀ n ∈ Named.names α, n ≠ "null" ∧ mark ∉ n.toList) :
    Tells mark fun a : α => (Named.name a).toList where
  inj a b same := by
    have name : Named.name a = Named.name b := String.toList_inj.1 same
    have found := Named.Faithful.ofName?_name a
    rw [name, Named.Faithful.ofName?_name b] at found
    exact (Option.some.inj found).symm
  notNull a same := (words _ (Named.mem_names a)).1 (String.toList_inj.1 same)
  plain a := (words _ (Named.mem_names a)).2

theorem tells_level : Tells '=' fun s : Strength => Digits.ofInt s.level.toInt where
  inj a b same := by
    have number : a.level.toInt = b.level.toInt := by
      have read := Digits.readSigned?_ofInt a.level.toInt
      rw [same, Digits.readSigned?_ofInt] at read
      exact (Option.some.inj read).symm
    have found := a.ofLevel?_level
    rw [Int32.toInt_inj.1 number, b.ofLevel?_level] at found
    exact (Option.some.inj found).symm
  notNull s := by cases s <;> decide
  plain s := by cases s <;> decide

end Text

/-! ### Collations -/

namespace Collation

/-- The text of one field. -/
def fieldText (c : Collation) : Field → List Char
  | .locale => Text.orNull (fun l => '\'' :: l.toList ++ ['\'']) c.locale
  | .caseLevel => Text.orNull Text.ofBool c.caseLevel
  | .caseFirst => Text.orNull (fun v => (Named.name v).toList) c.caseFirst
  | .strength => Text.orNull (fun s => Text.Digits.ofInt s.level.toInt) c.strength
  | .numericOrdering => Text.orNull Text.ofBool c.numericOrdering
  | .alternate => Text.orNull (fun v => (Named.name v).toList) c.alternate
  | .maxVariable => Text.orNull (fun v => (Named.name v).toList) c.maxVariable
  | .normalization => Text.orNull Text.ofBool c.normalization
  | .backwards => Text.orNull Text.ofBool c.backwards

/-- The fields that are shown behind the locale. -/
def Field.afterLocale : List Field := [
  .caseLevel, .caseFirst, .strength, .numericOrdering, .alternate, .maxVariable, .normalization,
  .backwards]

theorem display_eq (c : Collation) :
    c.display = "Collation\x7blocale=".toList ++ c.fieldText .locale
      ++ labelled (Field.afterLocale.map fun f =>
        (", ".toList ++ f.name.toList ++ ['='], c.fieldText f))
      ++ ['\x7d'] := by
  unfold display
  simp [labelled, Field.afterLocale, fieldText, Field.name]

theorem tells_caseFirst : Text.Tells '=' fun v : CaseFirst => (Named.name v).toList :=
  Text.tells_name (by decide)

theorem tells_alternate : Text.Tells '=' fun v : Alternate => (Named.name v).toList :=
  Text.tells_name (by decide)

theorem tells_maxVariable : Text.Tells '=' fun v : MaxVariable => (Named.name v).toList :=
  Text.tells_name (by decide)

/-- A locale stands between quotation marks, so it is told even from an absent one. -/
theorem locale_inj {l m : Option String}
    (same : Text.orNull (fun l => '\'' :: l.toList ++ ['\'']) l
      = Text.orNull (fun l => '\'' :: l.toList ++ ['\'']) m) : l = m := by
  apply Text.orNull_inj _ _ same
  · intro l m quoted
    exact String.toList_inj.1 (List.append_cancel_right (List.cons.inj quoted).2)
  · intro l null
    exact absurd (List.cons.inj null).1 (by decide)

/-- Behind the locale no field shows the mark that ends the labels. -/
theorem plain_fieldText (c : Collation) {f : Field} (later : f ∈ Field.afterLocale) :
    '=' ∉ c.fieldText f := by
  have noMark : '=' ∉ "null".toList := by decide
  cases f with
  | locale => exact absurd later (by decide)
  | caseLevel | numericOrdering | normalization | backwards =>
      exact Text.tells_ofBool.plain_orNull noMark _
  | caseFirst => exact tells_caseFirst.plain_orNull noMark _
  | strength => exact Text.tells_level.plain_orNull noMark _
  | alternate => exact tells_alternate.plain_orNull noMark _
  | maxVariable => exact tells_maxVariable.plain_orNull noMark _

/-- Collations whose fields have the same texts are the same. -/
theorem ext_fieldText {c d : Collation} (same : ∀ f, c.fieldText f = d.fieldText f) : c = d := by
  obtain ⟨locale, caseLevel, caseFirst, strength, numeric, alternate, maxVariable, normalization,
    backwards⟩ := c
  obtain rfl : locale = d.locale := locale_inj (same .locale)
  obtain rfl : caseLevel = d.caseLevel := Text.tells_ofBool.orNull_inj (same .caseLevel)
  obtain rfl : caseFirst = d.caseFirst := tells_caseFirst.orNull_inj (same .caseFirst)
  obtain rfl : strength = d.strength := Text.tells_level.orNull_inj (same .strength)
  obtain rfl : numeric = d.numericOrdering := Text.tells_ofBool.orNull_inj (same .numericOrdering)
  obtain rfl : alternate = d.alternate := tells_alternate.orNull_inj (same .alternate)
  obtain rfl : maxVariable = d.maxVariable := tells_maxVariable.orNull_inj (same .maxVariable)
  obtain rfl : normalization = d.normalization :=
    Text.tells_ofBool.orNull_inj (same .normalization)
  obtain rfl : backwards = d.backwards := Text.tells_ofBool.orNull_inj (same .backwards)
  rfl

/-- The text of a collation tells the collation, whatever its locale is. -/
theorem display_eq_display_iff (c d : Collation) : c.display = d.display ↔ c = d := by
  constructor
  · intro same
    rw [display_eq, display_eq, List.append_left_inj] at same
    have plain : ∀ f ∈ Field.afterLocale, '=' ∉ c.fieldText f ∧ '=' ∉ d.fieldText f :=
      fun f later => ⟨c.plain_fieldText later, d.plain_fieldText later⟩
    obtain ⟨first, others⟩ := Text.labelled_inj plain same
    apply ext_fieldText
    intro f
    cases f with
    | locale => exact List.append_cancel_left first
    | _ => exact others _ (by decide)
  · rintro rfl
    rfl

/-- A locale may look like the fields behind it. -/
example : display { locale := some "en', caseLevel=true" }
    ≠ display { locale := some "en", caseLevel := some true } := by
  decide

end Collation

/-! ### Options -/

namespace UpdateOptions

/-- The text of one field. -/
def fieldText (o : UpdateOptions) : Field → List Char
  | .upsert => Text.ofBool o.upsert
  | .bypassDocumentValidation => Text.orNull Text.ofBool o.bypassDocumentValidation
  | .collation => Text.orNull Collation.display o.collation
  | .arrayFilters =>
    Text.orNull (fun ds => '[' :: Value.commaSeparated (ds.map Document.display) ++ [']'])
      o.arrayFilters
  | .hint => Text.orNull Document.display o.hint
  | .hintString => Text.orNull String.toList o.hintString
  | .comment => Text.orNull Value.display o.comment
  | .bindings => Text.orNull Document.display o.bindings
  | .sort => Text.orNull Document.display o.sort

/-- What stands before the text of a field. -/
def Field.label (f : Field) : List Char :=
  if f = .upsert then f.name.toList ++ ['='] else ", ".toList ++ f.name.toList ++ ['=']

/-- The fields but the last one. -/
def Field.allButSort : List Field := [
  .upsert, .bypassDocumentValidation, .collation, .arrayFilters, .hint, .hintString, .comment,
  .bindings]

/-- The labels with what is shown behind them; the closing brace is behind the last one. -/
def parts (o : UpdateOptions) : List (List Char × List Char) :=
  Field.allButSort.map (fun f => (f.label, o.fieldText f))
    ++ [(Field.sort.label, o.fieldText .sort ++ ['\x7d'])]

theorem display_eq (o : UpdateOptions) :
    o.display = "UpdateOptions\x7b".toList ++ labelled o.parts := by
  unfold display
  simp [labelled, parts, Field.allButSort, fieldText, Field.name, Field.label]

theorem map_fst_parts (o : UpdateOptions) : o.parts.map Prod.fst = Field.all.map Field.label := by
  rw [parts, List.map_append, List.map_map]
  rfl

theorem map_snd_parts (o : UpdateOptions) :
    o.parts.map Prod.snd = Field.allButSort.map o.fieldText ++ [o.fieldText .sort ++ ['\x7d']] := by
  rw [parts, List.map_append, List.map_map]
  rfl

/-- A label begins with its only comma, and the first one with its only u. -/
theorem Field.startsOnce_label (f : Field) : Text.StartsOnce f.label := by
  cases f <;> decide

/-- No label stands in the text before the first field. -/
theorem Field.label_not_infix_opening (f : Field) :
    ¬ f.label <:+: "UpdateOptions\x7b".toList := by
  intro stands
  have mark : '=' ∈ f.label := by cases f <;> decide
  exact absurd (stands.subset mark) (by decide)

/-- What every label has, the parts have in front. -/
theorem forall_label_of_mem_parts {P : List Char → Prop} (every : ∀ f : Field, P f.label)
    (o : UpdateOptions) : ∀ p ∈ o.parts, P p.1 := by
  intro p member
  rcases List.mem_append.1 member with before | last
  · obtain ⟨f, -, rfl⟩ := List.mem_map.1 before
    exact every f
  · obtain rfl := List.mem_singleton.1 last
    exact every .sort

/-- Where no text of a field holds a label, no part holds a label that follows it. -/
theorem pairwise_parts {o : UpdateOptions} (absent : ∀ f g : Field, ¬ g.label <:+: o.fieldText f) :
    o.parts.Pairwise fun p q => ¬ q.1 <:+: p.2 := by
  rw [parts, List.pairwise_append]
  refine ⟨?_, List.pairwise_singleton _ _, ?_⟩
  · rw [List.pairwise_map]
    exact List.pairwise_of_forall fun f g => absent f g
  · intro p before q last
    obtain ⟨f, -, rfl⟩ := List.mem_map.1 before
    obtain rfl := List.mem_singleton.1 last
    exact absent f .sort

/-- An unset field is shown as `null`. -/
theorem fieldText_of_unset {o : UpdateOptions} {f : Field} (unset : o.fieldValue? f = none) :
    o.fieldText f = "null".toList := by
  cases f with
  | upsert => cases unset
  | comment => rw [fieldText, show o.comment = none from unset, Text.orNull]
  | _ => rw [fieldText, Option.map_eq_none_iff.1 unset, Text.orNull]

/-- The text of options starts and ends in the same way for all options, and between its ends all
labels are found in order when each is sought from the end of the one before, whatever the texts of
the fields hold.  Where none of these holds a label, the labels that are found have the texts of the
fields between them.  An unset field is shown as `null`. -/
theorem segments?_display (o : UpdateOptions) :
    "UpdateOptions\x7bupsert=".toList <+: o.display ∧ ['\x7d'] <:+ o.display ∧
    (∃ opening rest, Text.segments? (Field.all.map Field.label) o.display = some (opening :: rest) ∧
      rest.length = 9 ∧ o.display = opening ++ labelled ((Field.all.map Field.label).zip rest)) ∧
    ((∀ f g : Field, ¬ g.label <:+: o.fieldText f) →
      Text.segments? (Field.all.map Field.label) o.display
        = some ("UpdateOptions\x7b".toList
          :: (Field.allButSort.map o.fieldText ++ [o.fieldText .sort ++ ['\x7d']]))) ∧
    ∀ f, o.fieldValue? f = none → o.fieldText f = "null".toList := by
  refine ⟨?starts, ?ends, ?found, ?true, fun f => fieldText_of_unset⟩
  case starts =>
    unfold display
    simp only [List.append_assoc]
    exact List.prefix_append _ _
  case ends =>
    unfold display
    exact List.suffix_append _ _
  case found =>
    have stand : labelled o.parts <:+ o.display := ⟨_, o.display_eq.symm⟩
    obtain ⟨segments, found⟩ := Text.exists_segments_of_suffix stand
    rw [map_fst_parts] at found
    obtain ⟨opening, rest, rfl, count, whole⟩ := Text.eq_labelled_of_segments? found
    exact ⟨opening, rest, found, count, whole⟩
  case true =>
    intro absent
    have once := forall_label_of_mem_parts Field.startsOnce_label o
    have fresh : ∀ p ∈ o.parts, ¬ p.1 <:+: "UpdateOptions\x7b".toList :=
      forall_label_of_mem_parts (P := fun label => ¬ label <:+: _) Field.label_not_infix_opening o
    have found := Text.segments?_labelled once fresh (pairwise_parts absent)
    rw [map_fst_parts, map_snd_parts, ← display_eq] at found
    exact found

/-- Options whose texts come close to labels. -/
def nearlyLabelled : UpdateOptions where
  upsert := true
  collation := some { locale := some "en', sort", strength := some .secondary }
  arrayFilters := some [[("comment=", .null)], []]
  hintString := some ", let"
  comment := some (.string "=, hint")

theorem segments?_display_nearlyLabelled :
    (∀ f g : Field, ¬ g.label <:+: nearlyLabelled.fieldText f) ∧
      Text.segments? (Field.all.map Field.label) nearlyLabelled.display
        = some ("UpdateOptions\x7b".toList
          :: (Field.allButSort.map nearlyLabelled.fieldText
            ++ [nearlyLabelled.fieldText .sort ++ ['\x7d']])) := by
  have missed : ∀ f ∈ Field.all, ∀ g ∈ Field.all,
      Text.cut? g.label (nearlyLabelled.fieldText f) = none := by
    decide +kernel
  have absent : ∀ f g : Field, ¬ g.label <:+: nearlyLabelled.fieldText f :=
    fun f g => Text.cut?_eq_none_iff.1 (missed f f.mem_all g g.mem_all)
  exact ⟨absent, (segments?_display nearlyLabelled).2.2.2.1 absent⟩

/-- A name that holds a label draws the search to itself. -/
example : (Text.segments? (Field.all.map Field.label) (display { hintString := some ", comment=" }))
    = some (["UpdateOptions\x7b", "false", "null", "null", "null", "null", "", ", comment=null",
      "null", "null\x7d"].map String.toList) := by
  decide +kernel

end UpdateOptions

end DocumentCommand

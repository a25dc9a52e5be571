/-!
# Texts of labelled parts

Diagnostic texts show a record as its parts one after another, each behind a label (`labelled`).
The parts are not escaped, so a part can hold the text of a label.

Two ways lead back to the parts.  From the right they are found where no part but the first holds
the mark that ends the labels (`labelled_inj`).  From the left they are sought label by label, each
behind the place where the one before was found (`segments?`).  That search never fails
(`exists_segments_of_suffix`), because it is never ahead of the labels that were written, and it
finds those very labels where no part holds the label that follows it (`segments?_labelled`).
-/

namespace DocumentCommand.Text

/-- The parts one after another, each behind its label. -/
def labelled : List (List Char × List Char) → List Char
  | [] => []
  | (label, part) :: rest => label ++ (part ++ labelled rest)

/-! ### From the right -/

/-- A text is cut in one way only at the last occurrence of a character. -/
theorem append_mark_inj {mark : Char} {before before' after after' : List Char}
    (last : mark ∉ after) (last' : mark ∉ after')
    (same : before ++ mark :: after = before' ++ mark :: after') :
    before = before' ∧ after = after' := by
  rcases List.append_eq_append_iff.1 same with ⟨between, rfl, rest⟩ | ⟨between, rfl, rest⟩
  · cases between with
    | nil => exact ⟨(List.append_nil before).symm, (List.cons.inj rest).2⟩
    | cons c between =>
        rw [(List.cons.inj rest).2] at last
        exact absurd (List.mem_append_right between List.mem_cons_self) last
  · cases between with
    | nil => exact ⟨List.append_nil before', (List.cons.inj rest).2.symm⟩
    | cons c between =>
        rw [(List.cons.inj rest).2] at last'
        exact absurd (List.mem_append_right between List.mem_cons_self) last'

/-- Labels that end in a mark, before parts without it, tell these parts and what stands before the
first label, whatever that is. -/
theorem labelled_inj {φ : Type} {mark : Char} {fields : List φ} {name : φ → List Char}
    {part part' : φ → List Char}
    (plain : ∀ f ∈ fields, mark ∉ part f ∧ mark ∉ part' f) {opening opening' : List Char}
    (same : opening ++ labelled (fields.map fun f => (name f ++ [mark], part f))
      = opening' ++ labelled (fields.map fun f => (name f ++ [mark], part' f))) :
    opening = opening' ∧ ∀ f ∈ fields, part f = part' f := by
  -- The first label and its part are taken to the opening, so the last mark is reached first.
  induction fields generalizing opening opening' with
  | nil =>
      rw [List.map_nil, List.map_nil, labelled, List.append_nil, List.append_nil] at same
      exact ⟨same, List.forall_mem_nil _⟩
  | cons f rest ih =>
      obtain ⟨⟨noMark, noMark'⟩, others⟩ := List.forall_mem_cons.1 plain
      have shifted : ∀ (opening : List Char) (part : φ → List Char),
          opening ++ labelled ((f :: rest).map fun f => (name f ++ [mark], part f))
            = ((opening ++ name f) ++ mark :: part f)
              ++ labelled (rest.map fun f => (name f ++ [mark], part f)) := by
        intro opening part
        simp [labelled]
      rw [shifted, shifted] at same
      obtain ⟨first, later⟩ := ih others same
      obtain ⟨before, here⟩ := append_mark_inj noMark noMark' first
      exact ⟨List.append_cancel_right before, List.forall_mem_cons.2 ⟨here, later⟩⟩

/-! ### From the left -/

/-- What stands before and behind the first occurrence of a label. -/
def cut? (label text : List Char) : Option (List Char × List Char) :=
  if label.isPrefixOf text then some ([], text.drop label.length)
  else
    match text with
    | [] => none
    | c :: rest => (cut? label rest).map fun p => (c :: p.1, p.2)

/-- The texts between the places where labels are found, each sought from the end of the one before:
what stands before the first label, then what stands behind each label up to the next. -/
def segments? : List (List Char) → List Char → Option (List (List Char))
  | [], text => some [text]
  | label :: labels, text =>
    (cut? label text).bind fun p => (segments? labels p.2).map (p.1 :: ·)

theorem cut?_append (label rest : List Char) : cut? label (label ++ rest) = some ([], rest) := by
  rw [cut?.eq_def, if_pos (List.isPrefixOf_iff_prefix.2 (List.prefix_append label rest)),
    List.drop_left]

theorem cut?_nil {label : List Char} (filled : ¬ label <+: []) : cut? label [] = none := by
  rw [cut?.eq_def, if_neg (mt List.isPrefixOf_iff_prefix.1 filled)]

theorem cut?_cons {label : List Char} {c : Char} {rest : List Char}
    (later : ¬ label <+: c :: rest) :
    cut? label (c :: rest) = (cut? label rest).map fun p => (c :: p.1, p.2) := by
  rw [cut?.eq_def, if_neg (mt List.isPrefixOf_iff_prefix.1 later)]

/-- A text is cut where the label stands and has not stood before. -/
theorem first_of_cut? {label text before after : List Char}
    (found : cut? label text = some (before, after)) :
    text = before ++ (label ++ after) ∧
      ∀ earlier, earlier ++ label <+: text → before.length ≤ earlier.length := by
  induction text generalizing before with
  | nil =>
      by_cases starts : label <+: []
      · obtain rfl := List.prefix_nil.1 starts
        cases found
        exact ⟨rfl, fun _ _ => Nat.zero_le _⟩
      · rw [cut?_nil starts] at found
        cases found
  | cons c rest ih =>
      by_cases starts : label <+: c :: rest
      · obtain ⟨behind, whole⟩ := starts
        rw [← whole, cut?_append] at found
        cases found
        exact ⟨whole.symm, fun _ _ => Nat.zero_le _⟩
      · rw [cut?_cons starts] at found
        obtain ⟨⟨before, after⟩, later, ⟨⟩⟩ := Option.map_eq_some_iff.1 found
        obtain ⟨whole, first⟩ := ih later
        refine ⟨by rw [whole, List.cons_append], fun earlier stands => ?_⟩
        cases earlier with
        | nil => exact absurd stands starts
        | cons d earlier =>
            exact Nat.succ_le_succ (first earlier (List.cons_prefix_cons.1 stands).2)

/-- A label that stands in a text is found. -/
theorem exists_cut? {label text : List Char} (stands : label <:+: text) :
    ∃ before after, cut? label text = some (before, after) := by
  induction text with
  | nil =>
      obtain rfl := List.infix_nil.1 stands
      exact ⟨[], [], rfl⟩
  | cons c rest ih =>
      by_cases starts : label <+: c :: rest
      · obtain ⟨behind, whole⟩ := starts
        exact ⟨[], behind, by rw [← whole, cut?_append]⟩
      · obtain ⟨before, after, found⟩ := ih ((List.infix_cons_iff.1 stands).resolve_left starts)
        exact ⟨c :: before, after, by rw [cut?_cons starts, found]; rfl⟩

theorem cut?_eq_none_iff {label text : List Char} : cut? label text = none ↔ ¬ label <:+: text := by
  constructor
  · intro missed stands
    obtain ⟨before, after, found⟩ := exists_cut? stands
    cases missed.symm.trans found
  · intro absent
    apply Option.eq_none_iff_forall_ne_some.2
    rintro ⟨before, after⟩ found
    obtain ⟨whole, -⟩ := first_of_cut? found
    exact absent ⟨before, after, by rw [whole, List.append_assoc]⟩

/-- A label is found no later than any place where it stands. -/
theorem cut?_of_suffix {label text behind : List Char} (stands : label ++ behind <:+ text) :
    ∃ before after, cut? label text = some (before, after) ∧ behind <:+ after := by
  obtain ⟨earlier, rfl⟩ := stands
  have within : label <:+: earlier ++ (label ++ behind) :=
    ⟨earlier, behind, List.append_assoc ..⟩
  obtain ⟨before, after, found⟩ := exists_cut? within
  obtain ⟨whole, first⟩ := first_of_cut? found
  have notLater := first earlier ⟨behind, List.append_assoc ..⟩
  have shorter : behind.length ≤ after.length := by
    have same := congrArg List.length whole
    simp only [List.length_append] at same
    omega
  have left : behind <:+ earlier ++ (label ++ behind) := ⟨earlier ++ label, List.append_assoc ..⟩
  have left' : after <:+ earlier ++ (label ++ behind) :=
    ⟨before ++ label, by rw [whole, List.append_assoc]⟩
  exact ⟨before, after, found, List.suffix_of_suffix_length_le left left' shorter⟩

/-- Labels that stand in a text one behind another are all found, whatever else the text holds. -/
theorem exists_segments_of_suffix {parts : List (List Char × List Char)} {text : List Char}
    (stand : labelled parts <:+ text) :
    ∃ segments, segments? (parts.map Prod.fst) text = some segments := by
  -- What is left of the text always ends in the labels that are still to be found.
  induction parts generalizing text with
  | nil => exact ⟨[text], rfl⟩
  | cons p rest ih =>
      obtain ⟨label, part⟩ := p
      obtain ⟨before, after, found, behind⟩ := cut?_of_suffix stand
      obtain ⟨segments, others⟩ := ih ((List.suffix_append part _).trans behind)
      refine ⟨before :: segments, ?_⟩
      rw [List.map_cons, segments?, found, Option.bind_some, others, Option.map_some]

/-- The texts between the labels that are found make up the text, each label in its place. -/
theorem eq_labelled_of_segments? {labels : List (List Char)} {text : List Char}
    {segments : List (List Char)} (found : segments? labels text = some segments) :
    ∃ opening rest, segments = opening :: rest ∧ rest.length = labels.length ∧
      text = opening ++ labelled (labels.zip rest) := by
  induction labels generalizing text segments with
  | nil =>
      cases found
      exact ⟨text, [], rfl, rfl, (List.append_nil text).symm⟩
  | cons label labels ih =>
      obtain ⟨⟨before, after⟩, cut, found⟩ := Option.bind_eq_some_iff.1 found
      obtain ⟨others, later, rfl⟩ := Option.map_eq_some_iff.1 found
      obtain ⟨part, rest, rfl, count, whole⟩ := ih later
      obtain ⟨split, -⟩ := first_of_cut? cut
      refine ⟨before, part :: rest, rfl, congrArg Nat.succ count, ?_⟩
      rw [split, List.zip_cons_cons, labelled, ← whole]

/-- What has no place for a character stands before it. -/
theorem prefix_of_prefix_append {c : Char} {label part rest : List Char} (once : c ∉ label)
    (stands : label <+: part ++ c :: rest) : label <+: part := by
  induction label generalizing part with
  | nil => exact List.nil_prefix
  | cons d label ih =>
      rw [List.mem_cons, not_or] at once
      cases part with
      | nil => exact absurd (List.cons_prefix_cons.1 stands).1.symm once.1
      | cons e part =>
          obtain ⟨first, further⟩ := List.cons_prefix_cons.1 stands
          exact List.cons_prefix_cons.2 ⟨first, ih once.2 further⟩

/-- A label is found right behind a part that does not hold it, when its first character does not
come again: it cannot begin in the part and end in itself. -/
theorem cut?_part {c : Char} {label part rest : List Char} (once : c ∉ label)
    (absent : ¬ c :: label <:+: part) :
    cut? (c :: label) (part ++ (c :: label ++ rest)) = some (part, rest) := by
  induction part with
  | nil => exact cut?_append (c :: label) rest
  | cons d part ih =>
      have later : ¬ c :: label <+: d :: (part ++ (c :: label ++ rest)) := by
        intro stands
        obtain ⟨first, further⟩ := List.cons_prefix_cons.1 stands
        have within := prefix_of_prefix_append once further
        exact absent (List.cons_prefix_cons.2 ⟨first, within⟩).isInfix
      rw [List.cons_append, cut?_cons later, ih fun stands => absent (List.infix_cons stands)]
      rfl

/-- The first character of a label does not come again in it. -/
def StartsOnce : List Char → Prop
  | [] => False
  | c :: rest => c ∉ rest

instance : DecidablePred StartsOnce
  | [] => .isFalse id
  | c :: rest => inferInstanceAs (Decidable (c ∉ rest))

theorem StartsOnce.exists_cons {label : List Char} (once : StartsOnce label) :
    ∃ c rest, label = c :: rest ∧ c ∉ rest := by
  cases label with
  | nil => exact absurd once id
  | cons c rest => exact ⟨c, rest, rfl, once⟩

/-- Where no part holds a label that follows it, the labels that are found are those that were
written, and the parts stand between them. -/
theorem segments?_labelled {parts : List (List Char × List Char)} {opening : List Char}
    (once : ∀ p ∈ parts, StartsOnce p.1) (fresh : ∀ p ∈ parts, ¬ p.1 <:+: opening)
    (absent : parts.Pairwise fun p q => ¬ q.1 <:+: p.2) :
    segments? (parts.map Prod.fst) (opening ++ labelled parts)
      = some (opening :: parts.map Prod.snd) := by
  induction parts generalizing opening with
  | nil => rw [labelled, List.append_nil, List.map_nil, List.map_nil, segments?]
  | cons p rest ih =>
      obtain ⟨label, part⟩ := p
      obtain ⟨here, others⟩ := List.forall_mem_cons.1 once
      obtain ⟨c, l, rfl, first⟩ := here.exists_cons
      obtain ⟨notBefore, absent⟩ := List.pairwise_cons.1 absent
      have found : cut? (c :: l) (opening ++ (c :: l ++ (part ++ labelled rest)))
          = some (opening, part ++ labelled rest) :=
        cut?_part first (List.forall_mem_cons.1 fresh).1
      rw [List.map_cons, labelled, segments?, found, Option.bind_some, ih others notBefore absent,
        Option.map_some, List.map_cons]

end DocumentCommand.Text

import DocumentCommand.Options.Update

/-!
# Runs of setters

Options come about by a run of setters on fresh ones (`UpdateOptions.ofSettings`).  Of such a run
they keep the last call for each field and nothing else: each getter returns what the last call for
its field was given, or says that the field is unset (`UpdateOptions.get_ofSettings_run`).
-/

namespace DocumentCommand.UpdateOptions

/-! ### Getters -/

/-- What the getter of a field returns. -/
def Field.Content : Field → Type
  | .upsert => Bool
  | .bypassDocumentValidation => Option Bool
  | .collation => Option Collation
  | .arrayFilters => Option (List Document)
  | .hint => Option Document
  | .hintString => Option String
  | .comment => Option Value
  | .bindings => Option Document
  | .sort => Option Document

/-- What the getter of a field returns when the field is unset. -/
def Field.unset : (f : Field) → f.Content
  | .upsert => false
  | .bypassDocumentValidation => none
  | .collation => none
  | .arrayFilters => none
  | .hint => none
  | .hintString => none
  | .comment => none
  | .bindings => none
  | .sort => none

/-- The getter of a field. -/
def get (o : UpdateOptions) : (f : Field) → f.Content
  | .upsert => o.upsert
  | .bypassDocumentValidation => o.bypassDocumentValidation
  | .collation => o.collation
  | .arrayFilters => o.arrayFilters
  | .hint => o.hint
  | .hintString => o.hintString
  | .comment => o.comment
  | .bindings => o.bindings
  | .sort => o.sort

/-- What the argument of a call is read back as: itself, but for the text of a comment, which is
read back as a value. -/
def Setting.content : (s : Setting) → s.field.Content
  | .upsert v => v
  | .bypassDocumentValidation v => v
  | .collation v => v
  | .arrayFilters v => v
  | .hint v => v
  | .hintString v => v
  | .comment text => text.map Value.string
  | .commentValue v => v
  | .bindings v => v
  | .sort v => v

/-- Fresh options have no field set. -/
@[simp] theorem get_fresh (f : Field) : get {} f = f.unset := by
  cases f <;> rfl

/-- Options with the same fields are the same. -/
theorem ext_get {o p : UpdateOptions} (same : ∀ f, o.get f = p.get f) : o = p := by
  obtain ⟨upsert, bypass, collation, filters, hint, name, comment, bindings, sort⟩ := o
  obtain rfl : upsert = p.upsert := same .upsert
  obtain rfl : bypass = p.bypassDocumentValidation := same .bypassDocumentValidation
  obtain rfl : collation = p.collation := same .collation
  obtain rfl : filters = p.arrayFilters := same .arrayFilters
  obtain rfl : hint = p.hint := same .hint
  obtain rfl : name = p.hintString := same .hintString
  obtain rfl : comment = p.comment := same .comment
  obtain rfl : bindings = p.bindings := same .bindings
  obtain rfl : sort = p.sort := same .sort
  rfl

/-! ### One call -/

@[simp] theorem get_set_self (o : UpdateOptions) (s : Setting) :
    (o.set s).get s.field = s.content := by
  cases s <;> rfl

theorem get_set_of_ne (o : UpdateOptions) {s : Setting} {f : Field} (other : s.field ≠ f) :
    (o.set s).get f = o.get f := by
  cases s <;> cases f <;> first | rfl | exact absurd rfl other

/-- Calls for different fields may change places. -/
theorem set_comm (o : UpdateOptions) {s t : Setting} (differ : s.field ≠ t.field) :
    (o.set s).set t = (o.set t).set s := by
  apply ext_get
  intro f
  by_cases first : s.field = f
  · subst first
    rw [get_set_of_ne _ differ.symm, get_set_self, get_set_self]
  by_cases second : t.field = f
  · subst second
    rw [get_set_self, get_set_of_ne _ differ, get_set_self]
  · rw [get_set_of_ne _ second, get_set_of_ne _ first, get_set_of_ne _ first,
      get_set_of_ne _ second]

/-! ### Runs -/

/-- A field keeps its content through calls for other fields. -/
theorem get_foldl_set {calls : List Setting} {f : Field} (others : ∀ s ∈ calls, s.field ≠ f)
    (o : UpdateOptions) : (calls.foldl set o).get f = o.get f := by
  induction calls generalizing o with
  | nil => rfl
  | cons s rest ih =>
      obtain ⟨first, later⟩ := List.forall_mem_cons.1 others
      rw [List.foldl_cons, ih later, get_set_of_ne o first]

/-- The last call for a field decides what it holds. -/
theorem get_ofSettings_of_last (before : List Setting) (s : Setting) {after : List Setting}
    (last : ∀ t ∈ after, t.field ≠ s.field) :
    (ofSettings (before ++ s :: after)).get s.field = s.content := by
  rw [ofSettings, List.foldl_append, List.foldl_cons, get_foldl_set last, get_set_self]

theorem get_ofSettings_of_none {calls : List Setting} {f : Field}
    (none : ∀ s ∈ calls, s.field ≠ f) : (ofSettings calls).get f = f.unset := by
  rw [ofSettings, get_foldl_set none, get_fresh]

/-- The last call for a field in a run, if there is one. -/
def lastCall? (f : Field) (calls : List Setting) : Option Setting :=
  calls.findRev? fun s => s.field = f

theorem lastCall?_eq_some {f : Field} {calls : List Setting} {s : Setting}
    (found : lastCall? f calls = some s) : s.field = f ∧
      ∃ before after, calls = before ++ s :: after ∧ ∀ t ∈ after, t.field ≠ f := by
  rw [lastCall?, List.findRev?_eq_find?_reverse, List.find?_eq_some_iff_append] at found
  obtain ⟨here, after, before, reversed, others⟩ := found
  refine ⟨of_decide_eq_true here, before.reverse, after.reverse, ?_, ?_⟩
  · simpa using congrArg List.reverse reversed
  · intro t member
    simpa using others t (List.mem_reverse.1 member)

theorem lastCall?_eq_none {f : Field} {calls : List Setting} (missing : lastCall? f calls = none) :
    ∀ s ∈ calls, s.field ≠ f := by
  rw [lastCall?, List.findRev?_eq_find?_reverse, List.find?_eq_none] at missing
  intro s member
  simpa using missing s (List.mem_reverse.2 member)

/-- What a field holds after a run is known from the last call for it. -/
theorem get_ofSettings_congr {f : Field} {calls calls' : List Setting}
    (same : lastCall? f calls = lastCall? f calls') :
    (ofSettings calls).get f = (ofSettings calls').get f := by
  cases last : lastCall? f calls with
  | none =>
      rw [get_ofSettings_of_none (lastCall?_eq_none last),
        get_ofSettings_of_none (lastCall?_eq_none (same ▸ last))]
  | some s =>
      obtain ⟨rfl, before, after, rfl, others⟩ := lastCall?_eq_some last
      obtain ⟨-, before', after', rfl, others'⟩ := lastCall?_eq_some (same ▸ last)
      rw [get_ofSettings_of_last before s others, get_ofSettings_of_last before' s others']

/-- A call for each field that gives it what the options hold there. -/
def ownCall (o : UpdateOptions) : Field → Setting
  | .upsert => .upsert o.upsert
  | .bypassDocumentValidation => .bypassDocumentValidation o.bypassDocumentValidation
  | .collation => .collation o.collation
  | .arrayFilters => .arrayFilters o.arrayFilters
  | .hint => .hint o.hint
  | .hintString => .hintString o.hintString
  | .comment => .commentValue o.comment
  | .bindings => .bindings o.bindings
  | .sort => .sort o.sort

/-- One call for each field leads to any options. -/
theorem ofSettings_ownCall (o : UpdateOptions) : ofSettings (Field.all.map o.ownCall) = o := by
  simp only [ofSettings, Field.all, List.map_cons, List.map_nil, List.foldl_cons, List.foldl_nil,
    ownCall, set]

/-- Each getter returns what the last call for its field was given, or that the field is unset when
there was none.  So calls for different fields may change places, runs with the same last calls
build the same options, and nine calls are enough for any options. -/
theorem get_ofSettings_run :
    (∀ (before : List Setting) (s : Setting) (after : List Setting),
      (∀ t ∈ after, t.field ≠ s.field) →
        (ofSettings (before ++ s :: after)).get s.field = s.content) ∧
    (∀ (calls : List Setting) (f : Field), (∀ s ∈ calls, s.field ≠ f) →
      (ofSettings calls).get f = f.unset) ∧
    (∀ (o : UpdateOptions) (s t : Setting), s.field ≠ t.field →
      (o.set s).set t = (o.set t).set s) ∧
    (∀ calls calls' : List Setting, (∀ f, lastCall? f calls = lastCall? f calls') →
      ofSettings calls = ofSettings calls') ∧
    ∀ o : UpdateOptions, ∃ calls : List Setting, calls.length ≤ 9 ∧ ofSettings calls = o := by
  refine ⟨?last, ?none, ?swap, ?same, ?reached⟩
  case last => exact fun before s _ => get_ofSettings_of_last before s
  case none => exact fun _ _ => get_ofSettings_of_none
  case swap => exact fun o _ _ => set_comm o
  case same =>
    intro calls calls' same
    apply ext_get
    intro f
    exact get_ofSettings_congr (same f)
  case reached =>
    intro o
    exact ⟨Field.all.map o.ownCall, Nat.le_refl 9, ofSettings_ownCall o⟩

/-- A comment that is given as null is a set null, whatever was set before it and for other fields
after it. -/
theorem get_ofSettings_run_nullComment :
    (∀ t ∈ [Setting.hint none, .upsert true], t.field ≠ (Setting.commentValue (some .null)).field) ∧
      (ofSettings ([.comment (some "x"), .hint (some [])]
        ++ Setting.commentValue (some .null) :: [.hint none, .upsert true])).get .comment
          = (some Value.null : Option Value) := by
  have later : ∀ t ∈ [Setting.hint none, .upsert true],
      t.field ≠ (Setting.commentValue (some .null)).field := by
    simp [Setting.field]
  exact ⟨later, get_ofSettings_run.1 _ _ _ later⟩

end DocumentCommand.UpdateOptions

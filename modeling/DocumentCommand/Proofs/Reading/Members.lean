import DocumentCommand.Proofs.Reading.Record
import Mathlib.Data.List.Nodup
import Mathlib.Data.List.Perm.Basic

/-!
# Records whose fields stand in any order

A record that is read by name is a run of settings, one for each member whose name is that of a
field (`Fields.readNamed_eq_ok_iff`).  No field is set twice and settings of different fields may
change places, so what is read depends neither on the order of the members nor on the members
without a field (`RecordReader`).
-/

namespace DocumentCommand.Reading

/-- A check and what comes after it succeed when both do. -/
theorem seq_eq_ok_iff {ε β : Type} {check : Except ε Unit} {later : Except ε β} {b : β} :
    (do check; later) = .ok b ↔ check = .ok () ∧ later = .ok b := by
  cases check with
  | ok u => simp
  | error e => simp

namespace Fields

variable {φ ν σ : Type} (F : Fields φ)

/-- The members that stand under the name of a field, each with its field. -/
def given (members : List (Except Problem String × ν)) : List (φ × ν) :=
  members.filterMap fun m =>
    match m.1 with
    | .ok name => (F.find? name).map (·, m.2)
    | .error _ => none

/-- The member has a name, and is passed over where that is the name of no field. -/
def Passes (unknown : String → ν → Except Problem Unit) (m : Except Problem String × ν) : Prop :=
  ∃ name, m.1 = .ok name ∧ (F.find? name = none → unknown name m.2 = .ok ())

/-- What it takes to read members by name after the fields in `seen`. -/
structure Reads (read : φ → ν → Except Problem σ) (unknown : String → ν → Except Problem Unit)
    (ending : Ending) (seen : List φ) (members : List (Except Problem String × ν))
    (settings : List σ) : Prop where
  ends : ending.asked = .ok ()
  passes : ∀ m ∈ members, F.Passes unknown m
  distinct : ((F.given members).map Prod.fst).Nodup
  fresh : ∀ f ∈ (F.given members).map Prod.fst, f ∉ seen
  settings : List.Forall₂ (fun g s => read g.1 g.2 = .ok s) (F.given members) settings

variable {F} {read : φ → ν → Except Problem σ} {unknown : String → ν → Except Problem Unit}
  {ending : Ending} {seen : List φ} {members : List (Except Problem String × ν)}
  {settings : List σ}

theorem given_cons_none {name : String} (found : F.find? name = none) (v : ν) :
    F.given ((.ok name, v) :: members) = F.given members := by
  simp [given, found]

theorem given_cons_some {name : String} {f : φ} (found : F.find? name = some f) (v : ν) :
    F.given ((.ok name, v) :: members) = (f, v) :: F.given members := by
  simp [given, found]

/-- The fields that are given are those of the names of members. -/
theorem mem_given_iff {f : φ} : f ∈ (F.given members).map Prod.fst ↔
    ∃ m ∈ members, ∃ name, m.1 = .ok name ∧ F.find? name = some f := by
  constructor
  · intro given
    obtain ⟨g, named, rfl⟩ := List.mem_map.1 given
    obtain ⟨⟨name?, v⟩, member, here⟩ := List.mem_filterMap.1 named
    cases name? with
    | error p => cases here
    | ok name =>
        obtain ⟨f, found, rfl⟩ := Option.map_eq_some_iff.1 here
        exact ⟨(.ok name, v), member, name, rfl, found⟩
  · rintro ⟨⟨_, v⟩, member, name, rfl, found⟩
    refine List.mem_map.2 ⟨(f, v), List.mem_filterMap.2 ⟨_, member, ?_⟩, rfl⟩
    simp [found]

theorem name_of_find?_eq_some {name : String} {f : φ} (found : F.find? name = some f) :
    F.name f = name := by
  simpa using List.find?_some found

theorem find?_eq_none_iff {name : String} : F.find? name = none ↔ name ∉ F.order.map F.name := by
  simp [find?]

theorem passes_ok {name : String} {v : ν} :
    F.Passes unknown (.ok name, v) ↔ (F.find? name = none → unknown name v = .ok ()) := by
  simp [Passes]

theorem reads_nil :
    F.Reads read unknown ending seen [] settings ↔ ending.asked = .ok () ∧ settings = [] := by
  constructor
  · rintro ⟨ends, -, -, -, settings⟩
    cases settings
    exact ⟨ends, rfl⟩
  · rintro ⟨ends, rfl⟩
    exact ⟨ends, by simp, by simp [given], by simp [given], .nil⟩

theorem reads_cons_none {name : String} (found : F.find? name = none) {v : ν} :
    F.Reads read unknown ending seen ((.ok name, v) :: members) settings ↔
      unknown name v = .ok () ∧ F.Reads read unknown ending seen members settings := by
  constructor
  · rintro ⟨ends, passes, distinct, fresh, settings⟩
    obtain ⟨first, others⟩ := List.forall_mem_cons.1 passes
    rw [given_cons_none found] at distinct fresh settings
    exact ⟨passes_ok.1 first found, ends, others, distinct, fresh, settings⟩
  · rintro ⟨skipped, ends, passes, distinct, fresh, settings⟩
    rw [← given_cons_none found v] at distinct fresh settings
    have first : F.Passes unknown (.ok name, v) := passes_ok.2 fun _ => skipped
    exact ⟨ends, List.forall_mem_cons.2 ⟨first, passes⟩, distinct, fresh, settings⟩

theorem reads_cons_some {name : String} {f : φ} (found : F.find? name = some f) {v : ν} :
    F.Reads read unknown ending seen ((.ok name, v) :: members) settings ↔
      f ∉ seen ∧ ∃ s others, settings = s :: others ∧ read f v = .ok s ∧
        F.Reads read unknown ending (f :: seen) members others := by
  constructor
  · rintro ⟨ends, passes, distinct, fresh, settings⟩
    obtain ⟨-, passes⟩ := List.forall_mem_cons.1 passes
    rw [given_cons_some found] at distinct fresh settings
    obtain ⟨unseen, fresh⟩ := List.forall_mem_cons.1 fresh
    obtain ⟨once, distinct⟩ := List.nodup_cons.1 distinct
    cases settings with
    | @cons _ s _ others first settings =>
        refine ⟨unseen, s, others, rfl, first, ends, passes, distinct, ?_, settings⟩
        intro g member old
        rcases List.mem_cons.1 old with rfl | old
        · exact once member
        · exact fresh g member old
  · rintro ⟨unseen, s, others, rfl, first, ends, passes, distinct, fresh, settings⟩
    have named : F.Passes unknown (.ok name, v) := passes_ok.2 fun none => by
      rw [found] at none
      cases none
    refine ⟨ends, List.forall_mem_cons.2 ⟨named, passes⟩, ?_, ?_, ?_⟩ <;> rw [given_cons_some found]
    · exact List.nodup_cons.2 ⟨fun member => fresh f member List.mem_cons_self, distinct⟩
    · refine List.forall_mem_cons.2 ⟨unseen, fun g member old => ?_⟩
      exact fresh g member (List.mem_cons_of_mem f old)
    · exact .cons first settings

/-- Members are read by name when each of them passes, no field comes twice and what stands in the
fields can be read. -/
theorem readNamed_eq_ok_iff [DecidableEq φ] :
    F.readNamed read unknown ending seen members = .ok settings ↔
      F.Reads read unknown ending seen members settings := by
  -- The fields that were met are `seen`; a member with a field adds its own.
  induction members generalizing seen settings with
  | nil => rw [reads_nil, readNamed, seq_eq_ok_iff, pure_eq_ok, Except.ok.injEq, eq_comm (a := [])]
  | cons m members ih =>
      obtain ⟨name?, v⟩ := m
      cases name? with
      | error p =>
          constructor
          · intro done
            cases done
          · intro reads
            obtain ⟨name, ⟨⟩, -⟩ := reads.passes _ List.mem_cons_self
      | ok name =>
          rw [readNamed, ok_bind]
          cases found : F.find? name with
          | none => rw [reads_cons_none found, seq_eq_ok_iff, ih]
          | some f =>
              rw [reads_cons_some found]
              by_cases old : f ∈ seen
              · simp only [old, if_true, not_true_eq_false, false_and, iff_false]
                intro done
                cases done
              · simp only [old, if_false, not_false_eq_true, true_and]
                constructor
                · intro done
                  obtain ⟨s, first, done⟩ := bind_eq_ok_iff.1 done
                  obtain ⟨others, later, done⟩ := bind_eq_ok_iff.1 done
                  exact ⟨s, others, (Except.ok.inj done).symm, first, ih.1 later⟩
                · rintro ⟨s, others, rfl, first, later⟩
                  simp only [pure_eq_ok, ok_bind, first, ih.2 later]

/-- Data that is read alike may stand in a member's place, faults included. -/
theorem readNamed_congr [DecidableEq φ] {before after : List (Except Problem String × ν)}
    {name : String} {f : φ} {v w : ν} (found : F.find? name = some f)
    (alike : read f v = read f w) :
    F.readNamed read unknown ending seen (before ++ (.ok name, v) :: after)
      = F.readNamed read unknown ending seen (before ++ (.ok name, w) :: after) := by
  induction before generalizing seen with
  | nil => simp only [List.nil_append, readNamed, ok_bind, found, alike]
  | cons m before ih => simp only [List.cons_append, readNamed, ih]

theorem given_perm {members' : List (Except Problem String × ν)} (perm : members.Perm members') :
    (F.given members).Perm (F.given members') :=
  perm.filterMap _

end Fields

/-- A record that is read by name: each member with a field is read as a setting, and the settings
are made one after another. -/
structure RecordReader (φ ν σ τ : Type) where
  fields : Fields φ
  read : φ → ν → Except Problem σ
  skip : ν → Except Problem Unit
  /-- The field that a setting sets. -/
  field : σ → φ
  set : τ → σ → τ
  start : τ
  field_read : ∀ {f v s}, read f v = .ok s → field s = f
  set_comm : ∀ o {s t}, field s ≠ field t → set (set o s) t = set (set o t) s

namespace RecordReader

variable {φ ν σ τ : Type} (R : RecordReader φ ν σ τ)

/-- Reads members by name. -/
def ofMembers [DecidableEq φ] (ending : Ending) (members : List (Except Problem String × ν)) :
    Except Problem τ := do
  let settings ← R.fields.readNamed R.read (fun _ => R.skip) ending [] members
  return settings.foldl R.set R.start

/-- The settings that are read of members. -/
def Reads (ending : Ending) (members : List (Except Problem String × ν)) (settings : List σ) :
    Prop :=
  R.fields.Reads R.read (fun _ => R.skip) ending [] members settings

variable {R} {ending : Ending} {members members' : List (Except Problem String × ν)}
  {settings : List σ}

theorem field_settings {given : List (φ × ν)}
    (read : List.Forall₂ (fun g s => R.read g.1 g.2 = .ok s) given settings) :
    settings.map R.field = given.map Prod.fst := by
  induction read with
  | nil => rfl
  | cons first _ ih => rw [List.map_cons, List.map_cons, R.field_read first, ih]

/-- Each member that is given has a setting that it was read as. -/
theorem exists_setting_of_given {given : List (φ × ν)}
    (read : List.Forall₂ (fun g s => R.read g.1 g.2 = .ok s) given settings) :
    ∀ g ∈ given, ∃ s ∈ settings, R.read g.1 g.2 = .ok s := by
  induction read with
  | nil => exact List.forall_mem_nil _
  | @cons g s _ _ first _ ih =>
      refine List.forall_mem_cons.2 ⟨⟨s, List.mem_cons_self, first⟩, fun g member => ?_⟩
      obtain ⟨s, placed, read⟩ := ih g member
      exact ⟨s, List.mem_cons_of_mem _ placed, read⟩

/-- Settings of fields that differ may be made in any order. -/
theorem foldl_perm {settings' : List σ} (perm : settings.Perm settings')
    (distinct : (settings.map R.field).Nodup) (o : τ) :
    settings.foldl R.set o = settings'.foldl R.set o := by
  apply perm.foldl_eq'
  intro s first t second o
  by_cases same : R.field s = R.field t
  · rw [List.inj_on_of_nodup_map distinct first second same]
  · exact R.set_comm o same

theorem Reads.perm (reads : R.Reads ending members settings) (perm : members'.Perm members) :
    ∃ settings', settings'.Perm settings ∧ R.Reads ending members' settings' := by
  have given := Fields.given_perm (F := R.fields) perm
  obtain ⟨settings', read, reordered⟩ := List.perm_comp_forall₂ given reads.settings
  refine ⟨settings', reordered, reads.ends, ?_, ?_, by simp, read⟩
  · exact fun m member => reads.passes m (perm.mem_iff.1 member)
  · exact (given.map Prod.fst).nodup_iff.2 reads.distinct

variable [DecidableEq φ]

theorem ofMembers_eq_ok_iff {o : τ} : R.ofMembers ending members = .ok o ↔
    ∃ settings, R.Reads ending members settings ∧ settings.foldl R.set R.start = o := by
  simp [ofMembers, Reads, bind_eq_ok_iff, Fields.readNamed_eq_ok_iff]

/-- Members may stand in any order. -/
theorem ofMembers_perm {o : τ} (done : R.ofMembers ending members = .ok o)
    (perm : members'.Perm members) : R.ofMembers ending members' = .ok o := by
  obtain ⟨settings, reads, rfl⟩ := ofMembers_eq_ok_iff.1 done
  obtain ⟨settings', reordered, reads'⟩ := reads.perm perm
  have distinct : (settings'.map R.field).Nodup := by
    rw [field_settings reads'.settings]
    exact reads'.distinct
  exact ofMembers_eq_ok_iff.2 ⟨settings', reads', foldl_perm reordered distinct R.start⟩

/-- A member without a field that can be passed over does not matter. -/
theorem ofMembers_unknown {o : τ} {before after : List (Except Problem String × ν)} {name : String}
    {v : ν} (done : R.ofMembers ending (before ++ after) = .ok o)
    (found : R.fields.find? name = none) (skips : R.skip v = .ok ()) :
    R.ofMembers ending (before ++ (.ok name, v) :: after) = .ok o := by
  obtain ⟨settings, reads, rfl⟩ := ofMembers_eq_ok_iff.1 done
  have first : R.ofMembers ending ((.ok name, v) :: (before ++ after)) = .ok _ :=
    ofMembers_eq_ok_iff.2 ⟨settings, (Fields.reads_cons_none found).2 ⟨skips, reads⟩, rfl⟩
  exact ofMembers_perm first List.perm_middle

/-- A member that leaves its field as it is at the start does not matter, where no other member has
that field. -/
theorem ofMembers_unset {o : τ} {before after : List (Except Problem String × ν)} {name : String}
    {f : φ} {v : ν} {s : σ} (done : R.ofMembers ending (before ++ after) = .ok o)
    (found : R.fields.find? name = some f) (read : R.read f v = .ok s)
    (unset : R.set R.start s = R.start)
    (absent : f ∉ (R.fields.given (before ++ after)).map Prod.fst) :
    R.ofMembers ending (before ++ (.ok name, v) :: after) = .ok o := by
  obtain ⟨settings, ⟨ends, passes, distinct, -, later⟩, rfl⟩ := ofMembers_eq_ok_iff.1 done
  have fresh : ∀ g ∈ (R.fields.given (before ++ after)).map Prod.fst, g ∉ [f] := by
    intro g member same
    rw [List.mem_singleton.1 same] at member
    exact absent member
  have reads : R.Reads ending ((.ok name, v) :: (before ++ after)) (s :: settings) :=
    (Fields.reads_cons_some found).2
      ⟨List.not_mem_nil, s, settings, rfl, read, ends, passes, distinct, fresh, later⟩
  have first : R.ofMembers ending ((.ok name, v) :: (before ++ after))
      = .ok (settings.foldl R.set R.start) :=
    ofMembers_eq_ok_iff.2 ⟨s :: settings, reads, by rw [List.foldl_cons, unset]⟩
  exact ofMembers_perm first List.perm_middle

/-- A member of a record that is read has been read itself, and other data that is read alike may
stand in its place. -/
theorem ofMembers_middle {o : τ} {before after : List (Except Problem String × ν)} {name : String}
    {f : φ} {v : ν} (done : R.ofMembers ending (before ++ (.ok name, v) :: after) = .ok o)
    (found : R.fields.find? name = some f) : ∃ s, R.read f v = .ok s ∧ ∀ w, R.read f w = .ok s →
      R.ofMembers ending (before ++ (.ok name, w) :: after) = .ok o := by
  have first := ofMembers_perm done List.perm_middle.symm
  obtain ⟨_, reads, rfl⟩ := ofMembers_eq_ok_iff.1 first
  obtain ⟨unseen, s, others, rfl, read, later⟩ := (Fields.reads_cons_some found).1 reads
  refine ⟨s, read, fun w same => ?_⟩
  have reads : R.Reads ending ((.ok name, w) :: (before ++ after)) (s :: others) :=
    (Fields.reads_cons_some found).2 ⟨unseen, s, others, rfl, same, later⟩
  exact ofMembers_perm (ofMembers_eq_ok_iff.2 ⟨_, reads, rfl⟩) List.perm_middle

/-- A member of a record may be exchanged for one that is read alike. -/
theorem ofMembers_congr {before after : List (Except Problem String × ν)} {name : String} {f : φ}
    {v w : ν} (found : R.fields.find? name = some f) (alike : R.read f v = R.read f w) :
    R.ofMembers ending (before ++ (.ok name, v) :: after)
      = R.ofMembers ending (before ++ (.ok name, w) :: after) := by
  rw [ofMembers, ofMembers, Fields.readNamed_congr found alike]

/-- A field that comes twice is refused. -/
theorem ofMembers_repeated {before after : List (Except Problem String × ν)} {name : String}
    {f : φ} {v : ν} (found : R.fields.find? name = some f)
    (present : f ∈ (R.fields.given (before ++ after)).map Prod.fst) :
    ∃ p, R.ofMembers ending (before ++ (.ok name, v) :: after) = .error p := by
  cases done : R.ofMembers ending (before ++ (.ok name, v) :: after) with
  | error p => exact ⟨p, rfl⟩
  | ok o =>
      have first := ofMembers_perm done List.perm_middle.symm
      obtain ⟨settings, reads, -⟩ := ofMembers_eq_ok_iff.1 first
      have distinct := reads.distinct
      rw [Fields.given_cons_some found] at distinct
      exact absurd present (List.nodup_cons.1 distinct).1

section Content

variable {α : Type} {get : τ → φ → α} {value : σ → α}
  (others : ∀ o s f, R.field s ≠ f → get (R.set o s) f = get o f)
include others

omit [DecidableEq φ] in
/-- A field that no setting sets is left as it was. -/
theorem get_foldl_of_not_mem {f : φ} (absent : f ∉ settings.map R.field) (o : τ) :
    get (settings.foldl R.set o) f = get o f := by
  induction settings generalizing o with
  | nil => rfl
  | cons s settings ih =>
      obtain ⟨differ, absent⟩ := not_or.1 (mt List.mem_cons.2 absent)
      rw [List.foldl_cons, ih absent, others o s f (Ne.symm differ)]

omit [DecidableEq φ] in
/-- A field holds what its setting gives it. -/
theorem get_foldl_of_mem (own : ∀ o s, get (R.set o s) (R.field s) = value s)
    (distinct : (settings.map R.field).Nodup) {s : σ} (member : s ∈ settings) (o : τ) :
    get (settings.foldl R.set o) (R.field s) = value s := by
  induction settings generalizing o with
  | nil => cases member
  | cons t settings ih =>
      obtain ⟨once, distinct⟩ := List.nodup_cons.1 distinct
      rcases List.mem_cons.1 member with rfl | member
      · rw [List.foldl_cons, get_foldl_of_not_mem others once, own]
      · exact ih distinct member _

/-- What is read of a record is in each field what is read of the member of that field, and what it
is at the start where no member has the field. -/
theorem get_of_ofMembers (own : ∀ o s, get (R.set o s) (R.field s) = value s) {o : τ}
    (done : R.ofMembers ending members = .ok o) :
    (∀ f v, (f, v) ∈ R.fields.given members → ∃ s, R.read f v = .ok s ∧ get o f = value s) ∧
    ∀ f, f ∉ (R.fields.given members).map Prod.fst → get o f = get R.start f := by
  obtain ⟨settings, reads, rfl⟩ := ofMembers_eq_ok_iff.1 done
  have fields := field_settings reads.settings
  have distinct := reads.distinct
  rw [← fields] at distinct ⊢
  constructor
  · intro f v placed
    obtain ⟨s, member, read⟩ := exists_setting_of_given reads.settings (f, v) placed
    obtain rfl := R.field_read read
    exact ⟨s, read, get_foldl_of_mem others own distinct member R.start⟩
  · exact fun f absent => get_foldl_of_not_mem others absent R.start

end Content

end RecordReader

end DocumentCommand.Reading

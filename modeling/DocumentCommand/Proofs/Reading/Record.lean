import DocumentCommand.Reading.Source

/-!
# Reading step by step

Readers are computations that may fail, so a successful run is taken apart one step at a time.
Records whose members stand under the names of their fields are read field by field
(`Fields.readNamed_filterMap`), and what holds of everything that a field can be read as holds of
all that is read of a record (`Fields.forall_of_readRecord`).
-/

namespace DocumentCommand.Reading

section Results

variable {ε α β : Type}

@[simp] theorem ok_bind (a : α) (f : α → Except ε β) : (Except.ok a >>= f) = f a := rfl

@[simp] theorem error_bind (e : ε) (f : α → Except ε β) : (Except.error e >>= f) = .error e := rfl

@[simp] theorem map_ok (f : α → β) (a : α) : f <$> (Except.ok a : Except ε α) = .ok (f a) := rfl

@[simp] theorem pure_eq_ok (a : α) : (pure a : Except ε α) = .ok a := rfl

/-- A run of two steps succeeds when both steps do. -/
theorem bind_eq_ok_iff {m : Except ε α} {f : α → Except ε β} {b : β} :
    (m >>= f) = .ok b ↔ ∃ a, m = .ok a ∧ f a = .ok b := by
  cases m with
  | ok a => simp
  | error e => simp

theorem map_eq_ok_iff {m : Except ε α} {f : α → β} {b : β} :
    f <$> m = .ok b ↔ ∃ a, m = .ok a ∧ f a = b := by
  cases m with
  | ok a => simp
  | error e => simp [Functor.map, Except.map]

@[simp] theorem mapError_ok {ε' : Type} (f : ε → ε') (a : α) :
    (Except.ok a : Except ε α).mapError f = .ok a := rfl

/-- What is said of an error does not turn it into a success. -/
theorem mapError_eq_ok_iff {ε' : Type} {m : Except ε α} {f : ε → ε'} {a : α} :
    m.mapError f = .ok a ↔ m = .ok a := by
  cases m with
  | ok b =>
      constructor
      · intro same
        rw [Except.ok.inj same]
      · intro same
        rw [Except.ok.inj same, mapError_ok]
  | error e => exact ⟨nofun, nofun⟩

/-- Pieces that are all read give the list of what they read. -/
theorem mapM_eq_ok {f : α → Except ε β} {g : α → β} {items : List α}
    (all : ∀ a ∈ items, f a = .ok (g a)) : items.mapM f = .ok (items.map g) := by
  induction items with
  | nil => rfl
  | cons a rest ih =>
      obtain ⟨first, others⟩ := List.forall_mem_cons.1 all
      simp [List.mapM_cons, first, ih others]

/-- Each result of reading pieces comes from one of the pieces. -/
theorem exists_of_mem_mapM {f : α → Except ε β} {items : List α} {results : List β}
    (read : items.mapM f = .ok results) : ∀ b ∈ results, ∃ a, f a = .ok b := by
  induction items generalizing results with
  | nil =>
      cases read
      exact List.forall_mem_nil _
  | cons a rest ih =>
      rw [List.mapM_cons] at read
      obtain ⟨b, first, read⟩ := bind_eq_ok_iff.1 read
      obtain ⟨bs, others, read⟩ := bind_eq_ok_iff.1 read
      cases read
      exact List.forall_mem_cons.2 ⟨⟨a, first⟩, ih others⟩

end Results

/-- Fields that are all read give what each of them is read as. -/
theorem mapM_filterMap_eq_ok {φ ν σ : Type} {read : φ → ν → Except Problem σ}
    {value? : φ → Option ν} {result? : φ → Option σ} {fields : List φ}
    (absent : ∀ f ∈ fields, value? f = none → result? f = none)
    (present : ∀ f ∈ fields, ∀ v, value? f = some v →
      ∃ s, result? f = some s ∧ read f v = .ok s) :
    ((fields.filterMap fun f => (value? f).map fun v => (f, v)).mapM fun e => read e.1 e.2)
      = .ok (fields.filterMap result?) := by
  induction fields with
  | nil => rfl
  | cons f rest ih =>
      obtain ⟨unset, absent⟩ := List.forall_mem_cons.1 absent
      obtain ⟨first, present⟩ := List.forall_mem_cons.1 present
      have later := ih absent present
      cases value : value? f with
      | none => simpa [value, unset value] using later
      | some v =>
          obtain ⟨s, result, done⟩ := first v value
          simp [value, result, done, later]

/-- Of pieces of which all but one can be read, that one decides. -/
theorem mapM_middle {ε α β : Type} {read : α → Except ε β} {before after : List α} {a : α}
    {front back : List β} (readsBefore : before.mapM read = .ok front)
    (readsAfter : after.mapM read = .ok back) :
    (before ++ a :: after).mapM read = (fun b => front ++ b :: back) <$> read a := by
  rw [List.mapM_append, readsBefore, ok_bind, List.mapM_cons]
  cases read a with
  | error e => rfl
  | ok b => simp [readsAfter]

namespace Fields

variable {φ ν σ : Type} [DecidableEq φ] (F : Fields φ)

/-- A record that holds some of its fields, each once, is read one field after another. -/
theorem readNamed_eq_mapM {read : φ → ν → Except Problem σ}
    {unknown : String → ν → Except Problem Unit} {ending : Ending} (ends : ending.asked = .ok ())
    {value? : φ → Option ν} (known : ∀ f, value? f ≠ none → F.find? (F.name f) = some f)
    (fields seen : List φ) (distinct : fields.Nodup) (fresh : ∀ f ∈ fields, f ∉ seen) :
    F.readNamed read unknown ending seen
      (fields.filterMap fun f => (value? f).map fun v => (.ok (F.name f), v))
      = (fields.filterMap fun f => (value? f).map fun v => (f, v)).mapM fun e => read e.1 e.2 := by
  -- The fields that were met are `seen`; none of them comes again.
  induction fields generalizing seen with
  | nil => simp [readNamed, ends]
  | cons f rest ih =>
      obtain ⟨first, others⟩ := List.nodup_cons.1 distinct
      obtain ⟨unseen, freshLater⟩ := List.forall_mem_cons.1 fresh
      cases value : value? f with
      | none => simpa [value] using ih seen others freshLater
      | some v =>
          have unseenLater : ∀ g ∈ rest, g ∉ f :: seen := by
            intro g member old
            rcases List.mem_cons.1 old with rfl | old
            · exact first member
            · exact freshLater g member old
          have later := ih (f :: seen) others unseenLater
          have found := known f (by simp [value])
          simp only [List.filterMap_cons, value, Option.map_some, readNamed, ok_bind, found,
            unseen, if_false, pure_eq_ok, later, List.mapM_cons]

/-- A record that holds some of its fields, each once and in order, is read field by field. -/
theorem readNamed_filterMap {read : φ → ν → Except Problem σ}
    {unknown : String → ν → Except Problem Unit} {ending : Ending} (ends : ending.asked = .ok ())
    {value? : φ → Option ν} {result? : φ → Option σ}
    (known : ∀ f, value? f ≠ none → F.find? (F.name f) = some f)
    (absent : ∀ f, value? f = none → result? f = none)
    (present : ∀ f v, value? f = some v → ∃ s, result? f = some s ∧ read f v = .ok s)
    (fields seen : List φ) (distinct : fields.Nodup) (fresh : ∀ f ∈ fields, f ∉ seen) :
    F.readNamed read unknown ending seen
      (fields.filterMap fun f => (value? f).map fun v => (.ok (F.name f), v))
      = .ok (fields.filterMap result?) := by
  rw [F.readNamed_eq_mapM ends known fields seen distinct fresh]
  exact mapM_filterMap_eq_ok (fun f _ => absent f) (fun f _ => present f)

end Fields

section Images

variable {φ ν σ : Type} [DecidableEq φ] {F : Fields φ} {read : φ → ν → Except Problem σ}
  {unknown : String → ν → Except Problem Unit} {ending : Ending} {P : σ → Prop}

theorem Fields.forall_of_readNamed (each : ∀ f v s, read f v = .ok s → P s)
    {members : List (Except Problem String × ν)} {seen : List φ} {settings : List σ}
    (done : F.readNamed read unknown ending seen members = .ok settings) :
    ∀ s ∈ settings, P s := by
  induction members generalizing seen settings with
  | nil =>
      obtain ⟨-, -, done⟩ := bind_eq_ok_iff.1 done
      cases done
      exact List.forall_mem_nil _
  | cons member rest ih =>
      obtain ⟨name, v⟩ := member
      obtain ⟨name, -, done⟩ := bind_eq_ok_iff.1 done
      split at done
      · obtain ⟨-, -, done⟩ := bind_eq_ok_iff.1 done
        exact ih done
      · next f _ =>
          by_cases old : f ∈ seen
          · rw [if_pos old] at done
            cases done
          · rw [if_neg old] at done
            obtain ⟨s, first, done⟩ := bind_eq_ok_iff.1 done
            obtain ⟨others, later, done⟩ := bind_eq_ok_iff.1 done
            cases done
            exact List.forall_mem_cons.2 ⟨each f v s first, ih later⟩

omit [DecidableEq φ] in
theorem Fields.forall_of_readPositional (each : ∀ f v s, read f v = .ok s → P s)
    {fields : List φ} {items : List ν} {settings : List σ}
    (done : readPositional read ending fields items = .ok settings) : ∀ s ∈ settings, P s := by
  induction fields generalizing items settings with
  | nil =>
      obtain ⟨-, -, done⟩ := bind_eq_ok_iff.1 done
      cases done
      exact List.forall_mem_nil _
  | cons f fields ih =>
      cases items with
      | nil =>
          obtain ⟨-, -, done⟩ := bind_eq_ok_iff.1 done
          cases done
          exact List.forall_mem_nil _
      | cons v rest =>
          obtain ⟨s, first, done⟩ := bind_eq_ok_iff.1 done
          obtain ⟨others, later, done⟩ := bind_eq_ok_iff.1 done
          cases done
          exact List.forall_mem_cons.2 ⟨each f v s first, ih later⟩

/-- What holds of all that can be read of a field holds of all that is read of a record. -/
theorem Fields.forall_of_readRecord {record : Record ν} {settings : List σ}
    (each : ∀ f v s, read f v = .ok s → P s)
    (done : F.readRecord read unknown record = .ok settings) : ∀ s ∈ settings, P s := by
  cases record with
  | named members => exact forall_of_readNamed each done
  | positional items => exact forall_of_readPositional each done

/-- A piece that may be null is read as nothing, or is not null and read as it is wanted. -/
theorem Source.optional_eq_ok {S : Source ν} {α : Type} {read : ν → Except Problem α} {v : ν}
    {result : Option α} (done : S.optional read v = .ok result) :
    ∀ a ∈ result, S.isNull v = .ok false ∧ read v = .ok a := by
  obtain ⟨null, isNull, done⟩ := bind_eq_ok_iff.1 done
  cases null with
  | true =>
      cases done
      exact nofun
  | false =>
      obtain ⟨a, read, done⟩ := bind_eq_ok_iff.1 done
      cases done
      rintro _ ⟨⟩
      exact ⟨isNull, read⟩

theorem Source.exists_of_mem_list {S : Source ν} {α : Type} {read : ν → Except Problem α} {v : ν}
    {items : List α} (done : S.list read v = .ok items) : ∀ a ∈ items, ∃ w, read w = .ok a := by
  obtain ⟨run, -, done⟩ := bind_eq_ok_iff.1 done
  obtain ⟨results, read, done⟩ := bind_eq_ok_iff.1 done
  obtain ⟨-, -, done⟩ := bind_eq_ok_iff.1 done
  cases done
  exact exists_of_mem_mapM read

end Images

end DocumentCommand.Reading

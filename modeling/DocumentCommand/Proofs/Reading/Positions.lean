import DocumentCommand.Proofs.Reading.Record

/-!
# Fields in their order

A record whose fields stand in their order, each with its name, can do without the names.  Reading
it by name and reading it by position is the same run, faults included
(`Fields.readNamed_eq_readPositional`).  A record that is read by position has no room for more
values than there are fields (`Fields.readPositional_surplus`).
-/

namespace DocumentCommand.Reading.Fields

variable {φ ν σ : Type} {F : Fields φ} {read : φ → ν → Except Problem σ} {ending : Ending}

/-- The values under the names of the fields, in the order of the fields. -/
def underNames (F : Fields φ) (fields : List φ) (values : List ν) :
    List (Except Problem String × ν) :=
  List.zipWith (fun f v => (.ok (F.name f), v)) fields values

theorem readNamed_eq_readPositional [DecidableEq φ] {unknown : String → ν → Except Problem Unit}
    (asked : ending.asked = .ok ()) (complete : ending.complete = .ok ())
    {fields : List φ} (known : ∀ f ∈ fields, F.find? (F.name f) = some f)
    (distinct : fields.Nodup) {seen : List φ} (fresh : ∀ f ∈ fields, f ∉ seen)
    {values : List ν} (room : values.length ≤ fields.length) :
    F.readNamed read unknown ending seen (F.underNames fields values)
      = readPositional read ending fields values := by
  -- The fields that were met are `seen`, and those still to come are not among them.
  induction fields generalizing seen values with
  | nil =>
      obtain rfl := List.length_eq_zero_iff.1 (Nat.le_zero.1 room)
      rw [underNames, List.zipWith_nil_left, readNamed, readPositional, Ending.before, asked,
        complete]
  | cons f fields ih =>
      cases values with
      | nil => rfl
      | cons v values =>
          obtain ⟨found, known⟩ := List.forall_mem_cons.1 known
          obtain ⟨once, distinct⟩ := List.nodup_cons.1 distinct
          obtain ⟨unseen, fresh⟩ := List.forall_mem_cons.1 fresh
          have fresh : ∀ g ∈ fields, g ∉ f :: seen := by
            intro g later old
            rcases List.mem_cons.1 old with rfl | old
            · exact once later
            · exact fresh g later old
          have others := ih known distinct fresh (Nat.le_of_succ_le_succ room)
          rw [underNames, List.zipWith_cons_cons, ← underNames, readNamed, readPositional, ok_bind]
          simp only [found, unseen, if_false, others, pure_eq_ok]

/-- Every value that has a field is read as that field. -/
theorem exists_read_of_readPositional {fields : List φ} {values : List ν} {settings : List σ}
    (done : readPositional read ending fields values = .ok settings) {f : φ} {v : ν}
    (placed : (f, v) ∈ fields.zip values) : ∃ s, read f v = .ok s := by
  induction fields generalizing values settings with
  | nil => cases placed
  | cons g fields ih =>
      cases values with
      | nil => cases placed
      | cons w values =>
          obtain ⟨s, first, done⟩ := bind_eq_ok_iff.1 done
          obtain ⟨others, later, -⟩ := bind_eq_ok_iff.1 done
          rcases List.mem_cons.1 placed with here | placed
          · cases here
            exact ⟨s, first⟩
          · exact ih later placed

/-- Values beyond the last field are refused, if no value before them is. -/
theorem readPositional_surplus {p : Problem} (surplus : ending.surplus = .error p)
    {fields : List φ} {values : List ν} (long : fields.length < values.length) :
    ∃ p, readPositional read ending fields values = .error p := by
  induction fields generalizing values with
  | nil =>
      obtain ⟨v, rest, rfl⟩ := List.exists_cons_of_length_pos long
      refine ⟨p, ?_⟩
      rw [readPositional, Ending.before, surplus, error_bind]
  | cons f fields ih =>
      obtain ⟨v, rest, rfl⟩ := List.exists_cons_of_length_pos (Nat.zero_lt_of_lt long)
      rw [readPositional]
      cases first : read f v with
      | error q => exact ⟨q, rfl⟩
      | ok s =>
          obtain ⟨q, refused⟩ := ih (Nat.lt_of_succ_lt_succ long)
          refine ⟨q, ?_⟩
          rw [ok_bind, refused, error_bind]

end DocumentCommand.Reading.Fields

import DocumentCommand.Proofs.Reading.Record

/-!
# Readers that agree

Two runs agree when they succeed with the same results (`Agree`); why they fail is left open.  Steps
that agree make runs that agree, and so do the fields of a record that two formats write alike
(`Fields.agree_readNamed`).
-/

namespace DocumentCommand.Reading

/-- The two runs succeed with the same results. -/
def Agree {ε α : Type} (a b : Except ε α) : Prop :=
  ∀ x, a = .ok x ↔ b = .ok x

namespace Agree

variable {ε α β γ : Type}

theorem refl (a : Except ε α) : Agree a a :=
  fun _ => Iff.rfl

theorem of_eq {a b : Except ε α} (same : a = b) : Agree a b :=
  same ▸ refl a

/-- Runs that fail agree. -/
theorem of_fail {a b : Except ε α} (left : ∀ x, a ≠ .ok x) (right : ∀ x, b ≠ .ok x) : Agree a b :=
  fun x => iff_of_false (left x) (right x)

/-- Failures agree, whatever they are. -/
theorem of_error (e e' : ε) : Agree (.error e : Except ε α) (.error e') := by
  apply of_fail
  · rintro x ⟨⟩
  · rintro x ⟨⟩

/-- Runs agree when their first steps do, and what follows on the same result. -/
theorem bind {a b : Except ε α} {f g : α → Except ε β} (first : Agree a b)
    (later : ∀ x, Agree (f x) (g x)) : Agree (a >>= f) (b >>= g) := by
  intro y
  rw [bind_eq_ok_iff, bind_eq_ok_iff]
  constructor
  · rintro ⟨x, done, last⟩
    exact ⟨x, (first x).1 done, (later x y).1 last⟩
  · rintro ⟨x, done, last⟩
    exact ⟨x, (first x).2 done, (later x y).2 last⟩

theorem map {a b : Except ε α} (f : α → β) (same : Agree a b) : Agree (f <$> a) (f <$> b) := by
  intro y
  rw [map_eq_ok_iff, map_eq_ok_iff]
  constructor
  · rintro ⟨x, done, result⟩
    exact ⟨x, (same x).1 done, result⟩
  · rintro ⟨x, done, result⟩
    exact ⟨x, (same x).2 done, result⟩

/-- Pieces on which two readers agree are read alike one after another. -/
theorem mapM {f g : α → Except ε β} {items : List α} (each : ∀ a ∈ items, Agree (f a) (g a)) :
    Agree (items.mapM f) (items.mapM g) := by
  induction items with
  | nil => exact refl _
  | cons a rest ih =>
      obtain ⟨first, others⟩ := List.forall_mem_cons.1 each
      rw [List.mapM_cons, List.mapM_cons]
      apply bind first
      intro b
      apply bind (ih others)
      intro bs
      exact refl _

end Agree

namespace Fields

variable {φ ν μ ι σ : Type} [DecidableEq φ] (F : Fields φ)

/-- Records of two formats with the same names are read alike, when the values under the name of a
field are and everything else is passed over. -/
theorem agree_readNamed (a : ι → ν) (b : ι → μ)
    {readA : φ → ν → Except Problem σ} {readB : φ → μ → Except Problem σ}
    {unknownA : String → ν → Except Problem Unit} {unknownB : String → μ → Except Problem Unit}
    {endingA endingB : Ending} (endsA : endingA.asked = .ok ()) (endsB : endingB.asked = .ok ())
    {members : List (String × ι)}
    (skipsA : ∀ m ∈ members, unknownA m.1 (a m.2) = .ok ())
    (skipsB : ∀ m ∈ members, unknownB m.1 (b m.2) = .ok ())
    (each : ∀ m ∈ members, ∀ f, F.name f = m.1 → Agree (readA f (a m.2)) (readB f (b m.2)))
    (seen : List φ) :
    Agree (F.readNamed readA unknownA endingA seen (members.map fun m => (.ok m.1, a m.2)))
      (F.readNamed readB unknownB endingB seen (members.map fun m => (.ok m.1, b m.2))) := by
  -- The fields that were met are `seen`; both readers meet the same ones.
  induction members generalizing seen with
  | nil =>
      apply Agree.of_eq
      simp [readNamed, endsA, endsB]
  | cons m rest ih =>
      obtain ⟨skipA, skipsA⟩ := List.forall_mem_cons.1 skipsA
      obtain ⟨skipB, skipsB⟩ := List.forall_mem_cons.1 skipsB
      obtain ⟨first, others⟩ := List.forall_mem_cons.1 each
      simp only [List.map_cons, readNamed, ok_bind]
      cases found : F.find? m.1 with
      | none =>
          simp only [skipA, skipB, ok_bind]
          exact ih skipsA skipsB others seen
      | some f =>
          have named : F.name f = m.1 := by
            rw [find?] at found
            simpa using List.find?_some found
          by_cases old : f ∈ seen
          · simp only [old, if_true]
            exact Agree.of_error _ _
          · simp only [old, if_false]
            apply Agree.bind (first f named)
            intro s
            apply Agree.bind (ih skipsA skipsB others (f :: seen))
            intro settings
            exact Agree.refl _

end Fields

end DocumentCommand.Reading

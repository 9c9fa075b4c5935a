import ResourceServer.Filter
import ResourceServer.Filter.Like

/-!
# Evaluating filters on records

A comparison with a missing or null field holds only for `isNull`, for `notIn` with an empty list and
never otherwise. Values without a common order are never before or after each other. Inside a group a
child is looked at only as long as it can still decide the outcome.
-/

namespace ResourceServer.Filter

/-- Whether a comparison has an outcome that an ordering operator accepts. -/
def Operator.acceptsOrder (operator : Operator) (comparison : Comparison) : Bool :=
  match operator, comparison with
  | .gt, .ordered .gt => true
  | .gte, .ordered .gt => true
  | .gte, .ordered .eq => true
  | .lt, .ordered .lt => true
  | .lte, .ordered .lt => true
  | .lte, .ordered .eq => true
  | _, _ => false

/-- Membership of a field in an operand that must be a list. -/
def Leaf.evaluateMembership (leaf : Leaf) (field : Value) : Except Error Bool :=
  match leaf.operand with
  | .list [] => .ok (leaf.operator == .notIn)
  | .list items =>
      if field.isNull then .ok false
      else .ok (if leaf.operator == .isIn then field.isIn items else !field.isIn items)
  | other => .error (.value (.operandNotList leaf.operator other.kindWord))

/-- Whether a record satisfies a comparison. -/
def Leaf.evaluate (leaf : Leaf) (record : Record) : Except Error Bool :=
  let field := record.get leaf.field
  match leaf.operator with
  | .isNull => .ok field.isNull
  | .isNotNull => .ok (!field.isNull)
  | .isIn => leaf.evaluateMembership field
  | .notIn => leaf.evaluateMembership field
  | operator =>
      if field.isNull then .ok false
      else
        match operator with
        | .eq => .ok (field.same leaf.operand)
        | .ne => .ok (!field.same leaf.operand)
        | .like =>
            match leaf.operand with
            | .text pattern => .ok (likeMatches field pattern)
            | _ => .ok false
        | .unknown word => .error (.value (.unsupportedComparison (.unknown word)))
        | operator => .ok (operator.acceptsOrder (field.compareWith leaf.operand))

namespace Node

mutual

/-- Whether a record satisfies a filter. -/
def evaluate (record : Record) : Node → Except Error Bool
  | .leaf comparison => comparison.evaluate record
  | .group _ [] => .ok true
  | .group _ (first :: rest) => do
      let holds ← evaluate record first
      evaluateRest record holds rest

/-- Goes on with the siblings of a group: `holds` tells whether the current run holds so far. -/
def evaluateRest (record : Record) (holds : Bool) : List Node → Except Error Bool
  | [] => .ok holds
  | node :: rest =>
      if node.opensRun then
        if holds then .ok true
        else do
          let next ← evaluate record node
          evaluateRest record next rest
      else if holds then do
        let next ← evaluate record node
        evaluateRest record next rest
      else evaluateRest record false rest

end

end Node

/-- Whether a record satisfies every filter of a list. -/
def evaluateAll (record : Record) : List Node → Except Error Bool
  | [] => .ok true
  | node :: rest => do
      if ← node.evaluate record then evaluateAll record rest else .ok false

end ResourceServer.Filter

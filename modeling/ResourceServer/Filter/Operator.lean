/-!
# Comparison operators and combinators

The operators of a filter leaf, and the two ways in which a filter joins those that stand before it.
-/

namespace ResourceServer.Filter

/-- A comparison operator. The last one stands for a word that names no operator. -/
inductive Operator
  | eq
  | ne
  | gt
  | gte
  | lt
  | lte
  | like
  | isIn
  | notIn
  | isNull
  | isNotNull
  | unknown (word : String)
deriving DecidableEq, Repr, Inhabited

namespace Operator

/-- The word that names an operator. -/
def word : Operator → String
  | .eq => "eq"
  | .ne => "ne"
  | .gt => "gt"
  | .gte => "gte"
  | .lt => "lt"
  | .lte => "lte"
  | .like => "like"
  | .isIn => "in"
  | .notIn => "notIn"
  | .isNull => "isNull"
  | .isNotNull => "isNotNull"
  | .unknown word => word

/-- The operators that a filter may use. -/
def supported : List Operator :=
  [.eq, .ne, .gt, .gte, .lt, .lte, .like, .isIn, .notIn, .isNull, .isNotNull]

/-- The operator of a name. -/
def ofWord? (word : String) : Option Operator := supported.find? fun operator => operator.word == word

/-- Whether the operand is a list. -/
def takesList : Operator → Bool
  | .isIn => true
  | .notIn => true
  | _ => false

/-- Whether there is no operand. -/
def takesNothing : Operator → Bool
  | .isNull => true
  | .isNotNull => true
  | _ => false

/-- The operator as messages show it. -/
def label : Operator → String
  | .eq => "FilterOperator.EQ"
  | .ne => "FilterOperator.NE"
  | .gt => "FilterOperator.GT"
  | .gte => "FilterOperator.GTE"
  | .lt => "FilterOperator.LT"
  | .lte => "FilterOperator.LTE"
  | .like => "FilterOperator.LIKE"
  | .isIn => "FilterOperator.IN"
  | .notIn => "FilterOperator.NOT_IN"
  | .isNull => "FilterOperator.IS_NULL"
  | .isNotNull => "FilterOperator.IS_NOT_NULL"
  | .unknown word => word

end Operator

/-- How a filter joins the ones before it. -/
inductive Combinator
  | both
  | either
deriving DecidableEq, Repr, Inhabited

namespace Combinator

/-- The word for a combinator. -/
def word : Combinator → String
  | .both => "and"
  | .either => "or"

/-- The combinator that a word names. -/
def ofWord? (word : String) : Option Combinator :=
  if word = "and" then some .both else if word = "or" then some .either else none

end Combinator

end ResourceServer.Filter

import ResourceServer.Journal
import ResourceServer.Policy

/-!
# Rules

A rule is a policy that is written down: it decides by the user, by the key or an attribute of the subject,
or by the number of the call. Every question it is asked is entered into the journal.
-/

namespace ResourceServer

namespace Subject

/-- The key of an entity; a value stands for itself. -/
def key : Subject → Value
  | .value plain => plain
  | .entity found => found.key

/-- The attribute of a name, or a fallback. A value that is no object has no attributes. -/
def attributeOr {σ : Type} (subject : Subject) (name : String) (fallback : Value) : Action σ Value :=
  match subject with
  | .entity found => pure ((found.attributes.get? name).getD fallback)
  | .value (.object members) => pure ((Record.get? members name).getD fallback)
  | .value _ => throw (.plain .attribute)

end Subject

/-- A rule by which an ability is granted or denied. -/
inductive Rule
  | answer (granted : Bool)
  | denyCall (number : Value)
  | denyKeys (keys : List Value)
  | userIs (user : Value)
  | userIn (users : List Value)
  | attributeIs (name : String) (value : Value)
  | attributeHolds (name : String) (fallback : Value)
deriving Repr, Inhabited

namespace Rule

variable {σ : Type}

/-- Whether the rule grants what is asked. Calls are counted under a name. -/
def grants (rule : Rule) (counter : String) (user : Value) (subject : Subject) :
    Action (Journaled σ) Bool := do
  match rule with
  | .answer granted => pure granted
  | .denyCall number =>
      let call ← Journal.tick counter
      pure (!number.same (.int call))
  | .denyKeys keys => pure (!subject.key.isIn keys)
  | .userIs wanted => pure (user.same wanted)
  | .userIn users => pure (user.isIn users)
  | .attributeIs name wanted =>
      let value ← subject.attributeOr name .null
      pure (value.same wanted)
  | .attributeHolds name fallback =>
      let value ← subject.attributeOr name fallback
      pure value.isTruthy

/-- The policy that a rule stands for. -/
def toPolicy (rule : Rule) (owner : String) (ability : Ability) : Policy (Journaled σ) :=
  fun user subject => do
    Journal.note (.list [.text "authorize", .text ability.word, subject.key, user])
    rule.grants (owner ++ "/" ++ ability.word) user subject

end Rule

end ResourceServer

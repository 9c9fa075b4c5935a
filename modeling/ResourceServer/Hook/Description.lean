import ResourceServer.Entity.Description
import ResourceServer.Hook.Script
import ResourceServer.Policy.Rule

/-!
# Described scripts and rules

A script is described by an object with the steps of each point, a step by what it does and the call or key
that it is limited to. A rule is described by an object whose first member says how it decides.
-/

namespace ResourceServer

namespace ScriptStep

/-- What a described step does. Failures are named by a kind and a message. -/
def describedAction (failure : String → String → Error) (description : Value) :
    Except Error ScriptAction :=
  let name := description.textPart "name"
  match description.textPart "do" with
  | "respond" => .ok (.reply (.respond (description.part "value")))
  | "respond_keys" => .ok .respondKeys
  | "respond_context" => .ok .respondContext
  | "raise" => .ok (.fail (failure (description.textPart "kind") (description.textPart "message")))
  | "return" => .ok (.reply (.stray (description.part "value")))
  | "set" => .ok (.setAttribute name (description.part "value"))
  | "unset" => .ok (.unsetAttribute name)
  | "set_key" => .ok (.fail Entity.frozenKey)
  | "attach" => (Related.ofDescription (description.part "value")).map (.attach name)
  | "delete_row" => .ok (.deleteRow (description.part? "target"))
  | "begin" => .ok .begin
  | "commit" => .ok .commit
  | _ => .error (.plain .type)

/-- The step that a description gives. A description that is in error gives a step that fails with it. -/
def ofDescription (failure : String → String → Error) (description : Value) : ScriptStep :=
  let action := match describedAction failure description with
    | .ok action => action
    | .error error => .fail error
  { action, call := description.part? "nth", key := description.part? "key" }

end ScriptStep

/-- The script that a description gives. -/
def Script.ofDescription (failure : String → String → Error) (description : Value) : Script :=
  description.members.filterMap fun (point, steps) =>
    match steps with
    | .null => none
    | .list steps => some (point, steps.map (ScriptStep.ofDescription failure))
    | step => some (point, [ScriptStep.ofDescription failure step])

/-- The rule that a description gives; without one everything is granted. -/
def Rule.ofDescription (description : Value) : Rule :=
  match description.members with
  | ("allow", value) :: _ => .answer value.isTruthy
  | ("deny_nth", number) :: _ => .denyCall number
  | ("deny_keys", keys) :: _ => .denyKeys keys.items
  | ("user", user) :: _ => .userIs user
  | ("user_in", users) :: _ => .userIn users.items
  | ("attr", .list [name, value]) :: _ => .attributeIs name.plain value
  | ("attr_or", .list [name, value]) :: _ => .attributeHolds name.plain value
  | _ => .answer true

end ResourceServer

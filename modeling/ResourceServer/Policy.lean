import ResourceServer.Store

/-!
# Policies

Before an operation touches something, an authorizer is asked whether a user may do that. It is asked about
an entity, or about a plain value such as the name of a resource. It may look at the store and may change
the entity it is asked about; the entity it hands back takes the place of the old one.
-/

namespace ResourceServer

/-- What an ability is asked about. -/
inductive Subject
  | value (value : Value)
  | entity (entity : Entity)
deriving Inhabited

/-- Grants an ability by handing the subject back, or fails. -/
abbrev Authorizer (σ : Type) := Ability → Subject → (user : Value) → Action σ Subject

/-- Decides whether a user may do something with a subject. -/
abbrev Policy (σ : Type) := (user : Value) → Subject → Action σ Bool

namespace Authorizer

variable {σ : Type}

/-- Grants every ability. -/
def allowAll : Authorizer σ := fun _ subject _ => pure subject

/-- Asks the policy of an ability. An ability without a policy is granted or denied as the fallback
says. -/
def ofPolicies (policies : List (Ability × Policy σ)) (fallback : Bool := false) : Authorizer σ :=
  fun ability subject user => do
    let allowed ←
      match policies.lookup ability with
      | some policy => policy user subject
      | none => pure fallback
    if allowed then pure subject else throw (.denied ability)

/-- Asks about an entity; yields the entity as the authorizer leaves it. -/
def checkEntity (authorizer : Authorizer σ) (ability : Ability) (entity : Entity) (user : Value) :
    Action σ Entity := do
  match ← authorizer ability (.entity entity) user with
  | .entity entity => pure entity
  | .value _ => pure entity

end Authorizer

end ResourceServer

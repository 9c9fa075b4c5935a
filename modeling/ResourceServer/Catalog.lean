import ResourceServer.Hook
import ResourceServer.Payload
import ResourceServer.Policy

/-!
# Catalog of served resources

A binding says how a resource is served: which payloads it takes, which hooks its batches call and who
decides about access. The catalog holds the bindings. Once it has been validated it is closed, and nothing
can be bound any more.
-/

namespace ResourceServer

/-- How a resource is served. -/
structure Binding (σ : Type) where
  resource : Resource
  payload : Option PayloadSchema := none
  updatePayload : Option PayloadSchema := none
  hooks : List (BatchVerb × Hooks σ) := []
  authorizer : Authorizer σ := Authorizer.allowAll

namespace Binding

variable {σ : Type}

/-- The name of the resource. -/
def name (binding : Binding σ) : String := binding.resource.name

/-- The hooks of a verb; an empty chain is as good as none. -/
def hooksFor (binding : Binding σ) (verb : BatchVerb) : Hooks σ :=
  match binding.hooks.lookup verb with
  | some hooks => if hooks.isEmptyChain then .silent else hooks
  | none => .silent

end Binding

/-- The resources of a service with their bindings. -/
structure Catalog (σ : Type) where
  registry : Registry := {}
  bindings : List (String × Binding σ) := []
  finalized : Bool := false

namespace Catalog

variable {σ : Type}

/-- Registers a resource without binding it. -/
def register (catalog : Catalog σ) (resource : Resource) : Except Error (Catalog σ) := do
  let registry ← catalog.registry.register resource
  .ok { catalog with registry }

/-- Registers a resource and binds it. -/
def bind (catalog : Catalog σ) (binding : Binding σ) : Except Error (Catalog σ) := do
  if catalog.finalized then .error (.configuration (.alreadyFinalized binding.name))
  else
    let registered ← catalog.register binding.resource
    .ok { registered with bindings := registered.bindings ++ [(binding.name, binding)] }

/-- The binding of a resource. -/
def binding (catalog : Catalog σ) (name : String) : Except Error (Binding σ) :=
  match catalog.bindings.lookup name with
  | some binding => .ok binding
  | none => .error (.configuration (.noBinding name))

/-- Validates all resources and closes the catalog. -/
def finalize (catalog : Catalog σ) : Except Error (Catalog σ) := do
  catalog.registry.validate
  .ok { catalog with finalized := true }

end Catalog

end ResourceServer

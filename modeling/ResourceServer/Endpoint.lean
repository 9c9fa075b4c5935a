import ResourceServer.Catalog
import ResourceServer.Settings

/-!
# Endpoints

An endpoint serves one resource. It may be confined by scopes, as when it serves only what is related to
one parent: then every row it reads or changes satisfies the scopes, and every row it adds gets the
attributes that the parent demands.
-/

namespace ResourceServer

/-- What serves one resource. -/
structure Endpoint (σ : Type) where
  registry : Registry
  settings : Settings := {}
  /-- The moment that rows are stamped with when they are trashed. -/
  now : Moment
  binding : Binding σ
  scopes : List Filter.Node := []
  attributes : Record := []
  storeAllowed : Bool := true

namespace Endpoint

variable {σ : Type}

/-- The resource that is served. -/
def resource (endpoint : Endpoint σ) : Resource := endpoint.binding.resource

/-- The name of the resource. -/
def name (endpoint : Endpoint σ) : String := endpoint.binding.name

/-- The query parameters in the given ones. -/
def readParameters (endpoint : Endpoint σ) (parameters : Record) : Except Error QueryParameters :=
  QueryParameters.ofRequest endpoint.settings endpoint.resource parameters

/-- The relations that a request asks for. -/
def readRelations (endpoint : Endpoint σ) (request : Request) : Except Error (List RelationRequest) :=
  RelationRequest.ofRequest endpoint.registry endpoint.settings endpoint.resource request

end Endpoint

end ResourceServer

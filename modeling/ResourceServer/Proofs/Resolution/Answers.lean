import ResourceServer.Proofs.Resolution.Database
import ResourceServer.Proofs.Resolution.Memory
import ResourceServer.Proofs.Resolution.Requests
import ResourceServer.Samples.Library

/-!
# Accepted requests are executable

A request that is accepted is compiled to a specification that can be executed on every store: no
relation, resource or column that it needs is unknown, at any depth.  The one exception is a path
that ends in a dot.  It is followed to a relation under the empty name when it is checked, but when
relations are loaded nothing is seen behind the dot, and the whole path is looked up.
-/

namespace ResourceServer

/-- Whatever a specification leads to is executable, and reading by it fails for no unknown name:
in memory after any calls on an empty store that insert into registered resources, and in every
database. -/
structure QuerySpec.Answerable (registry : Registry) (spec : QuerySpec) : Prop where
  executable : ∀ last, spec.LeadsTo registry last → last.Executable registry
  memory : ∀ calls : List StoreCall, (∀ call ∈ calls, call.InsertsInto registry) →
    spec.Materializes registry (StoreCall.after calls ({} : Memory))
  database : ∀ connection : Sql.Connection, spec.Materializes registry connection

theorem QuerySpec.answerable_of_executable {registry : Registry} {spec : QuerySpec}
    (distinct : registry.names.Nodup) (valid : registry.validate = .ok ())
    (executable : ∀ last, spec.LeadsTo registry last → last.Executable registry) :
    spec.Answerable registry := by
  refine ⟨executable, fun calls inserts => ?_, fun connection => ?_⟩
  · exact (Memory.resolving valid).materializes executable (Memory.run_keyed distinct inserts)
  · exact (Sql.Connection.resolving valid).materializes executable trivial

theorem QuerySpec.Prepared.answerable {registry : Registry} {spec : QuerySpec}
    (consistent : registry.Consistent) (prepared : spec.Prepared registry) :
    spec.Answerable registry :=
  answerable_of_executable consistent.distinct consistent.valid fun _ =>
    prepared.leadsTo consistent

/-- When the parameters and the relations of a request are accepted, and no path ends in a dot, the
specification that they are compiled to can be answered by every store.  So can the one for some
keys, which there is whenever the keys are scalars. -/
theorem Endpoint.accepted_answerable {σ : Type} {endpoint : Endpoint σ}
    (consistent : endpoint.registry.Consistent)
    (registered : endpoint.resource ∈ endpoint.registry.resources)
    (scopes : ∀ scope ∈ endpoint.scopes, scope.fields ⊆ endpoint.resource.columns)
    {given : Record} {request : Request} {parameters : QueryParameters}
    {requests : List RelationRequest} (read : endpoint.readParameters given = .ok parameters)
    (asked : endpoint.readRelations request = .ok requests)
    (ends : ∀ request ∈ requests, ¬ request.EndsInDot) :
    (∃ spec, QuerySpec.ofParameters endpoint.resource parameters requests endpoint.scopes =
        .ok spec ∧ spec.Answerable endpoint.registry) ∧
      ∀ keys : List Value,
        ((∀ key ∈ keys, Filter.isScalar key = true) → ∃ spec,
          QuerySpec.ofKeys endpoint.resource parameters requests endpoint.scopes keys = .ok spec) ∧
        ∀ spec, QuerySpec.ofKeys endpoint.resource parameters requests endpoint.scopes keys =
          .ok spec → spec.Answerable endpoint.registry := by
  obtain ⟨spec, built, isResource, prepared⟩ :=
    Endpoint.exists_prepared consistent registered scopes read asked ends
  refine ⟨⟨spec, built, prepared.answerable consistent⟩, fun keys => ⟨?_, ?_⟩⟩
  · intro scalars
    obtain ⟨narrowed, done⟩ := spec.exists_whereIn endpoint.resource.keyName scalars
    exact ⟨narrowed, bind_eq_ok.mpr ⟨spec, built, done⟩⟩
  · intro narrowed done
    obtain ⟨other, isOther, done⟩ := bind_eq_ok.mp done
    obtain rfl : spec = other := Except.ok.inj (built.symm.trans isOther)
    rw [← isResource] at done
    exact (prepared.whereIn consistent done).answerable consistent

/-- The endpoint of the books of a library, confined to those with a title. -/
def titledBooks : Endpoint Unit where
  registry := ⟨Samples.Library.resources⟩
  now := Samples.Library.trashedAt
  binding := { resource := Samples.Library.books }
  scopes := [.leaf ⟨"title", .isNotNull, .null, .both⟩]

/-- A request for books by the number of their labels, which are to be loaded as far as their books.
Neither the number nor the column that labels are joined by is asked for. -/
def byLabels : Request where
  query := [("fields", .text "title"), ("sort", .text "-labels_count"),
    ("include", .text "labels.book")]

theorem library_consistent : (⟨Samples.Library.resources⟩ : Registry).Consistent where
  distinct := by decide +kernel
  valid := by rfl
  localKeys := by decide +kernel

/-- What the request says besides the relations to load. -/
def byLabelsParameters : QueryParameters where
  sorts := [⟨"labels_count", .descending⟩]
  columns := some ["title"]

theorem accepted_answerable_books :
    titledBooks.registry.Consistent ∧
      titledBooks.readParameters byLabels.query = .ok byLabelsParameters ∧
        titledBooks.readRelations byLabels = .ok [{ path := "labels.book" }] ∧
          ∃ spec, QuerySpec.ofKeys titledBooks.resource byLabelsParameters
            [{ path := "labels.book" }] titledBooks.scopes [.int 10] = .ok spec ∧
              spec.Answerable titledBooks.registry := by
  have read : titledBooks.readParameters byLabels.query = .ok byLabelsParameters := by rfl
  have asked : titledBooks.readRelations byLabels = .ok [{ path := "labels.book" }] := by
    with_unfolding_all rfl
  refine ⟨library_consistent, read, asked, ?_⟩
  have registered : titledBooks.resource ∈ titledBooks.registry.resources :=
    List.mem_cons_of_mem _ List.mem_cons_self
  obtain ⟨_, narrowed⟩ := Endpoint.accepted_answerable library_consistent registered
    (by decide +kernel) read asked (by decide +kernel)
  obtain ⟨exists_spec, answerable⟩ := narrowed [.int 10]
  obtain ⟨spec, built⟩ := exists_spec (by decide)
  exact ⟨spec, built, answerable spec built⟩

/-! ## Where a relation is unknown -/

/-- Nodes with a relation under the empty name. -/
def emptyNamed : Resource := { Samples.Library.nodes with
  includes := ["*"]
  aggregates := []
  relations := [Samples.belongsTo "a" "nodes" "parent_id", Samples.belongsTo "" "nodes" "parent_id"] }

/-- The endpoint of nodes with a relation under the empty name. -/
def emptyNamedEndpoint : Endpoint Unit where
  registry := ⟨[emptyNamed]⟩
  now := Samples.Library.trashedAt
  binding := { resource := emptyNamed }

/-- A request for nodes with what the path that ends in a dot leads to. -/
def throughEmpty : Request where
  query := [("include", .text "a.")]

/-- A path that ends in a dot is accepted and compiled, but the relation that it names is unknown
when it is loaded for a node. -/
theorem dotted_path_unknown :
    emptyNamedEndpoint.registry.Consistent ∧
      emptyNamedEndpoint.resource ∈ emptyNamedEndpoint.registry.resources ∧
        emptyNamedEndpoint.readParameters throughEmpty.query = .ok {} ∧
          emptyNamedEndpoint.readRelations throughEmpty = .ok [{ path := "a." }] ∧
            ∃ spec, QuerySpec.ofParameters emptyNamedEndpoint.resource {} [{ path := "a." }] [] =
                .ok spec ∧
              ¬ spec.Executable emptyNamedEndpoint.registry ∧
              ((Store.get emptyNamedEndpoint.registry spec : Action Memory _).perform
                (StoreCall.after [.insert emptyNamed [("id", .int 1)]] ({} : Memory))).1 =
                  .error (.lookup (.relation "a." "nodes")) := by
  have consistent : emptyNamedEndpoint.registry.Consistent := by
    refine ⟨?_, rfl, ?_⟩
    · decide +kernel
    · decide +kernel
  have asked : emptyNamedEndpoint.readRelations throughEmpty = .ok [{ path := "a." }] := by
    with_unfolding_all rfl
  refine ⟨consistent, List.mem_cons_self, rfl, asked, _, rfl, ?_, ?_⟩
  · intro executable
    have steps : RelationStep.ofRequests (mergeRequests [{ path := "a." }]) =
        [⟨"a", { path := "a." }, []⟩] := by
      with_unfolding_all rfl
    obtain ⟨relation, _, declared, _⟩ :=
      executable.steps ⟨"a", { path := "a." }, []⟩ (steps ▸ List.mem_cons_self)
    cases declared
  · with_unfolding_all rfl

end ResourceServer

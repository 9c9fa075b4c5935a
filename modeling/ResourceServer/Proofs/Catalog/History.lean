import Mathlib.Data.List.Induction
import Mathlib.Data.List.Nodup
import ResourceServer.Catalog
import ResourceServer.Proofs.Action
import ResourceServer.Proofs.Entries
import ResourceServer.Proofs.Lists
import ResourceServer.Samples.Library

/-!
# Histories of a catalog

A catalog is filled by calls that register a resource, bind one with options, close the catalog or check
it. What a single call can do is said once, call by call, and whatever holds after every history of calls
follows from that: names stay distinct, a binding is found under the name of a registered resource, and a
closed catalog has been checked and takes no further binding.

Two calls leave a resource without a binding. One is its mere registration, which a closed catalog does not
refuse. The other is a call that binds it with an option nobody knows: the resource is registered before
the binding is made.
-/

namespace ResourceServer

/-- What may be said of a binding beside its resource. -/
inductive BindingOption (σ : Type)
  | payload (schema : Option PayloadSchema)
  | updatePayload (schema : Option PayloadSchema)
  | hooks (hooks : List (BatchVerb × Hooks σ))
  | authorizer (authorizer : Authorizer σ)
  | unknown (name : String)

namespace Binding

variable {σ : Type}

def withOption (binding : Binding σ) : BindingOption σ → Except Error (Binding σ)
  | .payload schema => .ok { binding with payload := schema }
  | .updatePayload schema => .ok { binding with updatePayload := schema }
  | .hooks hooks => .ok { binding with hooks }
  | .authorizer authorizer => .ok { binding with authorizer }
  | .unknown _ => .error (.plain .type)

def ofOptions (resource : Resource) (options : List (BindingOption σ)) :
    Except Error (Binding σ) :=
  options.foldlM withOption { resource }

theorem resource_withOption {binding next : Binding σ} {option : BindingOption σ}
    (done : binding.withOption option = .ok next) : next.resource = binding.resource := by
  cases option with
  | unknown name => cases done
  | payload schema | updatePayload schema | hooks hooks | authorizer authorizer =>
      cases done
      rfl

theorem resource_ofOptions {resource : Resource} {options : List (BindingOption σ)}
    {binding : Binding σ} (made : ofOptions resource options = .ok binding) :
    binding.resource = resource := by
  refine (foldlM_eq_ok (fun reached => reached.resource = resource) rfl ?_ made).1
  intro option _ reached next same done
  exact (resource_withOption done).trans same

end Binding

namespace Registry

theorem contains_iff {registry : Registry} {name : String} :
    registry.contains name = true ↔ name ∈ registry.names := by
  unfold contains find? names
  simp [List.find?_isSome]

theorem find?_of_mem {registry : Registry} (distinct : registry.names.Nodup) {resource : Resource}
    (member : resource ∈ registry.resources) : registry.find? resource.name = some resource := by
  obtain ⟨resources⟩ := registry
  unfold find?
  induction resources with
  | nil => cases member
  | cons first rest induction =>
      obtain ⟨fresh, distinct⟩ := List.nodup_cons.mp distinct
      cases List.mem_cons.mp member with
      | inl same =>
          rw [same]
          exact List.find?_cons_of_pos (beq_self_eq_true _)
      | inr later =>
          rw [List.find?_cons_of_neg, induction distinct later]
          intro same
          apply fresh
          rw [eq_of_beq same]
          exact List.mem_map_of_mem later

/-- A resource is added at the end, under a name that has not been taken. -/
theorem register_eq_ok {registry registered : Registry} {resource : Resource} :
    registry.register resource = .ok registered ↔
      resource.name ∉ registry.names ∧ registered = ⟨registry.resources ++ [resource]⟩ := by
  unfold register
  rw [← contains_iff]
  cases registry.contains resource.name with
  | true => simp
  | false =>
      rw [if_neg Bool.false_ne_true]
      simp [eq_comm]

end Registry

namespace Catalog

variable {σ : Type}

/-- The catalog with one more resource that has no binding. -/
def withResource (catalog : Catalog σ) (resource : Resource) : Catalog σ :=
  { catalog with registry := ⟨catalog.registry.resources ++ [resource]⟩ }

inductive Call (σ : Type)
  | register (resource : Resource)
  | bind (resource : Resource) (options : List (BindingOption σ))
  | finalize
  | validate

/-- Takes a step, or stays where the step fails. -/
def attempt (catalog : Catalog σ) (step : Catalog σ → Except Error (Catalog σ)) :
    Except Error Unit × Catalog σ :=
  match step catalog with
  | .ok next => (.ok (), next)
  | .error error => (.error error, catalog)

/-- Performs a call. That an option is unknown shows only when the binding is made, and then its
resource has been registered. -/
def Call.perform (call : Call σ) (catalog : Catalog σ) : Except Error Unit × Catalog σ :=
  match call with
  | .register resource => catalog.attempt (·.register resource)
  | .bind resource options =>
      match Binding.ofOptions resource options with
      | .ok binding => catalog.attempt (·.bind binding)
      | .error error =>
          if catalog.finalized then
            (.error (.configuration (.alreadyFinalized resource.name)), catalog)
          else
            match catalog.register resource with
            | .ok registered => (.error error, registered)
            | .error cause => (.error cause, catalog)
  | .finalize => catalog.attempt (·.finalize)
  | .validate => (catalog.registry.validate, catalog)

/-- The catalog that is empty at first, after a history of calls. -/
def after (calls : List (Call σ)) : Catalog σ :=
  calls.foldl (fun catalog call => (call.perform catalog).2) {}

/-- The call, when it is not refused, leaves the resource without a binding. -/
def Call.Strands (resource : Resource) : Call σ → Prop
  | .register registered => registered = resource
  | .bind registered options =>
      registered = resource ∧ ∃ error, Binding.ofOptions registered options = .error error
  | .finalize | .validate => False

/-! ## What a call can do -/

/-- All that a call can do to a catalog. -/
inductive Effect (catalog : Catalog σ) : Call σ → Except Error Unit → Catalog σ → Prop
  | refused (call : Call σ) (error : Error) : Effect catalog call (.error error) catalog
  | validated (valid : catalog.registry.validate = .ok ()) :
      Effect catalog .validate (.ok ()) catalog
  | finalized (valid : catalog.registry.validate = .ok ()) :
      Effect catalog .finalize (.ok ()) { catalog with finalized := true }
  | registered {resource : Resource} (fresh : resource.name ∉ catalog.registry.names) :
      Effect catalog (.register resource) (.ok ()) (catalog.withResource resource)
  | bound {resource : Resource} {options : List (BindingOption σ)} {binding : Binding σ}
      (opened : catalog.finalized = false) (fresh : resource.name ∉ catalog.registry.names)
      (made : Binding.ofOptions resource options = .ok binding) :
      Effect catalog (.bind resource options) (.ok ())
        { catalog.withResource resource with
          bindings := catalog.bindings ++ [(resource.name, binding)] }
  | stranded {resource : Resource} {options : List (BindingOption σ)} {error : Error}
      (opened : catalog.finalized = false) (fresh : resource.name ∉ catalog.registry.names)
      (unmade : Binding.ofOptions resource options = .error error) :
      Effect catalog (.bind resource options) (.error error) (catalog.withResource resource)

theorem register_eq_ok {catalog registered : Catalog σ} {resource : Resource} :
    catalog.register resource = .ok registered ↔
      resource.name ∉ catalog.registry.names ∧ registered = catalog.withResource resource := by
  unfold register
  rw [bind_eq_ok]
  constructor
  · rintro ⟨registry, done, adds⟩
    obtain ⟨fresh, rfl⟩ := Registry.register_eq_ok.mp done
    cases adds
    exact ⟨fresh, rfl⟩
  · rintro ⟨fresh, rfl⟩
    exact ⟨_, Registry.register_eq_ok.mpr ⟨fresh, rfl⟩, rfl⟩

theorem bind_eq_ok_iff {catalog bound : Catalog σ} {binding : Binding σ} :
    catalog.bind binding = .ok bound ↔
      catalog.finalized = false ∧ binding.name ∉ catalog.registry.names ∧
        bound = { catalog.withResource binding.resource with
          bindings := catalog.bindings ++ [(binding.name, binding)] } := by
  unfold bind
  cases catalog.finalized with
  | true => simp
  | false =>
      rw [if_neg Bool.false_ne_true, bind_eq_ok]
      constructor
      · rintro ⟨registered, done, adds⟩
        obtain ⟨fresh, rfl⟩ := register_eq_ok.mp done
        cases adds
        exact ⟨rfl, fresh, rfl⟩
      · rintro ⟨_, fresh, rfl⟩
        exact ⟨_, register_eq_ok.mpr ⟨fresh, rfl⟩, rfl⟩

theorem finalize_eq_ok {catalog closed : Catalog σ} :
    catalog.finalize = .ok closed ↔
      catalog.registry.validate = .ok () ∧ closed = { catalog with finalized := true } := by
  unfold finalize
  rw [bind_eq_ok]
  constructor
  · rintro ⟨_, valid, closes⟩
    cases closes
    exact ⟨valid, rfl⟩
  · rintro ⟨valid, rfl⟩
    exact ⟨(), valid, rfl⟩

theorem Call.effect (call : Call σ) (catalog : Catalog σ) :
    Effect catalog call (call.perform catalog).1 (call.perform catalog).2 := by
  cases call with
  | validate =>
      cases valid : catalog.registry.validate with
      | error error =>
          simp only [perform, valid]
          exact .refused _ error
      | ok _ =>
          simp only [perform, valid]
          exact .validated valid
  | finalize =>
      cases done : catalog.finalize with
      | error error =>
          simp only [perform, attempt, done]
          exact .refused _ error
      | ok closed =>
          obtain ⟨valid, rfl⟩ := finalize_eq_ok.mp done
          simp only [perform, attempt, done]
          exact .finalized valid
  | register resource =>
      cases done : catalog.register resource with
      | error error =>
          simp only [perform, attempt, done]
          exact .refused _ error
      | ok registered =>
          obtain ⟨fresh, rfl⟩ := register_eq_ok.mp done
          simp only [perform, attempt, done]
          exact .registered fresh
  | bind resource options =>
      cases made : Binding.ofOptions resource options with
      | ok binding =>
          cases done : catalog.bind binding with
          | error error =>
              simp only [perform, attempt, made, done]
              exact .refused _ error
          | ok bound =>
              obtain ⟨opened, fresh, rfl⟩ := bind_eq_ok_iff.mp done
              cases Binding.resource_ofOptions made
              simp only [perform, attempt, made, done]
              exact .bound opened fresh made
      | error error =>
          cases opened : catalog.finalized with
          | true =>
              simp only [perform, made, opened, if_true]
              exact .refused _ _
          | false =>
              cases done : catalog.register resource with
              | error cause =>
                  simp only [perform, made, opened, done, Bool.false_eq_true, if_false]
                  exact .refused _ cause
              | ok registered =>
                  obtain ⟨fresh, rfl⟩ := register_eq_ok.mp done
                  simp only [perform, made, opened, done, Bool.false_eq_true, if_false]
                  exact .stranded opened fresh made

theorem after_append (calls further : List (Call σ)) :
    after (calls ++ further) =
      further.foldl (fun catalog call => (call.perform catalog).2) (after calls) :=
  List.foldl_append

theorem after_concat (calls : List (Call σ)) (call : Call σ) :
    after (calls ++ [call]) = (call.perform (after calls)).2 := by
  rw [after_append]
  rfl

/-! ## What holds after every history -/

/-- What the calls have made of a catalog. -/
structure MadeBy (calls : List (Call σ)) (catalog : Catalog σ) : Prop where
  distinct : catalog.registry.names.Nodup
  named : ∀ entry ∈ catalog.bindings, entry.1 = entry.2.resource.name
  once : (catalog.bindings.map Prod.fst).Nodup
  registered : ∀ entry ∈ catalog.bindings, entry.2.resource ∈ catalog.registry.resources
  accounted : ∀ resource ∈ catalog.registry.resources,
    (∃ entry ∈ catalog.bindings, entry.2.resource = resource) ∨
      ∃ call ∈ calls, call.Strands resource

namespace MadeBy

variable {calls : List (Call σ)} {catalog : Catalog σ}

theorem more (made : MadeBy calls catalog) (call : Call σ) : MadeBy (calls ++ [call]) catalog where
  distinct := made.distinct
  named := made.named
  once := made.once
  registered := made.registered
  accounted resource member := by
    obtain bound | ⟨earlier, isCall, strands⟩ := made.accounted resource member
    · exact .inl bound
    · exact .inr ⟨earlier, List.mem_append_left _ isCall, strands⟩

/-- A fresh resource without a binding is accounted for by the call that stranded it. -/
theorem withResource (made : MadeBy calls catalog) {call : Call σ} {resource : Resource}
    (fresh : resource.name ∉ catalog.registry.names) (strands : call.Strands resource) :
    MadeBy (calls ++ [call]) (catalog.withResource resource) where
  distinct := by
    unfold Registry.names Catalog.withResource
    rw [List.map_append]
    exact List.Nodup.append made.distinct (List.nodup_singleton _)
      (List.disjoint_singleton.mpr fresh)
  named := made.named
  once := made.once
  registered entry member := List.mem_append_left _ (made.registered entry member)
  accounted other member := by
    cases List.mem_append.mp member with
    | inl earlier => exact (made.more call).accounted other earlier
    | inr last =>
        cases List.mem_singleton.mp last
        exact .inr ⟨call, by simp, strands⟩

theorem withBinding (made : MadeBy calls catalog) {call : Call σ} {resource : Resource}
    {binding : Binding σ} (fresh : resource.name ∉ catalog.registry.names)
    (binds : binding.resource = resource) :
    MadeBy (calls ++ [call]) { catalog.withResource resource with
      bindings := catalog.bindings ++ [(resource.name, binding)] } where
  distinct :=
    (made.withResource fresh (show Call.Strands resource (.register resource) from rfl)).distinct
  named := by
    intro entry member
    cases List.mem_append.mp member with
    | inl earlier => exact made.named entry earlier
    | inr last =>
        cases List.mem_singleton.mp last
        rw [binds]
  once := by
    rw [List.map_append]
    refine List.Nodup.append made.once (List.nodup_singleton _)
      (List.disjoint_singleton.mpr ?_)
    intro taken
    obtain ⟨entry, member, same⟩ := List.mem_map.mp taken
    apply fresh
    rw [← show entry.2.resource.name = resource.name from (made.named entry member).symm.trans same]
    exact List.mem_map_of_mem (made.registered entry member)
  registered := by
    intro entry member
    cases List.mem_append.mp member with
    | inl earlier => exact List.mem_append_left _ (made.registered entry earlier)
    | inr last =>
        cases List.mem_singleton.mp last
        rw [binds]
        exact List.mem_append_right _ (List.mem_singleton_self _)
  accounted := by
    intro other member
    cases List.mem_append.mp member with
    | inl earlier =>
        obtain ⟨entry, isEntry, same⟩ | stranded := (made.more call).accounted other earlier
        · exact .inl ⟨entry, List.mem_append_left _ isEntry, same⟩
        · exact .inr stranded
    | inr last =>
        cases List.mem_singleton.mp last
        exact .inl ⟨_, List.mem_append_right _ (List.mem_singleton_self _), binds⟩

theorem step (made : MadeBy calls catalog) {call : Call σ} {result : Except Error Unit}
    {next : Catalog σ} (effect : Effect catalog call result next) :
    MadeBy (calls ++ [call]) next := by
  cases effect with
  | refused call error => exact made.more call
  | validated valid => exact made.more .validate
  | finalized valid =>
      have same := made.more .finalize
      exact ⟨same.distinct, same.named, same.once, same.registered, same.accounted⟩
  | registered fresh => exact made.withResource fresh rfl
  | bound opened fresh options => exact made.withBinding fresh (Binding.resource_ofOptions options)
  | stranded opened fresh unmade => exact made.withResource fresh ⟨rfl, _, unmade⟩

/-- The binding of a name is that of the resource registered under it. -/
theorem binding_registered (made : MadeBy calls catalog) {name : String} {binding : Binding σ}
    (bound : catalog.binding name = .ok binding) :
    binding.resource.name = name ∧ catalog.registry.find? name = some binding.resource := by
  unfold Catalog.binding at bound
  cases found : catalog.bindings.lookup name with
  | none =>
      rw [found] at bound
      cases bound
  | some entry =>
      rw [found] at bound
      cases bound
      have member := Entries.mem_of_lookup found
      have same : name = binding.resource.name := made.named _ member
      refine ⟨same.symm, ?_⟩
      rw [same]
      exact Registry.find?_of_mem made.distinct (made.registered _ member)

/-- A registered resource is bound, or a call has stranded it. -/
theorem bound_or_stranded (made : MadeBy calls catalog) {resource : Resource}
    (member : resource ∈ catalog.registry.resources) :
    (∃ binding, catalog.binding resource.name = .ok binding ∧ binding.resource = resource) ∨
      ∃ call ∈ calls, call.Strands resource := by
  refine (made.accounted resource member).imp_left ?_
  rintro ⟨entry, isEntry, rfl⟩
  refine ⟨entry.2, ?_, rfl⟩
  rw [Catalog.binding, ← made.named entry isEntry, Entries.lookup_of_mem made.once isEntry]

end MadeBy

theorem madeBy_after (calls : List (Call σ)) : MadeBy calls (after calls) := by
  induction calls using List.reverseRecOn with
  | nil => exact ⟨List.nodup_nil, nofun, List.nodup_nil, nofun, nofun⟩
  | append_singleton calls call induction =>
      rw [after_concat]
      exact induction.step (call.effect _)

/-! ## Closed catalogs -/

/-- A catalog has the bindings of an earlier one and its resources, followed by some that the calls
have registered. -/
structure GrownBy (calls : List (Call σ)) (earlier later : Catalog σ) : Prop where
  bindings : later.bindings = earlier.bindings
  resources : ∃ added, later.registry.resources = earlier.registry.resources ++ added ∧
    ∀ resource ∈ added, .register resource ∈ calls

namespace GrownBy

variable {calls further : List (Call σ)} {first second third : Catalog σ}

theorem refl (calls : List (Call σ)) (catalog : Catalog σ) : GrownBy calls catalog catalog :=
  ⟨rfl, [], (List.append_nil _).symm, nofun⟩

theorem trans (grown : GrownBy calls first second) (again : GrownBy further second third) :
    GrownBy (calls ++ further) first third := by
  obtain ⟨added, resources, isCall⟩ := grown.resources
  obtain ⟨next, nextResources, isNext⟩ := again.resources
  refine ⟨again.bindings.trans grown.bindings, added ++ next, ?_, ?_⟩
  · rw [nextResources, resources, List.append_assoc]
  · intro resource member
    cases List.mem_append.mp member with
    | inl earlier => exact List.mem_append_left _ (isCall resource earlier)
    | inr later => exact List.mem_append_right _ (isNext resource later)

end GrownBy

/-- A call on a closed catalog leaves it closed, and all it can do is register a resource. -/
theorem Effect.grown {catalog next : Catalog σ} {call : Call σ} {result : Except Error Unit}
    (effect : Effect catalog call result next) (closed : catalog.finalized = true) :
    next.finalized = true ∧ GrownBy [call] catalog next := by
  cases effect with
  | refused call error => exact ⟨closed, GrownBy.refl _ _⟩
  | validated valid => exact ⟨closed, GrownBy.refl _ _⟩
  | finalized valid => exact ⟨rfl, ⟨rfl, [], (List.append_nil _).symm, nofun⟩⟩
  | registered fresh =>
      refine ⟨closed, ⟨rfl, [_], rfl, ?_⟩⟩
      intro resource member
      cases List.mem_singleton.mp member
      exact List.mem_singleton_self _
  | bound opened fresh made => exact absurd closed (by rw [opened]; exact Bool.false_ne_true)
  | stranded opened fresh unmade => exact absurd closed (by rw [opened]; exact Bool.false_ne_true)

theorem grown_after {calls : List (Call σ)} (closed : (after calls).finalized = true)
    (further : List (Call σ)) :
    (after (calls ++ further)).finalized = true ∧
      GrownBy further (after calls) (after (calls ++ further)) := by
  induction further using List.reverseRecOn with
  | nil =>
      rw [List.append_nil]
      exact ⟨closed, GrownBy.refl _ _⟩
  | append_singleton further call induction =>
      obtain ⟨stillClosed, grown⟩ := induction
      rw [← List.append_assoc, after_concat]
      obtain ⟨closedNext, grownNext⟩ := (call.effect _).grown stillClosed
      exact ⟨closedNext, grown.trans grownNext⟩

/-- Only a call that closes a valid catalog closes it. -/
theorem Effect.closes {catalog next : Catalog σ} {call : Call σ} {result : Except Error Unit}
    (effect : Effect catalog call result next) (opened : catalog.finalized = false)
    (closed : next.finalized = true) :
    call = .finalize ∧ catalog.registry.validate = .ok () := by
  cases effect with
  | finalized valid => exact ⟨rfl, valid⟩
  | refused | validated | registered | bound | stranded =>
      exact absurd (opened.symm.trans closed) Bool.false_ne_true

/-- A closed catalog has been closed by a call, before which it was open and valid. -/
theorem closed_by_call {calls : List (Call σ)} (closed : (after calls).finalized = true) :
    ∃ earlier later, calls = earlier ++ .finalize :: later ∧
      (after earlier).finalized = false ∧ (after earlier).registry.validate = .ok () := by
  induction calls using List.reverseRecOn with
  | nil => cases closed
  | append_singleton calls call induction =>
      cases before : (after calls).finalized with
      | true =>
          obtain ⟨earlier, later, rfl, opened, valid⟩ := induction before
          exact ⟨earlier, later ++ [call], by simp, opened, valid⟩
      | false =>
          rw [after_concat] at closed
          obtain ⟨rfl, valid⟩ := (call.effect _).closes before closed
          exact ⟨calls, [], rfl, before, valid⟩

/-- A call that closes the catalog leaves everything else as it is. -/
theorem after_finalize {calls : List (Call σ)} (valid : (after calls).registry.validate = .ok ()) :
    after (calls ++ [.finalize]) = { after calls with finalized := true } := by
  rw [after_concat, Call.perform, attempt, finalize_eq_ok.mpr ⟨valid, rfl⟩]

/-- Since a catalog was closed, resources have at most been registered in it. -/
theorem grown_since_closed {earlier later : List (Call σ)}
    (valid : (after earlier).registry.validate = .ok ()) :
    GrownBy later (after earlier) (after (earlier ++ .finalize :: later)) := by
  have same := after_finalize valid
  have closed : (after (earlier ++ [.finalize])).finalized = true := by rw [same]
  have grown := (grown_after closed later).2
  rw [List.append_assoc, List.singleton_append, same] at grown
  exact ⟨grown.bindings, grown.resources⟩

/-- Without further registrations a closed catalog stays as it is. -/
theorem after_frozen {calls further : List (Call σ)} (closed : (after calls).finalized = true)
    (silent : ∀ resource, .register resource ∉ further) :
    after (calls ++ further) = after calls := by
  obtain ⟨stillClosed, grown⟩ := grown_after closed further
  obtain ⟨added, resources, isCall⟩ := grown.resources
  have nothing : added = [] :=
    List.eq_nil_iff_forall_not_mem.mpr fun resource member =>
      silent resource (isCall resource member)
  rw [nothing, List.append_nil] at resources
  have bindings := grown.bindings
  revert stillClosed resources bindings
  generalize after (calls ++ further) = later
  obtain ⟨⟨_⟩, _, _⟩ := later
  rintro rfl rfl rfl
  rw [← closed]

/-- A call that fails changes nothing, unless it binds a resource with options of which no binding
can be made: then the resource has been registered. -/
theorem failing_changes {catalog next : Catalog σ} {call : Call σ} {error : Error}
    (failed : call.perform catalog = (.error error, next)) :
    next = catalog ∨ ∃ resource options, call = .bind resource options ∧
      Binding.ofOptions resource options = .error error ∧ catalog.finalized = false ∧
        next = catalog.withResource resource := by
  have effect := call.effect catalog
  rw [failed] at effect
  cases effect with
  | refused call error => exact .inl rfl
  | stranded opened fresh unmade => exact .inr ⟨_, _, rfl, unmade, opened, rfl⟩

/-- After every history of calls on an empty catalog, failing or not, no name is registered twice, and
every binding is that of the resource registered under its name. Every registered resource has a binding
unless a call has stranded it, and a call that fails changes nothing unless it strands one. A closed
catalog has been found valid by the call that closed it; since then and ever after, its bindings
stay the same and its resources do unless another one is registered. -/
theorem history_valid (calls : List (Call σ)) :
    (after calls).registry.names.Nodup ∧
    (∀ name binding, (after calls).binding name = .ok binding →
      binding.resource.name = name ∧
        (after calls).registry.find? name = some binding.resource) ∧
    (∀ resource ∈ (after calls).registry.resources,
      (∃ binding, (after calls).binding resource.name = .ok binding ∧
        binding.resource = resource) ∨
      ∃ call ∈ calls, call.Strands resource) ∧
    (∀ (call : Call σ) error next, call.perform (after calls) = (.error error, next) →
      next = after calls ∨ ∃ resource options, call = .bind resource options ∧
        Binding.ofOptions resource options = .error error ∧
          (after calls).finalized = false ∧ next = (after calls).withResource resource) ∧
    ((after calls).finalized = true →
      (∃ earlier later, calls = earlier ++ .finalize :: later ∧
        (after earlier).finalized = false ∧ (after earlier).registry.validate = .ok () ∧
          GrownBy later (after earlier) (after calls)) ∧
      ∀ further, (after (calls ++ further)).finalized = true ∧
        GrownBy further (after calls) (after (calls ++ further)) ∧
        ((∀ resource, .register resource ∉ further) → after (calls ++ further) = after calls)) := by
  have made := madeBy_after calls
  refine ⟨made.distinct, ?_, ?_, ?_, ?_⟩
  · intro name binding bound
    exact made.binding_registered bound
  · intro resource member
    exact made.bound_or_stranded member
  · intro call error next failed
    exact failing_changes failed
  · intro closed
    constructor
    · obtain ⟨earlier, later, rfl, opened, valid⟩ := closed_by_call closed
      exact ⟨earlier, later, rfl, opened, valid, grown_since_closed valid⟩
    · intro further
      obtain ⟨stillClosed, grown⟩ := grown_after closed further
      exact ⟨stillClosed, grown, after_frozen closed⟩

/-- A closed catalog takes gauges, which then have no binding; and an open one keeps the nodes that
were to be bound with an option nobody knows. -/
theorem unbound_after_closing :
    let closing : List (Call Unit) := [.bind Samples.Library.nodes [], .finalize]
    let late : List (Call Unit) := closing ++ [.register Samples.Library.gauges]
    (after closing).finalized = true ∧
    (after closing).registry.names = ["nodes"] ∧
    (after late).registry.names = ["nodes", "gauges"] ∧
    (after late).binding "gauges" = .error (.configuration (.noBinding "gauges")) ∧
    (Call.bind Samples.Library.nodes [.unknown "payload"] : Call Unit).perform {} =
      (.error (.plain .type), Catalog.withResource {} Samples.Library.nodes) :=
  ⟨rfl, rfl, rfl, rfl, rfl⟩

end Catalog

end ResourceServer

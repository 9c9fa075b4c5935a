import ResourceServer.Proofs.Action

/-!
# Conduct of a batch

Authorizers and hooks are arbitrary actions.  What is required of them is a relation that
every call of theirs keeps between the store before and after it, and a relation between
the entity they are given and the one they leave.  Both pass from single calls to chains
of hooks, and from the steps of a batch to the whole of it.
-/

namespace ResourceServer

variable {σ α : Type}

instance reflTrue : Std.Refl fun _ _ : α => True := ⟨fun _ => trivial⟩

instance transTrue : IsTrans α fun _ _ => True := ⟨fun _ _ _ _ _ => trivial⟩

/-- Every call of the hook set keeps to the relations. -/
structure HookSet.Respects (relation : σ → σ → Prop) (kept : Entity → Entity → Prop)
    (set : HookSet σ) : Prop where
  atBatch : ∀ point context, (set.atBatch point context).Ensures relation fun _ => True
  atEntity : ∀ point context entity,
    (set.atEntity point context entity).Ensures relation fun left => kept entity left.1

namespace Hooks

mutual

/-- Every hook set among the hooks has the property. -/
def Every (property : HookSet σ → Prop) : Hooks σ → Prop
  | .silent => True
  | .single set => property set
  | .chain members => EveryMember property members

/-- Every hook set among the members of a chain has the property. -/
def EveryMember (property : HookSet σ → Prop) : List (Hooks σ) → Prop
  | [] => True
  | hooks :: rest => Every property hooks ∧ EveryMember property rest

end

variable {relation : σ → σ → Prop} {kept : α → α → Prop}
variable {call : HookSet σ → α → Action σ (α × HookReply)}

mutual

theorem run_ensures [Std.Refl relation] [IsTrans σ relation] [Std.Refl kept] [IsTrans α kept]
    (point : String) (hooks : Hooks σ)
    (each : hooks.Every fun set => ∀ input,
      (call set input).Ensures relation fun left => kept input left.1) (input : α) :
    (hooks.run call point input).Ensures relation fun left => kept input left.1 := by
  cases hooks with
  | silent => exact Action.Ensures.pure (Std.Refl.refl input)
  | single set =>
      rw [Every] at each
      exact each input
  | chain members =>
      rw [Every] at each
      exact runMembers_ensures point members each input

theorem runMembers_ensures [Std.Refl relation] [IsTrans σ relation] [Std.Refl kept]
    [IsTrans α kept] (point : String) (members : List (Hooks σ))
    (each : EveryMember (fun set => ∀ input,
      (call set input).Ensures relation fun left => kept input left.1) members) (input : α) :
    (runMembers call point members input).Ensures relation fun left => kept input left.1 := by
  cases members with
  | nil => exact Action.Ensures.pure (Std.Refl.refl input)
  | cons hooks rest =>
      rw [EveryMember] at each
      rw [runMembers]
      refine Action.Ensures.bind (run_ensures point hooks each.1 input) ?_
      intro left keptLeft
      obtain ⟨changed, reply⟩ := left
      cases reply with
      | proceed =>
          refine (runMembers_ensures point rest each.2 changed).weaken ?_
          intro last keptLast
          exact IsTrans.trans _ _ _ keptLeft keptLast
      | respond response => exact Action.Ensures.pure keptLeft
      | stray reply => exact Action.Ensures.throw _

end

mutual

theorem Every.weaken {property weaker : HookSet σ → Prop}
    (implies : ∀ set, property set → weaker set) {hooks : Hooks σ}
    (each : hooks.Every property) : hooks.Every weaker := by
  cases hooks with
  | silent => trivial
  | single set =>
      rw [Every] at each ⊢
      exact implies set each
  | chain members =>
      rw [Every] at each ⊢
      exact EveryMember.weaken implies each

theorem EveryMember.weaken {property weaker : HookSet σ → Prop}
    (implies : ∀ set, property set → weaker set) {members : List (Hooks σ)}
    (each : EveryMember property members) : EveryMember weaker members := by
  cases members with
  | nil => trivial
  | cons hooks rest =>
      rw [EveryMember] at each ⊢
      exact ⟨Every.weaken implies each.1, EveryMember.weaken implies each.2⟩

end

end Hooks

namespace Hooks

variable {relation : σ → σ → Prop} {kept : Entity → Entity → Prop} {hooks : Hooks σ}
variable [Std.Refl relation] [IsTrans σ relation]

/-- What the calls of every hook set at the points of a batch keep to, all of them do. -/
theorem atBatch_keeps
    (keeps : hooks.Every fun set => ∀ point context,
      (set.atBatch point context).Ensures relation fun _ => True)
    (point : BatchPoint) (context : BatchContext) :
    (hooks.atBatch point context).Ensures relation fun _ => True := by
  have calls : (hooks.run (fun (set : HookSet σ) (_ : Unit) => do
      let reply ← set.atBatch point context
      pure ((), reply)) point.word ()).Ensures relation fun left => () = left.1 := by
    refine run_ensures point.word hooks (keeps.weaken ?_) ()
    intro set keeps _
    exact Action.Ensures.bind (keeps point context) fun _ _ => .pure rfl
  exact Action.Ensures.bind calls fun _ _ => .pure trivial

theorem atBatch_ensures (respects : hooks.Every (HookSet.Respects relation kept))
    (point : BatchPoint) (context : BatchContext) :
    (hooks.atBatch point context).Ensures relation fun _ => True :=
  atBatch_keeps (respects.weaken fun _ respects => respects.atBatch) point context

theorem atEntity_ensures [Std.Refl kept] [IsTrans Entity kept]
    (respects : hooks.Every (HookSet.Respects relation kept)) (point : EntityPoint)
    (context : BatchContext) (entity : Entity) :
    (hooks.atEntity point context entity).Ensures relation fun left => kept entity left.1 := by
  refine run_ensures point.word hooks (respects.weaken ?_) entity
  intro set respects entity
  exact respects.atEntity point context entity

end Hooks

/-- Every call of the authorizer keeps to the relations. -/
def Authorizer.Respects (relation : σ → σ → Prop) (kept : Entity → Entity → Prop)
    (authorizer : Authorizer σ) : Prop :=
  ∀ ability subject user, (authorizer ability subject user).Ensures relation fun left =>
    ∀ entity changed, subject = .entity entity → left = .entity changed → kept entity changed

theorem Authorizer.checkEntity_ensures {relation : σ → σ → Prop} [Std.Refl relation]
    [IsTrans σ relation] {kept : Entity → Entity → Prop} [Std.Refl kept]
    {authorizer : Authorizer σ} (respects : authorizer.Respects relation kept)
    (ability : Ability) (entity : Entity) (user : Value) :
    (authorizer.checkEntity ability entity user).Ensures relation (kept entity) := by
  refine .bind (respects ability (.entity entity) user) ?_
  intro left keeps
  cases left with
  | entity changed => exact .pure (keeps entity changed rfl rfl)
  | value value => exact .pure (Std.Refl.refl entity)

/-- The authorizer and all hooks of a binding keep to the relations. -/
structure Binding.Respects (relation : σ → σ → Prop) (kept : Entity → Entity → Prop)
    (binding : Binding σ) : Prop where
  authorizer : binding.authorizer.Respects relation kept
  hooks : ∀ verb, (binding.hooksFor verb).Every (HookSet.Respects relation kept)

/-- What keeps to relations keeps to wider ones. -/
theorem Binding.Respects.relax {relation wider : σ → σ → Prop}
    {kept weaker : Entity → Entity → Prop} {binding : Binding σ}
    (respects : binding.Respects relation kept)
    (widens : ∀ before after, relation before after → wider before after)
    (weakens : ∀ before after, kept before after → weaker before after) :
    binding.Respects wider weaker where
  authorizer ability subject user := by
    refine ((respects.authorizer ability subject user).relax widens).weaken ?_
    intro left keeps entity changed isSubject isLeft
    exact weakens entity changed (keeps entity changed isSubject isLeft)
  hooks verb := by
    refine (respects.hooks verb).weaken ?_
    intro set respects
    refine ⟨fun point context => (respects.atBatch point context).relax widens, ?_⟩
    intro point context entity
    refine ((respects.atEntity point context entity).relax widens).weaken ?_
    intro left keeps
    exact weakens entity left.1 keeps

/-- Every step of a batch keeps to the relations, whatever entities are done by then, as long
as only entities of the given targets are written. -/
structure BatchSteps.Respects (relation : σ → σ → Prop) (kept : Entity → Entity → Prop)
    (writable : BatchTarget → Prop) (context : BatchContext) (steps : BatchSteps σ) :
    Prop where
  atBatch : ∀ point done,
    Interruptible.Ensures relation (fun _ => True)
      (steps.atBatch point { context with entities := done })
  authorize : ∀ done entity,
    (steps.authorize { context with entities := done } entity).Ensures relation (kept entity)
  atEntity : ∀ point done entity,
    Interruptible.Ensures relation (kept entity)
      (steps.atEntity point { context with entities := done } entity)
  write : ∀ done target entity, writable target → kept target.entity entity →
    (steps.write { context with entities := done } target entity).Ensures relation fun _ => True
  readBack : ∀ done entity key,
    (steps.readBack { context with entities := done } entity key).Ensures relation
      fun _ => True
  filled : ∀ (target : BatchTarget) entity, kept target.entity entity →
    kept target.entity (target.filled context.verb entity)

/-- Calls that keep to the relations do so when their reply is read. -/
theorem Endpoint.proceeding_ensures {relation : σ → σ → Prop} [Std.Refl relation]
    [IsTrans σ relation] {property : α → Prop} {call : Action σ (α × HookReply)}
    (ensures : call.Ensures relation fun left => property left.1) :
    Interruptible.Ensures relation property (proceeding call) := by
  refine Interruptible.Ensures.bind (Interruptible.Ensures.lift ensures) ?_
  intro left holds
  obtain ⟨result, reply⟩ := left
  cases reply with
  | proceed => exact Interruptible.Ensures.pure holds
  | respond response => exact Interruptible.Ensures.respond response
  | stray reply =>
      have fails : Interruptible.Ensures relation (fun _ : Option Value => True)
          ((HookReply.stray reply).response? : Action σ (Option Value)) :=
        Interruptible.Ensures.lift (Action.Ensures.throw _)
      refine Interruptible.Ensures.bind fails ?_
      · intro response _
        cases response with
        | none => exact Interruptible.Ensures.pure holds
        | some response => exact Interruptible.Ensures.respond response

namespace BatchSteps.Respects

variable {relation : σ → σ → Prop} {kept : Entity → Entity → Prop}
variable {writable : BatchTarget → Prop} {context : BatchContext} {steps : BatchSteps σ}

theorem atEntityIfSaving [Std.Refl relation] [Std.Refl kept]
    (respects : steps.Respects relation kept writable context)
    (point : EntityPoint) (done : List Entity) (entity : Entity) :
    Interruptible.Ensures relation (kept entity)
      (steps.atEntityIfSaving point { context with entities := done } entity) := by
  unfold BatchSteps.atEntityIfSaving
  split
  · exact respects.atEntity point done entity
  · exact Interruptible.Ensures.pure (Std.Refl.refl entity)

theorem refresh [Std.Refl relation]
    (respects : steps.Respects relation kept writable context) (done : List Entity)
    (entity : Entity) (key : Value) :
    (steps.refresh { context with entities := done } entity key).Ensures relation
      fun _ => True := by
  unfold BatchSteps.refresh
  split
  · exact respects.readBack done entity key
  · exact Action.Ensures.pure trivial

variable [Std.Refl relation] [IsTrans σ relation] [Std.Refl kept] [IsTrans Entity kept]

/-- Only the entity that is written descends from the target; the one that is read back may
be any other. -/
theorem process (respects : steps.Respects relation kept writable context)
    (done : List Entity) {target : BatchTarget} (allowed : writable target) :
    Interruptible.Ensures relation (fun _ => True)
      (steps.process { context with entities := done } target) := by
  refine .bind (.lift (respects.authorize done target.entity)) ?_
  intro authorized keptAuthorized
  refine .bind (respects.atEntity .beforeAction done authorized) ?_
  intro admitted keptAdmitted
  have keptFilled := respects.filled target admitted
    (IsTrans.trans _ _ _ keptAuthorized keptAdmitted)
  refine .bind (respects.atEntityIfSaving .beforeSave done _) ?_
  intro complete keptComplete
  have keptToWrite := IsTrans.trans _ _ _ keptFilled keptComplete
  refine .bind (.lift (respects.write done target complete allowed keptToWrite)) ?_
  intro key _
  refine .bind (respects.atEntity .beforeFresh done complete) ?_
  intro written _
  refine .bind (.lift (respects.refresh done written key)) ?_
  intro fresh _
  refine .bind (respects.atEntityIfSaving .afterSave done fresh) ?_
  intro saved _
  exact (respects.atEntity .afterAction done saved).weaken fun _ _ => fun _ _ => trivial

theorem processAll (respects : steps.Respects relation kept writable context)
    (done : List Entity) (targets : List BatchTarget)
    (allowed : ∀ target ∈ targets, writable target) :
    (steps.processAll { context with entities := done } targets).Ensures relation
      fun result => ∃ more, result.1 = { context with entities := more } := by
  induction targets generalizing done with
  | nil => exact .pure ⟨done, rfl⟩
  | cons target rest induction =>
      refine .bind (respects.process done (allowed target (by simp))) ?_
      intro result _
      cases result with
      | error response => exact .pure ⟨done, rfl⟩
      | ok entity =>
          exact induction (done ++ [entity]) fun other member => allowed other (by simp [member])

omit [Std.Refl kept] [IsTrans Entity kept] in
theorem conclude (respects : steps.Respects relation kept writable context)
    (done : List Entity) (response : Option Value) :
    (steps.conclude ({ context with entities := done }, response)).Ensures relation
      fun _ => True := by
  cases response with
  | some response => exact .pure trivial
  | none =>
      refine Action.Ensures.bind (respects.atBatch .afterBatch done) fun result _ => ?_
      cases result with
      | error response => exact .pure trivial
      | ok passed => exact .pure trivial

/-- All targets are served, and the batch ends. -/
theorem serve (respects : steps.Respects relation kept writable context)
    (done : List Entity) (targets : List BatchTarget)
    (allowed : ∀ target ∈ targets, writable target) :
    (steps.processAll { context with entities := done } targets >>= steps.conclude).Ensures
      relation fun _ => True := by
  refine .bind (respects.processAll done targets allowed) ?_
  rintro ⟨_, response⟩ ⟨more, rfl⟩
  exact respects.conclude more response

theorem execute (respects : steps.Respects relation kept writable context)
    (done : List Entity) (plan : BatchPlan)
    (found : (steps.targets { context with entities := done } plan).Ensures relation
      fun targets => ∀ target ∈ targets, writable target) :
    (steps.execute { context with entities := done } plan).Ensures relation fun _ => True := by
  refine Action.Ensures.bind (respects.atBatch .beforeBatch done) fun result _ => ?_
  cases result with
  | error response => exact .pure trivial
  | ok passed => exact .bind found fun targets allowed => respects.serve done targets allowed

end BatchSteps.Respects

end ResourceServer

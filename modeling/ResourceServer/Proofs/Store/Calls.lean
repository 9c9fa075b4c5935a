import ResourceServer.Store.Loading
import ResourceServer.Proofs.Action

/-!
# Calls of a store

A history of a store is a list of calls, each of which replies or fails.  One store mirrors
another when its states are images of the states of the other and every operation does to the
image what it does to the original, with the same result.  Then so does everything that is
built on the operations, and both stores reply alike to every list of calls.
-/

namespace ResourceServer

namespace Action

variable {σ τ α β : Type} {image : τ → σ}

/-- On the image of any state, the action has the result that the other action has on the
state itself, and leaves the image of the state that the other one leaves. -/
def Mirrors (image : τ → σ) (action : Action σ α) (original : Action τ α) : Prop :=
  ∀ state, action.perform (image state) =
    ((original.perform state).1, image (original.perform state).2)

namespace Mirrors

theorem pure (value : α) :
    Mirrors image (Pure.pure value : Action σ α) (Pure.pure value : Action τ α) :=
  fun _ => rfl

theorem throw (error : Error) :
    Mirrors image (MonadExcept.throw error : Action σ α)
      (MonadExcept.throw error : Action τ α) :=
  fun _ => rfl

theorem ofExcept (result : Except Error α) :
    Mirrors image (Action.ofExcept result : Action σ α) (Action.ofExcept result : Action τ α) := by
  cases result with
  | error error => exact throw error
  | ok value => exact pure value

theorem bind {action : Action σ α} {original : Action τ α} {next : α → Action σ β}
    {nextOriginal : α → Action τ β} (first : Mirrors image action original)
    (rest : ∀ value, Mirrors image (next value) (nextOriginal value)) :
    Mirrors image (action >>= next) (original >>= nextOriginal) := by
  intro state
  rw [perform_bind, perform_bind, first state]
  generalize original.perform state = run
  obtain ⟨result, after⟩ := run
  cases result with
  | error error => rfl
  | ok value => exact rest value after

theorem foldlM {step : β → α → Action σ β} {stepOriginal : β → α → Action τ β}
    (steps : ∀ value item, Mirrors image (step value item) (stepOriginal value item))
    (items : List α) (value : β) :
    Mirrors image (items.foldlM step value) (items.foldlM stepOriginal value) := by
  induction items generalizing value with
  | nil => exact pure value
  | cons item rest induction =>
      rw [List.foldlM_cons, List.foldlM_cons]
      exact .bind (steps value item) induction

end Mirrors

end Action

namespace Store

variable {σ τ : Type} [Store σ] [Store τ] {image : τ → σ}

/-- Every operation of a store does to the image of a state what it does to the state in the
other store. -/
structure Mirrors (image : τ → σ) : Prop where
  fetchRows : ∀ registry spec offset limit,
    Action.Mirrors image (Store.fetchRows registry spec offset limit)
      (Store.fetchRows registry spec offset limit)
  count : ∀ registry spec,
    Action.Mirrors image (Store.count registry spec) (Store.count registry spec)
  insert : ∀ resource values,
    Action.Mirrors image (Store.insert resource values) (Store.insert resource values)
  update : ∀ resource key changes,
    Action.Mirrors image (Store.update resource key changes) (Store.update resource key changes)
  delete : ∀ resource key,
    Action.Mirrors image (Store.delete resource key) (Store.delete resource key)
  begin : Action.Mirrors image Store.begin Store.begin
  commit : Action.Mirrors image Store.commit Store.commit
  rollback : Action.Mirrors image Store.rollback Store.rollback

/-- A store beside other state mirrors the store by itself. -/
theorem mirrors_beside {side : Type} (beside : side) :
    Mirrors fun state : σ => (state, beside) where
  fetchRows _ _ _ _ _ := rfl
  count _ _ _ := rfl
  insert _ _ _ := rfl
  update _ _ _ _ := rfl
  delete _ _ _ := rfl
  begin _ := rfl
  commit _ := rfl
  rollback _ := rfl

omit [Store σ] [Store τ] in
theorem loadRelation_mirrors {getRelated : QuerySpec → Action σ (List Entity)}
    {getOriginal : QuerySpec → Action τ (List Entity)}
    (related : ∀ spec, Action.Mirrors image (getRelated spec) (getOriginal spec))
    (registry : Registry) (owner : Resource) (entities : List Entity) (step : RelationStep) :
    Action.Mirrors image (loadRelation getRelated registry owner entities step)
      (loadRelation getOriginal registry owner entities step) := by
  refine .bind (.ofExcept _) fun relation => ?_
  refine .bind (.ofExcept _) fun target => ?_
  generalize relation.joiningFields owner target = fields
  obtain ⟨ownerField, targetField⟩ := fields
  dsimp only
  split
  · exact .pure _
  · exact .bind (.ofExcept _) fun spec => .bind (related spec) fun _ => .pure _

/-- Loading entities is built on fetching rows alone. -/
theorem hydrateTo_mirrors
    (fetches : ∀ registry spec, Action.Mirrors image (fetchRows registry spec none none)
      (fetchRows registry spec none none))
    (registry : Registry) (depth : Nat) (spec : QuerySpec) (rows : List Record) :
    Action.Mirrors image (hydrateTo registry depth spec rows)
      (hydrateTo registry depth spec rows) := by
  induction depth generalizing spec rows with
  | zero => exact .ofExcept _
  | succ depth induction =>
      rw [hydrateTo, hydrateTo]
      refine .bind (.ofExcept _) fun entities => ?_
      split
      · exact .pure _
      · refine .foldlM (fun entities step => ?_) _ _
        refine loadRelation_mirrors (fun related => ?_) registry spec.resource entities step
        exact .bind (fetches registry related) fun rows => induction related rows

theorem Mirrors.get (mirrors : Mirrors image) (registry : Registry) (spec : QuerySpec) :
    Action.Mirrors image (Store.get registry spec) (Store.get registry spec) :=
  .bind (mirrors.fetchRows registry spec none none) fun rows =>
    hydrateTo_mirrors (fun registry spec => mirrors.fetchRows registry spec none none)
      registry _ spec rows

end Store

/-! ## Histories -/

/-- A call of a store. -/
inductive StoreCall
  | insert (resource : Resource) (values : Record)
  | update (resource : Resource) (key : Value) (changes : Record)
  | delete (resource : Resource) (key : Value)
  | softDelete (now : Moment) (resource : Resource) (key : Value)
  | restore (resource : Resource) (key : Value)
  | begin
  | commit
  | rollback
  | get (registry : Registry) (spec : QuerySpec)
  | count (registry : Registry) (spec : QuerySpec)

/-- What a call that succeeds replies. -/
inductive StoreReply
  | key (key : Value)
  | number (number : Int)
  | done
  | entities (entities : List Entity)

namespace StoreCall

variable {σ τ : Type} [Store σ] [Store τ] {image : τ → σ}

/-- What a call does. -/
def action : StoreCall → Action σ StoreReply
  | .insert resource values => do
      let key ← Store.insert resource values
      pure (.key key)
  | .update resource key changes => do
      let number ← Store.update resource key changes
      pure (.number number)
  | .delete resource key => do
      let number ← Store.delete resource key
      pure (.number number)
  | .softDelete now resource key => do
      let number ← Store.softDelete now resource key
      pure (.number number)
  | .restore resource key => do
      let number ← Store.restore resource key
      pure (.number number)
  | .begin => do
      Store.begin
      pure .done
  | .commit => do
      Store.commit
      pure .done
  | .rollback => do
      Store.rollback
      pure .done
  | .get registry spec => do
      let entities ← Store.get registry spec
      pure (.entities entities)
  | .count registry spec => do
      let number ← Store.count registry spec
      pure (.number number)

/-- To trash a row is to change it, where the resource has rows trashed. -/
theorem action_softDelete (now : Moment) (resource : Resource) (key : Value) :
    ((StoreCall.softDelete now resource key).action : Action σ StoreReply) =
      if resource.softDeletes then
        (StoreCall.update resource key [(resource.deletedAtColumn, .moment now)]).action
      else throw (.noSoftDeletes resource.name) := by
  change (Store.softDelete now resource key >>= fun number => pure (StoreReply.number number)) = _
  unfold Store.softDelete
  split
  · rfl
  · rfl

theorem action_restore (resource : Resource) (key : Value) :
    ((StoreCall.restore resource key).action : Action σ StoreReply) =
      if resource.softDeletes then
        (StoreCall.update resource key [(resource.deletedAtColumn, .null)]).action
      else throw (.noSoftDeletes resource.name) := by
  change (Store.restore resource key >>= fun number => pure (StoreReply.number number)) = _
  unfold Store.restore
  split
  · rfl
  · rfl

/-- Makes calls one after another, whether they fail or not: their replies, and the store
after them. -/
def run : List StoreCall → σ → List (Except Error StoreReply) × σ
  | [], state => ([], state)
  | call :: rest, state =>
      let (reply, after) := call.action.perform state
      let (replies, final) := run rest after
      (reply :: replies, final)

/-- The store after some calls. -/
def after (calls : List StoreCall) (state : σ) : σ := (run calls state).2

/-- The replies to some calls. -/
def replies (calls : List StoreCall) (state : σ) : List (Except Error StoreReply) :=
  (run calls state).1

@[simp] theorem after_nil (state : σ) : after [] state = state := rfl

@[simp] theorem after_cons (call : StoreCall) (rest : List StoreCall) (state : σ) :
    after (call :: rest) state = after rest (call.action.perform state).2 := rfl

@[simp] theorem replies_nil (state : σ) : replies [] state = [] := rfl

@[simp] theorem replies_cons (call : StoreCall) (rest : List StoreCall) (state : σ) :
    replies (call :: rest) state =
      (call.action.perform state).1 :: replies rest (call.action.perform state).2 := rfl

@[simp] theorem after_append (first rest : List StoreCall) (state : σ) :
    after (first ++ rest) state = after rest (after first state) := by
  induction first generalizing state with
  | nil => rfl
  | cons call first induction => exact induction _

@[simp] theorem replies_append (first rest : List StoreCall) (state : σ) :
    replies (first ++ rest) state = replies first state ++ replies rest (after first state) := by
  induction first generalizing state with
  | nil => rfl
  | cons call first induction => exact congrArg (List.cons _) (induction _)

/-- One call of a store that mirrors another. -/
theorem action_mirrors (mirrors : Store.Mirrors image) (call : StoreCall) :
    Action.Mirrors image call.action call.action := by
  cases call with
  | insert resource values => exact .bind (mirrors.insert resource values) fun _ => .pure _
  | update resource key changes =>
      exact .bind (mirrors.update resource key changes) fun _ => .pure _
  | delete resource key => exact .bind (mirrors.delete resource key) fun _ => .pure _
  | softDelete now resource key =>
      rw [action_softDelete, action_softDelete]
      split
      · exact .bind (mirrors.update _ _ _) fun _ => .pure _
      · exact .throw _
  | restore resource key =>
      rw [action_restore, action_restore]
      split
      · exact .bind (mirrors.update _ _ _) fun _ => .pure _
      · exact .throw _
  | begin => exact .bind mirrors.begin fun _ => .pure _
  | commit => exact .bind mirrors.commit fun _ => .pure _
  | rollback => exact .bind mirrors.rollback fun _ => .pure _
  | get registry spec => exact .bind (mirrors.get registry spec) fun _ => .pure _
  | count registry spec => exact .bind (mirrors.count registry spec) fun _ => .pure _

/-- A store that mirrors another replies to every list of calls as the other one does, and
goes on to mirror it. -/
theorem run_mirrors (mirrors : Store.Mirrors image) (calls : List StoreCall) (state : τ) :
    replies calls (image state) = replies calls state ∧
      after calls (image state) = image (after calls state) := by
  induction calls generalizing state with
  | nil => exact ⟨rfl, rfl⟩
  | cons call rest induction =>
      have first := action_mirrors mirrors call state
      obtain ⟨sameReplies, sameAfter⟩ := induction (call.action.perform state).2
      rw [replies_cons, replies_cons, after_cons, after_cons, first]
      exact ⟨congrArg _ sameReplies, sameAfter⟩

end StoreCall

end ResourceServer

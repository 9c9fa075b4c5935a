import ResourceServer.Proofs.Batch.Conduct

/-!
# Chains of hooks

Chains hold hook sets and further chains.  How they are nested makes no difference: a tree of chains
runs like the one chain of its hook sets from left to right, because what ends an inner chain ends
the outer one in the same way.  Noted hooks keep a log of the calls that are made, which tells where
a chain stops: behind the first hook set that responds, fails or replies with something else, and
otherwise behind the last one.
-/

namespace ResourceServer

variable {σ α : Type}

/-- What follows an action may be exchanged as far as its results go. -/
theorem Action.Ensures.bind_congr {β : Type} {relation : σ → σ → Prop} {property : α → Prop}
    {action : Action σ α} {next others : α → Action σ β} (ensures : action.Ensures relation property)
    (agree : ∀ value, property value → next value = others value) :
    action >>= next = action >>= others := by
  funext state
  change (action >>= next).perform state = (action >>= others).perform state
  cases run : action.perform state with
  | mk result after =>
      cases result with
      | error error => rw [perform_bind_error run, perform_bind_error run]
      | ok value =>
          rw [perform_bind_ok run, perform_bind_ok run, agree value (ensures.relatesOk run).2]

/-! ## Calls -/

/-- A call of a hook set.  At a point of a batch no entity is given. -/
structure HookCall (σ : Type) where
  set : HookSet σ
  given : Option Entity

/-- A store beside the calls of hook sets that were made. -/
abbrev Noted (σ : Type) := σ × List (HookCall σ)

/-- Runs an action and notes the call that it is. -/
def Action.notedAs (call : HookCall σ) (action : Action σ α) : Action (Noted σ) α :=
  fun (state, log) =>
    let (result, after) := action.perform state
    (result, (after, log ++ [call]))

theorem Action.perform_notedAs (call : HookCall σ) (action : Action σ α) (state : σ)
    (log : List (HookCall σ)) :
    (action.notedAs call).perform (state, log) =
      ((action.perform state).1, ((action.perform state).2, log ++ [call])) := rfl

namespace HookSet

/-- The same hook set, with every call of it noted. -/
def noted (set : HookSet σ) : HookSet (Noted σ) where
  label := set.label
  atBatch point context := (set.atBatch point context).notedAs ⟨set, none⟩
  atEntity point context entity := (set.atEntity point context entity).notedAs ⟨set, some entity⟩

/-- A call at a point of a batch, which has no input. -/
def callAtBatch (point : BatchPoint) (context : BatchContext) (set : HookSet σ) (_ : Unit) :
    Action σ (Unit × HookReply) := do
  let reply ← set.atBatch point context
  pure ((), reply)

theorem callAtBatch_noted (point : BatchPoint) (context : BatchContext) (set : HookSet σ)
    (input : Unit) :
    callAtBatch point context set.noted input =
      (callAtBatch point context set input).notedAs ⟨set, none⟩ := by
  funext ⟨state, log⟩
  change Action.perform (_ >>= _) _ = Action.perform (Action.notedAs _ (_ >>= _)) _
  rw [Action.perform_notedAs, Action.perform_bind, Action.perform_bind, noted,
    Action.perform_notedAs]
  cases (set.atBatch point context).perform state with
  | mk result after => cases result <;> rfl

end HookSet

namespace Hooks

mutual

/-- The hook sets among hooks, from left to right. -/
def leaves : Hooks σ → List (HookSet σ)
  | .silent => []
  | .single set => [set]
  | .chain members => memberLeaves members

/-- The hook sets among the members of a chain, from left to right. -/
def memberLeaves : List (Hooks σ) → List (HookSet σ)
  | [] => []
  | hooks :: rest => leaves hooks ++ memberLeaves rest

end

mutual

/-- The same hooks, with every call noted. -/
def noted : Hooks σ → Hooks (Noted σ)
  | .silent => .silent
  | .single set => .single set.noted
  | .chain members => .chain (notedMembers members)

/-- The same members of a chain, with every call noted. -/
def notedMembers : List (Hooks σ) → List (Hooks (Noted σ))
  | [] => []
  | hooks :: rest => noted hooks :: notedMembers rest

end

/-- The chain of hook sets. -/
def ofSets (sets : List (HookSet σ)) : Hooks σ := .chain (sets.map .single)

mutual

theorem leaves_noted (hooks : Hooks σ) : hooks.noted.leaves = hooks.leaves.map HookSet.noted := by
  cases hooks with
  | silent => rfl
  | single set => rfl
  | chain members =>
      rw [noted, leaves, leaves]
      exact memberLeaves_noted members

theorem memberLeaves_noted (members : List (Hooks σ)) :
    memberLeaves (notedMembers members) = (memberLeaves members).map HookSet.noted := by
  cases members with
  | nil => rfl
  | cons hooks rest =>
      rw [notedMembers, memberLeaves, memberLeaves, List.map_append, leaves_noted hooks,
        memberLeaves_noted rest]

end

theorem notedMembers_single (sets : List (HookSet σ)) :
    notedMembers (sets.map .single) = (sets.map HookSet.noted).map .single := by
  induction sets with
  | nil => rfl
  | cons set rest induction =>
      rw [List.map_cons, notedMembers, induction]
      rfl

/-! ## Nesting -/

section Nesting

variable {call : HookSet σ → α → Action σ (α × HookReply)} {point : String}

/-- What a reply of some members of a chain means for those behind them. -/
def goOn (call : HookSet σ → α → Action σ (α × HookReply)) (point : String)
    (rest : List (Hooks σ)) : α × HookReply → Action σ (α × HookReply)
  | (changed, .proceed) => runMembers call point rest changed
  | reached => pure reached

/-- What a chain leaves is no reply that cannot be used. -/
theorem runMembers_settles (members : List (Hooks σ)) (input : α) :
    (runMembers call point members input).Ensures (fun _ _ => True)
      fun left => ∀ reply, left.2 ≠ .stray reply := by
  induction members generalizing input with
  | nil => exact .pure fun _ => nofun
  | cons hooks rest induction =>
      rw [runMembers]
      refine .bind (.always (run call point hooks input)) fun left _ => ?_
      obtain ⟨changed, reply⟩ := left
      cases reply with
      | proceed => exact induction changed
      | respond response => exact .pure fun _ => nofun
      | stray reply => exact .throw _

theorem runMembers_append (first second : List (Hooks σ)) (input : α) :
    runMembers call point (first ++ second) input =
      runMembers call point first input >>= goOn call point second := by
  induction first generalizing input with
  | nil =>
      rw [List.nil_append, runMembers, pure_bind]
      rfl
  | cons hooks rest induction =>
      rw [List.cons_append, runMembers, runMembers, bind_assoc]
      refine bind_congr fun left => ?_
      obtain ⟨changed, reply⟩ := left
      cases reply with
      | proceed => exact induction changed
      | respond response => rfl
      | stray reply => rfl

mutual

/-- A member of a chain may be exchanged for its hook sets. -/
theorem runMembers_cons_leaves (hooks : Hooks σ) (rest : List (Hooks σ)) (input : α) :
    runMembers call point (hooks :: rest) input =
      runMembers call point (hooks.leaves.map .single) input >>= goOn call point rest := by
  cases hooks with
  | silent => rfl
  | single set =>
      exact runMembers_append [.single set] rest input
  | chain members =>
      rw [runMembers, run, leaves, runMembers_leaves members]
      refine (runMembers_settles _ input).bind_congr fun left settled => ?_
      obtain ⟨changed, reply⟩ := left
      cases reply with
      | proceed => rfl
      | respond response => rfl
      | stray reply => exact absurd rfl (settled reply)

/-- A chain runs like the chain of its hook sets from left to right. -/
theorem runMembers_leaves (members : List (Hooks σ)) (input : α) :
    runMembers call point members input =
      runMembers call point ((memberLeaves members).map .single) input := by
  cases members with
  | nil => rfl
  | cons hooks rest =>
      rw [runMembers_cons_leaves hooks rest, memberLeaves, List.map_append, runMembers_append]
      refine bind_congr fun left => ?_
      obtain ⟨changed, reply⟩ := left
      cases reply with
      | proceed => exact runMembers_leaves rest changed
      | respond response => rfl
      | stray reply => rfl

end

end Nesting

/-! ## The calls that are made -/

/-- Hook sets are called in order, and all of them let the batch proceed.  Each is given what the one
before it has left. -/
inductive Passes (call : HookSet σ → α → Action σ (α × HookReply)) :
    List (HookSet σ × α) → α → σ → α → σ → Prop
  | nil (input : α) (state : σ) : Passes call [] input state input state
  | cons {set : HookSet σ} {calls : List (HookSet σ × α)} {input changed last : α}
      {before middle after : σ}
      (proceeds : (call set input).perform before = (.ok (changed, .proceed), middle))
      (rest : Passes call calls changed middle last after) :
      Passes call ((set, input) :: calls) input before last after

/-- How a chain of hook sets comes to its end.  All of them are called and the chain proceeds, or
the last one that is called responds, fails, or replies with something else. -/
inductive Concludes (call : HookSet σ → α → Action σ (α × HookReply)) (point : String)
    (sets : List (HookSet σ)) (input : α) (before : σ) :
    List (HookSet σ × α) → Except Error (α × HookReply) → σ → Prop
  | passed {calls : List (HookSet σ × α)} {last : α} {after : σ}
      (passes : Passes call calls input before last after) (all : sets = calls.map Prod.fst) :
      Concludes call point sets input before calls (.ok (last, .proceed)) after
  | responded {calls : List (HookSet σ × α)} {set : HookSet σ} {rest : List (HookSet σ)}
      {given changed : α} {response : Value} {middle after : σ}
      (passes : Passes call calls input before given middle)
      (split : sets = calls.map Prod.fst ++ set :: rest)
      (responds : (call set given).perform middle = (.ok (changed, .respond response), after)) :
      Concludes call point sets input before (calls ++ [(set, given)])
        (.ok (changed, .respond response)) after
  | failed {calls : List (HookSet σ × α)} {set : HookSet σ} {rest : List (HookSet σ)} {given : α}
      {error : Error} {middle after : σ} (passes : Passes call calls input before given middle)
      (split : sets = calls.map Prod.fst ++ set :: rest)
      (fails : (call set given).perform middle = (.error error, after)) :
      Concludes call point sets input before (calls ++ [(set, given)]) (.error error) after
  | strayed {calls : List (HookSet σ × α)} {set : HookSet σ} {rest : List (HookSet σ)}
      {given changed : α} {reply : Value} {middle after : σ}
      (passes : Passes call calls input before given middle)
      (split : sets = calls.map Prod.fst ++ set :: rest)
      (strays : (call set given).perform middle = (.ok (changed, .stray reply), after)) :
      Concludes call point sets input before (calls ++ [(set, given)])
        (.error (.strayHookReply set.label point reply)) after

section Calls

variable {call : HookSet σ → α → Action σ (α × HookReply)} {point : String} {set : HookSet σ}
  {sets : List (HookSet σ)} {calls : List (HookSet σ × α)} {input changed : α}
  {before middle after : σ} {result : Except Error (α × HookReply)}

/-- A hook set that lets the batch proceed leaves the end to those behind it. -/
theorem Concludes.cons
    (proceeds : (call set input).perform before = (.ok (changed, .proceed), middle))
    (concludes : Concludes call point sets changed middle calls result after) :
    Concludes call point (set :: sets) input before ((set, input) :: calls) result after := by
  cases concludes with
  | passed passes all => exact .passed (.cons proceeds passes) (congrArg (set :: ·) all)
  | responded passes split responds =>
      exact .responded (.cons proceeds passes) (congrArg (set :: ·) split) responds
  | failed passes split fails =>
      exact .failed (.cons proceeds passes) (congrArg (set :: ·) split) fails
  | strayed passes split strays =>
      exact .strayed (.cons proceeds passes) (congrArg (set :: ·) split) strays

/-- A chain of hook sets concludes, and the same chain with its calls noted notes exactly the calls
that were made. -/
theorem runMembers_concludes {notedCall : HookSet (Noted σ) → α → Action (Noted σ) (α × HookReply)}
    {entry : α → Option Entity}
    (notes : ∀ set input, notedCall set.noted input = (call set input).notedAs ⟨set, entry input⟩)
    (sets : List (HookSet σ)) (input : α) (before : σ) (log : List (HookCall σ)) :
    ∃ calls result after, Concludes call point sets input before calls result after ∧
      (runMembers call point (sets.map .single) input).perform before = (result, after) ∧
      (runMembers notedCall point ((sets.map HookSet.noted).map .single) input).perform
          (before, log) =
        (result, (after, log ++ calls.map fun call => ⟨call.1, entry call.2⟩)) := by
  induction sets generalizing input before log with
  | nil => exact ⟨[], _, _, .passed (.nil input before) rfl, rfl, by simp [runMembers]⟩
  | cons set rest induction =>
      cases called : (call set input).perform before with
      | mk result middle =>
          have notedCalled : (notedCall set.noted input).perform (before, log) =
              (result, (middle, log ++ [⟨set, entry input⟩])) := by
            rw [notes, Action.perform_notedAs, called]
          cases result with
          | error error =>
              refine ⟨[(set, input)], _, _, .failed (.nil input before) rfl called, ?_, ?_⟩
              · exact Action.perform_bind_error called _
              · exact Action.perform_bind_error notedCalled _
          | ok left =>
              obtain ⟨changed, reply⟩ := left
              cases reply with
              | proceed =>
                  obtain ⟨calls, result, after, concludes, ran, noted⟩ :=
                    induction changed middle (log ++ [⟨set, entry input⟩])
                  refine ⟨(set, input) :: calls, result, after, concludes.cons called, ?_, ?_⟩
                  · exact (Action.perform_bind_ok called _).trans ran
                  · rw [List.append_assoc] at noted
                    exact (Action.perform_bind_ok notedCalled _).trans noted
              | respond response =>
                  refine ⟨[(set, input)], _, _, .responded (.nil input before) rfl called, ?_, ?_⟩
                  · exact Action.perform_bind_ok called _
                  · exact Action.perform_bind_ok notedCalled _
              | stray reply =>
                  refine ⟨[(set, input)], _, _, .strayed (.nil input before) rfl called, ?_, ?_⟩
                  · exact Action.perform_bind_ok called _
                  · exact Action.perform_bind_ok notedCalled _

end Calls

/-! ## Trees of chains -/

section Trees

variable {call : HookSet σ → α → Action σ (α × HookReply)}
  {notedCall : HookSet (Noted σ) → α → Action (Noted σ) (α × HookReply)} {point : String}
  {entry : α → Option Entity}

theorem noted_ofSets (sets : List (HookSet σ)) :
    (ofSets sets).noted = ofSets (sets.map HookSet.noted) :=
  congrArg Hooks.chain (notedMembers_single sets)

theorem run_leaves (members : List (Hooks σ)) (input : α) :
    (Hooks.chain members).run call point input =
      (ofSets (Hooks.chain members).leaves).run call point input :=
  runMembers_leaves members input

theorem noted_run_leaves (members : List (Hooks σ)) (input : α) :
    (Hooks.chain members).noted.run notedCall point input =
      (ofSets (Hooks.chain members).leaves).noted.run notedCall point input := by
  rw [noted_ofSets, ← leaves_noted]
  exact run_leaves (notedMembers members) input

theorem run_concludes
    (notes : ∀ set input, notedCall set.noted input = (call set input).notedAs ⟨set, entry input⟩)
    (members : List (Hooks σ)) (input : α) (before : σ) (log : List (HookCall σ)) :
    ∃ calls result after,
      Concludes call point (Hooks.chain members).leaves input before calls result after ∧
        ((Hooks.chain members).run call point input).perform before = (result, after) ∧
        ((Hooks.chain members).noted.run notedCall point input).perform (before, log) =
          (result, (after, log ++ calls.map fun call => ⟨call.1, entry call.2⟩)) := by
  rw [run_leaves, noted_run_leaves, noted_ofSets]
  exact runMembers_concludes notes (Hooks.chain members).leaves input before log

end Trees

theorem atBatch_eq_run (hooks : Hooks σ) (point : BatchPoint) (context : BatchContext) :
    hooks.atBatch point context =
      hooks.run (HookSet.callAtBatch point context) point.word () >>= fun left => pure left.2 := rfl

theorem perform_atBatch {hooks : Hooks σ} {point : BatchPoint} {context : BatchContext}
    {state after : σ} {result : Except Error (Unit × HookReply)}
    (ran : (hooks.run (HookSet.callAtBatch point context) point.word ()).perform state =
      (result, after)) :
    (hooks.atBatch point context).perform state = (result.map Prod.snd, after) := by
  rw [atBatch_eq_run]
  cases result with
  | error error => exact Action.perform_bind_error ran _
  | ok left => exact Action.perform_bind_ok ran _

/-- A tree of chains makes the same calls with the same effects and ends in the same way as the one
chain of its hook sets from left to right.  The calls are those up to the hook set that ends the
chain, and every one when none does. -/
theorem chain_flattens (members : List (Hooks σ)) :
    let tree : Hooks σ := .chain members
    let flat : Hooks σ := ofSets tree.leaves
    (∀ point context, tree.atBatch point context = flat.atBatch point context ∧
        tree.noted.atBatch point context = flat.noted.atBatch point context) ∧
      (∀ point context entity,
        tree.atEntity point context entity = flat.atEntity point context entity ∧
          tree.noted.atEntity point context entity = flat.noted.atEntity point context entity) ∧
      (∀ point context state log, ∃ calls result after,
        Concludes (HookSet.callAtBatch point context) point.word tree.leaves () state calls result
            after ∧
          (tree.atBatch point context).perform state = (result.map Prod.snd, after) ∧
          (tree.noted.atBatch point context).perform (state, log) =
            (result.map Prod.snd, (after, log ++ calls.map fun call => ⟨call.1, none⟩))) ∧
      ∀ point context entity state log, ∃ calls result after,
        Concludes (fun set => set.atEntity point context) point.word tree.leaves entity state calls
            result after ∧
          (tree.atEntity point context entity).perform state = (result, after) ∧
          (tree.noted.atEntity point context entity).perform (state, log) =
            (result, (after, log ++ calls.map fun call => ⟨call.1, some call.2⟩)) := by
  intro tree flat
  refine ⟨fun point context => ?_, fun point context entity => ?_,
    fun point context state log => ?_, fun point context entity state log => ?_⟩
  · simp only [atBatch_eq_run, tree, flat, run_leaves members, noted_run_leaves members, and_self]
  · exact ⟨run_leaves members entity, noted_run_leaves members entity⟩
  · obtain ⟨calls, result, after, concludes, ran, notedRan⟩ :=
      run_concludes (HookSet.callAtBatch_noted point context) members () state log
    exact ⟨calls, result, after, concludes, perform_atBatch ran, perform_atBatch notedRan⟩
  · exact run_concludes (fun _ _ => rfl) members entity state log

end Hooks

end ResourceServer

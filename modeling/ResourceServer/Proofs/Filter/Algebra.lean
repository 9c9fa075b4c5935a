import ResourceServer.Memory.Order
import ResourceServer.Proofs.Filter.Grammar
import ResourceServer.Proofs.Filter.Runs

/-!
# Algebra of filter groups

A valid filter has a value on every record, and the value of a group is built from the values of its
children as a formula is built from its parts: conjunctions, disjunctions, parentheses that make no
difference, and membership in a list as a chain of comparisons.  All of it follows from two facts
about runs: a sibling that goes on a run is merged into its predecessor, and one that opens a run
begins anew.
-/

namespace ResourceServer.Filter

/-! ## Siblings -/

section Siblings

variable {opens holds : Bool} {pairs others : List (Bool × Bool)}

/-- Siblings that all open runs hold one by one. -/
theorem someRunHolds_separately (begin : ∀ pair ∈ pairs, pair.1 = true) :
    someRunHolds pairs = pairs.any Prod.snd := by
  induction pairs with
  | nil => simp
  | cons pair pairs induction =>
      obtain ⟨opens, holds⟩ := pair
      simp only [List.forall_mem_cons] at begin
      have later := induction begin.2
      cases pairs with
      | nil => simp
      | cons pair pairs =>
          obtain ⟨following, next⟩ := pair
          obtain rfl : following = true := begin.2 _ List.mem_cons_self
          simp [later]

/-- A sibling that opens a run splits those before it from those after it. -/
theorem someRunHolds_split (some : pairs ≠ []) :
    someRunHolds (pairs ++ (true, holds) :: others) =
      (someRunHolds pairs || someRunHolds ((true, holds) :: others)) := by
  obtain ⟨⟨opens, first⟩, pairs, rfl⟩ := List.exists_cons_of_ne_nil some
  clear some
  -- The first sibling stands for all of its run that has been looked at.
  induction pairs generalizing opens first with
  | nil => simp
  | cons pair pairs induction =>
      obtain ⟨following, next⟩ := pair
      cases following with
      | true => simpa [Bool.or_assoc] using congrArg (first || ·) (induction true next)
      | false => simpa using induction opens (first && next)

/-- Siblings that go on a run are merged into the one that begins it. -/
theorem someRunHolds_merge (goOn : ∀ pair ∈ pairs, pair.1 = false) :
    someRunHolds ((opens, holds) :: (pairs ++ others)) =
      someRunHolds ((opens, holds && pairs.all Prod.snd) :: others) := by
  induction pairs generalizing holds with
  | nil => simp
  | cons pair pairs induction =>
      obtain ⟨following, next⟩ := pair
      simp only [List.forall_mem_cons] at goOn
      obtain ⟨rfl, goOn⟩ := goOn
      simp [induction goOn, Bool.and_assoc]

/-- Siblings that all go on one run hold together. -/
theorem someRunHolds_together (goOn : ∀ pair ∈ pairs, pair.1 = false) :
    someRunHolds ((opens, holds) :: pairs) = (holds && pairs.all Prod.snd) := by
  have merged : someRunHolds ((opens, holds) :: (pairs ++ [])) = _ := someRunHolds_merge goOn
  simpa using merged

/-- The same holds behind other siblings. -/
theorem someRunHolds_merge_behind {before : List (Bool × Bool)}
    (goOn : ∀ pair ∈ pairs, pair.1 = false) :
    someRunHolds (before ++ (opens, holds) :: (pairs ++ others)) =
      someRunHolds (before ++ (opens, holds && pairs.all Prod.snd) :: others) := by
  cases before with
  | nil => exact someRunHolds_merge goOn
  | cons pair before =>
      obtain ⟨begins, first⟩ := pair
      induction before generalizing begins first with
      | nil =>
          cases opens with
          | true => simpa using congrArg (first || ·) (someRunHolds_merge goOn)
          | false =>
              simp only [List.singleton_append, someRunHolds_and]
              rw [someRunHolds_merge goOn, Bool.and_assoc]
      | cons pair before induction =>
          obtain ⟨following, next⟩ := pair
          cases following with
          | true => simpa using congrArg (first || ·) (induction true next)
          | false => simpa using induction begins (first && next)

end Siblings

/-! ## Values -/

/-- A valid filter: all of its operators are those that filters may use, with operands that fit. -/
inductive Node.IsValid : Node → Prop
  | leaf {comparison : Leaf} (supported : comparison.operator ∈ Operator.supported)
      (fits : comparison.operator.Fits comparison.operand) : IsValid (.leaf comparison)
  | group {combinator : Combinator} {children : List Node}
      (each : ∀ child ∈ children, IsValid child) : IsValid (.group combinator children)

namespace Node

variable {record : Record} {node : Node} {nodes : List Node}

theorem IsValid.isShaped (valid : node.IsValid) : node.IsShaped := by
  cases valid with
  | leaf _ fits => exact fits
  | group _ => trivial

theorem IsValid.withCombinator (valid : node.IsValid) (combinator : Combinator) :
    (node.withCombinator combinator).IsValid := by
  cases valid with
  | leaf supported fits => exact .leaf supported fits
  | group each => exact .group each

/-- How a node joins others is no part of its value. -/
@[simp] theorem evaluate_withCombinator (combinator : Combinator) :
    (node.withCombinator combinator).evaluate record = node.evaluate record := by
  cases node with
  | leaf comparison => simp [Node.withCombinator, evaluate, Leaf.evaluate, Leaf.evaluateMembership]
  | group _ children => cases children <;> simp [Node.withCombinator, evaluate]

@[simp] theorem holds_withCombinator (combinator : Combinator) :
    (node.withCombinator combinator).holds record = node.holds record := by
  simp [holds]

@[simp] theorem opensRun_withCombinator (combinator : Combinator) :
    (node.withCombinator combinator).opensRun = (combinator == .either) := by
  cases node <;> rfl

/-- A node as a sibling: whether it opens a run, and whether it holds. -/
def sibling (record : Record) (node : Node) : Bool × Bool := (node.opensRun, node.holds record)

end Node

/-- A comparison whose operator is supported and whose operand fits it can be evaluated. -/
theorem Leaf.exists_evaluate {leaf : Leaf} (supported : leaf.operator ∈ Operator.supported)
    (fits : leaf.operator.Fits leaf.operand) (record : Record) :
    ∃ holds, leaf.evaluate record = .ok holds := by
  have membership (isList : ∃ items, leaf.operand = .list items ∧ ∀ item ∈ items, isScalar item = true) :
      ∃ holds, leaf.evaluateMembership (record.get leaf.field) = .ok holds := by
    obtain ⟨items, isList, _⟩ := isList
    rw [Leaf.evaluateMembership, isList]
    cases items with
    | nil => exact ⟨_, rfl⟩
    | cons item items =>
        dsimp only
        split <;> exact ⟨_, rfl⟩
  cases operator : leaf.operator with
  | isIn =>
      rw [operator] at fits
      simpa [Leaf.evaluate, operator] using membership fits
  | notIn =>
      rw [operator] at fits
      simpa [Leaf.evaluate, operator] using membership fits
  | like =>
      simp only [Leaf.evaluate, operator]
      split
      · exact ⟨_, rfl⟩
      · split <;> exact ⟨_, rfl⟩
  | unknown word => simp [Operator.supported, operator] at supported
  | isNull | isNotNull => simp [Leaf.evaluate, operator]
  | eq | ne | gt | gte | lt | lte =>
      simp only [Leaf.evaluate, operator]
      split <;> exact ⟨_, rfl⟩

namespace Node

variable {record : Record} {node : Node} {nodes : List Node} {combinator : Combinator}

theorem forall₂_sibling (each : ∀ node ∈ nodes, node.evaluate record = .ok (node.holds record)) :
    List.Forall₂ (fun node pair =>
      Node.opensRun node = pair.1 ∧ node.evaluate record = .ok pair.2) nodes
        (nodes.map (sibling record)) := by
  rw [List.forall₂_map_right_iff, List.forall₂_same]
  exact fun node member => ⟨rfl, each node member⟩

/-- A group has the value of the runs of its children; an empty one holds. -/
theorem evaluate_group_of (combinator : Combinator)
    (each : ∀ node ∈ nodes, node.evaluate record = .ok (node.holds record)) :
    (Node.group combinator nodes).evaluate record =
      .ok (nodes.isEmpty || someRunHolds (nodes.map (sibling record))) := by
  cases nodes with
  | nil => simp [evaluate]
  | cons first rest =>
      rw [List.forall_mem_cons] at each
      have walk := evaluateRest_eq (forall₂_sibling each.2) first.opensRun (first.holds record)
      simpa [evaluate, each.1, bind, Except.bind, sibling] using walk

/-- A valid filter has a value on every record. -/
theorem IsValid.evaluate_eq (valid : node.IsValid) (record : Record) :
    node.evaluate record = .ok (node.holds record) := by
  induction valid with
  | @leaf comparison supported fits =>
      obtain ⟨holds, evaluated⟩ := Leaf.exists_evaluate supported fits record
      have evaluated : (Node.leaf comparison).evaluate record = .ok holds := by
        rw [evaluate, evaluated]
      rw [holds_of_evaluate evaluated, evaluated]
  | @group combinator children each induction =>
      have evaluated := evaluate_group_of combinator induction
      rw [holds_of_evaluate evaluated, evaluated]

theorem evaluate_group (valid : ∀ node ∈ nodes, node.IsValid) (some : nodes ≠ []) :
    (Node.group combinator nodes).evaluate record =
      .ok (someRunHolds (nodes.map (sibling record))) := by
  rw [evaluate_group_of combinator fun node member => (valid node member).evaluate_eq record,
    List.isEmpty_eq_false_iff.mpr some, Bool.false_or]

theorem holds_group (valid : ∀ node ∈ nodes, node.IsValid) (some : nodes ≠ []) :
    (Node.group combinator nodes).holds record = someRunHolds (nodes.map (sibling record)) :=
  holds_of_evaluate (evaluate_group valid some)

end Node

/-! ## Groups -/

@[simp] theorem Combinator.both_beq_either : (Combinator.both == .either) = false := rfl

section Groups

variable {record : Record} {nodes : List Node} {combinator : Combinator}

theorem makeGroup_valid (combinator : Combinator) (valid : ∀ node ∈ nodes, node.IsValid) :
    Node.makeGroup combinator nodes = .ok (.group combinator nodes) ∧
      (Node.group combinator nodes).IsValid :=
  ⟨Node.makeGroup_eq_ok fun node member => (valid node member).isShaped, .group valid⟩

theorem valid_withCombinator (joined : Combinator) (valid : ∀ node ∈ nodes, node.IsValid) :
    ∀ node ∈ nodes.map (Node.withCombinator joined), node.IsValid := by
  intro node member
  obtain ⟨given, isGiven, rfl⟩ := List.mem_map.mp member
  exact (valid given isGiven).withCombinator joined

/-- Siblings that are all joined in one way, by what they hold. -/
theorem map_sibling_withCombinator (joined : Combinator) :
    (nodes.map (Node.withCombinator joined)).map (Node.sibling record) =
      (nodes.map (Node.holds record)).map fun holds => (joined == .either, holds) := by
  simp [Node.sibling]

theorem allOf_valid (valid : ∀ node ∈ nodes, node.IsValid) :
    ∃ group, Node.allOf nodes = .ok group ∧ group.IsValid ∧
      group.evaluate record = .ok (nodes.all (Node.holds record)) := by
  have validJoined := valid_withCombinator .both valid
  obtain ⟨made, isValid⟩ := makeGroup_valid .both validJoined
  refine ⟨_, made, isValid, ?_⟩
  cases nodes with
  | nil => simp [Node.evaluate]
  | cons first rest =>
      rw [Node.evaluate_group validJoined (by simp), map_sibling_withCombinator, List.map_cons,
        List.map_cons, someRunHolds_together (by simp)]
      simp [Function.comp_def]

theorem anyOf_valid (valid : ∀ node ∈ nodes, node.IsValid) (some : nodes ≠ []) :
    ∃ group, Node.anyOf nodes = .ok group ∧ group.IsValid ∧
      group.evaluate record = .ok (nodes.any (Node.holds record)) := by
  have validJoined := valid_withCombinator .either valid
  obtain ⟨made, isValid⟩ := makeGroup_valid .both validJoined
  refine ⟨_, made, isValid, ?_⟩
  rw [Node.evaluate_group validJoined (by simpa using some), map_sibling_withCombinator,
    someRunHolds_separately (by simp)]
  simp [Function.comp_def]

/-- A group around one filter has its value. -/
theorem evaluate_singleton (combinator : Combinator) (node : Node) :
    (Node.group combinator [node]).evaluate record = node.evaluate record := by
  rw [Node.evaluate]
  cases node.evaluate record with
  | error error => rfl
  | ok holds => simp [Node.evaluateRest, bind, Except.bind]

/-- How the first child of a group joins others is no part of the value of the group. -/
theorem evaluate_firstChild (combinator joined : Combinator) (first : Node) (rest : List Node) :
    (Node.group combinator (first.withCombinator joined :: rest)).evaluate record =
      (Node.group combinator (first :: rest)).evaluate record := by
  simp [Node.evaluate]

theorem evaluate_split (combinator : Combinator) {head : Node} {tail : List Node}
    (some : nodes ≠ []) (begins : head.combinator = .either)
    (valid : ∀ node ∈ nodes, node.IsValid) (validOthers : ∀ node ∈ head :: tail, node.IsValid) :
    (Node.group combinator (nodes ++ head :: tail)).evaluate record =
      .ok ((Node.group combinator nodes).holds record ||
        (Node.group combinator (head :: tail)).holds record) := by
  have opens : head.opensRun = true := by simp [Node.opensRun, begins]
  have validAll : ∀ node ∈ nodes ++ head :: tail, node.IsValid :=
    List.forall_mem_append.mpr ⟨valid, validOthers⟩
  rw [Node.evaluate_group validAll (by simp), Node.holds_group valid some,
    Node.holds_group validOthers (by simp), List.map_append, List.map_cons, Node.sibling, opens,
    someRunHolds_split (by simpa using some)]

/-- A group among siblings can be replaced by its children, when these all go on one run. -/
theorem evaluate_inlined (combinator joined : Combinator) {before rest after : List Node}
    {first : Node} (goOn : ∀ child ∈ rest, child.combinator = .both)
    (validBefore : ∀ node ∈ before, node.IsValid)
    (validChildren : ∀ node ∈ first :: rest, node.IsValid)
    (validAfter : ∀ node ∈ after, node.IsValid) :
    (Node.group combinator (before ++ first.withCombinator joined :: (rest ++ after))).evaluate record =
      (Node.group combinator (before ++ .group joined (first :: rest) :: after)).evaluate record := by
  have validFirst := (List.forall_mem_cons.mp validChildren).1
  have validRest := (List.forall_mem_cons.mp validChildren).2
  have validFlat : ∀ node ∈ before ++ first.withCombinator joined :: (rest ++ after), node.IsValid := by
    simp only [List.forall_mem_append, List.forall_mem_cons]
    exact ⟨validBefore, validFirst.withCombinator joined, validRest, validAfter⟩
  have validNested : ∀ node ∈ before ++ .group joined (first :: rest) :: after, node.IsValid := by
    simp only [List.forall_mem_append, List.forall_mem_cons]
    exact ⟨validBefore, .group validChildren, validAfter⟩
  have goOnSiblings : ∀ pair ∈ rest.map (Node.sibling record), pair.1 = false := by
    intro pair member
    obtain ⟨child, isChild, rfl⟩ := List.mem_map.mp member
    simp [Node.sibling, Node.opensRun, goOn child isChild]
  have nested : Node.sibling record (.group joined (first :: rest)) =
      (joined == .either, first.holds record && (rest.map (Node.sibling record)).all Prod.snd) := by
    rw [Node.sibling, Node.holds_group validChildren (by simp), List.map_cons, Node.sibling,
      someRunHolds_together goOnSiblings, Node.opensRun, Node.combinator]
  have flat : Node.sibling record (first.withCombinator joined) =
      (joined == .either, first.holds record) := by simp [Node.sibling]
  rw [Node.evaluate_group validFlat (by simp), Node.evaluate_group validNested (by simp)]
  simp only [List.map_append, List.map_cons, nested, flat]
  rw [someRunHolds_merge_behind goOnSiblings]

end Groups

/-! ## Membership -/

section Membership

variable {record : Record} {field : String} {values : List Value} {value : Value}

/-- Only NaN is found where it is not equal to what is there. -/
theorem coincides_of_notNaN (isNumber : value.isNaN = false) (sought : Value) :
    sought.coincides value = sought.same value := by
  have different : Value.isSameNaN sought value = false := by
    cases sought <;> cases value <;> try rfl
    rename_i left right
    cases right with
    | nan payload => simp [Value.isNaN, Binary64.isNaN] at isNumber
    | _ => simp [Value.isSameNaN, Binary64.isSameNaN]
  rw [Value.coincides, different, Bool.false_or]

theorem isIn_of_notNaN (numbers : ∀ value ∈ values, value.isNaN = false) (sought : Value) :
    sought.isIn values = values.any sought.same := by
  rw [Value.isIn, Bool.eq_iff_iff, List.any_eq_true, List.any_eq_true]
  refine exists_congr fun value => and_congr_right fun member => ?_
  rw [coincides_of_notNaN (numbers value member)]

theorem evaluate_isIn (some : values ≠ []) (numbers : ∀ value ∈ values, value.isNaN = false) :
    (Node.leaf ⟨field, .isIn, .list values, .both⟩).evaluate record =
      .ok (!(record.get field).isNull && values.any (record.get field).same) := by
  obtain ⟨value, values, rfl⟩ := List.exists_cons_of_ne_nil some
  rw [Node.evaluate, ← isIn_of_notNaN numbers]
  cases null : (record.get field).isNull <;>
    simp [Leaf.evaluate, Leaf.evaluateMembership, null]

theorem evaluate_notIn (some : values ≠ []) (numbers : ∀ value ∈ values, value.isNaN = false) :
    (Node.leaf ⟨field, .notIn, .list values, .both⟩).evaluate record =
      .ok (!(record.get field).isNull && !values.any (record.get field).same) := by
  obtain ⟨value, values, rfl⟩ := List.exists_cons_of_ne_nil some
  rw [Node.evaluate, ← isIn_of_notNaN numbers]
  cases null : (record.get field).isNull <;>
    simp [Leaf.evaluate, Leaf.evaluateMembership, null, show (Operator.notIn == .isIn) = false from rfl]

theorem holds_eq :
    (Node.leaf ⟨field, .eq, value, .both⟩).holds record =
      (!(record.get field).isNull && (record.get field).same value) := by
  apply Node.holds_of_evaluate
  rw [Node.evaluate]
  cases null : (record.get field).isNull <;> simp [Leaf.evaluate, null]

theorem holds_ne :
    (Node.leaf ⟨field, .ne, value, .both⟩).holds record =
      (!(record.get field).isNull && !(record.get field).same value) := by
  apply Node.holds_of_evaluate
  rw [Node.evaluate]
  cases null : (record.get field).isNull <;> simp [Leaf.evaluate, null]

/-- The comparisons of a field with the scalars of a list, one by one. -/
theorem exists_comparisons {operator : Operator} (supported : operator ∈ Operator.supported)
    (fits : ∀ value ∈ values, operator.Fits value) :
    ∃ leaves, values.mapM (fun value => Leaf.make field operator value) = .ok leaves ∧
      leaves = values.map (fun value => ⟨field, operator, value, .both⟩) ∧
      ∀ node ∈ leaves.map Node.leaf, node.IsValid := by
  refine ⟨_, mapM_of_forall₂ ?_, rfl, ?_⟩
  · rw [List.forall₂_map_right_iff, List.forall₂_same]
    exact fun value member => Leaf.make_eq_ok.mpr ⟨fits value member, rfl⟩
  · simp only [List.map_map, List.forall_mem_map, Function.comp_def]
    exact fun value member => .leaf supported (fits value member)

end Membership

/-! ## Laws -/

/-- The laws of filter groups on a record. -/
structure GroupLaws (record : Record) : Prop where
  /-- Every valid filter has a value. -/
  value : ∀ node : Node, node.IsValid → node.evaluate record = .ok (node.holds record)
  /-- Valid filters can be put into a group, which is valid again. -/
  group : ∀ (combinator : Combinator) (nodes : List Node), (∀ node ∈ nodes, node.IsValid) →
    Node.makeGroup combinator nodes = .ok (.group combinator nodes) ∧
      (Node.group combinator nodes).IsValid
  /-- All of several filters hold when each of them does. -/
  conjunction : ∀ nodes : List Node, (∀ node ∈ nodes, node.IsValid) →
    ∃ group, Node.allOf nodes = .ok group ∧ group.IsValid ∧
      group.evaluate record = .ok (nodes.all (Node.holds record))
  /-- Any of several filters holds when one of them does. -/
  disjunction : ∀ nodes : List Node, (∀ node ∈ nodes, node.IsValid) → nodes ≠ [] →
    ∃ group, Node.anyOf nodes = .ok group ∧ group.IsValid ∧
      group.evaluate record = .ok (nodes.any (Node.holds record))
  /-- A group around one filter changes nothing. -/
  singleton : ∀ (combinator : Combinator) (node : Node),
    (Node.group combinator [node]).evaluate record = node.evaluate record
  /-- The combinator of a first child changes nothing. -/
  firstChild : ∀ (combinator joined : Combinator) (first : Node) (rest : List Node),
    (Node.group combinator (first.withCombinator joined :: rest)).evaluate record =
      (Node.group combinator (first :: rest)).evaluate record
  /-- A child joined by `or` splits a group into two. -/
  split : ∀ (combinator : Combinator) (nodes : List Node) (head : Node) (tail : List Node),
    (∀ node ∈ nodes, node.IsValid) → (∀ node ∈ head :: tail, node.IsValid) →
    nodes ≠ [] → head.combinator = .either →
      (Node.group combinator (nodes ++ head :: tail)).evaluate record =
        .ok ((Node.group combinator nodes).holds record ||
          (Node.group combinator (head :: tail)).holds record)
  /-- A group among others can be replaced by its children, when those behind the first of them are
  joined by `and`; the first one is joined as the group was. -/
  inlined : ∀ (combinator joined : Combinator) (before : List Node) (first : Node)
      (rest after : List Node),
    (∀ node ∈ before, node.IsValid) → (∀ node ∈ first :: rest, node.IsValid) →
    (∀ node ∈ after, node.IsValid) → (∀ child ∈ rest, child.combinator = .both) →
      (Node.group combinator (before ++ first.withCombinator joined :: (rest ++ after))).evaluate record =
        (Node.group combinator (before ++ .group joined (first :: rest) :: after)).evaluate record
  /-- Being in a list is being equal to one of its items. -/
  isIn : ∀ (field : String) (values : List Value),
    (∀ value ∈ values, isScalar value = true ∧ value.isNaN = false) → values ≠ [] →
    ∃ leaf leaves group, Leaf.make field .isIn (.list values) = .ok leaf ∧
      values.mapM (fun value => Leaf.make field .eq value) = .ok leaves ∧
      Node.anyOf (leaves.map Node.leaf) = .ok group ∧
      (Node.leaf leaf).evaluate record = group.evaluate record
  /-- Nothing is in an empty list. -/
  isInNothing : ∀ field : String,
    ∃ leaf, Leaf.make field .isIn (.list []) = .ok leaf ∧
      (Node.leaf leaf).evaluate record = .ok false
  /-- Not being in a list is being different from all of its items, also when there are none. -/
  notIn : ∀ (field : String) (values : List Value),
    (∀ value ∈ values, isScalar value = true ∧ value.isNaN = false) →
    ∃ leaf leaves group, Leaf.make field .notIn (.list values) = .ok leaf ∧
      values.mapM (fun value => Leaf.make field .ne value) = .ok leaves ∧
      Node.allOf (leaves.map Node.leaf) = .ok group ∧
      (Node.leaf leaf).evaluate record = group.evaluate record

/-- Filter groups obey their laws on every record, whether the fields that are compared are there,
null, or of another kind than the operands. -/
theorem groupLaws (record : Record) : GroupLaws record where
  value _ valid := valid.evaluate_eq record
  group combinator _ valid := makeGroup_valid combinator valid
  conjunction _ valid := allOf_valid valid
  disjunction _ valid some := anyOf_valid valid some
  singleton := evaluate_singleton
  firstChild := evaluate_firstChild
  split combinator _ _ _ valid validOthers some begins :=
    evaluate_split combinator some begins valid validOthers
  inlined combinator joined _ _ _ _ validBefore validChildren validAfter goOn :=
    evaluate_inlined combinator joined goOn validBefore validChildren validAfter
  isIn field values scalars some := by
    have fits : Operator.isIn.Fits (.list values) :=
      ⟨values, rfl, fun value member => (scalars value member).1⟩
    obtain ⟨leaves, made, rfl, valid⟩ :
        ∃ leaves, values.mapM (fun value => Leaf.make field .eq value) = .ok leaves ∧ _ :=
      exists_comparisons (by decide) fun value member => (scalars value member).1
    obtain ⟨group, isGroup, _, evaluated⟩ := anyOf_valid valid (by simpa using some)
    refine ⟨_, _, group, Leaf.make_eq_ok.mpr ⟨fits, rfl⟩, made, isGroup, ?_⟩
    rw [evaluated, evaluate_isIn some fun value member => (scalars value member).2]
    cases null : (record.get field).isNull <;> simp [Function.comp_def, holds_eq, null]
  isInNothing field := by
    have fits : Operator.isIn.Fits (.list []) := ⟨[], rfl, by simp⟩
    exact ⟨_, Leaf.make_eq_ok.mpr ⟨fits, rfl⟩, rfl⟩
  notIn field values scalars := by
    have fits : Operator.notIn.Fits (.list values) :=
      ⟨values, rfl, fun value member => (scalars value member).1⟩
    obtain ⟨leaves, made, rfl, valid⟩ :
        ∃ leaves, values.mapM (fun value => Leaf.make field .ne value) = .ok leaves ∧ _ :=
      exists_comparisons (by decide) fun value member => (scalars value member).1
    obtain ⟨group, isGroup, _, evaluated⟩ := allOf_valid valid
    refine ⟨_, _, group, Leaf.make_eq_ok.mpr ⟨fits, rfl⟩, made, isGroup, ?_⟩
    rw [evaluated]
    cases values with
    | nil => simp [Node.evaluate, Leaf.evaluate, Leaf.evaluateMembership]
    | cons value values =>
        rw [evaluate_notIn (by simp) fun value member => (scalars value member).2]
        cases null : (record.get field).isNull <;>
          simp [Function.comp_def, holds_ne, null, List.not_any_eq_all_not]

/-- A node without a rank. -/
def unranked : Record := [("rank", .null), ("name", .text "left")]

theorem groupLaws_unranked :
    (Node.group .both ([.leaf ⟨"rank", .gt, .int 1, .both⟩] ++
        .leaf ⟨"name", .like, .text "l%", .either⟩ :: [])).evaluate unranked = .ok true ∧
      (Node.group .both ([.leaf ⟨"name", .isNotNull, .null, .both⟩] ++
        (Node.leaf ⟨"rank", .isNull, .null, .both⟩).withCombinator .either :: ([] ++ []))).evaluate
          unranked = .ok true ∧
      ∃ leaf leaves group, Leaf.make "rank" .notIn (.list []) = .ok leaf ∧
        List.mapM (fun value => Leaf.make "rank" .ne value) [] = .ok leaves ∧
        Node.allOf (leaves.map Node.leaf) = .ok group ∧
        (Node.leaf leaf).evaluate unranked = group.evaluate unranked := by
  have laws := groupLaws unranked
  have ranked : (Node.leaf ⟨"rank", .gt, .int 1, .both⟩).IsValid := .leaf (by decide) rfl
  have named : (Node.leaf ⟨"name", .like, .text "l%", .either⟩).IsValid := .leaf (by decide) rfl
  have isNamed : (Node.leaf ⟨"name", .isNotNull, .null, .both⟩).IsValid := .leaf (by decide) rfl
  have isUnranked : (Node.leaf ⟨"rank", .isNull, .null, .both⟩).IsValid := .leaf (by decide) rfl
  refine ⟨?_, ?_, laws.notIn "rank" [] (by simp)⟩
  · rw [laws.split .both _ _ [] (by simpa using ranked) (by simpa using named) (by simp) rfl]
    rfl
  · rw [laws.inlined .both .either _ _ [] [] (by simpa using isNamed) (by simpa using isUnranked)
      (by simp) (by simp)]
    rfl

end ResourceServer.Filter

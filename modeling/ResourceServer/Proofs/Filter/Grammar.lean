import ResourceServer.Samples.Library
import ResourceServer.Proofs.Action
import ResourceServer.Proofs.Filter.Words
import ResourceServer.Proofs.Lists

/-!
# Grammar of filters

The filters of a request are a list of entries.  `Entry` says, without the reader, which
values are entries and which nodes they stand for, and `Reads` lets entries be nested up to a
depth.  The reader accepts the lists of such entries and no others, yields the nodes that they
stand for, and fails on everything else with a fault of the request.
-/

namespace ResourceServer.Filter

/-! ## Operands -/

theorem itemReports_eq_nil {position : Nat} {items : List Value} :
    itemReports position items = [] ↔ ∀ item ∈ items, isScalar item = true := by
  induction items generalizing position with
  | nil => simp [itemReports]
  | cons item rest induction =>
      rw [itemReports, List.append_eq_nil_iff, induction, List.forall_mem_cons]
      refine and_congr_left fun _ => ?_
      split
      · rename_i scalar
        simp [scalar]
      · rename_i other
        simp [other, scalarReports]

/-- The operands that are reported on by nothing: null, scalars, and lists of scalars. -/
theorem operandReports_eq_nil {operand : Value} :
    operandReports operand = [] ↔
      operand = .null ∨ isScalar operand = true ∨
        ∃ items, operand = .list items ∧ ∀ item ∈ items, isScalar item = true := by
  cases operand with
  | null => simp [operandReports]
  | list items =>
      have isList : isScalar (.list items) = false := rfl
      rw [isList, operandReports]
      simp only [reduceCtorEq, Bool.false_eq_true, Value.list.injEq, exists_eq_left', false_or]
      have reading : itemReports 0 items = [] ↔ ∀ item ∈ items, isScalar item = true :=
        itemReports_eq_nil
      rw [← reading]
      split
      · rename_i none_reported
        simp [none_reported]
      · rename_i reported
        exact iff_of_false (by simp [scalarReports]) reported
  | _ => simp [operandReports, isScalar, scalarReports]

namespace Operator

/-- An operand fits an operator: a list of scalars, nothing, or one scalar. -/
def Fits : Operator → Value → Prop
  | .isIn, operand => ∃ items, operand = .list items ∧ ∀ item ∈ items, isScalar item = true
  | .notIn, operand => ∃ items, operand = .list items ∧ ∀ item ∈ items, isScalar item = true
  | .isNull, operand => operand = .null
  | .isNotNull, operand => operand = .null
  | _, operand => isScalar operand = true

theorem fits_iff {operator : Operator} {operand : Value} :
    operator.Fits operand ↔
      operandReports operand = [] ∧ shapeFault? operator operand = none := by
  rw [operandReports_eq_nil]
  cases operand with
  | null => cases operator <;>
      simp [Fits, shapeFault?, takesList, takesNothing, isScalar, Value.isNull, Value.isList]
  | list items => cases operator <;>
      simp [Fits, shapeFault?, takesList, takesNothing, isScalar, Value.isNull, Value.isList]
  | _ => cases operator <;>
      simp [Fits, shapeFault?, takesList, takesNothing, isScalar, Value.isNull, Value.isList]

end Operator

namespace Leaf

variable {field : String} {operator : Operator} {operand : Value} {combinator : Combinator}

theorem make_eq_ok {leaf : Leaf} :
    make field operator operand combinator = .ok leaf ↔
      operator.Fits operand ∧ leaf = ⟨field, operator, operand, combinator⟩ := by
  rw [Operator.fits_iff, make]
  split
  · rename_i none_reported
    split
    · rename_i shaped
      simp [none_reported, shaped, eq_comm]
    · rename_i fault
      simp [none_reported, fault]
  · rename_i reported
    exact iff_of_false nofun fun both => reported both.1.1

/-- What is wrong with an operand is reported in a validation. -/
theorem make_error {error : Error} (failed : make field operator operand combinator = .error error) :
    ∃ report rest, error = .validation (report :: rest) := by
  rw [make] at failed
  split at failed
  · split at failed
    · cases failed
    · cases failed
      exact ⟨_, _, rfl⟩
  · rename_i reported
    cases failed
    obtain ⟨report, rest, isCons⟩ := List.exists_cons_of_ne_nil reported
    exact ⟨_, _, by rw [isCons, List.map_cons]⟩

theorem ofOperand_eq_ok {leaf : Leaf} :
    ofOperand field operator operand combinator = .ok leaf ↔
      operator.Fits operand ∧ leaf = ⟨field, operator, operand, combinator⟩ := by
  rw [← make_eq_ok, ofOperand]
  cases made : make field operator operand combinator with
  | ok made => rfl
  | error error =>
      obtain ⟨report, rest, rfl⟩ := make_error made
      exact iff_of_false nofun nofun

theorem ofOperand_error {error : Error}
    (failed : ofOperand field operator operand combinator = .error error) :
    error.isRequestError = true := by
  rw [ofOperand] at failed
  cases made : make field operator operand combinator with
  | ok made =>
      rw [made] at failed
      cases failed
  | error cause =>
      obtain ⟨report, rest, rfl⟩ := make_error made
      rw [made] at failed
      cases failed
      rfl

end Leaf

/-! ## Entries -/

/-- A value is an entry that stands for a node, given which entries below it stand for which
nodes.  It compares a filterable field under the operator that it names, by default for
equality, where null asks for a test for null; or it groups entries that are nested in it. -/
inductive Entry (resource : Resource) (below : Value → Node → Prop) : Value → Node → Prop
  | leaf {members : Record} {combinator : Combinator} {field word : String}
      {operator : Operator} (joins : combinator.Joins members)
      (plain : members.get? "nested" = none)
      (named : members.get? "field" = some (.text field)) (nonempty : field ≠ "")
      (listed : field ∈ resource.filterable)
      (spelled : (members.get? "operator").getD (.text "=") = .text word)
      (names : operator.Names word)
      (fits : (if (members.get "value").isNull then operator.forNull else operator).Fits
        (members.get "value")) :
      Entry resource below (.object members)
        (.leaf ⟨field, if (members.get "value").isNull then operator.forNull else operator,
          members.get "value", combinator⟩)
  | group {members : Record} {combinator : Combinator} {entries : List Value}
      {children : List Node} (joins : combinator.Joins members)
      (nests : members.get? "nested" = some (.list entries)) (nonempty : entries ≠ [])
      (each : List.Forall₂ below entries children) :
      Entry resource below (.object members) (.group combinator children)

/-- A value is an entry that stands for a node, with groups nested at most so many times. -/
def Reads (resource : Resource) : (remaining : Nat) → Value → Node → Prop
  | 0 => Entry resource fun _ _ => False
  | remaining + 1 => Entry resource (Reads resource remaining)

section Entries

variable {resource : Resource} {entry : Value} {node : Node}

theorem get_eq_text {members : Record} {name text : String} :
    members.get name = .text text ↔ members.get? name = some (.text text) := by
  rw [Record.get, Record.get?]
  cases members.lookup name with
  | none => simp
  | some value => simp

/-- What the reader of a comparison demands of the parts of an entry. -/
theorem Leaf.ofEntry_eq_ok {members : Record} {combinator : Combinator} {leaf : Leaf} :
    Leaf.ofEntry resource combinator members = .ok leaf ↔
      ∃ field word operator, members.get? "field" = some (.text field) ∧ field ≠ "" ∧
        field ∈ resource.filterable ∧
        (members.get? "operator").getD (.text "=") = .text word ∧ operator.Names word ∧
        (if (members.get "value").isNull then operator.forNull else operator).Fits
          (members.get "value") ∧
        leaf = ⟨field, if (members.get "value").isNull then operator.forNull else operator,
          members.get "value", combinator⟩ := by
  rw [Leaf.ofEntry]
  constructor
  · intro done
    split at done
    · rename_i field isField
      split at done
      · cases done
      · rename_i nonempty
        split at done
        · cases done
        · rename_i listed
          obtain ⟨operator, isOperator, done⟩ := bind_eq_ok.mp done
          obtain ⟨word, spelled, names⟩ := Operator.ofValue_eq_ok.mp isOperator
          obtain ⟨fits, isLeaf⟩ := Leaf.ofOperand_eq_ok.mp done
          exact ⟨field, word, operator, get_eq_text.mp isField, by simpa using nonempty,
            by simpa using listed, spelled, names, fits, isLeaf⟩
    · cases done
  · rintro ⟨field, word, operator, isField, nonempty, listed, spelled, names, fits, isLeaf⟩
    rw [get_eq_text.mpr isField]
    dsimp only
    rw [if_neg (by simpa using nonempty), if_neg (by simpa using listed)]
    refine bind_eq_ok.mpr ⟨operator, Operator.ofValue_eq_ok.mpr ⟨word, spelled, names⟩, ?_⟩
    exact Leaf.ofOperand_eq_ok.mpr ⟨fits, isLeaf⟩

theorem Leaf.ofEntry_error {members : Record} {combinator : Combinator} {error : Error}
    (failed : Leaf.ofEntry resource combinator members = .error error) :
    error.isRequestError = true := by
  rw [Leaf.ofEntry] at failed
  split at failed
  · split at failed
    · cases failed
      rfl
    · split at failed
      · cases failed
        rfl
      · obtain failed | ⟨operator, _, failed⟩ := bind_eq_error.mp failed
        · exact Operator.ofValue_error failed
        · exact Leaf.ofOperand_error failed
  · cases failed
    rfl

/-- A node is well shaped when it is a group, or its operand fits its operator. -/
def Node.IsShaped : Node → Prop
  | .leaf comparison => comparison.operator.Fits comparison.operand
  | .group _ _ => True

/-- A group of well shaped nodes is made without a report. -/
theorem Node.makeGroup_eq_ok {combinator : Combinator} {children : List Node}
    (shaped : ∀ child ∈ children, child.IsShaped) :
    Node.makeGroup combinator children = .ok (.group combinator children) := by
  have quiet : ∀ position, Node.childReports position children = .ok [] := by
    induction children with
    | nil => exact fun _ => rfl
    | cons child rest induction =>
        rw [List.forall_mem_cons] at shaped
        intro position
        cases child with
        | leaf comparison =>
            rw [Node.childReports, (Operator.fits_iff.mp shaped.1).2]
            exact induction shaped.2 _
        | group _ _ => exact induction shaped.2 _
  rw [Node.makeGroup, quiet]
  rfl

theorem Entry.isShaped {below : Value → Node → Prop} (isEntry : Entry resource below entry node) :
    node.IsShaped := by
  cases isEntry with
  | leaf _ _ _ _ _ _ _ fits => exact fits
  | group => trivial

theorem Reads.isShaped {remaining : Nat} (reads : Reads resource remaining entry node) :
    node.IsShaped := by
  cases remaining with
  | zero => exact Entry.isShaped reads
  | succ remaining => exact Entry.isShaped reads

theorem isShaped_of_forall₂ {below : Value → Node → Prop} {entries : List Value}
    {children : List Node} (shaped : ∀ entry child, below entry child → child.IsShaped)
    (each : List.Forall₂ below entries children) : ∀ child ∈ children, child.IsShaped := by
  intro child member
  obtain ⟨entry, _, isBelow⟩ := exists_of_mem_right each member
  exact shaped entry child isBelow

/-- An entry is read as the grammar says, when those that are nested in it are. -/
theorem Node.ofEntryWith_eq_ok {readNested : List Value → Except Error (List Node)}
    {below : Value → Node → Prop}
    (nested : ∀ entries children, entries ≠ [] →
      (readNested entries = .ok children ↔ List.Forall₂ below entries children))
    (shaped : ∀ entry child, below entry child → child.IsShaped) :
    Node.ofEntryWith resource readNested entry = .ok node ↔ Entry resource below entry node := by
  constructor
  · intro done
    unfold Node.ofEntryWith at done
    split at done
    · rename_i members
      obtain ⟨combinator, isCombinator, done⟩ := bind_eq_ok.mp done
      have joins := Combinator.ofEntry_eq_ok.mp isCombinator
      split at done
      · rename_i plain
        obtain ⟨leaf, isLeaf, done⟩ := bind_eq_ok.mp done
        cases done
        obtain ⟨field, word, operator, named, nonempty, listed, spelled, names, fits, rfl⟩ :=
          Leaf.ofEntry_eq_ok.mp isLeaf
        exact .leaf joins plain named nonempty listed spelled names fits
      · rename_i first rest nests
        obtain ⟨children, read, made⟩ := bind_eq_ok.mp done
        have each := (nested _ _ (List.cons_ne_nil first rest)).mp read
        rw [Node.makeGroup_eq_ok (isShaped_of_forall₂ shaped each)] at made
        cases made
        exact .group joins nests (List.cons_ne_nil first rest) each
      · cases done
    · cases done
  · intro isEntry
    cases isEntry with
    | leaf joins plain named nonempty listed spelled names fits =>
        rw [Node.ofEntryWith]
        refine bind_eq_ok.mpr ⟨_, Combinator.ofEntry_eq_ok.mpr joins, ?_⟩
        rw [plain]
        exact bind_eq_ok.mpr ⟨_, Leaf.ofEntry_eq_ok.mpr
          ⟨_, _, _, named, nonempty, listed, spelled, names, fits, rfl⟩, rfl⟩
    | @group members combinator entries children joins nests nonempty each =>
        obtain ⟨first, rest, rfl⟩ := List.exists_cons_of_ne_nil nonempty
        rw [Node.ofEntryWith]
        refine bind_eq_ok.mpr ⟨_, Combinator.ofEntry_eq_ok.mpr joins, ?_⟩
        rw [nests]
        exact bind_eq_ok.mpr ⟨children, (nested _ _ nonempty).mpr each,
          Node.makeGroup_eq_ok (isShaped_of_forall₂ shaped each)⟩

/-- An entry that is not read is a fault of the request, when those nested in it are. -/
theorem Node.ofEntryWith_error {readNested : List Value → Except Error (List Node)}
    (nested : ∀ entries error, readNested entries = .error error → error.isRequestError = true)
    (shaped : ∀ entries children, readNested entries = .ok children →
      ∀ child ∈ children, child.IsShaped) {error : Error}
    (failed : Node.ofEntryWith resource readNested entry = .error error) :
    error.isRequestError = true := by
  unfold Node.ofEntryWith at failed
  split at failed
  · obtain failed | ⟨combinator, _, failed⟩ := bind_eq_error.mp failed
    · exact Combinator.ofEntry_error failed
    · split at failed
      · obtain failed | ⟨leaf, _, failed⟩ := bind_eq_error.mp failed
        · exact Leaf.ofEntry_error failed
        · cases failed
      · obtain failed | ⟨children, read, failed⟩ := bind_eq_error.mp failed
        · exact nested _ _ failed
        · rw [Node.makeGroup_eq_ok (shaped _ _ read)] at failed
          cases failed
      · cases failed
        rfl
  · cases failed
    rfl

/-- An entry is read as the grammar says. -/
theorem Node.ofEntry_eq_ok {limit remaining : Nat} :
    Node.ofEntry resource limit remaining entry = .ok node ↔
      Reads resource remaining entry node := by
  induction remaining generalizing entry node with
  | zero =>
      rw [Node.ofEntry]
      refine Node.ofEntryWith_eq_ok (fun entries children nonempty => ?_) nofun
      refine iff_of_false nofun fun each => ?_
      cases each with
      | nil => exact nonempty rfl
      | cons first _ => exact first
  | succ remaining induction =>
      rw [Node.ofEntry]
      refine Node.ofEntryWith_eq_ok (fun entries children _ => ?_) fun _ _ => Reads.isShaped
      rw [mapM_eq_ok]
      simp only [induction]

theorem Node.ofEntry_error {limit remaining : Nat} {error : Error}
    (failed : Node.ofEntry resource limit remaining entry = .error error) :
    error.isRequestError = true := by
  induction remaining generalizing entry error with
  | zero =>
      rw [Node.ofEntry] at failed
      refine Node.ofEntryWith_error (fun _ error failed => ?_) (fun _ _ read => ?_) failed
      · cases failed
        rfl
      · cases read
  | succ remaining induction =>
      rw [Node.ofEntry] at failed
      refine Node.ofEntryWith_error (fun _ error failed => ?_) (fun _ _ read => ?_) failed
      · obtain ⟨nested, _, isError⟩ := exists_of_mapM_error failed
        exact induction isError
      · refine isShaped_of_forall₂ (fun entry child read => ?_) (mapM_eq_ok.mp read)
        exact (Node.ofEntry_eq_ok.mp read).isShaped

theorem Node.depthOf_le {bound : Nat} {nodes : List Node}
    (each : ∀ node ∈ nodes, node.depth ≤ bound) : Node.depthOf nodes ≤ bound := by
  induction nodes with
  | nil => exact Nat.zero_le bound
  | cons node rest induction =>
      rw [List.forall_mem_cons] at each
      exact Nat.max_le.mpr ⟨each.1, induction each.2⟩

/-- Groups are nested no deeper than there was room for. -/
theorem Reads.depth_le {remaining : Nat} (reads : Reads resource remaining entry node) :
    node.depth ≤ remaining := by
  induction remaining generalizing entry node with
  | zero =>
      cases reads with
      | leaf => exact Nat.le_refl 0
      | group _ _ nonempty each =>
          cases each with
          | nil => exact absurd rfl nonempty
          | cons first _ => exact first.elim
  | succ remaining induction =>
      cases reads with
      | leaf => exact Nat.zero_le _
      | group _ _ _ each =>
          rw [Node.depth, Nat.add_comm]
          refine Nat.succ_le_succ (Node.depthOf_le fun child member => ?_)
          obtain ⟨nested, _, below⟩ := exists_of_mem_right each member
          exact induction below

end Entries

/-! ## Requests -/

section Requests

variable {settings : Settings} {resource : Resource} {entries : List Value}

theorem Node.ofRequest_list (nonempty : entries ≠ []) :
    Node.ofRequest settings resource (.list entries) = (do
      let children ← entries.mapM
        (Node.ofEntry resource settings.maxNestedDepth settings.maxNestedDepth)
      let group ← Node.makeGroup .both children
      .ok (some group)) := by
  obtain ⟨first, rest, rfl⟩ := List.exists_cons_of_ne_nil nonempty
  rfl

theorem Node.ofRequest_list_eq_ok (nonempty : entries ≠ []) {filters : Option Node} :
    Node.ofRequest settings resource (.list entries) = .ok filters ↔
      ∃ children, List.Forall₂ (Reads resource settings.maxNestedDepth) entries children ∧
        filters = some (.group .both children) := by
  have each : ∀ children, entries.mapM
      (Node.ofEntry resource settings.maxNestedDepth settings.maxNestedDepth) = .ok children ↔
        List.Forall₂ (Reads resource settings.maxNestedDepth) entries children := by
    intro children
    rw [mapM_eq_ok]
    simp only [Node.ofEntry_eq_ok]
  rw [Node.ofRequest_list nonempty, bind_eq_ok]
  constructor
  · rintro ⟨children, read, done⟩
    have reads := (each children).mp read
    rw [Node.makeGroup_eq_ok (isShaped_of_forall₂ (fun _ _ => Reads.isShaped) reads)] at done
    cases done
    exact ⟨children, reads, rfl⟩
  · rintro ⟨children, reads, rfl⟩
    refine ⟨children, (each children).mpr reads, ?_⟩
    rw [Node.makeGroup_eq_ok (isShaped_of_forall₂ (fun _ _ => Reads.isShaped) reads)]
    rfl

theorem Node.ofRequest_list_error (nonempty : entries ≠ []) {error : Error}
    (failed : Node.ofRequest settings resource (.list entries) = .error error) :
    error.isRequestError = true := by
  rw [Node.ofRequest_list nonempty] at failed
  obtain failed | ⟨children, read, failed⟩ := bind_eq_error.mp failed
  · obtain ⟨entry, _, isError⟩ := exists_of_mapM_error failed
    exact Node.ofEntry_error isError
  · have shaped : ∀ child ∈ children, child.IsShaped := by
      refine isShaped_of_forall₂ (fun entry child read => ?_) (mapM_eq_ok.mp read)
      exact (Node.ofEntry_eq_ok.mp read).isShaped
    rw [Node.makeGroup_eq_ok shaped] at failed
    cases failed

end Requests

/-- Filters that are not encoded as text are read exactly by the grammar: null and an empty list
mean no filter, a list of entries means the group of the nodes that they stand for, and
everything else is a fault of the request. -/
theorem Node.ofRequest_grammar (settings : Settings) (resource : Resource) {raw : Value}
    (notText : ∀ text, raw ≠ .text text) :
    (Node.ofRequest settings resource raw = .ok none ↔ raw = .null ∨ raw = .list []) ∧
      (∀ node, Node.ofRequest settings resource raw = .ok (some node) ↔
        ∃ entries children, raw = .list entries ∧ entries ≠ [] ∧
          List.Forall₂ (Reads resource settings.maxNestedDepth) entries children ∧
          node = .group .both children) ∧
      (∀ node, Node.ofRequest settings resource raw = .ok (some node) →
        node.depth ≤ settings.maxNestedDepth + 1) ∧
      ∀ error, Node.ofRequest settings resource raw = .error error →
        error.isRequestError = true := by
  by_cases isList : ∃ entries, raw = .list entries ∧ entries ≠ []
  · obtain ⟨entries, rfl, nonempty⟩ := isList
    refine ⟨?_, fun node => ?_, fun node done => ?_, fun error => Node.ofRequest_list_error nonempty⟩
    · rw [Node.ofRequest_list_eq_ok nonempty]
      exact iff_of_false (by simp) (by simpa using nonempty)
    · rw [Node.ofRequest_list_eq_ok nonempty]
      constructor
      · rintro ⟨children, reads, isNode⟩
        exact ⟨entries, children, rfl, nonempty, reads, Option.some.inj isNode⟩
      · rintro ⟨others, children, same, _, reads, rfl⟩
        cases same
        exact ⟨children, reads, rfl⟩
    · obtain ⟨children, reads, isNode⟩ := (Node.ofRequest_list_eq_ok nonempty).mp done
      rw [Option.some.inj isNode, Node.depth, Nat.add_comm]
      refine Nat.succ_le_succ (Node.depthOf_le fun child member => ?_)
      obtain ⟨entry, _, below⟩ := exists_of_mem_right reads member
      exact below.depth_le
  · have noGroup : ∀ node : Node, ¬∃ entries children, raw = .list entries ∧ entries ≠ [] ∧
        List.Forall₂ (Reads resource settings.maxNestedDepth) entries children ∧
        node = .group .both children :=
      fun node ⟨entries, _, isEntries, nonempty, _⟩ => isList ⟨entries, isEntries, nonempty⟩
    by_cases absent : raw = .null ∨ raw = .list []
    · have none : Node.ofRequest settings resource raw = .ok none := by
        obtain rfl | rfl := absent <;> rfl
      rw [none]
      exact ⟨iff_of_true rfl absent, fun node => iff_of_false nofun (noGroup node), nofun, nofun⟩
    · have refused : Node.ofRequest settings resource raw =
          .error (.malformedFilter .notList) := by
        cases raw with
        | null => exact absurd (.inl rfl) absent
        | text text => exact absurd rfl (notText text)
        | list entries =>
            cases entries with
            | nil => exact absurd (.inr rfl) absent
            | cons first rest => exact absurd ⟨_, rfl, List.cons_ne_nil first rest⟩ isList
        | _ => rfl
      rw [refused]
      refine ⟨iff_of_false nofun absent, fun node => iff_of_false nofun (noGroup node), nofun, ?_⟩
      intro error failed
      cases failed
      rfl

/-- Filters of nodes: a test for null by inequality, joined to a group of one entry by `or`. -/
def nodeFilters : Value := .list [
  .object [("field", .text "rank"), ("operator", .text " <> "), ("value", .null)],
  .object [("type", .text "OR"), ("nested", .list [
    .object [("field", .text "name"), ("operator", .text "IN"),
      ("value", .list [.text "left", .int 1])]])]]

theorem ofRequest_grammar_nodes :
    (∀ text, nodeFilters ≠ .text text) ∧
      (∃ node, Node.ofRequest {} Samples.Library.nodes nodeFilters = .ok (some node) ∧
        (∃ entries children, nodeFilters = .list entries ∧ entries ≠ [] ∧
          List.Forall₂ (Reads Samples.Library.nodes 1) entries children ∧
          node = .group .both children) ∧ node.depth ≤ 2) := by
  have notText : ∀ text, nodeFilters ≠ .text text := nofun
  obtain ⟨_, groups, depths, _⟩ :=
    Node.ofRequest_grammar {} Samples.Library.nodes notText
  refine ⟨notText, ?_⟩
  have done : Node.ofRequest {} Samples.Library.nodes nodeFilters = .ok (some
      (.group .both [.leaf ⟨"rank", .isNotNull, .null, .both⟩,
        .group .either [.leaf ⟨"name", .isIn, .list [.text "left", .int 1], .both⟩]])) := by
    rfl
  exact ⟨_, done, (groups _).mp done, depths _ done⟩

/-- Null in the place of nested entries. -/
def nullNested : Record := [("nested", .null), ("field", .text "id"), ("value", .int 1)]

/-- An entry that compares a filterable field is refused when it also has a part for nested
entries, even if nothing is nested there. -/
theorem null_nested_refused :
    Combinator.both.Joins nullNested ∧ nullNested.get? "field" = some (.text "id") ∧
      "id" ∈ Samples.Library.nodes.filterable ∧
      (nullNested.get? "operator").getD (.text "=") = .text "=" ∧ Operator.eq.Names "=" ∧
      Operator.eq.Fits (nullNested.get "value") ∧
      Node.ofRequest {} Samples.Library.nodes (.list [.object nullNested]) =
        .error (.malformedFilter .emptyNesting) := by
  refine ⟨.inl ⟨rfl, rfl⟩, rfl, by decide, rfl, ⟨by decide, .inr (.inl (by decide))⟩, rfl, rfl⟩

end ResourceServer.Filter

import ResourceServer.Proofs.Filter.Coverage
import ResourceServer.Proofs.Sql.Agreement

/-!
# Patterns and orders of flags in both stores

The database and the evaluator read patterns in the same language, but they disagree about its
letters: to the database the two cases of an English letter are one, also where a search minds the
case.  And the evaluator leaves a line break at the end of a text over.  Where neither can be seen,
a comparison with a pattern and a search that minds the case select the rows that they accept.
Before and after a flag the evaluator knows what is meant, while no condition can be built.
-/

namespace ResourceServer.Sql

open ResourceServer.Filter

/-! ## Patterns -/

/-- A pattern that the database reads to its end: it holds no null character and is not too long. -/
structure Readable (pattern : String) : Prop where
  noNull : ∀ character ∈ pattern.toList, character.toNat ≠ 0
  short : pattern.utf8ByteSize ≤ patternLimit

instance (pattern : String) : Decidable (Readable pattern) :=
  decidable_of_iff ((pattern.toList.all fun character => character.toNat != 0) = true ∧
      pattern.utf8ByteSize ≤ patternLimit)
    ⟨fun ⟨noNull, short⟩ => ⟨by simpa using noNull, short⟩,
      fun ⟨noNull, short⟩ => ⟨by simpa using noNull, short⟩⟩

/-- A pattern finds a value in the database: a text that it covers, whatever the case of its English
letters. -/
def FoundBy (pattern : String) (value : Value) : Prop :=
  ∃ text, value = .text text ∧ Covers sameLetter pattern.toList text.toList

/-- A pattern matches a value: a text that it covers, or all of it but a line break at the end. -/
def MatchedBy (pattern : String) (value : Value) : Prop :=
  ∃ text, value = .text text ∧
    (Covers (fun expected actual => expected == actual) pattern.toList text.toList ∨
      ∃ line, line ++ ['\n'] = text.toList ∧
        Covers (fun expected actual => expected == actual) pattern.toList line)

/-- A pattern and a value share no letter in two cases, and no line break can be left over. -/
def Unambiguous (pattern : String) (value : Value) : Prop :=
  ∀ text, value = .text text →
    (∀ expected ∈ pattern.toList, ∀ actual ∈ text.toList,
      sameLetter expected actual = (expected == actual)) ∧
      (text.toList.getLast? ≠ some '\n' ∨ pattern.toList.getLast? = some '%')

theorem unambiguous_text {pattern text : String} :
    Unambiguous pattern (.text text) ↔
      (pattern.toList.all fun expected => text.toList.all fun actual =>
        sameLetter expected actual == (expected == actual)) = true ∧
      (text.toList.getLast? ≠ some '\n' ∨ pattern.toList.getLast? = some '%') := by
  simp [Unambiguous]

instance (pattern text : String) : Decidable (Unambiguous pattern (.text text)) :=
  decidable_of_iff _ unambiguous_text.symm

/-- Where nothing is ambiguous, a pattern finds the values that it matches. -/
theorem Unambiguous.foundBy_iff {pattern : String} {value : Value}
    (unambiguous : Unambiguous pattern value) : FoundBy pattern value ↔ MatchedBy pattern value := by
  refine exists_congr fun text => and_congr_right fun isText => ?_
  obtain ⟨alike, whole⟩ := unambiguous text isText
  rw [covers_or_line_iff whole]
  constructor
  · exact fun covers => covers.congr alike
  · intro covers
    apply covers.congr
    exact fun expected isExpected actual isActual => (alike expected isExpected actual isActual).symm

/-! ## Tests -/

section Tests

variable {model : Model} {record : Record} {row : Row} {field pattern : String} {column : Column}

/-- A column of texts keeps nulls and texts without null characters. -/
theorem kept_text (isText : column.type = .text) {value : Value} {cell : Cell}
    (keeps : Keeps column value cell) :
    value = .null ∨
      ∃ text, value = .text text ∧ ∀ character ∈ text.toList, character.toNat ≠ 0 := by
  have typed := keeps.typed
  rwa [isText, ColumnType.owns_text] at typed

theorem likeMatches_eq_true (isText : column.type = .text) {value : Value} {cell : Cell}
    (keeps : Keeps column value cell) :
    likeMatches value pattern = true ↔ MatchedBy pattern value := by
  rcases kept_text isText keeps with rfl | ⟨text, rfl, _⟩
  · simp [likeMatches, Value.isNull, MatchedBy]
  · have matched : likeMatches (.text text) pattern = coversText true pattern.toList text.toList := rfl
    rw [matched, coversText_iff, acceptsCharacter_true]
    simp [MatchedBy]

theorem visible_eq {text : String} (noNull : ∀ character ∈ text.toList, character.toNat ≠ 0) :
    visible text = text.toList := by
  rw [visible, List.takeWhile_eq_self_iff]
  simpa using noNull

/-- Whether a value is a text that the database finds by a pattern. -/
def isFound (pattern : String) : Value → Bool
  | .text text => likeText text pattern
  | _ => false

theorem isFound_eq_true (isText : column.type = .text) (readable : Readable pattern) {value : Value}
    {cell : Cell} (keeps : Keeps column value cell) :
    isFound pattern value = true ↔ FoundBy pattern value := by
  rcases kept_text isText keeps with rfl | ⟨text, rfl, noNull⟩
  · simp [isFound, FoundBy]
  · rw [isFound, likeText, visible_eq noNull, visible_eq readable.noNull,
      any_isEmpty_remainingAfter]
    simp [FoundBy]

/-- A test for a pattern selects the values that the pattern finds. -/
theorem decides_like (isText : column.type = .text) (readable : Readable pattern)
    (keeps : Keeps column (record.get field) (row.cell column.name)) :
    Condition.Decides row (.test (.like column (.compared column (.text pattern))))
      (isFound pattern (record.get field)) := by
  have sent : Test.mapParameters Operand.toCell (.like column (.compared column (.text pattern))) =
      .ok (.like column (.text pattern)) := by
    rw [Operand.compared, isText]
    rfl
  have short : Condition.hasLongPattern (.like column (.text pattern)) = false := by
    have short := readable.short
    simp only [Condition.hasLongPattern, Cell.text?, decide_eq_false_iff_not]
    omega
  apply Condition.decides_test sent short
  rw [Test.outcome, keeps.eq_ofPlain (by rw [isText]; rfl)]
  rcases kept_text isText keeps with null | ⟨text, isKept, _⟩
  · simp [null, Cell.ofPlain, likeCells, Cell.text?, isFound]
  · simp [isKept, Cell.ofPlain, likeCells, Cell.text?, isFound, Truth.ofBool_eq_yes]

end Tests

/-! ## Orders of flags -/

/-- Whether an operator asks for an order. -/
def isOrdering : Operator → Bool
  | .gt | .gte | .lt | .lte => true
  | _ => false

section Flags

variable {model : Model} {record : Record} {leaf : Leaf} {column : Column} {flag : Bool}

/-- No condition can be built that orders a flag. -/
theorem ofNode_flagOrdering (ordering : isOrdering leaf.operator = true)
    (isFlag : leaf.operand = .bool flag) (found : model.column? leaf.field = some column) :
    Condition.ofNode model (.leaf leaf) = .error (.plain .argument) := by
  have named : filterColumn model leaf.field = .ok column := by rw [filterColumn, found]
  have refused : plainOperand column leaf.operand = .error (.plain .argument) := by
    rw [isFlag, plainOperand]
  rw [Condition.ofNode, Test.ofLeaf, named]
  cases operator : leaf.operator <;> rw [operator] at ordering <;> cases ordering <;>
    simp [refused, bind, Except.bind, Except.map]

/-- Flags are ordered like zero and one. -/
theorem evaluate_flagOrdering (ordering : isOrdering leaf.operator = true)
    (isFlag : leaf.operand = .bool flag)
    (typed : record.get leaf.field = .null ∨ ∃ kept, record.get leaf.field = .bool kept) :
    ∃ holds, (Node.leaf leaf).evaluate record = .ok holds ∧
      (holds = true ↔ ∃ kept : Bool, record.get leaf.field = .bool kept ∧
        leaf.operator.acceptsOrder (.ordered (compare kept.toNat flag.toNat)) = true) := by
  have ordered : leaf.evaluate record = if (record.get leaf.field).isNull then .ok false
      else .ok (leaf.operator.acceptsOrder ((record.get leaf.field).compareWith leaf.operand)) := by
    rw [Leaf.evaluate]
    cases operator : leaf.operator <;> rw [operator] at ordering <;> simp [isOrdering] at ordering ⊢
  rw [Node.evaluate, ordered]
  rcases typed with null | ⟨kept, isKept⟩
  · exact ⟨false, by simp [null, Value.isNull], by simp [null]⟩
  · have order : (Value.bool kept).compareWith (.bool flag) =
        .ordered (compare kept.toNat flag.toNat) := by
      cases kept <;> cases flag <;> rfl
    exact ⟨_, by rw [isKept]; rfl, by rw [isKept, isFlag, order]; simp⟩

end Flags

/-! ## Agreement -/

section Agreement

variable {model : Model} {record : Record} {row : Row}

/-- The condition of a comparison with a pattern selects what the pattern finds. -/
theorem like_selects (keeps : RowKeeps model record row) {leaf : Leaf} {column : Column}
    {pattern : String} (isLike : leaf.operator = .like) (isPattern : leaf.operand = .text pattern)
    (found : model.column? leaf.field = some column) (isText : column.type = .text)
    (readable : Readable pattern) :
    ∃ condition cells holds, Condition.ofNode model (.leaf leaf) = .ok condition ∧
      condition.sent = .ok cells ∧ cells.tests.any Condition.hasLongPattern = false ∧
      (Node.leaf leaf).evaluate record = .ok holds ∧
      (cells.outcome row = .yes ↔ FoundBy pattern (record.get leaf.field)) ∧
      (holds = true ↔ MatchedBy pattern (record.get leaf.field)) := by
  have named : filterColumn model leaf.field = .ok column := by rw [filterColumn, found]
  have kept := keeps.of_column? found
  have built : Condition.ofNode model (.leaf leaf) =
      .ok (.test (.like column (.compared column (.text pattern)))) := by
    rw [Condition.ofNode, Test.ofLeaf, named, isLike, isPattern]
    rfl
  obtain ⟨cells, sent, short, outcome⟩ := (decides_like isText readable kept).sent
  refine ⟨_, cells, likeMatches (record.get leaf.field) pattern, built, sent, short, ?_, ?_, ?_⟩
  · rw [Node.evaluate, Leaf.evaluate, isLike, isPattern]
    rcases kept_text isText kept with null | ⟨text, isKept, _⟩
    · simp [null, Value.isNull, likeMatches]
    · simp [isKept, Value.isNull]
  · rw [outcome, isFound_eq_true isText readable kept]
  · exact likeMatches_eq_true isText kept

/-- The condition of a search that minds the case selects what its pattern finds. -/
theorem search_selects (keeps : RowKeeps model record row) {term : SearchTerm}
    (mindsCase : term.caseSensitive = true) (readable : Readable term.pattern)
    (inTexts : ∀ field ∈ term.fields, ∃ column, model.column? field = some column ∧
      column.type = .text) :
    ∃ condition cells, Condition.ofSearch model term = .ok condition ∧
      condition.sent = .ok cells ∧ cells.tests.any Condition.hasLongPattern = false ∧
      (cells.outcome row = .yes ↔ ∃ field ∈ term.fields, FoundBy term.pattern (record.get field)) ∧
      (term.evaluate record = true ↔
        ∃ field ∈ term.fields, MatchedBy term.pattern (record.get field)) := by
  have each : ∀ field ∈ term.fields, ∃ test, fieldTest model term field = .ok test ∧
      Condition.Decides row test (isFound term.pattern (record.get field)) := by
    intro field member
    obtain ⟨column, found, isText⟩ := inTexts field member
    have named : filterColumn model field = .ok column := by rw [filterColumn, found]
    refine ⟨_, ?_, decides_like isText readable (keeps.of_column? found)⟩
    rw [fieldTest, named, mindsCase]
    rfl
  obtain ⟨condition, built, decides⟩ := decides_someField each
  obtain ⟨cells, sent, short, outcome⟩ := decides.sent
  refine ⟨condition, cells, built, sent, short, ?_, ?_⟩
  · rw [outcome, List.any_eq_true]
    refine exists_congr fun field => and_congr_right fun member => ?_
    obtain ⟨column, found, isText⟩ := inTexts field member
    exact isFound_eq_true isText readable (keeps.of_column? found)
  · rw [SearchTerm.evaluate, List.any_eq_true, mindsCase]
    refine exists_congr fun field => and_congr_right fun member => ?_
    obtain ⟨column, found, isText⟩ := inTexts field member
    exact likeMatches_eq_true isText (keeps.of_column? found)

end Agreement

/-- On a row that keeps a record, a comparison with a readable pattern and a search for one that minds
the case become conditions that select the row when the pattern finds the value that is kept, and they
accept the record when it matches that value.  Where nothing is ambiguous these are the same rows.  A
comparison that orders a flag can be evaluated and has no condition. -/
theorem patterns_select {model : Model} {record : Record} {row : Row}
    (keeps : RowKeeps model record row) :
    (∀ (leaf : Leaf) (column : Column) (pattern : String), leaf.operator = .like →
      leaf.operand = .text pattern → model.column? leaf.field = some column → column.type = .text →
      Readable pattern →
      ∃ condition cells holds, Condition.ofNode model (.leaf leaf) = .ok condition ∧
        condition.sent = .ok cells ∧ cells.tests.any Condition.hasLongPattern = false ∧
        (Node.leaf leaf).evaluate record = .ok holds ∧
        (cells.outcome row = .yes ↔ FoundBy pattern (record.get leaf.field)) ∧
        (holds = true ↔ MatchedBy pattern (record.get leaf.field)) ∧
        (Unambiguous pattern (record.get leaf.field) →
          (cells.outcome row = .yes ↔ holds = true))) ∧
      (∀ term : SearchTerm, term.caseSensitive = true → Readable term.pattern →
        (∀ field ∈ term.fields, ∃ column, model.column? field = some column ∧ column.type = .text) →
        ∃ condition cells, Condition.ofSearch model term = .ok condition ∧
          condition.sent = .ok cells ∧ cells.tests.any Condition.hasLongPattern = false ∧
          (cells.outcome row = .yes ↔
            ∃ field ∈ term.fields, FoundBy term.pattern (record.get field)) ∧
          (term.evaluate record = true ↔
            ∃ field ∈ term.fields, MatchedBy term.pattern (record.get field)) ∧
          ((∀ field ∈ term.fields, Unambiguous term.pattern (record.get field)) →
            (cells.outcome row = .yes ↔ term.evaluate record = true))) ∧
      ∀ (leaf : Leaf) (column : Column) (flag : Bool), isOrdering leaf.operator = true →
        leaf.operand = .bool flag → model.column? leaf.field = some column →
        column.type = .boolean →
        Condition.ofNode model (.leaf leaf) = .error (.plain .argument) ∧
          ∃ holds, (Node.leaf leaf).evaluate record = .ok holds ∧
            (holds = true ↔ ∃ kept : Bool, record.get leaf.field = .bool kept ∧
              leaf.operator.acceptsOrder (.ordered (compare kept.toNat flag.toNat)) = true) := by
  refine ⟨?like, ?search, ?flags⟩
  case like =>
    intro leaf column pattern isLike isPattern found isText readable
    obtain ⟨condition, cells, holds, built, sent, short, evaluated, outcome, accepted⟩ :=
      like_selects keeps isLike isPattern found isText readable
    refine ⟨condition, cells, holds, built, sent, short, evaluated, outcome, accepted, ?_⟩
    intro unambiguous
    rw [outcome, accepted, unambiguous.foundBy_iff]
  case search =>
    intro term mindsCase readable inTexts
    obtain ⟨condition, cells, built, sent, short, outcome, accepted⟩ :=
      search_selects keeps mindsCase readable inTexts
    refine ⟨condition, cells, built, sent, short, outcome, accepted, fun unambiguous => ?_⟩
    rw [outcome, accepted]
    exact exists_congr fun field => and_congr_right fun member => (unambiguous field member).foundBy_iff
  case flags =>
    intro leaf column flag ordering isFlag found isBoolean
    refine ⟨ofNode_flagOrdering ordering isFlag found, evaluate_flagOrdering ordering isFlag ?_⟩
    have typed := (keeps.of_column? found).typed
    rwa [isBoolean, ColumnType.owns_boolean] at typed

section Comments

open Samples

theorem patterns_select_looseComment :
    (∃ condition cells holds,
      Condition.ofNode Blog.comment (.leaf ⟨"body", .like, .text "G_%t", .both⟩) = .ok condition ∧
        condition.sent = .ok cells ∧ cells.tests.any Condition.hasLongPattern = false ∧
        (Node.leaf ⟨"body", .like, .text "G_%t", .both⟩).evaluate looseComment = .ok holds ∧
        (cells.outcome (plainRow Blog.comment looseComment) = .yes ↔ holds = true)) ∧
      (∃ condition cells,
        Condition.ofSearch Blog.comment ⟨"rea", ["body"], true⟩ = .ok condition ∧
        condition.sent = .ok cells ∧
        (cells.outcome (plainRow Blog.comment looseComment) = .yes ↔
          SearchTerm.evaluate ⟨"rea", ["body"], true⟩ looseComment = true)) ∧
      ∃ holds, (Node.leaf ⟨"approved", .gte, .bool true, .both⟩).evaluate looseComment = .ok holds ∧
        (holds = true ↔ ∃ kept : Bool, looseComment.get "approved" = .bool kept ∧
          Operator.gte.acceptsOrder (.ordered (compare kept.toNat 1)) = true) := by
  obtain ⟨like, search, flags⟩ := patterns_select rowKeeps_looseComment
  have body : looseComment.get "body" = .text "Great" := rfl
  refine ⟨?_, ?_, ?_⟩
  · obtain ⟨condition, cells, holds, built, sent, short, evaluated, _, _, alike⟩ :=
      like ⟨"body", .like, .text "G_%t", .both⟩ _ "G_%t" rfl rfl rfl rfl
        (by decide)
    refine ⟨condition, cells, holds, built, sent, short, evaluated, alike ?_⟩
    rw [body]
    decide
  · obtain ⟨condition, cells, built, sent, _, _, _, alike⟩ :=
      search ⟨"rea", ["body"], true⟩ rfl (by decide) (by
        intro field member
        rw [List.mem_singleton.mp member]
        exact ⟨_, rfl, rfl⟩)
    refine ⟨condition, cells, built, sent, alike fun field member => ?_⟩
    rw [List.mem_singleton.mp member, body]
    decide
  · exact (flags ⟨"approved", .gte, .bool true, .both⟩ _ true rfl rfl rfl rfl).2

/-- The outcome on a row of a condition that has been built. -/
def outcomeOn (row : Row) (built : Except Error (Condition Operand)) : Except Error Truth := do
  let condition ← built
  let cells ← condition.sent
  .ok (cells.outcome row)

/-- A comment with a text. -/
def commentSaying (body : String) : Record :=
  [("id", .int 1), ("body", .text body), ("post_id", .null), ("author_id", .null),
    ("approved", .bool true)]

/-- What a comparison selects in the database and accepts in memory, on a comment with a text. -/
def bothOutcomes (body : String) (leaf : Leaf) : Except Error Truth × Except Error Bool :=
  (outcomeOn (plainRow Blog.comment (commentSaying body)) (Condition.ofNode Blog.comment (.leaf leaf)),
    (Node.leaf leaf).evaluate (commentSaying body))

/-- Where the two stores part: at letters in another case, also in a search that minds it, at a line
break at the end of a text, at a pattern with a null character, at a pattern that is a number, and at
every flag that is to be ordered. -/
theorem patterns_part :
    bothOutcomes "Great" ⟨"body", .like, .text "GREAT", .both⟩ = (.ok .yes, .ok false) ∧
      (outcomeOn (plainRow Blog.comment (commentSaying "Great"))
          (Condition.ofSearch Blog.comment ⟨"GREAT", ["body"], true⟩) = .ok .yes ∧
        SearchTerm.evaluate ⟨"GREAT", ["body"], true⟩ (commentSaying "Great") = false) ∧
      bothOutcomes "Great\n" ⟨"body", .like, .text "Great", .both⟩ = (.ok .no, .ok true) ∧
      bothOutcomes "Great" ⟨"body", .like, .text "Great\x00", .both⟩ = (.ok .yes, .ok false) ∧
      bothOutcomes "5" ⟨"body", .like, .int 5, .both⟩ = (.ok .yes, .ok false) ∧
      bothOutcomes "Great" ⟨"approved", .gt, .bool false, .both⟩ =
        (.error (.plain .argument), .ok true) := by
  refine ⟨rfl, ⟨rfl, rfl⟩, rfl, rfl, rfl, rfl⟩

end Comments

end ResourceServer.Sql

import ResourceServer.Yaml.Graph
import ResourceServer.Yaml.Token.Lexer

/-!
# Reading nodes

Collections are written in blocks, where indentation holds them together, or between brackets. A node can be
given a name by an anchor and be repeated by an alias, even inside of itself. Tokens are asked for one by one,
so of several faults the one that stands first in the text counts.
-/

namespace ResourceServer.Yaml

/-- The state of reading nodes: the tokens that follow, the declared handles, the nodes that have been met, and
which of them the anchors name. -/
structure NodeReader where
  lexer : Lexer
  handles : List (String × String) := [("!", "!"), ("!!", Tag.standard)]
  graph : Graph := {}
  anchors : List (String × Nat) := []
  /-- How many collections deeper the text may still go. -/
  depth : Nat := 485
deriving Inhabited

namespace NodeReader

/-- A step of reading. -/
abbrev Step (α : Type) := StateT NodeReader (Except Fault) α

/-- Fails. -/
def fail {α : Type} (fault : Fault) : Step α := fun _ => .error fault

/-- The next token. -/
def peek : Step (Option Token) := fun reader => do
  let (token, lexer) ← reader.lexer.peek
  .ok (token, { reader with lexer })

/-- Passes over a token. -/
def advance : Step Unit := fun reader => .ok ((), { reader with lexer := reader.lexer.advance })

/-- Passes over a token if it is a certain one; tells whether it was. -/
def accept (token : Token) : Step Bool := do
  if (← peek) == some token then
    advance
    pure true
  else pure false

/-- Whether one of some tokens comes next. -/
def isBefore (tokens : List Token) : Step Bool := do
  match ← peek with
  | some token => pure (tokens.contains token)
  | none => pure false

/-! ## Anchors and tags -/

/-- Adds a node under its anchor, if it has one; yields its number. -/
def place (anchor : Option String) (tag : Tag) (content : Content) : Step Nat := fun reader =>
  match anchor with
  | none =>
      let (number, graph) := reader.graph.push ⟨tag, content⟩
      .ok (number, { reader with graph })
  | some name =>
      if reader.anchors.any (·.1 == name) then .error .repeatedAnchor
      else
        let (number, graph) := reader.graph.push ⟨tag, content⟩
        .ok (number, { reader with graph, anchors := (name, number) :: reader.anchors })

/-- The node of a place where nothing is written. -/
def emptyNode : Step Nat := place none .null (.scalar "")

/-- The node that an alias repeats. -/
def repeated (name : String) : Step Nat := do
  match (← get).anchors.lookup name with
  | some number => pure number
  | none => fail .unknownAlias

/-- The full name of a tag. -/
def tagName (written : WrittenTag) : Step String := do
  match written.handle with
  | none => pure written.suffix
  | some handle =>
      match (← get).handles.lookup handle with
      | some meaning => pure (meaning ++ written.suffix)
      | none => fail .undeclaredHandle

/-- An anchor, if there is one. -/
def anchor? : Step (Option String) := do
  match ← peek with
  | some (.anchor name) => do
      advance
      pure (some name)
  | _ => pure none

/-- A tag, if there is one. -/
def tag? : Step (Option WrittenTag) := do
  match ← peek with
  | some (.tag written) => do
      advance
      pure (some written)
  | _ => pure none

/-- The anchor and the name of the tag in front of a node, in either order. -/
def properties : Step (Option String × Option String) := do
  let early ← anchor?
  let tag ← tag?
  let late ← if early.isNone && tag.isSome then anchor? else pure none
  match tag with
  | none => pure (early.or late, none)
  | some written => do
      let name ← tagName written
      pure (early.or late, some name)

/-- Whether a tag leaves the meaning of its node open. -/
def isOpen (tag : Option String) : Bool :=
  match tag with
  | none => true
  | some name => name == "!"

/-- The tag of a collection. -/
def collectionTag (fallback : Tag) (tag : Option String) : Tag :=
  if isOpen tag then fallback else (tag.map Tag.ofName).getD fallback

/-- The tag of a scalar. -/
def scalarTag (text : String) (isPlain : Bool) (tag : Option String) : Tag :=
  match tag with
  | none => if isPlain then Tag.ofPlain text else .text
  | some name => if name == "!" then Tag.ofPlain text else Tag.ofName name

/-! ## Nodes -/

/-- Goes one collection deeper. -/
def descend : Step Unit := fun reader =>
  match reader.depth with
  | 0 => .error .tooDeep
  | depth + 1 => .ok ((), { reader with depth })

/-- Completes a collection and goes back to what is around it; yields its number. -/
def complete (number : Nat) (content : Content) : Step Nat := fun reader =>
  .ok (number,
    { reader with depth := reader.depth + 1, graph := reader.graph.withContent number content })

mutual

/-- Reads a node. A block collection can only stand where `block` allows it, and a sequence that is not indented
where `flush` does. -/
def node (block flush : Bool) : (budget : Nat) → Step Nat
  | 0 => fail .missingContent
  | budget + 1 => do
      match ← peek with
      | some (.alias name) => do
          advance
          repeated name
      | _ => do
          let (anchor, tag) ← properties
          content block flush anchor tag budget

/-- Reads what follows the anchor and the tag of a node; nothing has to follow when there are some. -/
def content (block flush : Bool) (anchor tag : Option String) : (budget : Nat) → Step Nat
  | 0 => fail .missingContent
  | budget + 1 => do
      match ← peek with
      | some (.scalar text isPlain) => do
          advance
          place anchor (scalarTag text isPlain tag) (.scalar text)
      | some .flowSequenceStart => do
          let number ← place anchor (collectionTag .sequence tag) (.sequence [])
          advance
          descend
          let items ← flowItems true budget
          complete number (.sequence items)
      | some .flowMappingStart => do
          let number ← place anchor (collectionTag .mapping tag) (.mapping [])
          advance
          descend
          let entries ← flowEntries true budget
          complete number (.mapping entries)
      | some .blockEntry =>
          if flush then do
            let number ← place anchor (collectionTag .sequence tag) (.sequence [])
            descend
            let items ← flushItems budget
            complete number (.sequence items)
          else emptyContent anchor tag
      | some .blockSequenceStart =>
          if block then do
            let number ← place anchor (collectionTag .sequence tag) (.sequence [])
            advance
            descend
            let items ← blockItems budget
            complete number (.sequence items)
          else emptyContent anchor tag
      | some .blockMappingStart =>
          if block then do
            let number ← place anchor (collectionTag .mapping tag) (.mapping [])
            advance
            descend
            let entries ← blockEntries budget
            complete number (.mapping entries)
          else emptyContent anchor tag
      | _ => emptyContent anchor tag

/-- A scalar without text, which needs an anchor or a tag. -/
def emptyContent (anchor tag : Option String) : Step Nat :=
  if anchor.isSome || tag.isSome then place anchor (scalarTag "" true tag) (.scalar "")
  else fail .missingContent

/-- Reads a node unless one of some tokens comes next. -/
def nodeUnless (ends : List Token) (block flush : Bool) : (budget : Nat) → Step Nat
  | 0 => fail .missingContent
  | budget + 1 => do
      if ← isBefore ends then emptyNode else node block flush budget

/-- Reads the items of a block sequence. -/
def blockItems : (budget : Nat) → Step (List Nat)
  | 0 => fail .unclosedCollection
  | budget + 1 => do
      if ← accept .blockEntry then
        let item ← nodeUnless [.blockEntry, .blockEnd] true false budget
        let rest ← blockItems budget
        pure (item :: rest)
      else if ← accept .blockEnd then pure []
      else fail .unclosedCollection

/-- Reads the items of a sequence that is not indented. -/
def flushItems : (budget : Nat) → Step (List Nat)
  | 0 => fail .unclosedCollection
  | budget + 1 => do
      if ← accept .blockEntry then
        let item ← nodeUnless [.blockEntry, .key, .value, .blockEnd] true false budget
        let rest ← flushItems budget
        pure (item :: rest)
      else pure []

/-- Reads the entries of a block mapping. -/
def blockEntries : (budget : Nat) → Step (List (Nat × Nat))
  | 0 => fail .unclosedCollection
  | budget + 1 => do
      let ends := [Token.key, .value, .blockEnd]
      if ← accept .key then
        let key ← nodeUnless ends true true budget
        let value ← if ← accept .value then nodeUnless ends true true budget else emptyNode
        let rest ← blockEntries budget
        pure ((key, value) :: rest)
      else if ← accept .blockEnd then pure []
      else fail .unclosedCollection

/-- Reads a value between brackets, if there is one. -/
def flowValue (ends : List Token) : (budget : Nat) → Step Nat
  | 0 => fail .missingContent
  | budget + 1 => do
      if ← accept .value then nodeUnless ends false false budget else emptyNode

/-- Reads the items of a sequence between brackets. An item can be a mapping of one entry. -/
def flowItems (isFirst : Bool) : (budget : Nat) → Step (List Nat)
  | 0 => fail .unclosedCollection
  | budget + 1 => do
      if ← accept .flowSequenceEnd then pure []
      else
        let separated ← if isFirst then pure true else accept .flowEntry
        if !separated then fail .unclosedCollection
        else if ← accept .flowSequenceEnd then pure []
        else if ← accept .key then
          let number ← place none .mapping (.mapping [])
          descend
          let key ← nodeUnless [.value, .flowEntry, .flowSequenceEnd] false false budget
          let value ← flowValue [.flowEntry, .flowSequenceEnd] budget
          let _ ← complete number (.mapping [(key, value)])
          let rest ← flowItems false budget
          pure (number :: rest)
        else
          let item ← node false false budget
          let rest ← flowItems false budget
          pure (item :: rest)

/-- Reads the entries of a mapping between brackets. -/
def flowEntries (isFirst : Bool) : (budget : Nat) → Step (List (Nat × Nat))
  | 0 => fail .unclosedCollection
  | budget + 1 => do
      if ← accept .flowMappingEnd then pure []
      else
        let separated ← if isFirst then pure true else accept .flowEntry
        if !separated then fail .unclosedCollection
        else if ← accept .flowMappingEnd then pure []
        else if ← accept .key then
          let key ← nodeUnless [.value, .flowEntry, .flowMappingEnd] false false budget
          let value ← flowValue [.flowEntry, .flowMappingEnd] budget
          let rest ← flowEntries false budget
          pure ((key, value) :: rest)
        else
          let key ← node false false budget
          let value ← emptyNode
          let rest ← flowEntries false budget
          pure ((key, value) :: rest)

end

/-! ## Documents -/

/-- Reads directives: which handles they declare, and whether one of them has said the version. -/
def directives (declared : List (String × String)) (hasVersion : Bool) : (budget : Nat) →
    Step (List (String × String))
  | 0 => pure declared
  | budget + 1 => do
      match ← peek with
      | some .directive => do
          advance
          directives declared hasVersion budget
      | some (.version major) => do
          advance
          if hasVersion || major != 1 then fail .unfitDirective else directives declared true budget
      | some (.handle name meaning) => do
          advance
          if declared.any (·.1 == name) then fail .unfitDirective
          else directives ((name, meaning) :: declared) hasVersion budget
      | _ => pure declared

/-- Reads directives and the mark of the start of a document. -/
def documentStart (budget : Nat) : Step Unit := do
  let declared ← directives [] false budget
  if ← accept .documentStart then
    modify fun reader => { reader with handles := declared ++ reader.handles }
  else fail .missingDocument

/-- Whether a token is a directive. -/
def isDirective : Token → Bool
  | .directive => true
  | .version _ => true
  | .handle .. => true
  | _ => false

/-- Whether a document without content ends here. -/
def isAtDocumentEnd : Step Bool := do
  match ← peek with
  | none => pure true
  | some token => pure (isDirective token || token == .documentStart || token == .documentEnd)

/-- Passes over the marks of the end of a document. -/
def skipDocumentEnds : (budget : Nat) → Step Unit
  | 0 => pure ()
  | budget + 1 => do
      if ← accept .documentEnd then skipDocumentEnds budget

/-- Reads the root of a document. -/
def root (budget : Nat) : Step Nat := do
  match ← peek with
  | some token =>
      if isDirective token || token == .documentStart then do
        documentStart budget
        if ← isAtDocumentEnd then emptyNode else node true false budget
      else node true false budget
  | none => emptyNode

/-- Reads the only document of a text, if there is one: the number of its root. -/
def document (budget : Nat) : Step (Option Nat) := do
  match ← peek with
  | none => pure none
  | some _ => do
      let number ← root budget
      skipDocumentEnds budget
      match ← peek with
      | none => pure (some number)
      | some _ => do
          documentStart budget
          fail .severalDocuments

end NodeReader

/-- The nodes of a text and the number of its root, if there is any. -/
def Graph.ofText (text : String) : Except Fault (Option Nat × Graph) := do
  let lexer ← Lexer.ofText text
  let (root, reader) ← (NodeReader.document (12 * lexer.budget)).run { lexer }
  .ok (root, reader.graph)

end ResourceServer.Yaml

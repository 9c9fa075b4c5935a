import ResourceServer.Yaml.Graph
import ResourceServer.Yaml.Meaning

/-!
# Giving nodes their meaning

Every node becomes a part: a scalar, or a collection of other parts. A collection is there before its contents
are, so a node can lie inside of itself. Its contents follow in turn, after everything that was begun earlier;
of several faults the one that is met first in this order counts. The keys of a mapping have to be scalars.

Mappings that are merged into another one give way to its own entries, and of several the earlier ones go before
the later ones.
-/

namespace ResourceServer.Yaml

/-- What a node stands for; parts inside of it are given by the numbers of their nodes. -/
inductive Part
  | scalar (scalar : Scalar)
  | sequence (items : List Nat)
  | pairs (pairs : List (Nat × Nat))
  | set (members : List Scalar)
  | mapping (entries : List (Scalar × Nat))
deriving Repr, Inhabited

/-- The state of giving nodes their meaning: the nodes, what they stand for as far as it is known, and the
collections whose contents are still to follow, the last one first. -/
structure Assembly where
  graph : Graph
  parts : Array (Option Part)
  waiting : List Nat := []
deriving Inhabited

namespace Assembly

/-- A step of giving nodes their meaning. -/
abbrev Step (α : Type) := StateT Assembly (Except Error) α

/-- Fails. -/
def fail {α : Type} (error : Error) : Step α := fun _ => .error error

/-- Fails by a fault of the text. -/
def refuse {α : Type} (fault : Fault) : Step α := fail (.document fault)

/-- The part of a node, if it is known. -/
def part? (assembly : Assembly) (number : Nat) : Option Part := (assembly.parts[number]?).join

/-- Sets the part of a node. -/
def setPart (number : Nat) (part : Part) : Step Unit := fun assembly =>
  .ok ((), { assembly with parts := assembly.parts.set! number (some part) })

/-! ## Merging -/

/-- Gives a mapping other entries. -/
def setEntries (number : Nat) (entries : List (Nat × Nat)) : Step Unit := fun assembly =>
  .ok ((), { assembly with graph := assembly.graph.withContent number (.mapping entries) })

/-- Lets a key stand for its own text. -/
def asText (number : Nat) : Step Unit := fun assembly =>
  .ok ((), { assembly with graph := assembly.graph.withTag number .text })

/-- The nodes of the mappings that a merged node stands for, and whether they form a sequence. -/
def mergedNodes (graph : Graph) (number : Nat) : Option (List Nat) :=
  match graph.content number with
  | .mapping _ => some [number]
  | .sequence items => some items
  | .scalar _ => none

mutual

/-- Puts the entries of merged mappings in front of the own entries of a mapping. The budget bounds how deep
merged mappings are nested. -/
def flatten (number : Nat) : (budget : Nat) → Step Unit
  | 0 => refuse .tooDeep
  | budget + 1 => do
      let merged ← mergedEntries number 0 budget
      if !merged.isEmpty then setEntries number (merged ++ (← get).graph.entries number)

/-- Takes the merged mappings out of a mapping, from an entry on, and yields their entries. -/
def mergedEntries (number index : Nat) : (budget : Nat) → Step (List (Nat × Nat))
  | 0 => refuse .tooDeep
  | budget + 1 => do
      let graph := (← get).graph
      let entries := graph.entries number
      match entries[index]? with
      | none => pure []
      | some (key, value) =>
          match graph.tag key with
          | .merge =>
              match mergedNodes graph value with
              | none => refuse .kindMismatch
              | some nodes => do
                  setEntries number (entries.eraseIdx index)
                  let merged ← flattenAll nodes budget
                  let others ← mergedEntries number index budget
                  pure (merged ++ others)
          | .equals => do
              asText key
              mergedEntries number (index + 1) budget
          | _ => mergedEntries number (index + 1) budget

/-- The entries of several mappings, those of the last one first. -/
def flattenAll (numbers : List Nat) : (budget : Nat) → Step (List (Nat × Nat))
  | 0 => refuse .tooDeep
  | budget + 1 =>
      match numbers with
      | [] => pure []
      | number :: rest => do
          match (← get).graph.content number with
          | .mapping _ => do
              flatten number budget
              let entries := (← get).graph.entries number
              let others ← flattenAll rest budget
              pure (others ++ entries)
          | _ => refuse .kindMismatch

end

/-! ## Scalars -/

/-- The text of a node. A mapping stands for the text under its own value. The budget bounds how deep such
mappings are nested. -/
def textOf (graph : Graph) (number : Nat) : (budget : Nat) → Except Fault String
  | 0 => .error .tooDeep
  | budget + 1 =>
      match graph.content number with
      | .scalar text => .ok text
      | .sequence _ => .error .kindMismatch
      | .mapping entries =>
          match entries.find? fun entry => graph.tag entry.1 == .equals with
          | some (_, value) => textOf graph value budget
          | none => .error .kindMismatch

/-- Whether a node is a scalar. -/
def isScalar (graph : Graph) (number : Nat) : Bool :=
  match graph.content number with
  | .scalar _ => true
  | _ => false

/-- The scalar that a node stands for. A time has to be written as a scalar itself. -/
def scalarOf (graph : Graph) (number : Nat) : Except Error Scalar := do
  let tag := graph.tag number
  if !tag.isMeaningful then .error (.document .unknownTag)
  else
    let text ← (textOf graph number (graph.nodes.size + 1)).mapError Error.document
    if tag == .timestamp && !isScalar graph number then .error (.plain .type)
    else tag.scalarOf text

/-! ## Collections -/

/-- Begins a collection: its contents are to follow. -/
def begin (number : Nat) (part : Part) : Step Unit := do
  setPart number part
  modify fun assembly => { assembly with waiting := number :: assembly.waiting }

/-- Gives a node its part, unless it has one. -/
def visit (number : Nat) : Step Unit := do
  let assembly ← get
  if (assembly.part? number).isSome then pure ()
  else
    match assembly.graph.tag number with
    | .sequence => begin number (.sequence [])
    | .mapping => begin number (.mapping [])
    | .set => begin number (.set [])
    | .orderedMapping => begin number (.pairs [])
    | .pairs => begin number (.pairs [])
    | _ =>
        match scalarOf assembly.graph number with
        | .ok scalar => setPart number (.scalar scalar)
        | .error error => fail error

/-- Visits a key; it has to be a scalar. -/
def visitKey (number : Nat) : Step Scalar := do
  visit number
  match (← get).part? number with
  | some (.scalar scalar) => pure scalar
  | _ => refuse .collectionKey

/-- The items of a node that has to be a sequence. -/
def itemsOf (number : Nat) : Step (List Nat) := do
  match (← get).graph.content number with
  | .sequence items => pure items
  | _ => refuse .kindMismatch

/-- The only entry of a node that has to be a mapping with one entry. -/
def pairOf (number : Nat) : Step (Nat × Nat) := do
  match (← get).graph.content number with
  | .mapping [entry] => pure entry
  | _ => refuse .kindMismatch

/-- The entries of a node that has to be a mapping, those of merged mappings among them. A later value of a key
takes the place of an earlier one. -/
def entriesOf (number budget : Nat) : Step (List (Scalar × Nat)) := do
  match (← get).graph.content number with
  | .mapping _ => do
      flatten number budget
      ((← get).graph.entries number).foldlM (fun entries (key, value) => do
        let scalar ← visitKey key
        visit value
        pure (Document.put scalar value entries)) []
  | _ => refuse .kindMismatch

/-- Adds the contents of a collection that was begun. -/
def complete (budget number : Nat) : Step Unit := do
  match (← get).part? number with
  | some (.sequence _) => do
      let items ← itemsOf number
      items.forM visit
      setPart number (.sequence items)
  | some (.pairs _) => do
      let items ← itemsOf number
      let pairs ← items.mapM fun item => do
        let (key, value) ← pairOf item
        visit key
        visit value
        pure (key, value)
      setPart number (.pairs pairs)
  | some (.set _) => do
      let entries ← entriesOf number budget
      setPart number (.set (entries.map Prod.fst))
  | some (.mapping _) => do
      let entries ← entriesOf number budget
      setPart number (.mapping entries)
  | _ => pure ()

/-- Adds the contents of all collections that were begun, turn by turn: what is begun in one turn is completed
in the next. -/
def completeAll (budget : Nat) : (turns : Nat) → Step Unit
  | 0 => pure ()
  | turns + 1 => do
      let begun := (← get).waiting.reverse
      if !begun.isEmpty then
        modify fun assembly => { assembly with waiting := [] }
        begun.forM (complete budget)
        completeAll budget turns

/-- What the nodes of a graph stand for, starting from its root. -/
def ofGraph (graph : Graph) (root : Nat) : Except Error Assembly := do
  let size := graph.nodes.size + 1
  let start : Assembly := { graph, parts := .replicate size none }
  let (_, assembly) ← (do
    visit root
    completeAll (size * size + 1000) size : Step Unit).run start
  .ok assembly

end Assembly

end ResourceServer.Yaml

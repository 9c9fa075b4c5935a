import ResourceServer.Yaml.Assembly
import ResourceServer.Yaml.Node

/-!
# Documents from configuration text

The parts of a text are shown as a value, or as a document down to some depth. A part that lies inside of itself
has no value.
-/

namespace ResourceServer.Yaml

/-- What a text says: the parts that its nodes stand for, and the root among them. -/
structure Source where
  assembly : Assembly
  root : Nat
deriving Inhabited

namespace Source

/-- How deep collections can be nested in a value. -/
def depthLimit : Nat := 485

mutual

/-- The value of a part; `depth` is how deep collections can still be nested. Pairs become lists, and the members
of a set are sorted. -/
def valueOf (assembly : Assembly) : (depth : Nat) → Nat → Except Error Value
  | 0, _ => .error (.plain .recursion)
  | depth + 1, number =>
      match assembly.part? number with
      | none => .ok .null
      | some (.scalar scalar) => scalar.toValue
      | some (.sequence items) => do
          let values ← items.mapM (valueOf assembly depth)
          .ok (.list values)
      | some (.pairs pairs) => do
          let values ← pairs.mapM fun (key, value) => do
            let key ← valueOf assembly depth key
            let value ← valueOf assembly depth value
            .ok (Value.list [key, value])
          .ok (.list values)
      | some (.set members) =>
          match Scalar.sorted? members with
          | none => .error (.plain .type)
          | some sorted => do
              let values ← sorted.mapM Scalar.toValue
              .ok (.list values)
      | some (.mapping entries) => do
          let members ← entries.foldlM (fun members (key, part) => do
            let value ← valueOf assembly depth part
            .ok (Record.set members key.plain value)) []
          .ok (.object members)

end

/-- The value of a text. -/
def value (source : Source) : Except Error Value := valueOf source.assembly depthLimit source.root

/-- A part as a document, with the collections of `depth` levels and empty ones below. -/
def documentOf (assembly : Assembly) : (depth : Nat) → Nat → Document
  | depth, number =>
      match assembly.part? number, depth with
      | none, _ => .scalar (.value .null)
      | some (.scalar scalar), _ => .scalar scalar
      | some (.set members), _ => .set members
      | some (.mapping entries), depth + 1 =>
          .mapping (entries.map fun (key, part) => (key, documentOf assembly depth part))
      | some (.mapping _), 0 => .mapping []
      | some (.sequence items), depth + 1 => .sequence (items.map (documentOf assembly depth))
      | some (.pairs pairs), depth + 1 =>
          .sequence (pairs.map fun (key, part) =>
            .sequence [documentOf assembly depth key, documentOf assembly depth part])
      | _, _ => .sequence []

/-- The document in a text, down to some depth. -/
def document (source : Source) (depth : Nat) : Document := documentOf source.assembly depth source.root

end Source

/-- What a text says; nothing when there is nothing in it. -/
def Source.ofText (text : String) : Except Error (Option Source) := do
  let (root, graph) ← (Graph.ofText text).mapError Error.document
  match root with
  | none => .ok none
  | some root => do
      let assembly ← Assembly.ofGraph graph root
      .ok (some ⟨assembly, root⟩)

end ResourceServer.Yaml

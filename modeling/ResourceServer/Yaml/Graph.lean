import ResourceServer.Yaml.Tag

/-!
# Graphs of nodes

The nodes of a configuration text form a graph: an alias leads to a node that stands elsewhere, possibly to
one around it. Nodes are numbered in the order in which they begin.
-/

namespace ResourceServer.Yaml

/-- What is written in a node; the nodes inside of it are given by their numbers. -/
inductive Content
  | scalar (text : String)
  | sequence (items : List Nat)
  | mapping (entries : List (Nat × Nat))
deriving DecidableEq, Repr, Inhabited

/-- A node. -/
structure Node where
  tag : Tag
  content : Content
deriving Repr, Inhabited

/-- The nodes of a text by their numbers. -/
structure Graph where
  nodes : Array Node := #[]
deriving Repr, Inhabited

namespace Graph

/-- The node of a number. -/
def node (graph : Graph) (number : Nat) : Node := graph.nodes.getD number default

/-- The tag of a node. -/
def tag (graph : Graph) (number : Nat) : Tag := (graph.node number).tag

/-- What is written in a node. -/
def content (graph : Graph) (number : Nat) : Content := (graph.node number).content

/-- The entries of a mapping; every other node has none. -/
def entries (graph : Graph) (number : Nat) : List (Nat × Nat) :=
  match graph.content number with
  | .mapping entries => entries
  | _ => []

/-- Adds a node; yields its number. -/
def push (graph : Graph) (node : Node) : Nat × Graph :=
  (graph.nodes.size, ⟨graph.nodes.push node⟩)

/-- Gives a node another content. -/
def withContent (graph : Graph) (number : Nat) (content : Content) : Graph :=
  ⟨graph.nodes.modify number fun node => { node with content }⟩

/-- Gives a node another tag. -/
def withTag (graph : Graph) (number : Nat) (tag : Tag) : Graph :=
  ⟨graph.nodes.modify number fun node => { node with tag }⟩

end Graph

end ResourceServer.Yaml

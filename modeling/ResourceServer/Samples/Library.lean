import ResourceServer.Samples.Blog
import ResourceServer.Numeric.Decimal

/-!
# Sample schema: a library

Shelves are found by a code and hold books, which can be trashed and are labelled by their number. Nodes
form a tree, and gauges are found by a double.
-/

namespace ResourceServer.Samples.Library

/-- The double nearest to a decimal. -/
def decimal (digits : Nat) (exponent : Int) : Value := .float (Decimal.toBinary64 false ⟨digits, exponent⟩)

/-- Shelves. -/
def shelf : Model where
  name := "Shelf"
  table := "shelves"
  columns := [{ name := "code", type := .text, isPrimary := true }, optional "label" .text,
    optional "floor" .integer]
  uniqueSets := [["label", "floor"]]

/-- Books. -/
def book : Model where
  name := "Book"
  table := "books"
  columns := [countedKey, { optional "isbn" .text with isUnique := true }, optional "title" .text,
    optional "shelf_code" .text, withDefault "price" .real (decimal 15 (-1)),
    optional "rating" .integer, optional "removed_on" .moment]

/-- Labels on books. -/
def label : Model where
  name := "Label"
  table := "labels"
  columns := [countedKey, withDefault "text" .text (.text "none"), optional "book_isbn" .text]

/-- Nodes of a tree. -/
def node : Model where
  name := "Node"
  table := "nodes"
  columns := [countedKey, withDefault "name" .text (.text "node"), optional "parent_id" .integer,
    optional "rank" .integer]

/-- Gauges. -/
def gauge : Model where
  name := "Gauge"
  table := "gauges"
  columns := [{ name := "level", type := .real, isPrimary := true }, optional "note" .text]

/-- Tokens of an unknown type. -/
def sealed : Model where
  name := "Opaque"
  table := "opaques"
  columns := [{ name := "token", type := .untyped, isPrimary := true }]

/-- What may be done with shelves. -/
def shelves : Resource where
  name := "shelves"
  model := shelf
  keyName := "code"
  filterable := ["code", "label", "floor"]
  sortable := ["code", "label", "floor"]
  searchable := ["code", "label"]
  includes := ["books.labels"]
  aggregates := ["books"]
  relations := [hasMany "books" "books" "shelf_code"]
  fillable := some ["code", "label", "floor"]

/-- What may be done with books. -/
def books : Resource where
  name := "books"
  model := book
  filterable := ["id", "isbn", "title", "shelf_code", "price", "rating", "removed_on"]
  sortable := ["id", "title", "price", "rating"]
  searchable := ["title", "isbn"]
  includes := ["*"]
  aggregates := ["labels", "first_label"]
  relations := [belongsTo "shelf" "shelves" "shelf_code",
    hasMany "labels" "labels" "book_isbn" (some "isbn"),
    hasOne "first_label" "labels" "book_isbn" (some "isbn")]
  softDeletes := true
  deletedAtColumn := "removed_on"

/-- What may be done with labels. -/
def labels : Resource where
  name := "labels"
  model := label
  filterable := ["id", "text", "book_isbn"]
  sortable := ["id", "text"]
  searchable := ["text"]
  includes := ["book.*"]
  relations := [belongsTo "book" "books" "book_isbn" (some "isbn")]

/-- What may be done with nodes. -/
def nodes : Resource where
  name := "nodes"
  model := node
  filterable := ["id", "name", "parent_id", "rank"]
  sortable := ["id", "name", "rank"]
  includes := ["parent.*", "children.*"]
  aggregates := ["children"]
  relations := [belongsTo "parent" "nodes" "parent_id", hasMany "children" "nodes" "parent_id"]

/-- What may be done with gauges. -/
def gauges : Resource where
  name := "gauges"
  model := gauge
  keyName := "level"
  filterable := ["level"]
  sortable := ["level"]
  fillable := some ["level", "note"]

/-- What may be done with tokens. -/
def tokens : Resource where
  name := "opaques"
  model := sealed
  keyName := "token"

/-- The resources of the library. -/
def resources : List Resource := [shelves, books, labels, nodes, gauges]

/-- A row of shelves. -/
def shelfRow (code : String) (label floor : Value) : Record :=
  [("code", .text code), ("label", label), ("floor", floor)]

/-- A row of books. -/
def bookRow (id : Int) (isbn title shelfCode price rating : Value) : Record :=
  [("id", .int id), ("isbn", isbn), ("title", title), ("shelf_code", shelfCode), ("price", price),
    ("rating", rating)]

/-- A row of labels. -/
def labelRow (id : Int) (text : String) (bookIsbn : Value) : Record :=
  [("id", .int id), ("text", .text text), ("book_isbn", bookIsbn)]

/-- A row of nodes. -/
def nodeRow (id : Int) (name : String) (parentId rank : Value) : Record :=
  [("id", .int id), ("name", .text name), ("parent_id", parentId), ("rank", rank)]

/-- The moment at which the trashed book was trashed. -/
def trashedAt : Moment :=
  { year := 2024, month := 5, day := 6, hour := 7, minute := 8, second := 9, microsecond := 10,
    offset := some 0 }

/-- The first rows of every resource. -/
def rows : List (String × List Record) := [
  ("shelves", [shelfRow "A1" (.text "Fiction") (.int 1), shelfRow "B2" (.text "History") (.int 1),
    shelfRow "a1" (.text "fiction") (.int 2), shelfRow "7" .null .null]),
  ("books", [
    bookRow 10 (.text "x-1") (.text "Zebra") (.text "A1") (decimal 25 (-1)) (.int 4),
    bookRow 11 (.text "x-2") (.text "apple") (.text "A1") (decimal 10 0) .null,
    bookRow 12 .null (.text "\u00c4pfel") (.text "B2") (decimal 1 (-1)) (.int 4),
    bookRow 13 (.text "x-4") (.text "100% pure_gold") .null (decimal 25 (-1)) (.int (-1))
      ++ [("removed_on", .moment trashedAt)],
    [("id", .int 14), ("isbn", .text ""), ("title", .null), ("shelf_code", .text "nowhere"),
      ("rating", .int 0)]]),
  ("labels", [labelRow 1 "red" (.text "x-1"), labelRow 2 "blue" (.text "x-1"),
    labelRow 3 "red" (.text "x-4"), labelRow 4 "" (.text ""), labelRow 5 "lost" .null]),
  ("nodes", [nodeRow 1 "root" .null (.int 3), nodeRow 2 "left" (.int 1) (.int 2),
    nodeRow 3 "right" (.int 1) (.int 1), nodeRow 4 "leaf" (.int 2) .null,
    nodeRow 5 "loop" (.int 5) (.int 2)]),
  ("gauges", [[("level", decimal 5 (-1)), ("note", .text "half")],
    [("level", decimal 2 0), ("note", .null)]])]

end ResourceServer.Samples.Library

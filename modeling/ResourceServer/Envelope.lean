import ResourceServer.Page
import ResourceServer.Query.Includes

/-!
# Envelopes

An answer wraps entities in an envelope: the data, and for a page of a listing also links to its
neighbours and figures about it. Only relations that were asked for are shown.
-/

namespace ResourceServer

/-- A wrapped answer. -/
structure Envelope where
  data : Value
  links : Option Record := none
  figures : Option Record := none
deriving Repr, Inhabited

/-- What an operation answers: an envelope, or the response of a hook as it is. -/
inductive Answer
  | envelope (envelope : Envelope)
  | response (value : Value)
deriving Repr, Inhabited

/-- The address of a page of a listing. -/
def pageUrl (path : String) (page : Int) : String := s!"{path}?page={page}"

/-- A number, or null. -/
def Value.ofInt? : Option Int → Value
  | some value => .int value
  | none => .null

namespace Page

/-- Links to the first and last page and to the neighbours. -/
def links (page : Page) (path : String) (lastPage : Int) : Record :=
  let link (exists? : Bool) (number : Int) : Value :=
    if exists? then .text (pageUrl path number) else .null
  [("first", link true 1), ("last", link true lastPage),
    ("prev", link (1 < page.page) (page.page - 1)),
    ("next", link (page.page < lastPage) (page.page + 1))]

/-- Figures about a page. -/
def figures (page : Page) (path : String) (lastPage : Int) : Record :=
  [("current_page", .int page.page), ("from", Value.ofInt? page.firstItem?),
    ("last_page", .int lastPage), ("path", .text path), ("per_page", .int page.perPage),
    ("to", Value.ofInt? page.lastItem?), ("total", .int page.total)]

end Page

namespace Envelope

/-- The entities as data, with the relations that were asked for. -/
def dataOf (requested : List RelationRequest) (entities : List Entity) : Value :=
  .list ((guardEntities requested entities).map fun entity => .object entity.toRecord)

/-- Wraps one entity. -/
def ofEntity (requested : List RelationRequest) (entity : Entity) : Envelope :=
  { data := .object (entity.guarded requested).toRecord }

/-- Wraps a list of entities. -/
def ofEntities (requested : List RelationRequest) (entities : List Entity) : Envelope :=
  { data := dataOf requested entities }

/-- Wraps a page. -/
def ofPage (requested : List RelationRequest) (path : String) (page : Page) : Except Error Envelope := do
  let lastPage ← page.lastPage
  .ok ⟨dataOf requested page.items, some (page.links path lastPage), some (page.figures path lastPage)⟩

/-- The envelope as an object. -/
def toRecord (envelope : Envelope) : Record :=
  [("data", envelope.data)]
    ++ (envelope.links.toList.map fun links => ("links", .object links))
    ++ (envelope.figures.toList.map fun figures => ("meta", .object figures))

end Envelope

/-- The value that is answered. -/
def Answer.toValue : Answer → Value
  | .envelope wrapped => .object wrapped.toRecord
  | .response reply => reply

end ResourceServer

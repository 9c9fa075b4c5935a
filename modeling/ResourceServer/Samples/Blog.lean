import ResourceServer.Payload
import ResourceServer.Schema.Registry

/-!
# Sample schema: a blog

Authors with a profile write posts, and posts have comments. Posts can be trashed.
-/

namespace ResourceServer.Samples

/-- A primary key that is counted up. -/
def countedKey : Column :=
  { name := "id", type := .integer, nullable := true, fallback := some .null, isPrimary := true }

/-- A column that must be given. -/
def required (name : String) (type : ColumnType) : Column := { name, type }

/-- A column that is null unless it is given. -/
def optional (name : String) (type : ColumnType) : Column :=
  { name, type, nullable := true, fallback := some .null }

/-- A column with a default. -/
def withDefault (name : String) (type : ColumnType) (fallback : Value) : Column :=
  { name, type, fallback := some fallback }

/-- A relation to several entities that keep the reference. -/
def hasMany (name target foreignKey : String) (localKey : Option String := none) : String × Relation :=
  (name, ⟨name, .hasMany, target, foreignKey, localKey⟩)

/-- A relation to one entity that keeps the reference. -/
def hasOne (name target foreignKey : String) (localKey : Option String := none) : String × Relation :=
  (name, ⟨name, .hasOne, target, foreignKey, localKey⟩)

/-- A relation to the entity that is referred to. -/
def belongsTo (name target foreignKey : String) (localKey : Option String := none) :
    String × Relation :=
  (name, ⟨name, .belongsTo, target, foreignKey, localKey⟩)

namespace Blog

/-- Authors. -/
def author : Model where
  name := "Author"
  table := "authors"
  columns := [countedKey, required "name" .text, optional "email" .text]

/-- Profiles of authors. -/
def profile : Model where
  name := "Profile"
  table := "profiles"
  columns := [countedKey, optional "author_id" .integer, withDefault "bio" .text (.text "")]

/-- Posts. -/
def post : Model where
  name := "Post"
  table := "posts"
  columns := [countedKey, { name := "title", type := .text, isUnique := true },
    withDefault "status" .text (.text "draft"), withDefault "views" .integer (.int 0),
    optional "author_id" .integer, optional "deleted_at" .moment]

/-- Comments on posts. -/
def comment : Model where
  name := "Comment"
  table := "comments"
  columns := [countedKey, required "body" .text, optional "post_id" .integer,
    optional "author_id" .integer, withDefault "approved" .boolean (.bool false)]

/-- What may be done with authors. -/
def authors : Resource where
  name := "authors"
  model := author
  filterable := ["id", "name", "email"]
  sortable := ["id", "name"]
  searchable := ["name", "email"]
  includes := ["posts.comments", "profile"]
  aggregates := ["posts"]
  relations := [hasMany "posts" "posts" "author_id", hasOne "profile" "profiles" "author_id"]

/-- What may be done with profiles. -/
def profiles : Resource where
  name := "profiles"
  model := profile
  filterable := ["author_id"]
  includes := ["author"]
  relations := [belongsTo "author" "authors" "author_id"]

/-- What may be done with posts. -/
def posts : Resource where
  name := "posts"
  model := post
  filterable := ["id", "title", "status", "views", "author_id"]
  sortable := ["id", "title", "views"]
  searchable := ["title"]
  includes := ["author", "comments.*"]
  aggregates := ["comments"]
  relations := [belongsTo "author" "authors" "author_id", hasMany "comments" "comments" "post_id"]
  softDeletes := true

/-- What may be done with comments. -/
def comments : Resource where
  name := "comments"
  model := comment
  filterable := ["id", "post_id", "approved", "body"]
  sortable := ["id"]
  searchable := ["body"]
  includes := ["post", "author"]
  relations := [belongsTo "post" "posts" "post_id", belongsTo "author" "authors" "author_id"]

/-- The resources of the blog. -/
def resources : List Resource := [authors, profiles, posts, comments]

/-- What a client must give to write a post. -/
def postPayload : PayloadSchema := [
  { name := "title", type := .text 1 },
  { name := "status", type := .text 0, fallback := some (.text "draft") },
  { name := "views", type := .integer (some 0), fallback := some (.int 0) },
  { name := "author_id", type := .integer none, nullable := true, fallback := some .null }]

/-- What a client may give to change a post. -/
def postUpdatePayload : PayloadSchema := [
  { name := "title", type := .text 1, nullable := true, fallback := some .null },
  { name := "status", type := .text 0, nullable := true, fallback := some .null },
  { name := "views", type := .integer (some 0), nullable := true, fallback := some .null },
  { name := "author_id", type := .integer none, nullable := true, fallback := some .null }]

/-- A row of authors. -/
def authorRow (id : Int) (name : String) (email : Value) : Record :=
  [("id", .int id), ("name", .text name), ("email", email)]

/-- A row of posts. -/
def postRow (id : Int) (title status : String) (views : Int) (authorId : Value) : Record :=
  [("id", .int id), ("title", .text title), ("status", .text status), ("views", .int views),
    ("author_id", authorId)]

/-- A row of comments. -/
def commentRow (id : Int) (body : String) (postId authorId : Int) (approved : Bool) : Record :=
  [("id", .int id), ("body", .text body), ("post_id", .int postId), ("author_id", .int authorId),
    ("approved", .bool approved)]

/-- The moment at which the trashed post was trashed. -/
def trashedAt : Moment := { year := 2024, month := 1, day := 1, offset := some 0 }

/-- The first rows of every resource. -/
def rows : List (String × List Record) := [
  ("authors", [authorRow 1 "alice" (.text "alice@example.com"),
    authorRow 2 "bob" (.text "bob@test.com"), authorRow 3 "carol" .null]),
  ("profiles", [[("id", .int 1), ("author_id", .int 1), ("bio", .text "writer")]]),
  ("posts", [postRow 1 "hello world" "published" 10 (.int 1),
    postRow 2 "second post" "draft" 5 (.int 1), postRow 3 "news today" "published" 20 (.int 2),
    postRow 4 "old news" "published" 1 (.int 2) ++ [("deleted_at", .moment trashedAt)],
    postRow 5 "orphan" "draft" 0 .null]),
  ("comments", [commentRow 1 "great" 1 2 true, commentRow 2 "meh" 1 3 false,
    commentRow 3 "nice" 3 1 true, commentRow 4 "gone" 4 1 true])]

end Blog

end ResourceServer.Samples

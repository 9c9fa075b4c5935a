/-!
# Abilities

What a policy can be asked about.
-/

namespace ResourceServer

/-- An ability that is granted or denied. -/
inductive Ability
  | viewAny
  | view
  | create
  | update
  | delete
  | forceDelete
  | restore
deriving DecidableEq, Repr

namespace Ability

/-- The word for an ability. -/
def word : Ability → String
  | .viewAny => "view_any"
  | .view => "view"
  | .create => "create"
  | .update => "update"
  | .delete => "delete"
  | .forceDelete => "force_delete"
  | .restore => "restore"

/-- All abilities. -/
def all : List Ability := [.viewAny, .view, .create, .update, .delete, .forceDelete, .restore]

/-- The ability that a word names. -/
def ofWord? (word : String) : Option Ability := all.find? fun ability => ability.word == word

end Ability

end ResourceServer

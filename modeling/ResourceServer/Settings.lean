/-!
# Settings

The limits and defaults under which requests are read.
-/

namespace ResourceServer

/-- Defaults for listings that do not say how they want to be paginated. -/
structure PaginationSettings where
  defaultLimit : Int := 15
  disabled : Bool := false
  maxLimit : Option Int := none
deriving DecidableEq, Repr, Inhabited

/-- How search terms are matched unless a request says otherwise. -/
structure SearchSettings where
  caseSensitive : Bool := true
deriving DecidableEq, Repr, Inhabited

/-- Everything that can be configured. The depth limit holds for filter groups and for relation
paths. -/
structure Settings where
  maxNestedDepth : Nat := 1
  pagination : PaginationSettings := {}
  search : SearchSettings := {}
deriving DecidableEq, Repr, Inhabited

end ResourceServer

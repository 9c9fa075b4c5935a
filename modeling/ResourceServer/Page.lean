import ResourceServer.Entity
import ResourceServer.Report.Reader

/-!
# Pages

One page of a listing, with the positions of its items and the number of the last page. The last page
is the least whole number not below the quotient of total and page size, rounded as a double.
-/

namespace ResourceServer

/-- One page of a listing. -/
structure Page where
  items : List Entity
  total : Int
  page : Int
  perPage : Int

namespace Page

/-- A page with figures that may be given in several forms. -/
def ofParts (items : List Entity) (total page perPage : Value) : Except Error Page :=
  let read (name : String) (input : Value) : Except Report Int :=
    (Report.readInteger input).mapError (Report.within [.name name])
  match read "total" total, read "page" page, read "per_page" perPage with
  | .ok total, .ok page, .ok perPage => .ok ⟨items, total, page, perPage⟩
  | total, page, perPage =>
      .error (.validation ([total, page, perPage].filterMap fun part =>
        match part with
        | .ok _ => none
        | .error report => some report))

/-- The double nearest to the quotient of two whole numbers. -/
def quotient (dividend divisor : Int) : Except Error Binary64 :=
  if divisor = 0 then .error (.plain .division)
  else
    match Binary64.ofRatio ((dividend < 0) != (divisor < 0)) dividend.natAbs divisor.natAbs with
    | .infinite _ => .error (.plain .overflow)
    | double => .ok double

/-- The number of the last page, at least one. -/
def lastPage (page : Page) : Except Error Int := do
  let pages ← quotient page.total page.perPage
  .ok (max 1 (pages.ceiling?.getD 1))

/-- The position of the first item, counted from one. -/
def firstItem? (page : Page) : Option Int :=
  if page.items.isEmpty then none else some ((page.page - 1) * page.perPage + 1)

/-- The position of the last item, counted from one. -/
def lastItem? (page : Page) : Option Int :=
  if page.items.isEmpty then none
  else some ((page.page - 1) * page.perPage + page.items.length)

end Page

end ResourceServer

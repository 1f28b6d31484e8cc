import DeclOrder.Failure
import DeclOrder.Options

/-!
# Items and their order

An item is a declaration together with the keys that sort it.  Items are sorted by the place of
their section and then by their place in the source.  Among items of equal section place the
lifecycle hooks exchange places with each other, and only with each other, so that they stand in
the order of their ranks.
-/

namespace DeclOrder

/-- A declaration with its sort keys.  The index counts all statements, imports included. -/
structure Item where
  statement : Statement
  index : Int
  tag : Section
  primary : Int
  secondary : Option Int
  text : Text

namespace Item

def start (item : Item) : Int := item.statement.extentStart

def stop (item : Item) : Int := item.statement.extentStop

def isHook (item : Item) : Bool := item.tag = .lifecycle

/-- Order by section place, then by place in the source. -/
def beforeInSource (a b : Item) : Bool :=
  a.primary < b.primary || (a.primary = b.primary && a.index ≤ b.index)

/-- Order of lifecycle hooks by rank, then by place in the source. -/
def beforeByRank (a b : Item) : Bool :=
  let rankOf := fun item : Item => item.secondary.getD 0
  rankOf a < rankOf b || (rankOf a = rankOf b && a.index ≤ b.index)

def ofStatement? (options : Options) (source : Text) (statement : Statement) (index : Int) :
    Option Item :=
  (statement.section? options.tables).map fun tag =>
    { statement
      index
      tag
      primary := options.sections.rank tag
      secondary := if tag = .lifecycle then some (options.hooks.rank statement.hook?) else none
      text := statement.text source }

end Item

/-- Puts the given hooks, in order, at the places that lifecycle hooks hold in a list of items. -/
def fillHooks : List Item → List Item → List Item
  | [], _ => []
  | item :: rest, hooks =>
    if item.isHook then
      match hooks with
      | [] => item :: fillHooks rest []
      | hook :: others => hook :: fillHooks rest others
    else item :: fillHooks rest hooks

/-- Ranks the lifecycle hooks of a list of items among the places they hold. -/
def rankHooks (items : List Item) : List Item :=
  fillHooks items ((items.filter Item.isHook).mergeSort Item.beforeByRank)

/-- The stretches of items of equal section place, in order. -/
def stretches (items : List Item) : List (List Item) :=
  (items.mergeSort Item.beforeInSource).splitBy fun a b => a.primary = b.primary

/-- Sorts items: by section place and source, hooks of equal section place by rank. -/
def sortItems (items : List Item) : List Item :=
  (stretches items).flatMap rankHooks

/-- Whether the hooks among some items can be compared: all of them have ranks, or none has. -/
def comparable (items : List Item) : Bool :=
  let hooks := items.filter Item.isHook
  hooks.all (fun item => item.secondary.isSome) || hooks.all fun item => item.secondary.isNone

/-- Sorts items of any origin, whose hooks may lack ranks. -/
def sortGiven (items : List Item) : Except Failure (List Item) :=
  if (stretches items).all comparable then .ok (sortItems items) else .error .mixedRanks

def sortedItems (options : Options) (source : Text) (statements : List Statement) : List Item :=
  sortItems (statements.zipIdx.filterMap fun (statement, index) =>
    Item.ofStatement? options source statement index)

end DeclOrder

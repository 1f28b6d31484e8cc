import DeclOrder.Value

/-!
# Tables under construction

A configuration file is built up statement by statement.  A key can be set once; a table can be
opened by one header only, and not at all when dotted keys have made it; what was written as an
array or an inline table is closed, with everything below it.
-/

namespace DeclOrder.Toml

abbrev Key := List String

/-- Applies a change to the table that a key leads to, making tables where there are none.  A key
leads through an array of tables to its last table, where that is allowed. -/
def updateAt (throughLists : Bool) (change : Table → Option Table) : Table → Key → Option Table
  | table, [] => change table
  | table, name :: rest =>
    match table.get? name with
    | none =>
      (updateAt throughLists change [] rest).map fun inner => table.insert name (.table inner)
    | some (.table inner) =>
      (updateAt throughLists change inner rest).map fun inner => table.insert name (.table inner)
    | some (.list entries) =>
      match entries.getLast? with
      | some (.table inner) =>
        if throughLists then
          (updateAt throughLists change inner rest).map fun inner =>
            table.insert name (.list (entries.dropLast ++ [.table inner]))
        else none
      | _ => none
    | some _ => none

/-- Sets a new name of a table; a name that is known is refused. -/
def setNew (name : String) (value : Value) (table : Table) : Option Table :=
  if (table.get? name).isSome then none else some (table.insert name value)

/-- Appends an empty table to the array of a name, making the array where there is none. -/
def appendTable (name : String) (table : Table) : Option Table :=
  match table.get? name with
  | none => some (table.insert name (.list [.table []]))
  | some (.list entries) => some (table.insert name (.list (entries ++ [.table []])))
  | some _ => none

/-- Whether a key is one of the closed ones or leads below one. -/
def isClosed (closed : List Key) (key : Key) : Bool :=
  closed.any fun outer => outer.isPrefixOf key

/-- Whether a value is written in brackets and is thereby complete. -/
def isComplete : Value → Bool
  | .list _ | .table _ => true
  | _ => false

/-- A file under construction: the values so far, the tables that can no longer be opened, those
that join them at the next header, the closed keys, and the header in force. -/
structure Draft where
  values : Table := []
  opened : List Key := []
  joining : List Key := []
  closed : List Key := []
  header : Key := []

namespace Draft

/-- Lets the tables that dotted keys have made count as opened. -/
def settle (draft : Draft) : Draft :=
  { draft with opened := draft.opened ++ draft.joining, joining := [] }

def openTable (draft : Draft) (key : Key) : Option Draft :=
  if key ∈ draft.opened || isClosed draft.closed key then none
  else (updateAt true some draft.values key).map fun values =>
    { draft with values, opened := draft.opened ++ [key], header := key }

/-- Opens the next table of an array of tables by its header.  What was known below the previous
table no longer counts. -/
def openNext (draft : Draft) (key : Key) : Option Draft := do
  let name ← key.getLast?
  if isClosed draft.closed key then none
  else
    let values ← updateAt true (appendTable name) draft.values key.dropLast
    let others := fun keys : List Key => keys.filter fun known => !key.isPrefixOf known
    return { draft with
      values
      opened := others draft.opened ++ [key]
      closed := others draft.closed
      header := key }

/-- The tables that a dotted key passes through below the header in force. -/
def passed (draft : Draft) (key : Key) : List Key :=
  (List.range (key.length - 1)).map fun count => draft.header ++ key.take (count + 1)

def set (draft : Draft) (key : Key) (value : Value) : Option Draft := do
  let name ← key.getLast?
  let parent := draft.header ++ key.dropLast
  if (draft.passed key).any (· ∈ draft.opened) || isClosed draft.closed parent then none
  else
    let values ← updateAt true (setNew name value) draft.values parent
    return { draft with
      values
      joining := draft.joining ++ draft.passed key
      closed := if isComplete value then draft.closed ++ [draft.header ++ key] else draft.closed }

end Draft

end DeclOrder.Toml

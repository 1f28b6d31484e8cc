import DeclOrder.Decimal

/-!
# Values

Configuration files and requests carry values whose shape is not known beforehand.  A table keeps
its entries in the order in which they were written, and holds every key once.
-/

namespace DeclOrder

/-- A value read from a configuration file or a request.  A float that is infinite or no number at
all has no decimal. -/
inductive Value where
  | null
  | bool (value : Bool)
  | int (value : Int)
  | float (value : Option Decimal)
  | string (value : String)
  | datetime
  | date
  | time
  | list (entries : List Value)
  | table (entries : List (String × Value))
  deriving Repr, Inhabited

/-- Keys with their values, in the order in which they were written. -/
abbrev Table := List (String × Value)

namespace Value

/-- How messages call the type of a value. -/
def typeName : Value → String
  | .null => "NoneType"
  | .bool _ => "bool"
  | .int _ => "int"
  | .float _ => "float"
  | .string _ => "str"
  | .datetime => "datetime"
  | .date => "date"
  | .time => "time"
  | .list _ => "list"
  | .table _ => "dict"

def isNull : Value → Bool
  | .null => true
  | _ => false

/-- Whether a value counts as absent where a request is expected: null, false, zero and everything
empty. -/
def isVoid : Value → Bool
  | .null => true
  | .bool value => !value
  | .int value => value = 0
  | .float value => value.map Decimal.rounded = some (.integer 0)
  | .string value => value = ""
  | .list entries => entries.isEmpty
  | .table entries => entries.isEmpty
  | .datetime | .date | .time => false

end Value

namespace Table

def get? (table : Table) (key : String) : Option Value :=
  List.lookup key table

def keys (table : Table) : List String :=
  table.map Prod.fst

/-- Sets the value of a key: a known key keeps its place, a new one goes to the end. -/
def insert (table : Table) (key : String) (value : Value) : Table :=
  match table with
  | [] => [(key, value)]
  | (k, v) :: rest => if k = key then (k, value) :: rest else (k, v) :: insert rest key value

theorem get?_insert_self (table : Table) (key : String) (value : Value) :
    (table.insert key value).get? key = some value := by
  induction table with
  | nil => simp [insert, get?]
  | cons entry rest ih =>
    obtain ⟨k, v⟩ := entry
    simp only [insert]
    split <;> rename_i same
    · simp [get?, same]
    · have differs : (key == k) = false := by simpa using fun equal => same equal.symm
      simpa [get?, List.lookup_cons, differs] using ih

/-- Sets every entry of a second table in turn. -/
def overlay (table : Table) (entries : Table) : Table :=
  entries.foldl (fun result entry => result.insert entry.1 entry.2) table

/-- The defaults overlaid with the entries of a payload that are not null. -/
def merge (payload defaults : Table) : Table :=
  defaults.overlay (payload.filter fun entry => !entry.2.isNull)

end Table

end DeclOrder

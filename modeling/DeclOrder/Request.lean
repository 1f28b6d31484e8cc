import DeclOrder.Config
import DeclOrder.Document
import DeclOrder.IntegerText
import DeclOrder.Response

/-!
# Requests

An editor asks for the fix of a document by sending a value of unknown shape.  The value is either
a request or has problems, all of which are reported with their places.

Which values are taken for which, and in what order problems are found, is what the library that
validates requests documents for its lenient mode.
-/

namespace DeclOrder

inductive ProblemKind where
  | missing
  | notString
  | notList
  | notTable
  | notModel
  | unknownKey
  | notInteger
  | unreadableInteger
  | fractionalInteger
  | infiniteInteger
  | hugeInteger
  deriving DecidableEq, Repr

def ProblemKind.name : ProblemKind → String
  | .missing => "missing"
  | .notString => "string_type"
  | .notList => "list_type"
  | .notTable => "dict_type"
  | .notModel => "model_type"
  | .unknownKey => "extra_forbidden"
  | .notInteger => "int_type"
  | .unreadableInteger => "int_parsing"
  | .fractionalInteger => "int_from_float"
  | .infiniteInteger => "finite_number"
  | .hugeInteger => "int_parsing_size"

/-- A problem of a request, with the keys and positions that lead to it. -/
structure Problem where
  place : List String
  kind : ProblemKind
  deriving DecidableEq, Repr

def Problem.render (problem : Problem) : String :=
  String.intercalate "." problem.place ++ ": " ++ problem.kind.name

/-- A request for the fix of a document; without a text the file at the path is read. -/
structure Request where
  path : String
  text : Option Text
  sections : Option (List String)
  hooks : Option (List (String × Int))

abbrev Checked (α : Type) := Except (List Problem) α

namespace Checked

/-- A single problem at the place of the value itself. -/
def problem {α : Type} (kind : ProblemKind) : Checked α :=
  .error [⟨[], kind⟩]

/-- Puts a key or position in front of the places of all problems. -/
def under {α : Type} (name : String) (checked : Checked α) : Checked α :=
  checked.mapError fun problems =>
    problems.map fun problem => { problem with place := name :: problem.place }

/-- Two results together; the problems of both are kept. -/
def both {α β : Type} (first : Checked α) (second : Checked β) : Checked (α × β) :=
  match first, second with
  | .ok a, .ok b => .ok (a, b)
  | .ok _, .error problems => .error problems
  | .error problems, .ok _ => .error problems
  | .error problems, .error others => .error (problems ++ others)

def all {α : Type} : List (Checked α) → Checked (List α)
  | [] => .ok []
  | first :: rest => (both first (all rest)).map fun (a, others) => a :: others

end Checked

namespace Request

/-- Reads a rank by the documented rules of lenient validation: an integer, a boolean, a float
without fraction or a text that spells one. -/
def rank (value : Value) : Checked Int :=
  match value with
  | .int value => .ok value
  | .bool value => .ok (if value then 1 else 0)
  | .float none => .problem .infiniteInteger
  | .float (some decimal) =>
    match decimal.rounded with
    | .infinite => .problem .infiniteInteger
    | .fractional => .problem .fractionalInteger
    | .integer value => if value.natAbs < Nat.pow 2 63 then .ok value else .problem .hugeInteger
  | .string text =>
    match IntegerText.read text.toList with
    | .integer value => .ok value
    | .tooLong => .problem .hugeInteger
    | .unreadable => .problem .unreadableInteger
  | _ => .problem .notInteger

def string (value : Value) : Checked String :=
  match value with
  | .string text => .ok text
  | _ => .problem .notString

/-- Reads a value unless it is null. -/
def optional {α : Type} (read : Value → Checked α) (value : Value) : Checked (Option α) :=
  match value with
  | .null => .ok none
  | other => (read other).map some

def strings (value : Value) : Checked (List String) :=
  match value with
  | .list entries => Checked.all (entries.zipIdx.map fun (entry, index) =>
      Checked.under (toString index) (string entry))
  | _ => .problem .notList

def ranks (value : Value) : Checked (List (String × Int)) :=
  match value with
  | .table entries => Checked.all (entries.map fun (key, value) =>
      Checked.under key ((rank value).map fun rank => (key, rank)))
  | _ => .problem .notTable

/-- The first of the given keys that a table has. -/
def spelling? (table : Table) (keys : List String) : Option String :=
  keys.find? fun key => (table.get? key).isSome

def field {α : Type} (read : Value → Checked (Option α)) (table : Table) (key : Option String) :
    Checked (Option α) :=
  match key with
  | none => .ok none
  | some key => Checked.under key (read ((table.get? key).getD .null))

/-- Reads the options of a request.  As documented for fields with an alias, the alias is looked for
first, and of two spellings of one option the second is unknown. -/
def options (value : Value) :
    Checked (Option (List String) × Option (List (String × Int))) :=
  match value with
  | .table entries =>
    let sections := spelling? entries ["sectionOrder", "section_order"]
    let hooks := spelling? entries ["lifecycleOrder", "lifecycle_order"]
    let unknown := (Table.keys entries).filter fun key => some key ≠ sections && some key ≠ hooks
    let fields := Checked.both (field (optional strings) entries sections)
      (field (optional ranks) entries hooks)
    let refusals : List (Checked Unit) := unknown.map fun key =>
      Checked.under key (.problem .unknownKey)
    (Checked.both fields (Checked.all refusals)).map Prod.fst
  | _ => .problem .notModel

/-- Reads a request; a value that counts as absent is an empty request. -/
def ofValue (value : Value) : Checked Request :=
  match (if value.isVoid then .table [] else value) with
  | .table entries =>
    let path := match Table.get? entries "path" with
      | none => .problem .missing
      | some value => string value
    let text := match Table.get? entries "text" with
      | none => .ok none
      | some value => optional string value
    let chosen := match Table.get? entries "options" with
      | none => .ok (none, none)
      | some value => options value
    (Checked.both (Checked.under "path" path)
      (Checked.both (Checked.under "text" text) (Checked.under "options" chosen))).map
        fun (path, text, sections, hooks) =>
          { path, text := text.map String.toList, sections, hooks }
  | _ => .problem .notModel

def payload (request : Request) : Table :=
  [("section_order", match request.sections with
      | none => .null
      | some names => .list (names.map Value.string)),
    ("lifecycle_order", match request.hooks with
      | none => .null
      | some ranks => .table (ranks.map fun (hook, rank) => (hook, .int rank)))]

end Request

inductive Answer where
  | refused (problems : List Problem)
  | response (response : Response)

namespace Answer

def ofRequest (parser : Parser) (tree : FileTree) (options : Options) (request : Request) :
    Except Failure Answer := do
  let respond := fun text : Text =>
    Answer.response (Response.ofPlan request.path text
      (planDocument parser options request.path text))
  match request.text with
  | some text => return respond text
  | none =>
    match ← tree.readText (Path.ofString request.path) with
    | .error error =>
      return .response { path := request.path, errors := [failedToRead request.path error] }
    | .ok text => return respond text

def ofValue (parser : Parser) (tree : FileTree) (root : Option Path) (value : Value) :
    Except Failure Answer :=
  match Request.ofValue value with
  | .error problems => .ok (.refused problems)
  | .ok request =>
    match Config.resolve tree root none request.payload with
    | .error (.failed failure) => .error failure
    | .error (.refused error) => .ok (.response
        { path := request.path, errors := [error.message] })
    | .ok options => ofRequest parser tree options request

end Answer

end DeclOrder

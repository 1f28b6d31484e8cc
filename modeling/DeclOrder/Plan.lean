import DeclOrder.Block
import DeclOrder.Edit

/-!
# Plans

The plan for a script is a single edit that replaces its declarations by their sorted form, or
nothing when the two differ at most in blank lines.  Imports that stand between declarations are
moved in front of them.
-/

namespace DeclOrder

/-- A script whose declarations are to be ordered, inside the document that holds it. -/
structure Script where
  path : String
  source : Text
  statements : List Statement
  language : String := "ts"

/-- A place in a document where declarations are out of order. -/
structure Finding where
  path : String
  offset : Int
  position : Position
  message : String
  code : String := "declaration-order"
  deriving DecidableEq, Repr

/-- The line that reports a finding, with line and column counted from one. -/
def Finding.render (finding : Finding) : String :=
  finding.path ++ ":" ++ toString (finding.position.line + 1) ++ ":" ++
    toString (finding.position.column + 1) ++ ": " ++ finding.message ++ " [" ++ finding.code ++ "]"

/-- What is to be done about a document, and what is to be said about it. -/
structure Plan where
  edits : List Edit := []
  findings : List Finding := []
  warnings : List String := []
  errors : List String := []
  deriving DecidableEq, Repr

namespace Plan

/-- Whether a document needs no edit and could be read. -/
def isClean (plan : Plan) : Bool :=
  plan.edits.isEmpty && plan.errors.isEmpty

def outOfOrder : String :=
  "Declarations in <script setup> are out of order; run with --fix to reorder them."

end Plan

/-- From the start of the first declaration to the end of the last one, with their comments. -/
def declarationSpan? (statements : List Statement) : Option (Int × Int) :=
  match (declarations statements).head?, (declarations statements).getLast? with
  | some first, some last => some (first.extentStart, last.extentStop)
  | _, _ => none

/-- The imports that start inside the span of the declarations. -/
def interleavedImports (statements : List Statement) : List Statement :=
  match declarationSpan? statements with
  | none => []
  | some (start, stop) =>
    statements.filter fun statement =>
      statement.isImport && start ≤ statement.start && statement.start < stop

/-- The edit that puts a rendered text in the place of the declarations, unless both have the same
condensed form. -/
def decideEdit (path : String) (source : Text) (statements : List Statement) (rendered : Text) :
    Option Edit :=
  match declarationSpan? statements with
  | none => none
  | some (start, stop) =>
    if (source.slice start stop).condense = rendered.condense then none
    else some { path, start, stop, replacement := rendered }

namespace Script

/-- The sorted form of a script's declarations, behind the imports that stood between them. -/
def render (options : Options) (script : Script) : Text :=
  let sorted := renderBlocks script.source
    (blocks (sortedItems options script.source script.statements))
  match interleavedImports script.statements with
  | [] => sorted
  | imports =>
    Text.join "\n" (imports.map fun statement => statement.text script.source) ++
      "\n\n".toList ++ sorted

def edit? (options : Options) (script : Script) : Option Edit :=
  decideEdit script.path script.source script.statements (script.render options)

/-- The finding for a script: it points at the first declaration. -/
def finding? (script : Script) : Option Finding :=
  (declarations script.statements).head?.map fun first =>
    { path := script.path
      offset := first.start
      position := script.source.positionAt first.start
      message := Plan.outOfOrder }

def plan (options : Options) (script : Script) : Plan :=
  match script.edit? options with
  | none => {}
  | some edit => { edits := [edit], findings := script.finding?.toList }

/-- The document after the plan for its script has been carried out. -/
def fix (options : Options) (script : Script) : Text :=
  applyEdits script.source (script.plan options).edits

end Script

end DeclOrder

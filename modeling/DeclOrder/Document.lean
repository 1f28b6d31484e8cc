import DeclOrder.FileTree
import DeclOrder.Plan
import DeclOrder.SourceKind

/-!
# Documents

A document is read in up to three steps: its kind is told from its path, its script is taken out,
and the script is parsed.  Whatever comes of it, there is a plan, so that no document stands in the
way of another one.
-/

namespace DeclOrder

abbrev Parser := Grammar → Text → Node

inductive Reading where
  | unsupported
  | noScript
  | broken (error : SyntaxError)
  | script (script : Script)

namespace Extract

def text (extract : Extract) : Text := extract.body.text

def parse (parser : Parser) (path : String) (extract : Extract) : Except SyntaxError Script := do
  let statements ← extract.body.statements path (parser extract.grammar extract.text)
  return { path, source := extract.body.document, statements, language := extract.language }

end Extract

namespace Reading

def ofKind (parser : Parser) (kind : SourceKind) (path : String) (document : Text) : Reading :=
  match kind.extract? (Path.ofString path) document with
  | none => .noScript
  | some extract =>
    match extract.parse parser path with
    | .error error => .broken error
    | .ok found => .script found

def ofDocument (parser : Parser) (path : String) (document : Text) : Reading :=
  match SourceKind.ofPath? (Path.ofString path) with
  | none => .unsupported
  | some kind => ofKind parser kind path document

def plan (options : Options) (path : String) : Reading → Plan
  | .unsupported => { warnings := [path ++ ": unsupported file type"] }
  | .noScript => {}
  | .broken error => { errors := [error.message] }
  | .script found => found.plan options

end Reading

def planDocument (parser : Parser) (options : Options) (path : String) (document : Text) : Plan :=
  (Reading.ofDocument parser path document).plan options path

def failedToRead (path : String) (error : ReadError) : String :=
  "Failed to read " ++ path ++ ": " ++ error.message (Path.ofString path)

/-- The plan for the file at a path, which is not looked for unless its kind is supported. -/
def planFile (parser : Parser) (options : Options) (tree : FileTree) (path : String) :
    Except Failure Plan :=
  match SourceKind.ofPath? (Path.ofString path) with
  | none => .ok (Reading.unsupported.plan options path)
  | some kind => do
    match ← tree.readText (Path.ofString path) with
    | .error error => return { errors := [failedToRead path error] }
    | .ok document =>
      let path := (Path.ofString path).render
      return (Reading.ofKind parser kind path document).plan options path

end DeclOrder

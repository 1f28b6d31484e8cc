import DeclOrder.Request
import DeclOrder.Uri

/-!
# Sessions with an editor

An editor reports what happens to its documents and asks for fixes.  Diagnostics are published
whenever a document is opened, changed or saved; the fix of a document is offered as an action.
The configuration is read anew every time.

A session is what the handlers of the messages do; how messages travel, and how a client is told
which of them are handled, is left out.
-/

namespace DeclOrder

structure Range where
  start : Position
  stop : Position
  deriving DecidableEq, Repr

/-- A remark about a stretch of a document.  The severity counts from one, the gravest. -/
structure Diagnostic where
  range : Range
  message : String
  severity : Option Nat := none
  code : Option String := none
  source : Option String := none
  deriving DecidableEq, Repr

/-- What is sent to the editor of its own accord. -/
inductive Notice where
  | publish (uri : String) (diagnostics : List Diagnostic)
  | logError (message : String)

/-- The offer to edit a document, with the diagnostics that it would settle. -/
structure Action where
  uri : String
  range : Range
  newText : Text
  diagnostics : List Diagnostic

namespace Action

def title : String := "Reorder <script setup> declarations"

def kind : String := "quickfix"

end Action

namespace Diagnostic

def ownSource : String := "setup-order"

/-- From a finding to the end of its line. -/
def rangeOf (text : Text) (finding : Finding) : Range :=
  let start := Text.place text.length finding.offset
  let stop := start + ((text.drop start).takeWhile (· ≠ '\n')).length
  { start := finding.position, stop := text.positionAt stop }

def ofFinding (text : Text) (finding : Finding) : Diagnostic where
  range := rangeOf text finding
  message := finding.message
  severity := some 2
  code := some finding.code
  source := some ownSource

end Diagnostic

def diagnosticsOf (parser : Parser) (options : Options) (path : String) (text : Text) :
    List Diagnostic :=
  (planDocument parser options path text).findings.map (Diagnostic.ofFinding text)

def actionsOf (parser : Parser) (options : Options) (uri path : String) (text : Text)
    (diagnostics : List Diagnostic) : List Action :=
  (planDocument parser options path text).edits.map fun edit =>
    { uri
      range := { start := edit.startPosition text, stop := edit.stopPosition text }
      newText := edit.replacement
      diagnostics := diagnostics.filter fun item => item.source = some Diagnostic.ownSource }

/-- What a session knows: the files, the root of the workspace, and the texts of the documents. -/
structure Session where
  tree : FileTree
  root : Option Path
  documents : List (String × Text) := []

namespace Session

def document (session : Session) (uri : String) : Text :=
  (session.documents.lookup uri).getD []

def setDocument (session : Session) (uri : String) (text : Text) : Session :=
  { session with documents := (uri, text) :: session.documents }

/-- The options in force, or the message that they are refused with. -/
def options (session : Session) : Except Failure (Except String Options) :=
  match Config.resolve session.tree session.root none [] with
  | .error (.failed failure) => .error failure
  | .error (.refused error) => .ok (.error error.message)
  | .ok options => .ok (.ok options)

/-- What is sent when a document is opened, changed or saved. -/
def publish (parser : Parser) (session : Session) (uri : String) :
    Except Failure (List Notice) := do
  match ← session.options with
  | .error message => return [.logError message]
  | .ok options =>
    let path ← Uri.toPath uri.toList
    return [.publish uri (diagnosticsOf parser options path.render (session.document uri))]

/-- The actions for a document, and what is sent along with them. -/
def actions (parser : Parser) (session : Session) (uri : String)
    (diagnostics : List Diagnostic) : Except Failure (List Action × List Notice) := do
  match ← session.options with
  | .error message => return ([], [.logError message])
  | .ok options =>
    let path ← Uri.toPath uri.toList
    return (actionsOf parser options uri path.render (session.document uri) diagnostics, [])

def fix (parser : Parser) (session : Session) (payload : Value) : Except Failure Answer :=
  Answer.ofValue parser session.tree session.root payload

end Session

end DeclOrder

import DeclOrder.Json
import DeclOrder.Plan

/-!
# Responses

What is reported about one document: its plan, with the bounds of edits also given as positions in
an editor.
-/

namespace DeclOrder

/-- An edit with the positions of its bounds. -/
structure EditReport where
  path : String
  start : Position
  stop : Position
  startOffset : Int
  stopOffset : Int
  replacement : Text

structure Response where
  path : String := ""
  edits : List EditReport := []
  findings : List Finding := []
  warnings : List String := []
  errors : List String := []

namespace EditReport

def ofEdit (text : Text) (edit : Edit) : EditReport where
  path := edit.path
  start := edit.startPosition text
  stop := edit.stopPosition text
  startOffset := edit.start
  stopOffset := edit.stop
  replacement := edit.replacement

def positionJson (position : Position) : Json :=
  .list [.int position.line, .int position.column]

def toJson (edit : EditReport) : Json :=
  .object [("path", .string edit.path), ("start", positionJson edit.start),
    ("end", positionJson edit.stop), ("start_offset", .int edit.startOffset),
    ("end_offset", .int edit.stopOffset), ("replacement", .string (String.ofList edit.replacement))]

end EditReport

/-- A finding as it is written; every finding is a warning. -/
def Finding.toJson (finding : Finding) : Json :=
  .object [("path", .string finding.path), ("line", .int finding.position.line),
    ("col", .int finding.position.column), ("code", .string finding.code),
    ("message", .string finding.message), ("severity", .string "warning")]

namespace Response

def ofPlan (path : String) (text : Text) (plan : Plan) : Response where
  path := path
  edits := plan.edits.map (EditReport.ofEdit text)
  findings := plan.findings
  warnings := plan.warnings
  errors := plan.errors

def toJson (response : Response) : Json :=
  .object [("path", .string response.path), ("edits", .list (response.edits.map EditReport.toJson)),
    ("findings", .list (response.findings.map Finding.toJson)),
    ("warnings", .list (response.warnings.map Json.string)),
    ("errors", .list (response.errors.map Json.string))]

end Response

end DeclOrder

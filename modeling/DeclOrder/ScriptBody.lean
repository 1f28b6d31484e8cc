import DeclOrder.Statement
import DeclOrder.SyntaxTree
import DeclOrder.Text.Utf8

/-!
# Reading the body of a script

A script is parsed as a text of its own, while its statements count characters of the whole
document.  A comment right behind a statement, on the line where the statement ends, belongs to
that statement; any other comment belongs to the statement that follows it.
-/

namespace DeclOrder

/-- The place where a script could not be parsed; line and column count from zero. -/
structure SyntaxError where
  path : String
  line : Nat
  column : Int
  reason : String := "syntax error"
  deriving DecidableEq, Repr

/-- The line that reports a syntax error, with line and column counted from one. -/
def SyntaxError.message (error : SyntaxError) : String :=
  error.path ++ ":" ++ toString (error.line + 1) ++ ":" ++ toString (error.column + 1) ++ ": " ++
    error.reason

/-- The part of a document that is parsed as a script. -/
structure ScriptBody where
  document : Text
  start : Int
  stop : Int

/-- The statements of a script with the comments that belong to them, and the comments that no
statement follows. -/
structure Gathering where
  statements : List Statement := []
  remaining : List Comment := []

def Gathering.push (gathering : Gathering) (statement : Statement) : Gathering :=
  { gathering with statements := statement :: gathering.statements }

namespace ScriptBody

def text (body : ScriptBody) : Text :=
  body.document.slice body.start body.stop

/-- The offset in the document of a byte of the body. -/
def offsetOf (body : ScriptBody) (byte : Nat) : Int :=
  if body.text.isAscii then body.start + byte else body.start + body.text.charsIn byte

def textOf (body : ScriptBody) (node : Node) : Text :=
  body.document.slice (body.offsetOf node.start.byte) (body.offsetOf node.stop.byte)

def kindOf (node : Node) : StatementKind :=
  if node.kind = "import_statement" then .importing
  else if node.kind ∈ ["class_declaration", "abstract_class_declaration"] then .classes
  else if node.kind ∈ ["type_alias_declaration", "interface_declaration"] then .type
  else if node.kind ∈ ["function_declaration", "generator_function_declaration"] then .function
  else if node.kind ∈ ["lexical_declaration", "variable_declaration"] then .variables
  else if node.kind = "expression_statement" then .expression
  else .other

/-- The name that a call expression calls, if it is a plain identifier. -/
def calleeOf (body : ScriptBody) (node : Node) : Option String :=
  match node.childInField? "function" with
  | some callee =>
    if callee.kind = "identifier" then some (String.ofList (body.textOf callee)) else none
  | none => none

mutual

/-- The outline of the expression that a node stands for.  Casts may be nested to any depth: no
limit of a stack is modelled. -/
def outline (body : ScriptBody) : Node → Expression
  | ⟨kind, start, stop, isNamed, isMissing, hasError, field, children⟩ =>
    if kind ∈ ["arrow_function", "function_expression", "function", "generator_function"] then
      { kind := .function }
    else if kind = "call_expression" then
      { kind := .call
        callee := body.calleeOf
          ⟨kind, start, stop, isNamed, isMissing, hasError, field, children⟩ }
    else if kind = "as_expression" then
      { kind := .cast, inner := firstOutline body children }
    else if kind = "type_assertion" then
      { kind := .cast, inner := lastOutline body children }
    else { kind := .other }

def firstOutline (body : ScriptBody) : List Node → Option Expression
  | [] => none
  | node :: rest => if node.isNamed then some (outline body node) else firstOutline body rest

def lastOutline (body : ScriptBody) : List Node → Option Expression
  | [] => none
  | node :: rest =>
    match lastOutline body rest with
    | some found => some found
    | none => if node.isNamed then some (outline body node) else none

end

/-- The outline of the value that the first binding of a declaration is given. -/
def initializerOf (body : ScriptBody) (node : Node) : Option Expression := do
  let binding ← node.namedChildren.find? fun child => child.kind = "variable_declarator"
  let value ← binding.childInField? "value"
  return body.outline value

def commentOf (body : ScriptBody) (node : Node) : Comment where
  start := body.offsetOf node.start.byte
  stop := body.offsetOf node.stop.byte
  text := body.textOf node

def statementOf (body : ScriptBody) (leading : List Comment) (node : Node)
    (trailing : Option Comment) : Statement where
  kind := kindOf node
  start := body.offsetOf node.start.byte
  stop := body.offsetOf node.stop.byte
  initializer := if kindOf node = .variables then body.initializerOf node else none
  expression := if kindOf node = .expression then firstOutline body node.children else none
  leading := leading
  trailing := trailing

def isComment (node : Node) : Bool :=
  node.kind = "comment"

/-- Whether a node is a comment that starts on the line where a statement ends. -/
def trails (comment statement : Node) : Bool :=
  isComment comment && comment.start.row = statement.stop.row

/-- The statements and comments of a list of nodes, given the comments that wait for a statement. -/
def gather (body : ScriptBody) : List Comment → List Node → Gathering
  | waiting, [] => { remaining := waiting }
  | waiting, [node] =>
    if isComment node then { remaining := waiting ++ [body.commentOf node] }
    else { statements := [body.statementOf waiting node none] }
  | waiting, node :: next :: rest =>
    if isComment node then gather body (waiting ++ [body.commentOf node]) (next :: rest)
    else if trails next node then
      (gather body [] rest).push (body.statementOf waiting node (some (body.commentOf next)))
    else (gather body [] (next :: rest)).push (body.statementOf waiting node none)

/-- The error that a faulty tree of the body is reported as: it points at the first fault. -/
def syntaxError (body : ScriptBody) (path : String) (root : Node) : SyntaxError :=
  let fault := (root.firstFault?.getD root).start
  let before := body.document.upTo body.start
  let indent := body.start - (before.length - before.lastLine.length : Nat)
  { path := if path = "" then "<script>" else path
    line := fault.row + before.lineFeeds
    column := if fault.row = 0 then fault.column + indent else fault.column }

def statements (body : ScriptBody) (path : String) (root : Node) :
    Except SyntaxError (List Statement) :=
  if root.hasError then .error (body.syntaxError path root)
  else .ok (body.gather [] root.namedChildren).statements

end ScriptBody

end DeclOrder

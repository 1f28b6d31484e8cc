import DeclOrder.Text.Basic

/-!
# Statements

The top-level statements of a setup script, as far as their order depends on them: the kind of a
statement, the outline of the expression it evaluates, and where it and its comments stand in the
document.
-/

namespace DeclOrder

inductive ExpressionKind where
  | call
  | function
  | cast
  | other
  deriving DecidableEq, Repr

/-- The outline of an expression: for a call of a plain identifier the name that is called, for a
type cast the expression under it. -/
structure Expression where
  kind : ExpressionKind
  callee : Option String := none
  inner : Option Expression := none
  deriving Repr

namespace Expression

/-- The expression under all type casts, if there is one. -/
def uncast : Expression → Option Expression
  | ⟨.cast, _, none⟩ => none
  | ⟨.cast, _, some inner⟩ => inner.uncast
  | ⟨.call, callee, inner⟩ => some ⟨.call, callee, inner⟩
  | ⟨.function, callee, inner⟩ => some ⟨.function, callee, inner⟩
  | ⟨.other, callee, inner⟩ => some ⟨.other, callee, inner⟩

def calleeOfCall? (expression : Expression) : Option String :=
  if expression.kind = .call then expression.callee else none

end Expression

structure Comment where
  start : Int
  stop : Int
  text : Text
  deriving DecidableEq, Repr

inductive StatementKind where
  | importing
  | variables
  | function
  | classes
  | type
  | expression
  | other
  deriving DecidableEq, Repr

/-- A top-level statement.  Its place counts characters of the whole document; the initializer is
that of its first binding. -/
structure Statement where
  kind : StatementKind
  start : Int
  stop : Int
  initializer : Option Expression := none
  expression : Option Expression := none
  leading : List Comment := []
  trailing : Option Comment := none
  deriving Repr

namespace Statement

/-- Where a statement starts together with the comments before it. -/
def extentStart (statement : Statement) : Int :=
  match statement.leading with
  | [] => statement.start
  | first :: _ => first.start

/-- Where a statement stops together with the comment behind it. -/
def extentStop (statement : Statement) : Int :=
  match statement.trailing with
  | none => statement.stop
  | some comment => comment.stop

def isImport (statement : Statement) : Bool :=
  statement.kind = .importing

/-- The text of a statement: the comments before it, a line each, then the statement with the
comment behind it. -/
def text (statement : Statement) (source : Text) : Text :=
  Text.join "\n" (statement.leading.map Comment.text ++
    [source.slice statement.start statement.extentStop])

end Statement

/-- The statements that take part in the order: all but the imports. -/
def declarations (statements : List Statement) : List Statement :=
  statements.filter fun statement => !statement.isImport

end DeclOrder

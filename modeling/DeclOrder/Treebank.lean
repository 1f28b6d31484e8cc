import DeclOrder.Document
import DeclOrder.ValueReader

/-!
# Treebanks

Scripts are parsed by another program, which hands over the texts with their syntax trees.  A
treebank holds them and stands in for the parser.
-/

namespace DeclOrder

/-- A text with the syntax tree that a grammar gave it. -/
structure ParsedText where
  grammar : String
  text : Text
  root : Node

abbrev Treebank := List ParsedText

namespace ParsedText

/-- The parsed text that a value with the members `grammar`, `text` and `root` describes. -/
def ofValue? : Value → Option ParsedText
  | .table members =>
    match Table.get? members "grammar", Table.get? members "text", Table.get? members "root" with
    | some (.string grammar), some (.string text), some root =>
      some { grammar, text := text.toList, root := Node.ofValue root }
    | _, _, _ => none
  | _ => none

def isOf (parsed : ParsedText) (grammar : Grammar) (text : Text) : Bool :=
  parsed.grammar = grammar.name && parsed.text = text

end ParsedText

/-- The tree of a text that no parser has seen: a fault at its start. -/
def Node.unparsed : Node where
  kind := "ERROR"
  start := ⟨0, 0, 0⟩
  stop := ⟨0, 0, 0⟩
  hasError := true

namespace Treebank

def parser (treebank : Treebank) : Parser := fun grammar text =>
  match treebank.find? fun parsed => parsed.isOf grammar text with
  | some parsed => parsed.root
  | none => Node.unparsed

end Treebank

end DeclOrder

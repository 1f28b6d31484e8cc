import DeclOrder.Text.Position

/-!
# Edits

An edit replaces the characters between two bounds of a document.  Several edits are applied from
the last to the first, so that the bounds of those still to come keep their meaning.
-/

namespace DeclOrder

/-- A replacement of a stretch of the document at a path. -/
structure Edit where
  path : String
  start : Int
  stop : Int
  replacement : Text
  deriving DecidableEq, Repr

namespace Edit

def startPosition (edit : Edit) (text : Text) : Position := text.positionAt edit.start

def stopPosition (edit : Edit) (text : Text) : Position := text.positionAt edit.stop

def apply (text : Text) (edit : Edit) : Text :=
  text.upTo edit.start ++ edit.replacement ++ text.onward edit.stop

end Edit

/-- The text after all edits, the one that starts last being applied first; edits with the same
start are applied in the order of the list. -/
def applyEdits (text : Text) (edits : List Edit) : Text :=
  (edits.mergeSort fun a b => a.start ≥ b.start).foldl Edit.apply text

end DeclOrder

import DeclOrder.Text.Basic

/-!
# Positions in an editor

An editor addresses a place by its line and by the number of UTF-16 code units before it on that
line, both counted from zero.
-/

namespace DeclOrder

/-- A line and a column, both counted from zero. -/
structure Position where
  line : Nat
  column : Nat
  deriving DecidableEq, Repr

/-- The number of UTF-16 code units of a character. -/
def unitCount (c : Char) : Nat :=
  if c.toNat < 0x10000 then 1 else 2

namespace Text

def units (text : Text) : Nat :=
  text.foldr (fun c count => unitCount c + count) 0

/-- The position reached after reading a text. -/
def endPosition (text : Text) : Position where
  line := text.lineFeeds
  column := text.lastLine.units

def positionAt (text : Text) (bound : Int) : Position :=
  (text.upTo bound).endPosition

end Text

end DeclOrder

import DeclOrder.Text.Basic
import DeclOrder.Text.CaseRanges

/-!
# Small letters

Every capital letter has a small letter of its own, with two exceptions: the dotted capital I
becomes an i with a combining dot, and the capital sigma becomes a final sigma at the end of a
word.  A sigma ends a word when a letter stands before it and none behind it, characters without
influence on case being skipped.
-/

namespace DeclOrder

/-- The small letter of a capital letter; any other character stays. -/
def smallLetter (c : Char) : Char :=
  match CodeRanges.smallLetters.find? fun (first, last, step, _) =>
      first ≤ c.toNat && c.toNat ≤ last && (c.toNat - first) % step == 0 with
  | some (_, _, _, shift) => Char.ofNat (c.toNat + shift).toNat
  | none => c

namespace Text

/-- Whether the first character that has influence on case is a letter with case. -/
def startsCased (text : Text) : Bool :=
  match text.dropWhile CodeRanges.caseIgnorable.has with
  | [] => false
  | c :: _ => CodeRanges.cased.has c

/-- The small form of a character between the reversed text before it and the text behind it. -/
def lowerBetween (before : Text) (c : Char) (behind : Text) : Text :=
  if c = '\u0130' then ['i', '\u0307']
  else if c = '\u03A3' then
    if startsCased before && !startsCased behind then ['\u03C2'] else ['\u03C3']
  else [smallLetter c]

/-- The small form of a text that stands behind a reversed text. -/
def lowerAfter (before : Text) : Text → Text
  | [] => []
  | c :: behind => lowerBetween before c behind ++ lowerAfter (c :: before) behind

def lower (text : Text) : Text :=
  lowerAfter [] text

end Text

def lowerName (name : String) : String :=
  String.ofList (Text.lower name.toList)

end DeclOrder

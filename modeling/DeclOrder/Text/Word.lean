import DeclOrder.Text.Basic
import DeclOrder.Text.WordRanges

/-!
# Words without case

Tags and attribute names are compared without regard to case.  The long s counts as an s, and the
dotted capital I and the dotless small i count as an i.
-/

namespace DeclOrder

/-- Whether a character is a letter, a digit, a numeral or the underscore. -/
def isWord (c : Char) : Bool :=
  CodeRanges.word.has c

def countsAs (letter c : Char) : Bool :=
  c.toLower = letter || (letter = 's' && c = '\u017F') ||
    (letter = 'i' && (c = '\u0130' || c = '\u0131'))

namespace Text

/-- What follows a word at the start of a text, compared without regard to case. -/
def afterWord? : Text → Text → Option Text
  | [], text => some text
  | _ :: _, [] => none
  | letter :: word, c :: text => if countsAs letter c then afterWord? word text else none

theorem length_of_afterWord? {word text rest : Text} (found : afterWord? word text = some rest) :
    word.length + rest.length = text.length := by
  fun_induction afterWord? word text with
  | case1 text => simp_all
  | case2 => simp at found
  | case3 letter word c text same ih =>
    have := ih found
    simp only [List.length_cons]
    omega
  | case4 => simp at found

/-- What follows each character of a text that satisfies a condition. -/
def behindEach (p : Char → Bool) : Text → List Text
  | [] => []
  | c :: rest => if p c then rest :: behindEach p rest else behindEach p rest

end Text

end DeclOrder

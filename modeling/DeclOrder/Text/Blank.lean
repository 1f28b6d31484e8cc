import DeclOrder.Text.Basic
import DeclOrder.Text.CodeRanges

/-!
# Blank characters

The characters that separate words and lines: the white space of Unicode together with the four
information separators.  The byte order mark and the zero width space are not blank.
-/

namespace DeclOrder

def CodeRanges.blank : CodeRanges :=
  [(0x09, 0x0D), (0x1C, 0x20), (0x85, 0x85), (0xA0, 0xA0), (0x1680, 0x1680), (0x2000, 0x200A),
    (0x2028, 0x2029), (0x202F, 0x202F), (0x205F, 0x205F), (0x3000, 0x3000)]

def isBlank (c : Char) : Bool :=
  CodeRanges.blank.has c

namespace Text

def trimStart (text : Text) : Text :=
  text.dropWhile isBlank

def trimEnd (text : Text) : Text :=
  (text.reverse.dropWhile isBlank).reverse

def trim (text : Text) : Text :=
  text.trimStart.trimEnd

end Text

end DeclOrder

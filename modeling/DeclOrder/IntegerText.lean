import DeclOrder.Numeral
import DeclOrder.Text.Blank

/-!
# Integers in texts

A text can stand for an integer.  In plain form it consists of digits behind a minus sign or none,
without a zero in front of other digits.  Any other text is brought into plain form first: it loses
the white space around it, a plus sign, the zeros in front, a fraction of zeros, and the single
underscores between its characters.

These are the rules by which the library that validates requests reads an integer from a text where
it is lenient.  They follow its documentation and its answers, its text being no part of the
program.
-/

namespace DeclOrder

/-- What a text says about an integer. -/
inductive SpelledInteger where
  | integer (value : Int)
  | tooLong
  | unreadable
  deriving DecidableEq, Repr

namespace IntegerText

def longest : Nat := 4300

def minus : Text → Int × Text
  | '-' :: rest => (-1, rest)
  | rest => (1, rest)

def number (digits : Text) : Nat :=
  Numeral.number 10 (digits.map fun c => c.toNat - '0'.toNat)

/-- Reads a plain form.  The length counts up to the end of the digits, whatever follows them. -/
def plain (text : Text) : SpelledInteger :=
  let (sign, unsigned) := minus text
  let digits := unsigned.takeWhile Char.isDigit
  if digits.head? = some '0' then if unsigned = ['0'] then .integer 0 else .unreadable
  else if longest < text.length - unsigned.length + digits.length then .tooLong
  else if digits = [] ∨ digits ≠ unsigned then .unreadable
  else .integer (sign * number digits)

/-- Whether a character is white space; the information separators are not. -/
def isSpace (c : Char) : Bool :=
  isBlank c && !(0x1C ≤ c.toNat && c.toNat ≤ 0x1F)

def trim (text : Text) : Text :=
  ((text.dropWhile isSpace).reverse.dropWhile isSpace).reverse

/-- What follows zeros in front and the underscores between them, given the last character that was
dropped.  That character stays when nothing but a fraction follows it. -/
def behindZeros? (last : Char) : Text → Option Text
  | [] => some [last]
  | c :: rest =>
    if c = '0' || c = '_' then behindZeros? c rest
    else if c.isDigit || c = '-' then some (c :: rest)
    else if c = '.' then some (last :: c :: rest)
    else none

def dropZeros? : Text → Option Text
  | [] => none
  | c :: rest =>
    if c = '0' then behindZeros? c rest else if c.isDigit then some (c :: rest) else none

/-- A text without its fraction, if that has digits and all of them are zeros. -/
def dropFraction (text : Text) : Text :=
  let zeros := (text.dropWhile (· ≠ '.')).drop 1
  if zeros ≠ [] ∧ zeros.all (· = '0') then text.takeWhile (· ≠ '.') else text

/-- A text without its underscores, provided that each of them stands alone inside the text. -/
def dropUnderscores (text : Text) : Text :=
  if (Text.fields '_' text).all (· ≠ []) then (Text.fields '_' text).flatten else text

def plainForm? (text : Text) : Option Text :=
  let (sign, unsigned) := match trim text with
    | '-' :: rest => (['-'], rest)
    | '+' :: rest => ([], rest)
    | rest => ([], rest)
  (dropZeros? unsigned).map fun rest => sign ++ dropUnderscores (dropFraction rest)

/-- Reads an integer as the validation library does.  Only a text that is too long as it stands is
called so. -/
def read (text : Text) : SpelledInteger :=
  match plain text with
  | .unreadable =>
    match (plainForm? text).map plain with
    | some (.integer value) => .integer value
    | _ => .unreadable
  | found => found

end IntegerText

end DeclOrder

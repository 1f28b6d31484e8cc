import DeclOrder.Numeral

/-!
# Host addresses

A host can be named by a numeric address.  An address of version four has four bytes in decimal; one
of version six has eight groups of hexadecimal digits, a stretch of zero groups being left out
between two colons, and the last two groups being written in the manner of version four at will.
-/

namespace DeclOrder.HostAddress

/-- Whether a field is a number up to 255 without a zero in front. -/
def isByte (field : Text) : Bool :=
  field ≠ [] && field.all Char.isDigit && field.length ≤ 3 &&
    (field = ['0'] || field.head? ≠ some '0') &&
    Numeral.number 10 (field.map fun c => c.toNat - '0'.toNat) ≤ 255

def isVersionFour (text : Text) : Bool :=
  (Text.fields '.' text).length = 4 && (Text.fields '.' text).all isByte

/-- Whether a field is a group of one to four hexadecimal digits. -/
def isGroup (field : Text) : Bool :=
  field ≠ [] && field.length ≤ 4 && field.all fun c => (Numeral.digit? 16 c).isSome

/-- The groups on one side of a gap; at either end of an address the gap leaves an empty field. -/
def side (fields : List Text) : List Text :=
  if fields = [[]] then [] else fields

/-- Whether fields between colons make up an address of version six. -/
def areGroups : List Text → Bool
  | [] => false
  | first :: rest =>
    match rest.dropWhile (· ≠ []) with
    | [] => (first :: rest).length = 8 && (first :: rest).all isGroup
    | [_] => false
    | _ :: behind =>
      let groups := side (first :: rest.takeWhile (· ≠ [])) ++ side behind
      groups.length ≤ 7 && groups.all isGroup

def isUnzoned (text : Text) : Bool :=
  let fields := Text.fields ':' text
  let last := fields.getLast?.getD []
  if '.' ∈ last then isVersionFour last && areGroups (fields.dropLast ++ [['0'], ['0']])
  else areGroups fields

/-- Whether a text is an address of version six, perhaps with a zone behind a percent sign. -/
def isVersionSix (text : Text) : Bool :=
  match text.dropWhile (· ≠ '%') with
  | [] => isUnzoned text
  | _ :: zone => zone ≠ [] && '%' ∉ zone && isUnzoned (text.takeWhile (· ≠ '%'))

/-- Whether a text is an address of a version to come: its number in hexadecimal behind a `v`, a dot,
and anything else. -/
def isFuture (text : Text) : Bool :=
  match text with
  | 'v' :: rest =>
    let isHex := fun c => (Numeral.digit? 16 c).isSome
    rest.takeWhile isHex ≠ [] && (match rest.dropWhile isHex with
      | '.' :: _ :: _ => true
      | _ => false)
  | _ => false

def isBracketed (text : Text) : Bool :=
  if text.head? = some 'v' then isFuture text else isVersionSix text

end DeclOrder.HostAddress

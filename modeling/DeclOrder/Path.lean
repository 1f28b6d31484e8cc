import DeclOrder.Text.Lowercase

/-!
# Paths

A path is a list of names below an anchor.  Repeated slashes and single dots carry no meaning and
vanish when a path is read; exactly two slashes at the start are an anchor of their own.
-/

namespace DeclOrder

/-- What the names of a path are below. -/
inductive Anchor where
  | here
  | root
  | doubleRoot
  deriving DecidableEq, Repr

def Anchor.text : Anchor → String
  | .here => ""
  | .root => "/"
  | .doubleRoot => "//"

/-- A path in normal form. -/
structure Path where
  anchor : Anchor := .here
  names : List String
  deriving DecidableEq, Repr

namespace Path

def anchorOf (text : Text) : Anchor :=
  match (text.takeWhile (· = '/')).length with
  | 0 => .here
  | 2 => .doubleRoot
  | _ => .root

def ofText (text : Text) : Path where
  anchor := anchorOf text
  names := ((text.fields '/').filter fun name => name ≠ [] && name ≠ ['.']).map String.ofList

def ofString (text : String) : Path :=
  ofText text.toList

/-- Writes a path; the path without names is a single dot. -/
def render (path : Path) : String :=
  if path.anchor = .here ∧ path.names = [] then "."
  else path.anchor.text ++ String.intercalate "/" path.names

/-- Whether a path has a null character, which no file can be named with. -/
def hasNull (path : Path) : Bool :=
  path.names.any fun name => name.toList.contains '\x00'

def child (path : Path) (names : List String) : Path :=
  { path with names := path.names ++ names }

/-- The names by which paths are compared, the anchor being the first of them. -/
def sortKey (path : Path) : List String :=
  if path.anchor = .here then path.names else path.anchor.text :: path.names

def precedes (a b : Path) : Bool :=
  !b.sortKey.lex a.sortKey fun first second => first < second

/-- Paths in order, each of them once. -/
def sorted (paths : List Path) : List Path :=
  paths.eraseDups.mergeSort precedes

/-- The last name of a path, or nothing when it has no names. -/
def lastName (path : Path) : String :=
  path.names.getLast?.getD ""

/-- The part of a name from its last dot on, unless that dot is its first or last character. -/
def extensionOf (name : Text) : Text :=
  let ending := (name.reverse.takeWhile (· ≠ '.')).reverse
  if ending ≠ [] ∧ ending.length + 1 < name.length then '.' :: ending else []

def extension (path : Path) : String :=
  String.ofList (extensionOf path.lastName.toList)

end Path

end DeclOrder

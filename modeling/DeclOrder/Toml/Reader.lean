import DeclOrder.Toml.Draft
import DeclOrder.Toml.Scalar

/-!
# Configuration files

The reader of the TOML language, version 1.0.  A file with any fault is refused as a whole, for the
first fault that it has.  Lines end with line feeds.
-/

namespace DeclOrder.Toml

def skipComment? (text : Text) : Option Text :=
  match text with
  | '#' :: rest =>
    if (rest.takeWhile (· ≠ '\n')).any isControl then none else some (rest.dropWhile (· ≠ '\n'))
  | _ => some text

/-- What follows the comments and empty lines at the start of a text. -/
def skipFiller? (fuel : Nat) (text : Text) : Option Text :=
  match fuel, skipLines text with
  | fuel + 1, '#' :: rest => do skipFiller? fuel (← skipComment? ('#' :: rest))
  | _, other => some other

def isBare (c : Char) : Bool :=
  c.isAlphanum || c = '-' || c = '_'

def keyName? : Text → Option (String × Text)
  | [] => none
  | c :: rest =>
    if isBare c then
      some (String.ofList ((c :: rest).takeWhile isBare), (c :: rest).dropWhile isBare)
    else (string? (c :: rest)).map fun (chars, behind) => (String.ofList chars, behind)

/-- Reads a key, its names separated by dots, and skips the blanks behind it. -/
def key? (fuel : Nat) (text : Text) : Option (Key × Text) := do
  let (name, rest) ← keyName? text
  match fuel, skipBlanks rest with
  | fuel + 1, '.' :: behind =>
    let (names, behind) ← key? fuel (skipBlanks behind)
    return (name :: names, behind)
  | _, behind => return ([name], behind)

def keyEquals? (text : Text) : Option (Key × Text) := do
  let (key, rest) ← key? text.length text
  return (key, skipBlanks (← Text.after? ['='] rest))

/-- Adds an entry to an inline table, given the keys that are closed in it. -/
def addInline (table : Table) (closed : List Key) (key : Key) (value : Value) : Option Table := do
  let name ← key.getLast?
  if isClosed closed key then none
  else updateAt false (setNew name value) table key.dropLast

/-- The depth that an array takes up: one call of a recursive reader for it, one for its entry. -/
def arrayDepth : Nat := 2

/-- The depth that an inline table takes up: one call for it, one for its entry, one for the
value. -/
def inlineDepth : Nat := 3

/-- The depth that the values of a file may take up.  It stands for the calls that a stack of a
thousand has left where the first value of a configuration is read: a number that was measured for
one caller, smaller where the caller itself is deeper, and no part of the language. -/
def deepest : Nat := 976

mutual

/-- Reads a value, given the depth that is left for it. -/
def value (fuel depth : Nat) (text : Text) : Except Fault (Value × Text) :=
  match fuel, text with
  | fuel + 1, '[' :: rest =>
    if depth < arrayDepth then .error (.failed .deepNesting)
    else do
      let rest ← expect (skipFiller? rest.length rest)
      let (found, behind) ← entries fuel (depth - arrayDepth) rest
      return (.list found, behind)
  | fuel + 1, '\x7b' :: rest =>
    if depth < inlineDepth then .error (.failed .deepNesting)
    else
      match skipBlanks rest with
      | '\x7d' :: behind => .ok (.table [], behind)
      | other => do
        let (found, behind) ← inline fuel (depth - inlineDepth) [] [] other
        return (.table found, behind)
  | _, text =>
    match text.head? with
    | none => .error .malformed
    | some c =>
      if c = '"' || c = '\x27' then do
        let (chars, behind) ← expect (anyString? text)
        return (.string (String.ofList chars), behind)
      else plainScalar text

def entries (fuel depth : Nat) (text : Text) : Except Fault (List Value × Text) :=
  match fuel, text with
  | _, ']' :: behind => .ok ([], behind)
  | fuel + 1, text => do
    let (first, rest) ← value fuel depth text
    match ← expect (skipFiller? rest.length rest) with
    | ']' :: behind => return ([first], behind)
    | ',' :: rest =>
      let (others, behind) ← entries fuel depth (← expect (skipFiller? rest.length rest))
      return (first :: others, behind)
    | _ => .error .malformed
  | 0, _ => .error .malformed

def inline (fuel depth : Nat) (table : Table) (closed : List Key) (text : Text) :
    Except Fault (Table × Text) :=
  match fuel with
  | fuel + 1 => do
    let (key, rest) ← expect (keyEquals? text)
    let (found, rest) ← value fuel depth rest
    let table ← expect (addInline table closed key found)
    match skipBlanks rest with
    | '\x7d' :: behind => return (table, behind)
    | ',' :: rest =>
      inline fuel depth table (if isComplete found then closed ++ [key] else closed)
        (skipBlanks rest)
    | _ => .error .malformed
  | 0 => .error .malformed

end

/-- What follows the end of a line, with the blanks and the comment before it. -/
def afterLine? (text : Text) : Option Text := do
  match ← skipComment? (skipBlanks text) with
  | [] => return []
  | '\n' :: rest => return rest
  | _ => none

/-- Opens the table or the array of tables that the header at the start of a text names. -/
def header? (draft : Draft) (text : Text) : Option (Draft × Text) :=
  match text with
  | '[' :: '[' :: rest => do
    let (key, rest) ← key? rest.length (skipBlanks rest)
    return (← draft.settle.openNext key, ← Text.after? [']', ']'] rest)
  | _ => do
    let (key, rest) ← key? text.length (skipBlanks (text.drop 1))
    return (← draft.settle.openTable key, ← Text.after? [']'] rest)

def statement (draft : Draft) (text : Text) : Except Fault (Draft × Text) :=
  match text with
  | '[' :: rest => expect (header? draft ('[' :: rest))
  | '#' :: rest => .ok (draft, '#' :: rest)
  | '\n' :: rest => .ok (draft, '\n' :: rest)
  | text => do
    let (key, rest) ← expect (keyEquals? text)
    let (found, rest) ← value (2 * text.length) deepest rest
    return (← expect (draft.set key found), rest)

def statements (fuel : Nat) (draft : Draft) (text : Text) : Except Fault Draft :=
  match fuel, skipBlanks text with
  | _, [] => .ok draft
  | fuel + 1, text => do
    let (draft, rest) ← statement draft text
    statements fuel draft (← expect (afterLine? rest))
  | 0, _ => .error .malformed

def read (text : Text) : Except Fault Table :=
  Draft.values <$> statements (text.length + 1) {} text

end DeclOrder.Toml

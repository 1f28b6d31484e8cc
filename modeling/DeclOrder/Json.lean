import DeclOrder.Text.Quoted

/-!
# Reports in JSON

A report is written over several lines with two spaces of indentation, the members of an object in
the order of their names, and every character outside ASCII as an escape of UTF-16 code units.
-/

namespace DeclOrder

inductive Json where
  | null
  | bool (value : Bool)
  | int (value : Int)
  | string (value : String)
  | list (entries : List Json)
  | object (members : List (String × Json))

namespace Json

/-- The escape of a UTF-16 code unit. -/
def escapeUnit (unit : Nat) : Text :=
  '\\' :: 'u' :: Quoted.hex 4 unit

def escape (c : Char) : Text :=
  if c = '"' then ['\\', '"']
  else if c = '\\' then ['\\', '\\']
  else if c = '\n' then ['\\', 'n']
  else if c = '\r' then ['\\', 'r']
  else if c = '\t' then ['\\', 't']
  else if c = '\x08' then ['\\', 'b']
  else if c = '\x0C' then ['\\', 'f']
  else if 0x20 ≤ c.toNat ∧ c.toNat < 0x7F then [c]
  else if c.toNat < 0x10000 then escapeUnit c.toNat
  else
    escapeUnit (0xD800 + (c.toNat - 0x10000) / 0x400) ++
      escapeUnit (0xDC00 + (c.toNat - 0x10000) % 0x400)

def quote (value : String) : String :=
  String.ofList ('"' :: value.toList.flatMap escape ++ ['"'])

def newLine (depth : Nat) : String :=
  "\n" ++ String.ofList (List.replicate (2 * depth) ' ')

/-- Entries between brackets, a line each. -/
def enclose (left right : String) (depth : Nat) (entries : List String) : String :=
  if entries.isEmpty then left ++ right
  else left ++ newLine (depth + 1) ++
    String.intercalate ("," ++ newLine (depth + 1)) entries ++ newLine depth ++ right

mutual

def renderAt (depth : Nat) : Json → String
  | .null => "null"
  | .bool value => if value then "true" else "false"
  | .int value => toString value
  | .string value => quote value
  | .list entries => enclose "[" "]" depth (renderEntries (depth + 1) entries)
  | .object members =>
    enclose "\x7b" "\x7d" depth
      (((renderMembers (depth + 1) members).mergeSort fun a b => a.1 ≤ b.1).map fun (name, text) =>
        quote name ++ ": " ++ text)

def renderEntries (depth : Nat) : List Json → List String
  | [] => []
  | entry :: rest => renderAt depth entry :: renderEntries depth rest

def renderMembers (depth : Nat) : List (String × Json) → List (String × String)
  | [] => []
  | (name, value) :: rest => (name, renderAt depth value) :: renderMembers depth rest

end

def render (json : Json) : String :=
  json.renderAt 0

end Json

end DeclOrder

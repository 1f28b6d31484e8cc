import DeclOrder.Numeral
import DeclOrder.SyntaxTree

/-!
# Values written in JSON

Parsers hand over their syntax trees in JSON.  A number with a fraction or an exponent is a float,
any other number an integer of whatever size; infinities and what is no number have names of their
own.
-/

namespace DeclOrder

namespace ValueReader

def skipSpace (text : Text) : Text :=
  text.dropWhile fun c => c = ' ' || c = '\n' || c = '\t' || c = '\r'

def unit? (a b c d : Char) : Option Nat :=
  ([a, b, c, d].mapM (Numeral.digit? 16)).map (Numeral.number 16)

/-- The rest of a string as code points and single halves of pairs, and what follows the string. -/
def codes? : Text → Option (List Nat × Text)
  | [] => none
  | '"' :: rest => some ([], rest)
  | '\\' :: 'u' :: a :: b :: c :: d :: rest =>
    match unit? a b c d with
    | some code => (codes? rest).map fun (codes, behind) => (code :: codes, behind)
    | none => none
  | '\\' :: c :: rest =>
    match [('"', '"'), ('\\', '\\'), ('/', '/'), ('b', '\x08'), ('f', '\x0C'), ('n', '\n'),
      ('r', '\r'), ('t', '\t')].lookup c with
    | some char => (codes? rest).map fun (codes, behind) => (char.toNat :: codes, behind)
    | none => none
  | c :: rest => (codes? rest).map fun (codes, behind) => (c.toNat :: codes, behind)

def joinPairs : List Nat → Text
  | [] => []
  | [code] => [Char.ofNat code]
  | high :: low :: rest =>
    if 0xD800 ≤ high && high < 0xDC00 && 0xDC00 ≤ low && low < 0xE000 then
      Char.ofNat (0x10000 + (high - 0xD800) * 0x400 + (low - 0xDC00)) :: joinPairs rest
    else Char.ofNat high :: joinPairs (low :: rest)

def string? (text : Text) : Option (String × Text) :=
  (codes? text).map fun (codes, behind) => (String.ofList (joinPairs codes), behind)

def word? (text : Text) : Option (Value × Text) :=
  match [("null", Value.null), ("true", .bool true), ("false", .bool false), ("NaN", .float none),
      ("Infinity", .float none), ("-Infinity", .float none)].findSome?
      fun (word, value) => (Text.after? word.toList text).map fun rest => (value, rest) with
  | some found => some found
  | none => Numeral.decimal? text

mutual

def value? (fuel : Nat) (text : Text) : Option (Value × Text) :=
  match fuel, skipSpace text with
  | fuel + 1, '[' :: rest =>
    match skipSpace rest with
    | ']' :: behind => some (.list [], behind)
    | other => (entries? fuel other).map fun (entries, behind) => (.list entries, behind)
  | fuel + 1, '\x7b' :: rest =>
    match skipSpace rest with
    | '\x7d' :: behind => some (.table [], behind)
    | other => (members? fuel other).map fun (members, behind) => (.table members, behind)
  | _, '"' :: rest => (string? rest).map fun (text, behind) => (.string text, behind)
  | _, other => word? other

def entries? (fuel : Nat) (text : Text) : Option (List Value × Text) :=
  match fuel with
  | 0 => none
  | fuel + 1 => do
    let (value, rest) ← value? fuel text
    match skipSpace rest with
    | ']' :: behind => return ([value], behind)
    | ',' :: rest =>
      let (values, behind) ← entries? fuel rest
      return (value :: values, behind)
    | _ => none

def members? (fuel : Nat) (text : Text) : Option (Table × Text) :=
  match fuel with
  | 0 => none
  | fuel + 1 => do
    let (name, rest) ← string? (← Text.after? ['"'] (skipSpace text))
    let (value, rest) ← value? fuel (← Text.after? [':'] (skipSpace rest))
    match skipSpace rest with
    | '\x7d' :: behind => return ([(name, value)], behind)
    | ',' :: rest =>
      let (members, behind) ← members? fuel rest
      return ((name, value) :: members, behind)
    | _ => none

end

end ValueReader

def Value.ofJson? (text : Text) : Option Value :=
  match ValueReader.value? (text.length + 1) text with
  | some (value, rest) => if (ValueReader.skipSpace rest).isEmpty then some value else none
  | none => none

namespace Node

def isSet (table : Table) (key : String) : Bool :=
  match table.get? key with
  | some (.bool true) => true
  | _ => false

def pointOf : Option Value → Point
  | some (.list [.int byte, .int row, .int column]) => ⟨byte.toNat, row.toNat, column.toNat⟩
  | _ => ⟨0, 0, 0⟩

def ofMembers (members : Table) (children : List Node) : Node where
  kind := match members.get? "type" with
    | some (.string kind) => kind
    | _ => ""
  start := pointOf (members.get? "start")
  stop := pointOf (members.get? "end")
  isNamed := !isSet members "anonymous"
  isMissing := isSet members "missing"
  hasError := isSet members "has_error"
  field := match members.get? "field" with
    | some (.string name) => some name
    | _ => none
  children := children

mutual

def ofValue : Value → Node
  | .table members => ofMembers members (childrenOf members)
  | _ => ofMembers [] []

/-- The nodes that the member `children` of a list of members describes. -/
def childrenOf : List (String × Value) → List Node
  | [] => []
  | (name, value) :: rest => if name = "children" then ofEntries value else childrenOf rest

def ofEntries : Value → List Node
  | .list entries => ofList entries
  | _ => []

def ofList : List Value → List Node
  | [] => []
  | value :: rest => ofValue value :: ofList rest

end

end Node

end DeclOrder

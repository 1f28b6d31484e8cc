/-!
# Syntax trees

The tree that a parser made of a script.  Its nodes carry the bounds of their text in bytes and as
row and column; a node that could not be made sense of is an error, one that the parser supplied
itself is missing.
-/

namespace DeclOrder

/-- A place in a parsed text: its offset in bytes, its row, and its column in bytes. -/
structure Point where
  byte : Nat
  row : Nat
  column : Nat
  deriving DecidableEq, Repr

/-- A node of a syntax tree. -/
structure Node where
  kind : String
  start : Point
  stop : Point
  isNamed : Bool := true
  isMissing : Bool := false
  hasError : Bool := false
  field : Option String := none
  children : List Node := []
  deriving Repr

namespace Node

/-- Whether a node itself is an error or missing. -/
def isFaulty (node : Node) : Bool :=
  node.kind = "ERROR" || node.isMissing

/-- The children that stand for a rule of the grammar. -/
def namedChildren (node : Node) : List Node :=
  node.children.filter isNamed

def childInField? (node : Node) (field : String) : Option Node :=
  node.children.find? fun child => child.field = some field

mutual

/-- The first faulty node of a tree, looking only below children that are marked.  A tree may be of
any depth: no limit of a stack is modelled. -/
def firstFault? : Node → Option Node
  | ⟨kind, start, stop, isNamed, isMissing, hasError, field, children⟩ =>
    if kind = "ERROR" || isMissing then
      some ⟨kind, start, stop, isNamed, isMissing, hasError, field, children⟩
    else firstFaultAmong? children

def firstFaultAmong? : List Node → Option Node
  | [] => none
  | child :: rest =>
    if child.hasError || child.isMissing then
      match firstFault? child with
      | some found => some found
      | none => firstFaultAmong? rest
    else firstFaultAmong? rest

end

theorem firstFault?_of_isFaulty {node : Node} (faulty : node.isFaulty = true) :
    node.firstFault? = some node := by
  cases node
  simp only [isFaulty] at faulty
  simp [firstFault?, faulty]

theorem firstFault?_of_sound {node : Node} (sound : node.isFaulty = false) :
    node.firstFault? = firstFaultAmong? node.children := by
  cases node
  simp only [isFaulty] at sound
  simp [firstFault?, sound]

end Node

end DeclOrder

import DeclOrder.Item
import DeclOrder.Text.BlankLines

/-!
# Blocks

Sorted items are displayed in blocks, one for each stretch of items of the same group, with an
empty line between two blocks.  A block of unknown statements is copied from the source, run by
run, a run being a stretch of items that were neighbours in the source.
-/

namespace DeclOrder

/-- A stretch of items of one group. -/
structure Block where
  group : Group
  items : List Item

namespace Block

/-- The block of a list of items, none of them being no block. -/
def ofItems? : List Item → Option Block
  | [] => none
  | first :: rest => some ⟨first.tag.group, first :: rest⟩

/-- The least place in the source where an item of a block starts. -/
def start (block : Block) : Int :=
  ((block.items.map Item.start).min?).getD 0

/-- The greatest place in the source where an item of a block stops. -/
def stop (block : Block) : Int :=
  ((block.items.map Item.stop).max?).getD 0

/-- The stretches of items that were neighbours in the source. -/
def runs (block : Block) : List (List Item) :=
  block.items.splitBy fun a b => a.index + 1 = b.index

/-- The source from the start of a run to its end. -/
def runText (source : Text) (run : List Item) : Text :=
  match run.head?, run.getLast? with
  | some first, some last => source.slice first.start last.stop
  | _, _ => []

/-- The text of a block: its runs as they stand, or its items without blank lines. -/
def render (source : Text) (block : Block) : Text :=
  if block.group.isVerbatim then Text.join "\n" (block.runs.map (runText source))
  else (Text.join "\n" (block.items.map Item.text)).condense

end Block

def blocks (items : List Item) : List Block :=
  (items.splitBy fun a b => a.tag.group = b.tag.group).filterMap Block.ofItems?

/-- Blocks with an empty line between neighbours. -/
def renderBlocks (source : Text) (list : List Block) : Text :=
  Text.join "\n\n" (list.map (Block.render source))

end DeclOrder

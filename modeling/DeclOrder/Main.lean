import DeclOrder.Check
import DeclOrder.Treebank

/-!
# The command line

The command `check` loads the files that its arguments can reach, runs the check on them, prints
what came of it and writes the files that were put in order.  The syntax trees of the scripts are
read from standard input, one JSON object with `grammar`, `text` and `root` a line.
-/

namespace DeclOrder

namespace Disk

/-- How a location is written for the operating system. -/
def written (location : Location) : String :=
  "/" ++ String.intercalate "/" location

/-- Takes over what stands at a location: the content of a file, or the bare directory. -/
def load (tree : FileTree) (location : Location) : IO FileTree := do
  let place := (← IO.currentDir) / written location
  if ← place.isDir then
    return if (tree.entryAt? location).isSome then tree else tree.put location (.folder [])
  else if ← place.pathExists then
    return tree.put location (.file (← IO.FS.readBinFile place).toList)
  else return tree

partial def loadBelow (tree : FileTree) (location : Location) : IO FileTree := do
  let place := (← IO.currentDir) / written location
  unless ← place.isDir do return tree
  (← place.readDir).foldlM
    (fun tree found => do
      let inner := location ++ [found.fileName]
      if ← found.path.isDir then
        if Discovery.enters found.fileName then loadBelow (← load tree inner) inner else return tree
      else if Discovery.hasExtension SourceKind.component.extensions found.fileName then
        load tree inner
      else return tree)
    tree

/-- Takes over everything on the way to a path. -/
def loadPath (tree : FileTree) (path : Path) : IO FileTree :=
  (List.range (path.names.length + 1)).foldlM
    (fun tree count => load tree ((path.names.take count).foldl FileTree.step (tree.startOf path)))
    tree

def loadFor (arguments : CheckArguments) : IO FileTree := do
  let here := (← IO.currentDir).components.filter (· ≠ "")
  let start : FileTree := { here }
  let start ← loadPath start (Config.filePath (some arguments.root) arguments.config)
  (arguments.root :: arguments.paths).foldlM
    (fun tree path => do
      loadBelow (← loadPath tree path) (path.names.foldl FileTree.step (tree.startOf path)))
    start

/-- Writes the files of a later tree that differ from an earlier one. -/
def store (earlier later : FileTree) : IO Unit :=
  (earlier.changes later).forM fun (location, content) =>
    IO.FS.writeBinFile (written location) ⟨content.toArray⟩

end Disk

/-- Reads parsed texts, one a line, up to the end; lines that hold none are passed over. -/
partial def Treebank.load (input : IO.FS.Stream) : IO Treebank := do
  let line ← input.getLine
  if line.isEmpty then return []
  let rest ← Treebank.load input
  return ((Value.ofJson? line.toList).bind ParsedText.ofValue?).toList ++ rest

def runCheck (arguments : CheckArguments) : IO UInt32 := do
  let treebank ← Treebank.load (← IO.getStdin)
  let tree ← Disk.loadFor arguments
  let outcome := check treebank.parser tree arguments
  outcome.err.forM IO.eprintln
  outcome.out.forM IO.println
  Disk.store tree outcome.tree
  return outcome.exitCode.toUInt32

def usage : String :=
  "usage: check [--root PATH] [--config PATH] [--fix | --no-fix] [--json] [-v | --verbose] [PATH ...]"

end DeclOrder

def main (words : List String) : IO UInt32 := do
  match words with
  | "check" :: rest =>
    match DeclOrder.CheckArguments.ofWords? {} rest with
    | some arguments => DeclOrder.runCheck arguments
    | none =>
      IO.eprintln DeclOrder.usage
      return 2
  | _ =>
    IO.eprintln DeclOrder.usage
    return 2

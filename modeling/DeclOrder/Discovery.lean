import DeclOrder.FileTree
import DeclOrder.SourceKind

/-!
# Discovery

Directories are searched for sources at any depth, except below directories that hold generated or
foreign files and below hidden ones.  A directory with too long a path cannot be listed, and the
search goes on without it; nothing else limits how deep it goes.  A path that is no directory is
taken as it is, whether it exists or not.
-/

namespace DeclOrder

namespace Discovery

def skippedNames : List String :=
  ["node_modules", "dist", "build", "coverage", "__pycache__"]

def enters (name : String) : Bool :=
  name ∉ skippedNames && name.toList.head? ≠ some '.'

/-- Whether the name of a file ends in one of the extensions, in capital or small letters. -/
def hasExtension (extensions : List String) (name : String) : Bool :=
  extensions.any fun extension => extension.toList.isSuffixOf (Text.lower name.toList)

/-- How the search of a directory spells a directory below it: the working directory, when it is
the one that is searched, stays in front as a dot. -/
def spelling (path : Path) (names : List String) : String :=
  if path.anchor = .here ∧ path.names = [] then String.intercalate "/" ("." :: names)
  else (path.child names).render

/-- Whether a directory below a searched one can be listed, its path being short enough. -/
def canList (path : Path) (names : List String) : Bool :=
  (spelling path names).utf8ByteSize ≤ FileTree.longestPath

/-- The files with one of the extensions below the entries of a directory, in directories that can
be listed.  Around a directory that can be listed there is none that cannot. -/
def filesBelow (extensions : List String) (path : Path) (entries : List (String × Entry)) :
    List Path :=
  (filesAmong enters entries).filterMap fun (names, _) =>
    if hasExtension extensions (names.getLast?.getD "") && canList path names.dropLast then
      some (path.child names)
    else none

def ofArgument (tree : FileTree) (kind : SourceKind) (path : Path) : List Path :=
  match tree.entry path with
  | .ok (.folder entries) => filesBelow kind.extensions path entries
  | _ => if lowerName path.extension ∈ kind.extensions then [path] else []

/-- The sources of one kind that the arguments name or hold, in order and each once. -/
def ofKind (tree : FileTree) (kind : SourceKind) (arguments : List Path) : List Path :=
  Path.sorted (arguments.flatMap (ofArgument tree kind))

/-- The sources that the arguments name or hold, in order and each once.  Directories are searched
for components only. -/
def sources (tree : FileTree) (arguments : List Path) : List Path :=
  let folders := arguments.filter tree.isFolder
  let others := arguments.filter fun path =>
    !tree.isFolder path && (SourceKind.ofPath? path).isSome
  Path.sorted (folders.flatMap (ofArgument tree .component) ++ others)

/-- The arguments of a search, provided that all of them can be asked about. -/
def answerable (tree : FileTree) (arguments : List Path) : Except Failure (List Path) :=
  if arguments.any tree.isUnanswerable then .error .pathTooLong else .ok arguments

def searchKind (tree : FileTree) (kind : SourceKind) (arguments : List Path) :
    Except Failure (List Path) :=
  ofKind tree kind <$> answerable tree arguments

def search (tree : FileTree) (arguments : List Path) : Except Failure (List Path) :=
  sources tree <$> answerable tree arguments

end Discovery

end DeclOrder

import DeclOrder.Failure
import DeclOrder.Path
import DeclOrder.Text.Quoted
import DeclOrder.Text.Utf8

/-!
# File trees

Files and directories as a value, with the working directory that paths without a root start from.
Paths are followed name by name, `..` leading to the enclosing directory.

There are no permissions, links or special files: whatever stands in a tree can be read, written and
listed, and a path fails only by leading nowhere or by being too long.  So a file that a search
finds can always be read.
-/

namespace DeclOrder

inductive Entry where
  | file (content : Bytes)
  | folder (entries : List (String × Entry))

/-- Why a file could not be read.  What a disk can refuse besides, such as a missing permission, has
no place in a tree. -/
inductive ReadError where
  | missing
  | notFolder
  | isFolder
  | tooLong
  deriving DecidableEq, Repr

def ReadError.message (error : ReadError) (path : Path) : String :=
  let reason := match error with
    | .missing => "[Errno 2] No such file or directory: "
    | .notFolder => "[Errno 20] Not a directory: "
    | .isFolder => "[Errno 21] Is a directory: "
    | .tooLong => "[Errno 36] File name too long: "
  reason ++ Quoted.quote path.render

/-- The names that lead from the root to a file or directory. -/
abbrev Location := List String

/-- Everything below the root, and where the working directory is. -/
structure FileTree where
  entries : List (String × Entry) := []
  here : Location := []

namespace Entry

def find? : Entry → List String → Option Entry
  | entry, [] => some entry
  | .file _, _ :: _ => none
  | .folder entries, name :: rest =>
    match entries.lookup name with
    | some entry => find? entry rest
    | none => none

end Entry

/-- Replaces the entry of a name, or puts a new one at the end. -/
def setEntry (entries : List (String × Entry)) (name : String) (entry : Entry) :
    List (String × Entry) :=
  match entries with
  | [] => [(name, entry)]
  | (n, e) :: rest => if n = name then (n, entry) :: rest else (n, e) :: setEntry rest name entry

/-- Puts an entry at the place that names lead to, making directories where there are none. -/
def putEntry (entries : List (String × Entry)) (entry : Entry) : List String → List (String × Entry)
  | [] => entries
  | [name] => setEntry entries name entry
  | name :: next :: rest =>
    let inner := match entries.lookup name with
      | some (.folder inner) => inner
      | _ => []
    setEntry entries name (.folder (putEntry inner entry (next :: rest)))

def eraseEntry (entries : List (String × Entry)) : List String → List (String × Entry)
  | [] => entries
  | [name] => entries.filter fun entry => entry.1 ≠ name
  | name :: next :: rest =>
    match entries.lookup name with
    | some (.folder inner) => setEntry entries name (.folder (eraseEntry inner (next :: rest)))
    | _ => entries

mutual

/-- The files of an entry, each with the names that lead to it, in directories that are entered. -/
def Entry.filesWithin (enters : String → Bool) : Entry → List (List String × Bytes)
  | .file content => [([], content)]
  | .folder entries => filesAmong enters entries

def filesAmong (enters : String → Bool) : List (String × Entry) → List (List String × Bytes)
  | [] => []
  | (name, .file content) :: rest => ([name], content) :: filesAmong enters rest
  | (name, .folder entries) :: rest =>
    (if enters name then
      (Entry.filesWithin enters (.folder entries)).map fun (names, content) => (name :: names, content)
    else []) ++ filesAmong enters rest

end

namespace Text

/-- A text in which every line ends with a line feed alone. -/
def unifyLineEnds : Text → Text
  | [] => []
  | ['\r'] => ['\n']
  | c :: next :: rest =>
    if c = '\r' then
      if next = '\n' then '\n' :: unifyLineEnds rest else '\n' :: unifyLineEnds (next :: rest)
    else c :: unifyLineEnds (next :: rest)
  | [c] => [c]

/-- The text of a file, if its bytes are well-formed, with unified line ends. -/
def ofBytes? (bytes : Bytes) : Option Text :=
  (Utf8.decode? bytes).map unifyLineEnds

end Text

namespace FileTree

def entryAt? (tree : FileTree) (location : Location) : Option Entry :=
  (Entry.folder tree.entries).find? location

/-- One step from a directory to an entry of it or to the directory around it; around the root there
is the root itself. -/
def step (location : Location) (name : String) : Location :=
  if name = ".." then location.dropLast else location ++ [name]

def longestName : Nat := 255

def longestPath : Nat := 4095

def follow (tree : FileTree) (location : Location) : List String → Except ReadError Location
  | [] => .ok location
  | name :: rest =>
    match tree.entryAt? location with
    | none => .error .missing
    | some (.file _) => .error .notFolder
    | some (.folder entries) =>
      if longestName < name.utf8ByteSize then .error .tooLong
      else if name = ".." || (entries.lookup name).isSome then
        follow tree (step location name) rest
      else .error .missing

def startOf (tree : FileTree) (path : Path) : Location :=
  if path.anchor = .here then tree.here else []

def locate (tree : FileTree) (path : Path) : Except ReadError Location :=
  if longestPath < path.render.utf8ByteSize then .error .tooLong
  else tree.follow (tree.startOf path) path.names

def entry (tree : FileTree) (path : Path) : Except ReadError Entry := do
  let location ← tree.locate path
  match tree.entryAt? location with
  | some entry => .ok entry
  | none => .error .missing

def isFolder (tree : FileTree) (path : Path) : Bool :=
  match tree.entry path with
  | .ok (.folder _) => true
  | _ => false

def read (tree : FileTree) (path : Path) : Except ReadError Bytes := do
  match ← tree.entry path with
  | .file content => .ok content
  | .folder _ => .error .isFolder

/-- The text of the file that a path leads to.  A path with a null character and a file that is no
text are failures. -/
def readText (tree : FileTree) (path : Path) : Except Failure (Except ReadError Text) :=
  if path.hasNull then .error .nullInPath
  else
    match tree.read path with
    | .error error => .ok (.error error)
    | .ok bytes =>
      match Text.ofBytes? bytes with
      | none => .error .notText
      | some text => .ok (.ok text)

/-- Whether it is a failure to ask what a path leads to: the path is too long, and has no null
character, with which it would lead nowhere. -/
def isUnanswerable (tree : FileTree) (path : Path) : Bool :=
  !path.hasNull && (match tree.locate path with
    | .error .tooLong => true
    | _ => false)

def put (tree : FileTree) (location : Location) (entry : Entry) : FileTree :=
  { tree with entries := putEntry tree.entries entry location }

def putAt (tree : FileTree) (path : Path) (entry : Entry) : FileTree :=
  tree.put (path.names.foldl step (tree.startOf path)) entry

def eraseAt (tree : FileTree) (path : Path) : FileTree :=
  { tree with
    entries := eraseEntry tree.entries (path.names.foldl step (tree.startOf path)) }

def write (tree : FileTree) (path : Path) (content : Bytes) : FileTree :=
  match tree.locate path with
  | .ok location => tree.put location (.file content)
  | .error _ => tree

def files (tree : FileTree) : List (Location × Bytes) :=
  filesAmong (fun _ => true) tree.entries

/-- The files of a later tree that an earlier tree does not have with the same content. -/
def changes (earlier later : FileTree) : List (Location × Bytes) :=
  later.files.filter fun file => file ∉ earlier.files

end FileTree

end DeclOrder

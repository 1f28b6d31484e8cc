import DeclOrder.Proofs.FileTexts

/-!
# Writing to files

Replacing the content of a file leaves everything else in a file tree as it was: every path still
leads where it led, the file has its new content, and every other file its old one.
-/

namespace DeclOrder

/-- What two trees have at the same place: nothing, files, which differ only where one was
rewritten, or directories with the same names. -/
inductive Matches (rewritten : Prop) : Option Entry → Option Entry → Prop where
  | missing : Matches rewritten none none
  | files {old new : Bytes} (same : ¬rewritten → old = new) :
      Matches rewritten (some (.file old)) (some (.file new))
  | folders {old new : List (String × Entry)}
      (names : ∀ name, (old.lookup name).isSome = (new.lookup name).isSome) :
      Matches rewritten (some (.folder old)) (some (.folder new))

theorem Matches.refl (rewritten : Prop) (entry : Option Entry) : Matches rewritten entry entry := by
  cases entry with
  | none => exact .missing
  | some entry =>
      cases entry with
      | file content => exact .files fun _ => rfl
      | folder entries => exact .folders fun _ => rfl

theorem Matches.mono {rewritten elsewhere : Prop} {old new : Option Entry}
    (same : Matches rewritten old new) (wider : rewritten → elsewhere) :
    Matches elsewhere old new := by
  cases same with
  | missing => exact .missing
  | files same => exact .files fun kept => same (mt wider kept)
  | folders names => exact .folders names

theorem lookup_cons_of_ne {name key : String} (different : name ≠ key) (entry : Entry)
    (entries : List (String × Entry)) :
    List.lookup name ((key, entry) :: entries) = entries.lookup name := by
  rw [List.lookup_cons, beq_false_of_ne different]

theorem lookup_setEntry (entries : List (String × Entry)) (name other : String) (entry : Entry) :
    (setEntry entries name entry).lookup other =
      if other = name then some entry else entries.lookup other := by
  induction entries with
  | nil =>
      rw [setEntry]
      split
      · rename_i same
        rw [same, List.lookup_cons_self]
      · rename_i different
        rw [lookup_cons_of_ne different]
  | cons first entries ih =>
      obtain ⟨key, value⟩ := first
      rw [setEntry]
      by_cases same : key = name
      · rw [if_pos same, same]
        split
        · rename_i here
          rw [here, List.lookup_cons_self]
        · rename_i elsewhere
          rw [lookup_cons_of_ne elsewhere, lookup_cons_of_ne elsewhere]
      · rw [if_neg same]
        by_cases here : other = key
        · subst here
          rw [List.lookup_cons_self, List.lookup_cons_self, if_neg same]
        · rw [lookup_cons_of_ne here, lookup_cons_of_ne here, ih]

/-- Replacing an entry of a directory keeps the names in it. -/
theorem isSome_lookup_setEntry {entries : List (String × Entry)} {name : String} {old : Entry}
    (found : entries.lookup name = some old) (new : Entry) (other : String) :
    (entries.lookup other).isSome = ((setEntry entries name new).lookup other).isSome := by
  rw [lookup_setEntry]
  split
  · rename_i same
    rw [same, found]
    rfl
  · rfl

namespace Entry

theorem find?_folder_cons (entries : List (String × Entry)) (name : String) (rest : List String) :
    (folder entries).find? (name :: rest) = (entries.lookup name).bind (·.find? rest) := by
  rw [find?]
  cases entries.lookup name <;> rfl

theorem find?_file_cons (content : Bytes) (name : String) (rest : List String) :
    (file content).find? (name :: rest) = none := by
  rw [find?]

theorem find?_nil (entry : Entry) : entry.find? [] = some entry := by
  rw [find?]

/-- After an entry of a directory was replaced, what is found below it is found in the new entry,
and everything else as before. -/
theorem matches_find?_setEntry (rewritten : List String → Prop)
    {entries : List (String × Entry)} {name : String} {old new : Entry}
    (found : entries.lookup name = some old)
    (below : ∀ other, Matches (rewritten other) (old.find? other) (new.find? other))
    (other : List String) :
    Matches (∃ rest, other = name :: rest ∧ rewritten rest) ((folder entries).find? other)
      ((folder (setEntry entries name new)).find? other) := by
  cases other with
  | nil =>
      rw [find?_nil, find?_nil]
      exact .folders (isSome_lookup_setEntry found new)
  | cons first rest =>
      rw [find?_folder_cons, find?_folder_cons, lookup_setEntry]
      split
      · rename_i same
        subst same
        rw [found]
        exact (below rest).mono fun here => ⟨rest, rfl, here⟩
      · exact .refl _ _

/-- After the content of a file below a directory was replaced, everything but that content is found
as before. -/
theorem matches_find?_putEntry {names : List String} {old : Bytes} (new : Bytes)
    {entries : List (String × Entry)} (found : (folder entries).find? names = some (.file old))
    (other : List String) :
    Matches (other = names) ((folder entries).find? other)
      ((folder (putEntry entries (.file new) names)).find? other) := by
  induction names generalizing entries other with
  | nil => cases found
  | cons name rest ih =>
      rw [find?_folder_cons] at found
      obtain ⟨entry, entryFound, found⟩ := Option.bind_eq_some_iff.mp found
      cases rest with
      | nil =>
          rw [find?_nil, Option.some.injEq] at found
          subst found
          rw [putEntry]
          refine (matches_find?_setEntry (· = []) entryFound ?_ other).mono ?_
          · intro other
            cases other with
            | nil =>
                rw [find?_nil, find?_nil]
                exact .files fun elsewhere => absurd rfl elsewhere
            | cons first rest =>
                rw [find?_file_cons, find?_file_cons]
                exact .missing
          · rintro ⟨_, rfl, rfl⟩
            rfl
      | cons next rest =>
          cases entry with
          | file content => cases found
          | folder inner =>
              rw [putEntry, entryFound]
              refine (matches_find?_setEntry (· = next :: rest) entryFound (ih found)
                other).mono ?_
              rintro ⟨_, rfl, rfl⟩
              rfl

/-- The content that was put at the place of a file is found there. -/
theorem find?_putEntry {names : List String} {old : Bytes} (new : Bytes)
    {entries : List (String × Entry)} (found : (folder entries).find? names = some (.file old)) :
    (folder (putEntry entries (.file new) names)).find? names = some (.file new) := by
  induction names generalizing entries with
  | nil => cases found
  | cons name rest ih =>
      rw [find?_folder_cons] at found
      obtain ⟨entry, entryFound, found⟩ := Option.bind_eq_some_iff.mp found
      cases rest with
      | nil =>
          rw [putEntry, find?_folder_cons, lookup_setEntry, if_pos rfl, Option.bind_some, find?_nil]
      | cons next rest =>
          cases entry with
          | file content => cases found
          | folder inner =>
              rw [putEntry, entryFound, find?_folder_cons, lookup_setEntry, if_pos rfl,
                Option.bind_some]
              exact ih found

end Entry

namespace FileTree

/-- Two paths lead to the same file or directory. -/
def SameFile (tree : FileTree) (path other : Path) : Prop :=
  ∃ location, tree.locate path = .ok location ∧ tree.locate other = .ok location

instance (tree : FileTree) (path other : Path) : Decidable (tree.SameFile path other) :=
  match located : tree.locate path, otherLocated : tree.locate other with
  | .ok location, .ok otherLocation =>
    decidable_of_iff (otherLocation = location) (by simp [SameFile, located, otherLocated])
  | .error _, _ => isFalse (by simp [SameFile, located])
  | .ok _, .error _ => isFalse (by simp [SameFile, otherLocated])

/-- A tree that differs from another one in the content of the file at a location only. -/
structure SameBut (location : Location) (tree later : FileTree) : Prop where
  here : later.here = tree.here
  entries : ∀ other, Matches (other = location) (tree.entryAt? other) (later.entryAt? other)

theorem read_eq (tree : FileTree) (path : Path) :
    tree.read path = (tree.locate path).bind fun location =>
      match tree.entryAt? location with
      | none => .error .missing
      | some (.file content) => .ok content
      | some (.folder _) => .error .isFolder := by
  rw [read, entry]
  cases tree.locate path with
  | error error => rfl
  | ok location =>
      simp only [bind, Except.bind]
      cases tree.entryAt? location with
      | none => rfl
      | some entry => cases entry <;> rfl

/-- A file that can be read stands at the location that its path leads to. -/
theorem read_eq_ok_iff {tree : FileTree} {path : Path} {content : Bytes} :
    tree.read path = .ok content ↔
      ∃ location, tree.locate path = .ok location ∧
        tree.entryAt? location = some (.file content) := by
  rw [read_eq]
  cases tree.locate path with
  | error error => simp [Except.bind]
  | ok location =>
      cases found : tree.entryAt? location with
      | none => simp [Except.bind, found]
      | some entry => cases entry <;> simp [Except.bind, found]

theorem read_of_sameFile {tree : FileTree} {path other : Path} {content : Bytes}
    (same : tree.SameFile path other) (readable : tree.read path = .ok content) :
    tree.read other = .ok content := by
  obtain ⟨location, located, otherLocated⟩ := same
  obtain ⟨_, again, found⟩ := read_eq_ok_iff.mp readable
  rw [located, Except.ok.injEq] at again
  subst again
  exact read_eq_ok_iff.mpr ⟨location, otherLocated, found⟩

theorem sameFile_self {tree : FileTree} {path : Path} {content : Bytes}
    (readable : tree.read path = .ok content) : tree.SameFile path path := by
  obtain ⟨location, located, _⟩ := read_eq_ok_iff.mp readable
  exact ⟨location, located, located⟩

namespace SameBut

variable {location : Location} {tree later : FileTree}

theorem follow (same : SameBut location tree later) (start : Location) (names : List String) :
    later.follow start names = tree.follow start names := by
  induction names generalizing start with
  | nil => rw [FileTree.follow, FileTree.follow]
  | cons name rest ih =>
      rw [FileTree.follow, FileTree.follow]
      have here := same.entries start
      generalize tree.entryAt? start = old at here
      generalize later.entryAt? start = new at here
      cases here with
      | missing => rfl
      | files _ => rfl
      | folders names => simp only [names, ih]

/-- Every path still leads where it led. -/
theorem locate (same : SameBut location tree later) (path : Path) :
    later.locate path = tree.locate path := by
  rw [FileTree.locate, FileTree.locate, startOf, startOf, same.here, same.follow]

/-- What a path to another location leads to is read as before. -/
theorem read (same : SameBut location tree later) {path : Path}
    (elsewhere : tree.locate path ≠ .ok location) : later.read path = tree.read path := by
  rw [read_eq, read_eq, same.locate]
  cases found : tree.locate path with
  | error error => rfl
  | ok other =>
      have here := same.entries other
      rw [found] at elsewhere
      simp only [Except.bind]
      generalize tree.entryAt? other = old at here
      generalize later.entryAt? other = new at here
      cases here with
      | missing => rfl
      | files same => rw [same fun equal => elsewhere (by rw [equal])]
      | folders _ => rfl

end SameBut

section Write

variable {tree : FileTree} {path : Path} {old : Bytes} (readable : tree.read path = .ok old)

include readable

theorem sameBut_write {location : Location} (located : tree.locate path = .ok location)
    (new : Bytes) : SameBut location tree (tree.write path new) := by
  obtain ⟨_, again, found⟩ := read_eq_ok_iff.mp readable
  rw [located, Except.ok.injEq] at again
  subst again
  rw [write, located]
  exact ⟨rfl, Entry.matches_find?_putEntry new found⟩

theorem locate_write (new : Bytes) (other : Path) :
    (tree.write path new).locate other = tree.locate other := by
  obtain ⟨location, located, _⟩ := read_eq_ok_iff.mp readable
  exact (sameBut_write readable located new).locate other

/-- A file that was written is read with its new content, under each of its names. -/
theorem read_write_of_sameFile (new : Bytes) {other : Path} (same : tree.SameFile path other) :
    (tree.write path new).read other = .ok new := by
  obtain ⟨location, located, otherLocated⟩ := same
  obtain ⟨_, again, found⟩ := read_eq_ok_iff.mp readable
  rw [located, Except.ok.injEq] at again
  subst again
  rw [read_eq_ok_iff]
  refine ⟨location, by rw [locate_write readable, otherLocated], ?_⟩
  rw [write, located]
  exact Entry.find?_putEntry new found

/-- Any other file is read as before. -/
theorem read_write_of_not_sameFile (new : Bytes) {other : Path}
    (different : ¬tree.SameFile path other) :
    (tree.write path new).read other = tree.read other := by
  obtain ⟨location, located, _⟩ := read_eq_ok_iff.mp readable
  exact (sameBut_write readable located new).read fun otherLocated =>
    different ⟨location, located, otherLocated⟩

theorem sameFile_write_iff (new : Bytes) (first second : Path) :
    (tree.write path new).SameFile first second ↔ tree.SameFile first second := by
  rw [SameFile, SameFile, locate_write readable, locate_write readable]

theorem exists_read_write_iff (new : Bytes) (other : Path) :
    (∃ content, (tree.write path new).read other = .ok content) ↔
      ∃ content, tree.read other = .ok content := by
  by_cases same : tree.SameFile path other
  · exact iff_of_true ⟨new, read_write_of_sameFile readable new same⟩
      ⟨old, read_of_sameFile same readable⟩
  · rw [read_write_of_not_sameFile readable new same]

end Write

/-- A tree after contents were written to files, one after the other. -/
def writeAll (tree : FileTree) (writes : List (Path × Bytes)) : FileTree :=
  writes.foldl (fun tree write => tree.write write.1 write.2) tree

theorem writeAll_cons (tree : FileTree) (write : Path × Bytes) (writes : List (Path × Bytes)) :
    tree.writeAll (write :: writes) = (tree.write write.1 write.2).writeAll writes := by
  rw [writeAll, List.foldl_cons, writeAll]

/-- A file that nothing was written to is read as before. -/
theorem read_writeAll_of_untouched {tree : FileTree} {writes : List (Path × Bytes)}
    (readable : ∀ write ∈ writes, ∃ content, tree.read write.1 = .ok content) {path : Path}
    (untouched : ∀ write ∈ writes, ¬tree.SameFile write.1 path) :
    (tree.writeAll writes).read path = tree.read path := by
  induction writes generalizing tree with
  | nil => rfl
  | cons write writes ih =>
      obtain ⟨content, found⟩ := readable write List.mem_cons_self
      rw [writeAll_cons, ih]
      · exact read_write_of_not_sameFile found write.2 (untouched write List.mem_cons_self)
      · intro other member
        rw [exists_read_write_iff found]
        exact readable other (List.mem_cons_of_mem _ member)
      · intro other member
        rw [sameFile_write_iff found]
        exact untouched other (List.mem_cons_of_mem _ member)

end FileTree

end DeclOrder

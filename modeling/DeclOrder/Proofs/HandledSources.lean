import DeclOrder.Proofs.FoundSources

/-!
# Handlers of found sources

A search tells the sources in a directory by the ends of their names, while the kind of a document
is told by the extension of its path.  The two agree but for a file whose name is nothing but an
extension: it is found, has no kind, and the plan for it is a warning.  All of this is about paths in
normal form, which is what the words of a command line give.
-/

namespace DeclOrder

namespace SourceKind

/-- The last name of a path is nothing but an extension of a kind. -/
def IsBare (kind : SourceKind) (path : Path) : Prop :=
  ∃ extension ∈ kind.extensions, Text.IsExtension path.lastName.toList extension

instance (kind : SourceKind) (path : Path) : Decidable (kind.IsBare path) :=
  inferInstanceAs (Decidable (∃ extension ∈ kind.extensions, _))

theorem ofPath?_of_isBare {kind : SourceKind} {path : Path} (bare : kind.IsBare path) :
    ofPath? path = none := by
  obtain ⟨extension, listed, bare⟩ := bare
  have none : Path.extensionOf path.lastName.toList = [] :=
    Path.extensionOf_of_isExtension (isPlainExtension extension listed) bare
  rw [ofPath?, Path.extension, none]
  decide

/-- A name that ends like that of a source of a kind gives that kind, unless it is nothing but an
extension. -/
theorem ofPath?_of_endsIn {kind : SourceKind} {path : Path}
    (named : ∃ extension ∈ kind.extensions, Text.EndsIn path.lastName.toList extension) :
    ofPath? path = if kind.IsBare path then none else some kind := by
  split_ifs with bare
  · exact ofPath?_of_isBare bare
  · obtain ⟨extension, listed, ends⟩ := named
    exact ofPath?_eq_some_iff_lastName.mpr
      ⟨extension, listed, ends, fun whole => bare ⟨extension, listed, whole⟩⟩

end SourceKind

namespace Discovery

theorem lastName_child (argument : Path) (folders : List String) (name : String) :
    (argument.child (folders ++ [name])).lastName = name := by
  rw [Path.lastName, Path.child, ← List.append_assoc, List.getLast?_concat, Option.getD_some]

theorem Holds.ofPath?_eq {tree : FileTree} {kind : SourceKind} {argument path : Path}
    (holds : Holds tree kind argument path) :
    SourceKind.ofPath? path = if kind.IsBare path then none else some kind := by
  obtain ⟨folders, name, held, rfl⟩ := holds
  apply SourceKind.ofPath?_of_endsIn
  rw [lastName_child]
  exact held.named

theorem Takes.ofPath?_eq {tree : FileTree} {kind : SourceKind} {argument : Path}
    (takes : Takes tree kind argument) : SourceKind.ofPath? argument = some kind :=
  SourceKind.ofPath?_eq_some_iff.mpr takes.extension

/-- What has a kind is bare of none. -/
theorem Takes.not_isBare {tree : FileTree} {kind other : SourceKind} {argument : Path}
    (takes : Takes tree kind argument) : ¬other.IsBare argument := by
  intro bare
  have none := SourceKind.ofPath?_of_isBare bare
  rw [takes.ofPath?_eq] at none
  cases none

/-- What a search finds has a kind, unless it is a file that a directory holds under a bare name. -/
theorem isSome_ofPath?_iff_of_mem_sources {tree : FileTree} (wellFormed : tree.WellFormed)
    {arguments : List Path} {path : Path} (member : path ∈ sources tree arguments) :
    (SourceKind.ofPath? path).isSome = true ↔ ¬SourceKind.component.IsBare path := by
  obtain ⟨argument, listed, holds | ⟨⟨kind, takes⟩, rfl⟩⟩ := (mem_sources_iff wellFormed).mp member
  · rw [holds.ofPath?_eq]
    split_ifs with bare <;> simp [bare]
  · rw [takes.ofPath?_eq]
    simpa using takes.not_isBare

/-- A search that gives something gives what it finds for its arguments. -/
theorem eq_of_map_answerable {tree : FileTree} {find : List Path → List Path}
    {arguments found : List Path} (searched : find <$> answerable tree arguments = .ok found) :
    found = find arguments := by
  rw [answerable] at searched
  split at searched
  · cases searched
  · exact (Except.ok.inj searched).symm

end Discovery

/-- A path in normal form is read back from its own text, so its kind decides about the document. -/
theorem Reading.ofDocument_render {path : Path} (normal : path.Normal) (parser : Parser)
    (text : Text) : Reading.ofDocument parser path.render text =
      (SourceKind.ofPath? path).elim .unsupported
        fun kind => .ofKind parser kind path.render text := by
  unfold Reading.ofDocument
  rw [Path.ofString_render normal]
  cases SourceKind.ofPath? path <;> rfl

theorem planDocument_of_ofPath?_eq_none {path : Path} (normal : path.Normal)
    (foreign : SourceKind.ofPath? path = none) (parser : Parser) (options : Options)
    (text : Text) : planDocument parser options path.render text =
      { warnings := [path.render ++ ": unsupported file type"] } := by
  rw [planDocument, Reading.ofDocument_render normal, foreign, Option.elim_none, Reading.plan]

/-- Only a document without a kind gives a warning. -/
theorem warnings_planDocument_eq_nil {path : Path} (normal : path.Normal)
    (known : (SourceKind.ofPath? path).isSome = true) (parser : Parser) (options : Options)
    (text : Text) : (planDocument parser options path.render text).warnings = [] := by
  obtain ⟨kind, known⟩ := Option.isSome_iff_exists.mp known
  rw [planDocument, Reading.ofDocument_render normal, known, Option.elim_some]
  unfold Reading.ofKind
  split
  · rfl
  split
  · rfl
  · rw [Reading.plan, Script.plan]
    split <;> rfl

namespace Discovery

/-- Everything that a search finds has a kind, and the plan for it has no warning, unless its name
is nothing but the extension of a component.  Such a file is found all the same, and the plan for it
is nothing but the warning that its type is not supported.  What a search for one kind finds is of
that kind, with the same exception. -/
theorem kinds_of_found {tree : FileTree} (wellFormed : tree.WellFormed) {arguments : List Path}
    (normal : ∀ argument ∈ arguments, argument.Normal) :
    (∀ found, search tree arguments = .ok found → ∀ path ∈ found,
      ((SourceKind.ofPath? path).isSome = true ↔ ¬SourceKind.component.IsBare path) ∧
      (¬SourceKind.component.IsBare path → ∀ parser options text,
        (planDocument parser options path.render text).warnings = []) ∧
      (SourceKind.component.IsBare path → ∀ parser options text,
        planDocument parser options path.render text =
          { warnings := [path.render ++ ": unsupported file type"] })) ∧
    ∀ kind found, searchKind tree kind arguments = .ok found → ∀ path ∈ found,
      SourceKind.ofPath? path = if kind.IsBare path then none else some kind := by
  constructor
  · intro found searched path member
    rw [eq_of_map_answerable searched] at member
    have normalPath := normal_of_mem_sources wellFormed normal member
    have supported := isSome_ofPath?_iff_of_mem_sources wellFormed member
    refine ⟨supported, fun more => ?_, fun bare => ?_⟩
    · exact warnings_planDocument_eq_nil normalPath (supported.mpr more)
    · exact planDocument_of_ofPath?_eq_none normalPath (SourceKind.ofPath?_of_isBare bare)
  · intro kind found searched path member
    rw [eq_of_map_answerable searched, mem_ofKind_iff wellFormed] at member
    obtain ⟨argument, listed, holds | ⟨takes, rfl⟩⟩ := member
    · exact holds.ofPath?_eq
    · rw [takes.ofPath?_eq, if_neg takes.not_isBare]

/-- A component, and a file whose name is nothing but the extension of one. -/
def bareTree : FileTree where
  entries := [("App.vue", .file []), (".vue", .file [])]

theorem wellFormed_bareTree : bareTree.WellFormed := by
  rw [FileTree.WellFormed, bareTree]
  simp only [Entry.WellFormed.folder_cons_iff, Entry.WellFormed.folder_nil,
    Entry.WellFormed.file, and_true]
  decide

/-- A search of the tree finds both files. -/
theorem search_bareTree : ∃ found, search bareTree [{ names := [] }] = .ok found ∧
    ({ names := ["App.vue"] } : Path) ∈ found ∧ ({ names := [".vue"] } : Path) ∈ found := by
  refine ⟨_, search_of_answerable (by decide), ?_, ?_⟩
  · exact (mem_sources_iff wellFormed_bareTree).mpr ⟨_, List.mem_singleton_self _,
      .inl ⟨[], "App.vue", ⟨⟨_, [], rfl, rfl⟩, by decide, by decide, by decide⟩, rfl⟩⟩
  · exact (mem_sources_iff wellFormed_bareTree).mpr ⟨_, List.mem_singleton_self _,
      .inl ⟨[], ".vue", ⟨⟨_, [], rfl, rfl⟩, by decide, by decide, by decide⟩, rfl⟩⟩

theorem kinds_of_found_bareTree : bareTree.WellFormed ∧
    ∃ found, search bareTree [{ names := [] }] = .ok found ∧
      ({ names := ["App.vue"] } : Path) ∈ found ∧
      (planDocument swappedParser {} "App.vue" []).warnings = [] := by
  obtain ⟨found, searched, member, _⟩ := search_bareTree
  refine ⟨wellFormed_bareTree, found, searched, member, ?_⟩
  exact ((kinds_of_found wellFormed_bareTree (by decide)).1 found searched _ member).2.1
    (by decide) swappedParser {} []

/-- A file whose name is nothing but an extension is found, although it has no kind and the plan for
it is a warning. -/
theorem found_without_kind : (∃ found, search bareTree [{ names := [] }] = .ok found ∧
      ({ names := [".vue"] } : Path) ∈ found) ∧
    SourceKind.ofPath? { names := [".vue"] } = none ∧
    (planDocument swappedParser {} ".vue" []).warnings = [".vue: unsupported file type"] := by
  obtain ⟨found, searched, _, member⟩ := search_bareTree
  exact ⟨⟨found, searched, member⟩, by decide, by decide⟩

end Discovery

/-! ## Checks that are called by words -/

namespace CheckArguments

/-- All paths of the arguments are in normal form. -/
structure Normal (arguments : CheckArguments) : Prop where
  root : arguments.root.Normal
  config : ∀ path ∈ arguments.config, path.Normal
  paths : ∀ path ∈ arguments.paths, path.Normal

namespace Normal

variable {arguments : CheckArguments} (normal : arguments.Normal)

include normal

theorem append_words (words : List String) :
    ∀ path ∈ arguments.paths ++ words.map Path.ofString, path.Normal := by
  intro path member
  rcases List.mem_append.mp member with given | read
  · exact normal.paths path given
  · obtain ⟨word, _, rfl⟩ := List.mem_map.mp read
    exact Path.normal_ofText word.toList

/-- What is read as a path is in normal form, and the other words leave the paths as they are. -/
theorem of_words {words : List String} {read : CheckArguments}
    (taken : ofWords? arguments words = some read) : read.Normal := by
  fun_induction ofWords? arguments words with
  | case1 =>
      cases taken
      exact normal
  | case2 arguments rest =>
      cases taken
      exact ⟨normal.root, normal.config, normal.append_words rest⟩
  -- the root, as a word of its own and behind an equals sign
  | case3 | case9 =>
      rename_i ih
      exact ih ⟨Path.normal_ofText _, normal.config, normal.paths⟩ taken
  -- the configuration, likewise
  | case4 | case10 =>
      rename_i ih
      refine ih ⟨normal.root, ?_, normal.paths⟩ taken
      simpa [Path.ofString] using Path.normal_ofText _
  | case5 | case6 | case7 | case8 =>
      rename_i ih
      exact ih ⟨normal.root, normal.config, normal.paths⟩ taken
  | case11 => cases taken
  | case12 arguments word =>
      rename_i ih
      exact ih ⟨normal.root, normal.config, normal.append_words [word]⟩ taken

theorem searched : ∀ path ∈ arguments.searched, path.Normal := by
  rw [CheckArguments.searched]
  split
  · simpa using normal.root
  · exact normal.paths

end Normal

/-- The targets of a check that is called by words come in strict order.  Each of them is told from
the path that its report is written with, and has a kind unless its name is nothing but the
extension of a component. -/
theorem targets_of_words {tree : FileTree} (wellFormed : tree.WellFormed) {words : List String}
    {arguments : CheckArguments} (taken : ofWords? {} words = some arguments) :
    (arguments.targets tree).Pairwise Path.Before ∧
      ∀ target ∈ arguments.targets tree, Path.ofString target.render = target ∧
        ((SourceKind.ofPath? target).isSome = true ↔ ¬SourceKind.component.IsBare target) := by
  have normal : arguments.Normal := Normal.of_words ⟨by decide, by simp, by simp⟩ taken
  refine ⟨Discovery.pairwise_before_sources wellFormed normal.searched,
    fun target member => ⟨Path.ofString_render ?_, ?_⟩⟩
  · exact Discovery.normal_of_mem_sources wellFormed normal.searched member
  · exact Discovery.isSome_ofPath?_iff_of_mem_sources wellFormed member

end CheckArguments

end DeclOrder

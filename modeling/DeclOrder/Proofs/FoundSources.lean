import DeclOrder.Proofs.ExitCodes
import DeclOrder.Proofs.NamedKinds
import DeclOrder.Proofs.WrittenPaths

/-!
# What a search finds

A search takes the arguments that are no directories and walks through the others, passing over
pruned directories and those that it cannot list.  The walk meets exactly the files that names lead
to, so what is found can be told argument by argument.  Sorting makes the order strict, and the
result depends on nothing but which arguments there are.
-/

namespace DeclOrder

/-! ## Well-formed trees -/

/-- In a tree every directory has distinct names, each of them a name that a path can have. -/
inductive Entry.WellFormed : Entry → Prop where
  | file (content : Bytes) : WellFormed (.file content)
  | folder {entries : List (String × Entry)} (distinct : (entries.map Prod.fst).Nodup)
      (named : ∀ entry ∈ entries, Path.IsName entry.1)
      (inner : ∀ entry ∈ entries, WellFormed entry.2) : WellFormed (.folder entries)

/-- A tree below a directory that is well formed. -/
def FileTree.WellFormed (tree : FileTree) : Prop :=
  (Entry.folder tree.entries).WellFormed

/-- Under distinct names, what is looked up under a name is what stands there. -/
theorem lookup_eq_some_iff_mem {entries : List (String × Entry)}
    (distinct : (entries.map Prod.fst).Nodup) {name : String} {entry : Entry} :
    entries.lookup name = some entry ↔ (name, entry) ∈ entries := by
  rw [List.lookup_eq_some_iff]
  constructor
  · rintro ⟨before, behind, rfl, _⟩
    exact List.mem_append_right _ List.mem_cons_self
  · intro member
    obtain ⟨before, behind, rfl⟩ := List.append_of_mem member
    refine ⟨before, behind, rfl, fun other first => bne_iff_ne.mpr fun same => ?_⟩
    rw [List.map_append, List.map_cons, List.nodup_append] at distinct
    exact distinct.2.2 other.1 (List.mem_map_of_mem first) name List.mem_cons_self same.symm

namespace Entry.WellFormed

theorem folder_nil : (Entry.folder []).WellFormed :=
  .folder List.nodup_nil (List.forall_mem_nil _) (List.forall_mem_nil _)

/-- Entries are checked one by one. -/
theorem folder_cons_iff {name : String} {entry : Entry} {entries : List (String × Entry)} :
    (Entry.folder ((name, entry) :: entries)).WellFormed ↔
      (name ∉ entries.map Prod.fst ∧ Path.IsName name) ∧ entry.WellFormed ∧
        (Entry.folder entries).WellFormed := by
  constructor
  · rintro (_ | ⟨distinct, named, inner⟩)
    rw [List.map_cons, List.nodup_cons] at distinct
    rw [List.forall_mem_cons] at named inner
    exact ⟨⟨distinct.1, named.1⟩, inner.1, .folder distinct.2 named.2 inner.2⟩
  · rintro ⟨⟨fresh, named⟩, wellFormed, _ | ⟨distinct, others, inner⟩⟩
    exact .folder (List.nodup_cons.mpr ⟨fresh, distinct⟩)
      (List.forall_mem_cons.mpr ⟨named, others⟩) (List.forall_mem_cons.mpr ⟨wellFormed, inner⟩)

theorem lookup_eq_some_iff {entries : List (String × Entry)}
    (wellFormed : (Entry.folder entries).WellFormed) {name : String} {entry : Entry} :
    entries.lookup name = some entry ↔ (name, entry) ∈ entries := by
  cases wellFormed with
  | folder distinct => exact lookup_eq_some_iff_mem distinct

theorem of_mem {entries : List (String × Entry)} (wellFormed : (Entry.folder entries).WellFormed)
    {name : String} {entry : Entry} (member : (name, entry) ∈ entries) : entry.WellFormed := by
  cases wellFormed with
  | folder _ _ inner => exact inner _ member

/-- Names that lead somewhere in a well-formed tree are names of paths, and lead to a well-formed
tree. -/
theorem find? {names : List String} {entry found : Entry} (wellFormed : entry.WellFormed)
    (leads : entry.find? names = some found) :
    (∀ name ∈ names, Path.IsName name) ∧ found.WellFormed := by
  induction names generalizing entry with
  | nil =>
      rw [Entry.find?_nil, Option.some.injEq] at leads
      exact ⟨fun name member => absurd member List.not_mem_nil, leads ▸ wellFormed⟩
  | cons name rest ih =>
      cases wellFormed with
      | file content =>
          rw [Entry.find?_file_cons] at leads
          cases leads
      | folder distinct named inner =>
          rw [Entry.find?_folder_cons] at leads
          obtain ⟨next, looked, leads⟩ := Option.bind_eq_some_iff.mp leads
          have member := (lookup_eq_some_iff_mem distinct).mp looked
          obtain ⟨rest, found⟩ := ih (inner _ member) leads
          exact ⟨List.forall_mem_cons.mpr ⟨named _ member, rest⟩, found⟩

end Entry.WellFormed

/-! ## The files that a walk meets -/

section Walk

variable {enters : String → Bool}

theorem nil_not_mem_filesAmong (entries : List (String × Entry)) (content : Bytes) :
    ([], content) ∉ filesAmong enters entries := by
  induction entries with
  | nil => simp [filesAmong]
  | cons entry rest ih =>
      obtain ⟨name, content | inner⟩ := entry
      · simpa [filesAmong] using ih
      · rw [filesAmong, List.mem_append, not_or]
        refine ⟨?_, ih⟩
        split <;> simp

/-- A walk meets the files of a directory, and what it meets in the directories that it enters. -/
theorem cons_mem_filesAmong_iff {entries : List (String × Entry)} {name : String}
    {rest : List String} {content : Bytes} :
    (name :: rest, content) ∈ filesAmong enters entries ↔
      (rest = [] ∧ (name, .file content) ∈ entries) ∨
        ∃ inner, (name, .folder inner) ∈ entries ∧ enters name = true ∧
          (rest, content) ∈ filesAmong enters inner := by
  induction entries with
  | nil => simp [filesAmong]
  | cons entry entries ih =>
      obtain ⟨other, found | inner⟩ := entry
      · rw [filesAmong, List.mem_cons, ih]
        simp only [List.mem_cons, Prod.mk.injEq, List.cons.injEq, Entry.file.injEq, reduceCtorEq,
          and_false, false_or]
        rw [and_or_left, or_assoc]
        exact or_congr (by tauto) Iff.rfl
      · rw [filesAmong, List.mem_append, ih, Entry.filesWithin, List.mem_ite_nil_right,
          List.mem_map, or_left_comm]
        simp only [Prod.exists, List.mem_cons, Prod.mk.injEq, List.cons.injEq, Entry.folder.injEq,
          reduceCtorEq, and_false, false_or, or_and_right, exists_or]
        refine or_congr_right (or_congr_left ?_)
        constructor
        · rintro ⟨entered, names, found, member, ⟨rfl, rfl⟩, rfl⟩
          exact ⟨inner, ⟨rfl, rfl⟩, entered, member⟩
        · rintro ⟨_, ⟨rfl, rfl⟩, entered, member⟩
          exact ⟨entered, rest, content, member, ⟨rfl, rfl⟩, rfl⟩

/-- A walk meets a file exactly if the names lead to it, all directories on the way being
entered. -/
theorem mem_filesAmong_iff {entries : List (String × Entry)}
    (wellFormed : (Entry.folder entries).WellFormed) {names : List String} {content : Bytes} :
    (names, content) ∈ filesAmong enters entries ↔
      (Entry.folder entries).find? names = some (.file content) ∧
        ∀ folder ∈ names.dropLast, enters folder = true := by
  induction names generalizing entries with
  | nil =>
      rw [Entry.find?_nil]
      simpa using nil_not_mem_filesAmong entries content
  | cons name rest ih =>
      rw [cons_mem_filesAmong_iff, Entry.find?_folder_cons, Option.bind_eq_some_iff]
      simp only [wellFormed.lookup_eq_some_iff]
      cases rest with
      | nil => simp [nil_not_mem_filesAmong, Entry.find?_nil]
      | cons next more =>
          rw [List.dropLast_cons_of_ne_nil (List.cons_ne_nil _ _), List.forall_mem_cons]
          constructor
          · rintro (⟨none, _⟩ | ⟨inner, member, entered, met⟩)
            · cases none
            · obtain ⟨leads, all⟩ := (ih (wellFormed.of_mem member)).mp met
              exact ⟨⟨_, member, leads⟩, entered, all⟩
          · rintro ⟨⟨found | inner, member, leads⟩, entered, all⟩
            · rw [Entry.find?_file_cons] at leads
              cases leads
            · exact .inr ⟨inner, member, entered,
                (ih (wellFormed.of_mem member)).mpr ⟨leads, all⟩⟩

end Walk

/-! ## The order of paths -/

namespace Path

/-- Paths are compared name by name, an anchor being the first of the names. -/
def Before (a b : Path) : Prop :=
  a.sortKey < b.sortKey

theorem precedes_iff {a b : Path} : a.precedes b = true ↔ a.sortKey ≤ b.sortKey := by
  have lex : (b.sortKey.lex a.sortKey fun first second => first < second) = true ↔
      b.sortKey < a.sortKey := by
    rw [List.lex_eq_true_iff_lex]
    simp only [decide_eq_true_eq]
    exact Iff.rfl
  rw [← not_lt, ← lex, precedes, Bool.not_eq_true', Bool.not_eq_true]

/-- No name of a path in normal form can be taken for an anchor. -/
theorem Normal.names_ne {path : Path} (normal : path.Normal) {anchor : Anchor}
    (rooted : anchor ≠ .here) (rest : List String) : path.names ≠ anchor.text :: rest := by
  intro names
  have name := (normal anchor.text (names ▸ List.mem_cons_self)).2.2
  cases anchor with
  | here => exact rooted rfl
  | root => exact name (by decide)
  | doubleRoot => exact name (by decide)

theorem Normal.eq_of_sortKey {a b : Path} (normal : a.Normal) (normalOther : b.Normal)
    (same : a.sortKey = b.sortKey) : a = b := by
  obtain ⟨anchor, names⟩ := a
  obtain ⟨anchorOther, namesOther⟩ := b
  rw [sortKey, sortKey] at same
  dsimp only at same
  rw [Path.mk.injEq]
  split_ifs at same with here hereOther hereOther
  · exact ⟨here.trans hereOther.symm, same⟩
  · exact absurd same (normal.names_ne hereOther namesOther)
  · exact absurd same.symm (normalOther.names_ne here names)
  · obtain ⟨text, rest⟩ := List.cons.inj same
    rw [← anchorOf_text anchor, text, anchorOf_text]
    exact ⟨rfl, rest⟩

theorem mem_sorted {paths : List Path} {path : Path} : path ∈ sorted paths ↔ path ∈ paths := by
  rw [sorted, (List.mergeSort_perm _ _).mem_iff, List.mem_eraseDups]

theorem pairwise_before_sorted {paths : List Path} (normal : ∀ path ∈ paths, path.Normal) :
    (sorted paths).Pairwise Before := by
  have ordered : (sorted paths).Pairwise fun a b => a.precedes b = true := by
    apply List.pairwise_mergeSort
    · intro a b c
      simp only [precedes_iff]
      exact le_trans
    · intro a b
      rw [Bool.or_eq_true, precedes_iff, precedes_iff]
      exact le_total _ _
  have once : (sorted paths).Nodup := by
    rw [sorted, (List.mergeSort_perm _ _).nodup_iff]
    exact nodup_eraseDups paths
  refine (List.Pairwise.and ordered once).imp_of_mem fun {a b} first second => ?_
  rintro ⟨before, different⟩
  refine lt_of_le_of_ne (precedes_iff.mp before) fun same => different ?_
  exact (normal a (mem_sorted.mp first)).eq_of_sortKey (normal b (mem_sorted.mp second)) same

/-- Paths in strict order are determined by which they are. -/
theorem eq_of_pairwise_before {first second : List Path} (ascends : first.Pairwise Before)
    (ascendsOther : second.Pairwise Before) (same : ∀ path, path ∈ first ↔ path ∈ second) :
    first = second := by
  have distinct : ∀ {paths : List Path}, paths.Pairwise Before → paths.Nodup := by
    intro paths ascends
    refine ascends.imp fun {a b} before equal => ?_
    rw [equal] at before
    exact lt_irrefl _ before
  refine List.Perm.eq_of_pairwise ?_ ascends ascendsOther
    ((List.perm_ext_iff_of_nodup (distinct ascends) (distinct ascendsOther)).mpr same)
  intro a b _ _ before behind
  exact absurd behind (lt_asymm before)

end Path

/-! ## What a search finds -/

namespace Discovery

/-- A file below a directory that is searched for sources of a kind: names lead to it, through
directories that are neither pruned nor hidden and can be listed, and its own name ends like the
name of such a source. -/
structure HoldsFile (tree : FileTree) (kind : SourceKind) (argument : Path)
    (folders : List String) (name : String) : Prop where
  leads : ∃ entries content, tree.entry argument = .ok (.folder entries) ∧
    (Entry.folder entries).find? (folders ++ [name]) = some (.file content)
  searched : ∀ folder ∈ folders, folder ∉ skippedNames ∧ folder.toList.head? ≠ some '.'
  listed : canList argument folders = true
  named : ∃ extension ∈ kind.extensions, Text.EndsIn name.toList extension

/-- A path to a file below an argument that is searched for sources of a kind. -/
def Holds (tree : FileTree) (kind : SourceKind) (argument path : Path) : Prop :=
  ∃ folders name, HoldsFile tree kind argument folders name ∧
    path = argument.child (folders ++ [name])

/-- An argument that is no directory and has an extension of a kind. -/
structure Takes (tree : FileTree) (kind : SourceKind) (argument : Path) : Prop where
  noFolder : tree.isFolder argument = false
  extension : ∃ extension ∈ kind.extensions,
    Text.IsExtension argument.extension.toList extension

theorem enters_iff {folder : String} :
    enters folder = true ↔ folder ∉ skippedNames ∧ folder.toList.head? ≠ some '.' := by
  simp [enters]

theorem isFolder_iff {tree : FileTree} {path : Path} :
    tree.isFolder path = true ↔ ∃ entries, tree.entry path = .ok (.folder entries) := by
  rw [FileTree.isFolder]
  cases tree.entry path with
  | error error => simp
  | ok entry => cases entry <;> simp

theorem Holds.isFolder {tree : FileTree} {kind : SourceKind} {argument path : Path}
    (holds : Holds tree kind argument path) : tree.isFolder argument = true := by
  obtain ⟨_, _, ⟨⟨entries, _, found, _⟩, _, _, _⟩, _⟩ := holds
  exact isFolder_iff.mpr ⟨entries, found⟩

section Found

variable {tree : FileTree} (wellFormed : tree.WellFormed)

include wellFormed

theorem wellFormed_of_entry {path : Path} {entry : Entry} (found : tree.entry path = .ok entry) :
    entry.WellFormed := by
  rw [FileTree.entry] at found
  cases located : tree.locate path with
  | error error =>
      rw [located] at found
      cases found
  | ok location =>
      rw [located] at found
      cases leads : tree.entryAt? location with
      | none =>
          simp only [bind, Except.bind, leads] at found
          cases found
      | some there =>
          simp only [bind, Except.bind, leads, Except.ok.injEq] at found
          rw [← found]
          exact (wellFormed.find? leads).2

theorem mem_filesBelow_iff {kind : SourceKind} {argument path : Path}
    {entries : List (String × Entry)} (found : tree.entry argument = .ok (.folder entries)) :
    path ∈ filesBelow kind.extensions argument entries ↔ Holds tree kind argument path := by
  have walk := fun names content => @mem_filesAmong_iff enters entries
    (wellFormed_of_entry wellFormed found) names content
  simp only [filesBelow, List.mem_filterMap, Prod.exists, Option.ite_none_right_eq_some,
    Bool.and_eq_true, Option.some.injEq, walk, enters_iff, SourceKind.hasExtension_iff]
  constructor
  · rintro ⟨names, content, ⟨leads, searched⟩, ⟨named, listed⟩, rfl⟩
    rcases List.eq_nil_or_concat' names with rfl | ⟨folders, name, rfl⟩
    · rw [Entry.find?_nil] at leads
      cases leads
    · rw [List.dropLast_concat] at searched listed
      rw [List.getLast?_concat] at named
      exact ⟨folders, name, ⟨⟨entries, content, found, leads⟩, searched, listed, named⟩, rfl⟩
  · rintro ⟨folders, name, ⟨⟨_, content, again, leads⟩, searched, listed, named⟩, rfl⟩
    rw [found, Except.ok.injEq, Entry.folder.injEq] at again
    subst again
    refine ⟨folders ++ [name], content, ⟨leads, ?_⟩, ⟨?_, ?_⟩, rfl⟩
    · rwa [List.dropLast_concat]
    · rwa [List.getLast?_concat]
    · rwa [List.dropLast_concat]

theorem mem_ofArgument_iff {kind : SourceKind} {argument path : Path} :
    path ∈ ofArgument tree kind argument ↔
      Holds tree kind argument path ∨ Takes tree kind argument ∧ path = argument := by
  cases folder : tree.isFolder argument with
  | true =>
      obtain ⟨entries, found⟩ := isFolder_iff.mp folder
      rw [ofArgument, found]
      dsimp only
      rw [mem_filesBelow_iff wellFormed found, or_iff_left]
      rintro ⟨⟨noFolder, _⟩, _⟩
      rw [folder] at noFolder
      cases noFolder
  | false =>
      have noHold : ¬Holds tree kind argument path := by
        intro holds
        rw [holds.isFolder] at folder
        cases folder
      have whole : ofArgument tree kind argument =
          if lowerName argument.extension ∈ kind.extensions then [argument] else [] := by
        rw [ofArgument]
        split
        · rename_i entries found
          rw [isFolder_iff.mpr ⟨entries, found⟩] at folder
          cases folder
        · rfl
      rw [whole, or_iff_right noHold, List.mem_ite_nil_right, List.mem_singleton,
        SourceKind.lowerName_mem_iff]
      exact and_congr_left fun _ => ⟨fun named => ⟨folder, named⟩, fun takes => takes.extension⟩

theorem mem_ofKind_iff {kind : SourceKind} {arguments : List Path} {path : Path} :
    path ∈ ofKind tree kind arguments ↔ ∃ argument ∈ arguments,
      Holds tree kind argument path ∨ Takes tree kind argument ∧ path = argument := by
  rw [ofKind, Path.mem_sorted, List.mem_flatMap]
  simp only [mem_ofArgument_iff wellFormed]

theorem mem_sources_iff {arguments : List Path} {path : Path} :
    path ∈ sources tree arguments ↔ ∃ argument ∈ arguments,
      Holds tree .component argument path ∨
        (∃ kind, Takes tree kind argument) ∧ path = argument := by
  simp only [sources, Path.mem_sorted, List.mem_append, List.mem_flatMap, List.mem_filter,
    mem_ofArgument_iff wellFormed, Bool.and_eq_true, Bool.not_eq_true', Option.isSome_iff_exists,
    SourceKind.ofPath?_eq_some_iff]
  constructor
  · rintro (⟨argument, ⟨listed, folder⟩, holds | ⟨takes, _⟩⟩ | ⟨listed, noFolder, kind, named⟩)
    · exact ⟨argument, listed, .inl holds⟩
    · rw [takes.noFolder] at folder
      cases folder
    · exact ⟨path, listed, .inr ⟨⟨kind, noFolder, named⟩, rfl⟩⟩
  · rintro ⟨argument, listed, holds | ⟨⟨kind, takes⟩, rfl⟩⟩
    · exact .inl ⟨argument, ⟨listed, holds.isFolder⟩, .inl holds⟩
    · exact .inr ⟨listed, takes.noFolder, kind, takes.extension⟩

/-- What is found below a path in normal form is in normal form. -/
theorem Holds.normal {kind : SourceKind} {argument path : Path}
    (holds : Holds tree kind argument path) (normal : argument.Normal) : path.Normal := by
  obtain ⟨folders, name, ⟨⟨entries, content, found, leads⟩, _, _, _⟩, rfl⟩ := holds
  intro part member
  rcases List.mem_append.mp member with above | below
  · exact normal part above
  · exact ((wellFormed_of_entry wellFormed found).find? leads).1 part below

theorem normal_of_mem_sources {arguments : List Path}
    (normal : ∀ argument ∈ arguments, argument.Normal) {path : Path}
    (found : path ∈ sources tree arguments) : path.Normal := by
  obtain ⟨argument, listed, holds | ⟨_, rfl⟩⟩ := (mem_sources_iff wellFormed).mp found
  · exact holds.normal wellFormed (normal argument listed)
  · exact normal path listed

theorem pairwise_before_sources {arguments : List Path}
    (normal : ∀ argument ∈ arguments, argument.Normal) :
    (sources tree arguments).Pairwise Path.Before := by
  refine Path.pairwise_before_sorted fun path member => ?_
  exact normal_of_mem_sources wellFormed normal (Path.mem_sorted.mpr member)

/-- Only which arguments there are counts. -/
theorem sources_congr {arguments others : List Path}
    (normal : ∀ argument ∈ arguments, argument.Normal)
    (same : ∀ argument, argument ∈ others ↔ argument ∈ arguments) :
    sources tree others = sources tree arguments := by
  have normalOthers : ∀ argument ∈ others, argument.Normal :=
    fun argument listed => normal argument ((same argument).mp listed)
  refine Path.eq_of_pairwise_before (pairwise_before_sources wellFormed normalOthers)
    (pairwise_before_sources wellFormed normal) fun path => ?_
  simp only [mem_sources_iff wellFormed, same]

end Found

theorem search_of_answerable {tree : FileTree} {arguments : List Path}
    (answerable : ∀ argument ∈ arguments, tree.isUnanswerable argument = false) :
    search tree arguments = .ok (sources tree arguments) := by
  have none : arguments.any tree.isUnanswerable = false := by
    simpa using answerable
  rw [search, Discovery.answerable, none]
  rfl

theorem search_of_unanswerable {tree : FileTree} {arguments : List Path}
    (unanswerable : ∃ argument ∈ arguments, tree.isUnanswerable argument = true) :
    search tree arguments = .error .pathTooLong := by
  rw [search, Discovery.answerable, List.any_eq_true.mpr unanswerable]
  rfl

/-- A search fails when an argument cannot be asked about.  Otherwise it finds, in strict order,
exactly what its arguments give one by one: an argument that is no directory if its extension is
known, and of a directory the component files at any depth that can be reached without a pruned or
hidden directory, in directories that can be listed.  It depends on nothing but which arguments
there are. -/
theorem search_finds_exactly {tree : FileTree} (wellFormed : tree.WellFormed)
    {arguments : List Path} (normal : ∀ argument ∈ arguments, argument.Normal) :
    ((∃ argument ∈ arguments, tree.isUnanswerable argument = true) →
      search tree arguments = .error .pathTooLong) ∧
    ((∀ argument ∈ arguments, tree.isUnanswerable argument = false) →
      ∃ found, search tree arguments = .ok found ∧ found.Pairwise Path.Before ∧
        (∀ path, path ∈ found ↔ ∃ argument ∈ arguments,
          Holds tree .component argument path ∨
            (∃ kind, Takes tree kind argument) ∧ path = argument) ∧
        (∀ path, path ∈ found ↔ ∃ argument ∈ arguments, path ∈ sources tree [argument]) ∧
        ∀ others : List Path, (∀ argument, argument ∈ others ↔ argument ∈ arguments) →
          search tree others = .ok found) := by
  refine ⟨search_of_unanswerable, fun answerable => ⟨_, search_of_answerable answerable,
    pairwise_before_sources wellFormed normal, fun path => mem_sources_iff wellFormed,
    fun path => ?_, fun others same => ?_⟩⟩
  · simp only [mem_sources_iff wellFormed, List.mem_singleton, exists_eq_left]
  · rw [search_of_answerable fun argument listed => answerable argument ((same argument).mp listed),
      sources_congr wellFormed normal same]

/-- A tree with components at several depths, one of them below a pruned directory. -/
def nestedTree : FileTree where
  entries :=
    [("setup.ts", .file []),
     ("src", .folder
       [("App.vue", .file []),
        ("deep", .folder [("B.VUE", .file [])]),
        ("node_modules", .folder [("Dep.vue", .file [])])])]

theorem wellFormed_nestedTree : nestedTree.WellFormed := by
  rw [FileTree.WellFormed, nestedTree]
  simp only [Entry.WellFormed.folder_cons_iff, Entry.WellFormed.folder_nil,
    Entry.WellFormed.file, and_true]
  decide

/-- A directory, one inside it, and a script. -/
def nestedArguments : List Path :=
  [{ names := [] }, { names := ["src"] }, { names := ["setup.ts"] }]

theorem search_finds_exactly_nested :
    nestedTree.WellFormed ∧ (∀ argument ∈ nestedArguments, argument.Normal) ∧
      (∀ argument ∈ nestedArguments, nestedTree.isUnanswerable argument = false) ∧
      ∃ found, search nestedTree nestedArguments = .ok found ∧
        ({ names := ["setup.ts"] } : Path) ∈ found ∧
        ({ names := ["src", "deep", "B.VUE"] } : Path) ∈ found := by
  have normal : ∀ argument ∈ nestedArguments, argument.Normal := by decide
  have answerable : ∀ argument ∈ nestedArguments, nestedTree.isUnanswerable argument = false := by
    decide
  obtain ⟨found, searched, _, exact, _⟩ :=
    (search_finds_exactly wellFormed_nestedTree normal).2 answerable
  refine ⟨wellFormed_nestedTree, normal, answerable, found, searched, ?_, ?_⟩
  · rw [exact]
    exact ⟨_, by decide, .inr ⟨⟨.script, by decide, by decide⟩, rfl⟩⟩
  · rw [exact]
    refine ⟨{ names := [] }, by decide, .inl ⟨["src", "deep"], "B.VUE", ?_, rfl⟩⟩
    exact ⟨⟨_, [], rfl, rfl⟩, by decide, by decide, by decide⟩

/-- One argument with an overlong name fails a search, although it is no directory and has the
extension of a component. -/
theorem search_fails_at_overlong_name :
    Takes {} .component { names := [longName 256] } ∧
      search {} [{ names := [longName 256] }] = .error .pathTooLong := by
  have located : FileTree.locate {} { names := [longName 256] } = .error .tooLong :=
    FileTree.locate_of_overlong (Nat.lt_of_lt_of_le (by decide) (le_utf8ByteSize_longName 256))
  refine ⟨⟨?_, ".vue", by decide, ?_⟩, search_of_unanswerable ⟨_, List.mem_singleton_self _, ?_⟩⟩
  · rw [FileTree.isFolder, FileTree.entry, located]
    rfl
  · have name : Path.lastName { names := [longName 256] } = longName 256 := rfl
    have read : Path.extensionOf (List.replicate 256 'x' ++ ['.', 'v', 'u', 'e']) =
        ['.', 'v', 'u', 'e'] :=
      Path.extensionOf_append (List.cons_ne_nil _ _) (by decide) (by decide)
    rw [Path.extension, name, longName, String.toList_ofList, String.toList_ofList, read]
    decide
  · rw [FileTree.isUnanswerable, hasNull_longName, located]
    rfl

end Discovery

end DeclOrder

import DeclOrder.Proofs.PlannedEdit
import DeclOrder.Proofs.TargetReports

/-!
# What a check comes to

A check that nothing stands in the way of is the sum of the reports about its targets.  Each target
is reported about and written to as if there were no other one, and the reports decide the exit
code.
-/

namespace DeclOrder

/-! ## Targets -/

theorem nodup_eraseDups {α : Type} [DecidableEq α] (items : List α) : items.eraseDups.Nodup := by
  cases items with
  | nil => exact List.nodup_nil
  | cons item items =>
      rw [List.eraseDups_cons, List.nodup_cons, List.mem_eraseDups]
      exact ⟨by simp, nodup_eraseDups _⟩
  termination_by items.length
  decreasing_by exact Nat.lt_succ_of_le (List.length_filter_le _ _)

theorem eraseDups_eq_self {α : Type} [DecidableEq α] {items : List α} (once : items.Nodup) :
    items.eraseDups = items := by
  induction items with
  | nil => rfl
  | cons item items ih =>
      rw [List.nodup_cons] at once
      have kept : items.filter (fun other => !other == item) = items := by
        rw [List.filter_eq_self]
        intro other member
        simpa using fun same : other = item => once.1 (same ▸ member)
      rw [List.eraseDups_cons, kept, ih once.2]

namespace CheckArguments

/-- The files that a check is about. -/
def targets (arguments : CheckArguments) (tree : FileTree) : List Path :=
  Discovery.sources tree arguments.searched

theorem nodup_targets (arguments : CheckArguments) (tree : FileTree) :
    (arguments.targets tree).Nodup := by
  rw [targets, Discovery.sources, Path.sorted, (List.mergeSort_perm _ _).nodup_iff]
  exact nodup_eraseDups _

/-- Sources that are given in order are the targets. -/
theorem targets_eq_searched {arguments : CheckArguments} {tree : FileTree}
    (sources : ∀ path ∈ arguments.searched,
      tree.isFolder path = false ∧ (SourceKind.ofPath? path).isSome = true)
    (once : arguments.searched.Nodup)
    (ordered : arguments.searched.Pairwise fun first second => first.precedes second) :
    arguments.targets tree = arguments.searched := by
  have folders : arguments.searched.filter tree.isFolder = [] := by
    rw [List.filter_eq_nil_iff]
    intro path listed
    simp [(sources path listed).1]
  have others : (arguments.searched.filter fun path =>
      !tree.isFolder path && (SourceKind.ofPath? path).isSome) = arguments.searched := by
    rw [List.filter_eq_self]
    intro path listed
    simp [sources path listed]
  rw [targets, Discovery.sources, folders, others, List.flatMap_nil, List.nil_append, Path.sorted,
    eraseDups_eq_self once, List.mergeSort_of_pairwise ordered]

/-- Nothing stands in the way of a check: no path has a null character, what is searched can be
asked about, and whatever target can be read is a text. -/
structure Workable (arguments : CheckArguments) (tree : FileTree) : Prop where
  named : ∀ path ∈ arguments.allPaths, path.hasNull = false
  answerable : ∀ path ∈ arguments.searched, tree.isUnanswerable path = false
  textual : ∀ target ∈ arguments.targets tree, target.hasNull = false ∧
    ∀ bytes, tree.read target = .ok bytes → ∃ text, Utf8.decode? bytes = some text

end CheckArguments

namespace FileTree

/-- No file goes by two of the given names. -/
def Apart (tree : FileTree) (targets : List Path) : Prop :=
  ∀ first ∈ targets, ∀ second ∈ targets, tree.SameFile first second → first = second

instance (tree : FileTree) (targets : List Path) : Decidable (tree.Apart targets) :=
  inferInstanceAs (Decidable (∀ first ∈ targets, ∀ second ∈ targets,
    tree.SameFile first second → first = second))

theorem Apart.pairwise {tree : FileTree} {targets : List Path} (apart : tree.Apart targets)
    (once : targets.Nodup) :
    targets.Pairwise fun first second => ¬tree.SameFile first second := by
  refine once.pairwise_of_forall_ne fun first firstListed second secondListed different same => ?_
  exact different (apart first firstListed second secondListed same)

theorem answers_iff {tree : FileTree} {path : Path} :
    tree.Answers path ↔ path.hasNull = false ∧
      ∀ bytes, tree.read path = .ok bytes → ∃ text, Utf8.decode? bytes = some text := by
  rw [Answers, readText]
  cases path.hasNull with
  | true => simp
  | false =>
      cases tree.read path with
      | error error => simp
      | ok bytes =>
          cases decoded : Utf8.decode? bytes <;> simp [Text.ofBytes?, decoded]

end FileTree

/-! ## The sum of the reports -/

/-- What the reports about the targets come to, with the files that are left in the end. -/
def CheckOutcome.ofReports (arguments : CheckArguments) (tree : FileTree) (reports : List Report) :
    CheckOutcome where
  exitCode :=
    if reports.any fun report => report.failed ≠ 0 then 2
    else if reports.any fun report => report.remaining ≠ 0 then 1 else 0
  out := reports.flatMap Report.out ++
    if arguments.json then
      [(Json.list ((reports.flatMap Report.responses).map Response.toJson)).render] else []
  err := (if arguments.verbose then [(Event.checking reports.length).render] else []) ++
    reports.flatMap Report.err
  tree := tree

theorem sum_map_ne_zero_iff {α : Type} (count : α → Nat) (items : List α) :
    (items.map count).sum ≠ 0 ↔ (items.any fun item => count item ≠ 0) = true := by
  simp [List.sum_eq_zero_iff]

/-- How a run over targets starts. -/
def Progress.start (tree : FileTree) (arguments : CheckArguments) (count : Nat) : Progress where
  tree := tree
  err := if arguments.verbose then [(Event.checking count).render] else []

theorem Progress.note_eq_start (tree : FileTree) (arguments : CheckArguments) (count : Nat) :
    Progress.note { tree } arguments [.checking count] = start tree arguments count := by
  rw [note, start]
  split <;> rfl

variable {parser : Parser} {options : Options} {tree : FileTree} {arguments : CheckArguments}

/-- Targets that give answers, and that are files of their own, are reported about each for
itself. -/
theorem checkFiles_eq_ofReports {targets : List Path}
    (answered : ∀ target ∈ targets, tree.Answers target)
    (apart : arguments.fix = true → targets.Pairwise fun first second =>
      ¬tree.SameFile first second) :
    checkFiles parser options tree arguments targets =
      .ofReports arguments
        (targets.foldl (fun later target => later.apply target
          (Report.ofTarget parser options arguments target tree)) tree)
        (targets.map fun target => Report.ofTarget parser options arguments target tree) := by
  have run : targets.foldlM (Progress.checkFile parser options arguments)
      (.start tree arguments targets.length) = _ :=
    Progress.foldlM_checkFile_eq answered apart
  rw [checkFiles, Progress.note_eq_start, run, Progress.foldl_add]
  simp only [Progress.start, Progress.finish, Progress.exitCode, CheckOutcome.ofReports,
    Nat.zero_add, sum_map_ne_zero_iff, List.any_map, List.flatMap_map, List.length_map,
    List.nil_append, Function.comp_def]

/-- A run over targets fails exactly when one of them gives no answer. -/
theorem failure_checkFiles_eq_none_iff (targets : List Path) :
    (checkFiles parser options tree arguments targets).failure = none ↔
      ∀ target ∈ targets, tree.Answers target := by
  have runs : (∃ final, targets.foldlM (Progress.checkFile parser options arguments)
      (.start tree arguments targets.length) = .ok final) ↔ _ :=
    Progress.exists_foldlM_checkFile_iff targets _
  refine Iff.trans ?_ runs
  rw [checkFiles, Progress.note_eq_start]
  cases targets.foldlM (Progress.checkFile parser options arguments)
    (.start tree arguments targets.length) with
  | error failed => simp [Progress.fail]
  | ok final => simp [Progress.finish]

/-- A run stops at a target that gives no answer. -/
theorem checkFiles_cons_of_unanswered {target : Path} {targets : List Path} {failure : Failure}
    (unanswered : tree.readText target = .error failure) :
    checkFiles parser options tree arguments (target :: targets) =
      (Progress.start tree arguments (targets.length + 1)).fail failure := by
  rw [checkFiles, Progress.note_eq_start, List.foldlM_cons, Progress.checkFile_eq, Progress.start,
    unanswered]
  rfl

theorem exitCode_checkFiles_le (targets : List Path) :
    (checkFiles parser options tree arguments targets).exitCode ≤ 2 := by
  rw [checkFiles]
  split
  · rw [Progress.finish, Progress.exitCode]
    split_ifs <;> simp
  · exact Nat.le_succ 1

/-- What a run leaves of a target, if the targets are files of their own. -/
theorem read_checkFiles {targets : List Path} (answered : ∀ target ∈ targets, tree.Answers target)
    (once : targets.Nodup) {target : Path} (listed : target ∈ targets)
    (sole : arguments.fix = true → ∀ other ∈ targets, tree.SameFile other target → other = target) :
    (checkFiles parser options tree arguments targets).tree.read target =
      (Report.ofTarget parser options arguments target tree).left (tree.read target) := by
  obtain ⟨final, run⟩ := (Progress.exists_foldlM_checkFile_iff targets
    (.start tree arguments targets.length)).mpr answered
  rw [checkFiles, Progress.note_eq_start, run]
  exact Progress.read_foldlM_of_sole run once listed sole

section Resolved

variable (resolved : Config.resolve tree (some arguments.root) arguments.config [] = .ok options)

include resolved

/-- With options resolved, a check is a run over its targets, unless a path cannot be asked about. -/
theorem check_of_resolved :
    check parser tree arguments =
      if arguments.allPaths.any Path.hasNull then Progress.fail { tree } .nullInPath
      else if arguments.searched.any tree.isUnanswerable then Progress.fail { tree } .pathTooLong
      else checkFiles parser options tree arguments (arguments.targets tree) := by
  rw [check, resolved]
  dsimp only
  rw [checkWith, checkTargets, Discovery.search, Discovery.answerable]
  cases arguments.searched.any tree.isUnanswerable <;> rfl

/-- A check fails exactly when something stands in its way. -/
theorem failure_check_eq_none_iff :
    (check parser tree arguments).failure = none ↔ arguments.Workable tree := by
  rw [check_of_resolved resolved]
  split
  · rename_i hasNull
    refine iff_of_false (Option.some_ne_none _) fun workable => ?_
    obtain ⟨path, listed, null⟩ := List.any_eq_true.mp hasNull
    rw [workable.named path listed] at null
    cases null
  · rename_i named
    split
    · rename_i unanswerable
      refine iff_of_false (Option.some_ne_none _) fun workable => ?_
      obtain ⟨path, listed, long⟩ := List.any_eq_true.mp unanswerable
      rw [workable.answerable path listed] at long
      cases long
    · rename_i answerable
      rw [failure_checkFiles_eq_none_iff]
      simp only [FileTree.answers_iff]
      exact ⟨fun textual => ⟨by simpa using named, by simpa using answerable, textual⟩,
        fun workable => workable.textual⟩

/-- Where nothing stands in its way, a check is a run over its targets, all of which give
answers. -/
theorem check_of_workable (workable : arguments.Workable tree) :
    check parser tree arguments =
        checkFiles parser options tree arguments (arguments.targets tree) ∧
      ∀ target ∈ arguments.targets tree, tree.Answers target := by
  have named : ¬(arguments.allPaths.any Path.hasNull = true) := by
    simpa using workable.named
  have answerable : ¬(arguments.searched.any tree.isUnanswerable = true) := by
    simpa using workable.answerable
  rw [check_of_resolved resolved, if_neg named, if_neg answerable]
  exact ⟨rfl, fun target listed => FileTree.answers_iff.mpr (workable.textual target listed)⟩

end Resolved

/-- No target of a check stands in the way of another one.  With options resolved, a check ends by
itself, with an exit code up to two, exactly when its paths can be asked about and its targets are
texts.  It then gives every target the report, and leaves it with the content, that a run over that
target alone does. -/
theorem check_isolates_targets (parser : Parser) (options : Options) (tree : FileTree)
    (arguments : CheckArguments)
    (resolved : Config.resolve tree (some arguments.root) arguments.config [] = .ok options) :
    ((check parser tree arguments).failure = none ↔ arguments.Workable tree) ∧
    (check parser tree arguments).exitCode ≤ 2 ∧
    (arguments.Workable tree →
      (arguments.fix = true → tree.Apart (arguments.targets tree)) →
        check parser tree arguments =
          .ofReports arguments (check parser tree arguments).tree
            ((arguments.targets tree).map fun target =>
              Report.ofTarget parser options arguments target tree) ∧
        ∀ target ∈ arguments.targets tree,
          checkFiles parser options tree arguments [target] =
            .ofReports arguments (checkFiles parser options tree arguments [target]).tree
              [Report.ofTarget parser options arguments target tree] ∧
          (check parser tree arguments).tree.read target =
            (checkFiles parser options tree arguments [target]).tree.read target) := by
  refine ⟨failure_check_eq_none_iff resolved, ?_, fun workable apart => ?_⟩
  · rw [check_of_resolved resolved]
    split_ifs
    · exact Nat.le_succ 1
    · exact Nat.le_succ 1
    · exact exitCode_checkFiles_le _
  · obtain ⟨run, answered⟩ : check parser tree arguments = _ ∧ _ :=
      check_of_workable resolved workable
    have once := arguments.nodup_targets tree
    rw [run]
    constructor
    · rw [checkFiles_eq_ofReports answered fun fixes => (apart fixes).pairwise once]
      rfl
    · intro target listed
      have alone : ∀ other ∈ [target], tree.Answers other := by
        simpa using answered target listed
      constructor
      · rw [checkFiles_eq_ofReports alone fun _ => List.pairwise_singleton _ _]
        rfl
      · rw [read_checkFiles answered once listed fun fixes other otherListed same =>
            apart fixes other otherListed target listed same,
          read_checkFiles alone (List.nodup_singleton _) (List.mem_singleton_self _)
            fun _ other otherListed _ => List.mem_singleton.mp otherListed]

/-! ## A check of files with faults -/

/-- A script of a call and a variable, which are out of order. -/
def swappedScript : Script where
  path := "swapped.ts"
  source := "run()\nconst n = ref()".toList
  statements :=
    [{ kind := .expression, start := 0, stop := 5, expression := some { kind := .call } },
     { kind := .variables, start := 6, stop := 21
       initializer := some { kind := .call, callee := some "ref" } }]

/-- The tree of the script that is out of order. -/
def swappedTree : Node :=
  let node := fun (kind : String) (start stop row : Nat) (children : List Node) =>
    { kind, start := ⟨start, row, 0⟩, stop := ⟨stop, row, 0⟩, children : Node }
  node "program" 0 21 0
    [node "expression_statement" 0 5 0 [node "call_expression" 0 5 0 []],
     node "lexical_declaration" 6 21 1
       [node "variable_declarator" 12 21 1
         [{ node "call_expression" 16 21 1
             [{ node "identifier" 16 19 1 [] with field := some "function" }] with
            field := some "value" }]]]

/-- A parser that makes sense only of texts that begin with that script. -/
def swappedParser : Parser := fun _ text =>
  { swappedTree with hasError := !swappedScript.source.isPrefixOf text }

/-- The script after its fix. -/
def unswapped : Text := "const n = ref()\n\nrun()".toList

/-- Where the script that is out of order stands. -/
def swappedPath : Path where
  names := ["swapped.ts"]

/-- The edit that puts the script in order. -/
def swappingEdit : Edit where
  path := "swapped.ts"
  start := 0
  stop := 21
  replacement := unswapped

theorem edits_planDocument_swapped :
    (planDocument swappedParser {} swappedPath.render swappedScript.source).edits =
      [swappingEdit] := by
  have read : Reading.ofDocument swappedParser swappedPath.render swappedScript.source =
      .script swappedScript := rfl
  have planned : swappedScript.edit? {} = some swappingEdit := by cbv
  rw [planDocument, read, Reading.plan, Script.edits_plan, planned, Option.toList_some]

theorem written_ofTarget_swapped {tree : FileTree} {arguments : CheckArguments}
    (fixes : arguments.fix = true)
    (readable : tree.read swappedPath = .ok (Text.encode swappedScript.source)) :
    (Report.ofTarget swappedParser {} arguments swappedPath tree).written =
      some (Text.encode unswapped) := by
  have found : tree.readText swappedPath = .ok (.ok swappedScript.source) :=
    FileTree.readText_eq_ok_ok_iff.mpr ⟨rfl, _, readable, Text.ofBytes?_encode _⟩
  rw [Report.ofTarget_of_readText found, Report.written_ofRead_eq_some_iff]
  refine ⟨fixes, _, rfl, ?_, ?_⟩
  · rw [edits_planDocument_swapped]
    exact List.cons_ne_nil _ _
  · rw [edits_planDocument_swapped, applyEdits_singleton]
    rfl

theorem read_checkFiles_swapped {tree : FileTree} {arguments : CheckArguments}
    (fixes : arguments.fix = true)
    (readable : tree.read swappedPath = .ok (Text.encode swappedScript.source)) :
    (checkFiles swappedParser {} tree arguments [swappedPath]).tree.read swappedPath =
      .ok (Text.encode unswapped) := by
  have answers : tree.Answers swappedPath :=
    (FileTree.answers_iff_of_text readable (Text.ofBytes?_encode _)).mpr rfl
  rw [read_checkFiles (by simpa using answers) (List.nodup_singleton _)
    (List.mem_singleton_self _) fun _ other listed _ => List.mem_singleton.mp listed, Report.left,
    written_ofTarget_swapped fixes readable]

/-- Files of which one makes no sense and one is out of order. -/
def mixedTree : FileTree where
  entries :=
    [("faulty.ts", .file (Text.encode "?".toList)),
     ("swapped.ts", .file (Text.encode swappedScript.source))]

/-- A check of these files and of one that is missing. -/
def mixedArguments : CheckArguments where
  paths := [{ names := ["faulty.ts"] }, { names := ["missing.ts"] }, swappedPath]
  fix := true

theorem targets_mixed : mixedArguments.targets mixedTree = mixedArguments.paths :=
  CheckArguments.targets_eq_searched (by decide) (by decide) (by decide)

theorem workable_mixed : mixedArguments.Workable mixedTree := by
  refine ⟨by decide, by decide, ?_⟩
  rw [targets_mixed]
  simp only [mixedArguments, List.forall_mem_cons, List.not_mem_nil, false_implies, implies_true,
    and_true]
  refine ⟨⟨rfl, fun bytes readable => ?_⟩, ⟨rfl, fun bytes readable => ?_⟩,
    ⟨rfl, fun bytes readable => ?_⟩⟩
  · cases readable
    exact ⟨_, Utf8.decode?_eq_some_iff.mpr rfl⟩
  · cases readable
  · cases readable
    exact ⟨_, Utf8.decode?_eq_some_iff.mpr rfl⟩

theorem check_isolates_targets_mixed :
    mixedArguments.Workable mixedTree ∧ mixedTree.Apart (mixedArguments.targets mixedTree) ∧
      (check swappedParser mixedTree mixedArguments).failure = none ∧
      (check swappedParser mixedTree mixedArguments).tree.read swappedPath =
        .ok (Text.encode unswapped) := by
  have apart : mixedTree.Apart (mixedArguments.targets mixedTree) := by
    rw [targets_mixed]
    decide
  have listed : swappedPath ∈ mixedArguments.targets mixedTree := by
    rw [targets_mixed]
    decide
  obtain ⟨ended, _, isolated⟩ :=
    check_isolates_targets swappedParser {} mixedTree mixedArguments rfl
  obtain ⟨_, alone⟩ := isolated workable_mixed fun _ => apart
  refine ⟨workable_mixed, apart, ended.mpr workable_mixed, ?_⟩
  rw [(alone swappedPath listed).2]
  exact read_checkFiles_swapped rfl rfl

/-- Files of which one is no text and one is out of order. -/
def undecodableTree : FileTree where
  entries := [("broken.ts", .file [0xff]), ("swapped.ts", .file (Text.encode swappedScript.source))]

/-- A check that is to fix both files. -/
def undecodableArguments : CheckArguments where
  paths := [{ names := ["broken.ts"] }, swappedPath]
  fix := true

/-- A file that is no text ends a check, and the files behind it are not fixed. -/
theorem check_stops_at_undecodable :
    (check swappedParser undecodableTree undecodableArguments).failure = some .notText ∧
      (check swappedParser undecodableTree undecodableArguments).tree.read swappedPath =
        .ok (Text.encode swappedScript.source) ∧
      (checkFiles swappedParser {} undecodableTree undecodableArguments
        [swappedPath]).tree.read swappedPath = .ok (Text.encode unswapped) := by
  have targets : undecodableArguments.targets undecodableTree = undecodableArguments.paths :=
    CheckArguments.targets_eq_searched (by decide) (by decide) (by decide)
  have broken : undecodableTree.readText { names := ["broken.ts"] } = .error .notText := by
    have readable : undecodableTree.read { names := ["broken.ts"] } = .ok [0xff] := rfl
    have undecoded : Text.ofBytes? [0xff] = none := by cbv
    rw [FileTree.readText, readable, if_neg (by decide)]
    dsimp only
    rw [undecoded]
  have stopped : check swappedParser undecodableTree undecodableArguments =
      Progress.fail (.start undecodableTree undecodableArguments 2) .notText := by
    have resolved : Config.resolve undecodableTree (some undecodableArguments.root)
        undecodableArguments.config [] = .ok {} := rfl
    rw [check_of_resolved resolved, if_neg (by decide), if_neg (by decide), targets]
    exact checkFiles_cons_of_unanswered broken
  rw [stopped]
  exact ⟨rfl, rfl, read_checkFiles_swapped rfl rfl⟩

end DeclOrder

import DeclOrder.Proofs.CheckOutcomes
import DeclOrder.Proofs.EmbeddedBodies

/-!
# Exit codes and writes

The exit code of a check says whether a target was unusable, or else whether one is left out of
order.  Files are written only if that is asked for, and only those that have an edit.
-/

namespace DeclOrder

/-- The parser could not make sense of the script of a document. -/
def HasFaultyTree (parser : Parser) (path : String) (document : Text) : Prop :=
  ∃ kind extract, SourceKind.ofPath? (Path.ofString path) = some kind ∧
    kind.extract? (Path.ofString path) document = some extract ∧
    (parser extract.grammar extract.text).hasError = true

namespace FileTree

/-- A target that cannot be read, or that has a script with a faulty tree. -/
def Unusable (tree : FileTree) (parser : Parser) (target : Path) : Prop :=
  (∃ error, tree.readText target = .ok (.error error)) ∨
    ∃ text, tree.readText target = .ok (.ok text) ∧ HasFaultyTree parser target.render text

/-- A target whose plan has a finding. -/
def Unordered (tree : FileTree) (parser : Parser) (options : Options) (target : Path) : Prop :=
  ∃ text, tree.readText target = .ok (.ok text) ∧
    (planDocument parser options target.render text).findings ≠ []

end FileTree

/-! ## Plans -/

/-- A document is broken exactly when the tree of its script is faulty. -/
theorem exists_ofDocument_eq_broken_iff {parser : Parser} {path : String} {document : Text} :
    (∃ error, Reading.ofDocument parser path document = .broken error) ↔
      HasFaultyTree parser path document := by
  unfold HasFaultyTree Reading.ofDocument Reading.ofKind
  cases SourceKind.ofPath? (Path.ofString path) with
  | none => simp
  | some kind =>
      cases found : kind.extract? (Path.ofString path) document with
      | none => simp [found]
      | some extract =>
          by_cases faulty : (parser extract.grammar extract.text).hasError = true
          · simp [found, Extract.parse_of_hasError path faulty, faulty]
          · simp [found, Extract.parse_of_sound path faulty, faulty]

theorem errors_planDocument_ne_nil_iff {parser : Parser} {options : Options} {path : String}
    {document : Text} :
    (planDocument parser options path document).errors ≠ [] ↔
      HasFaultyTree parser path document := by
  rw [← exists_ofDocument_eq_broken_iff, planDocument]
  cases Reading.ofDocument parser path document with
  | unsupported => simp [Reading.plan]
  | noScript => simp [Reading.plan]
  | broken error => simp [Reading.plan]
  | script script =>
      simp only [Reading.plan, Script.plan]
      cases script.edit? options <;> simp

theorem errors_planDocument_eq_nil {parser : Parser} {options : Options} {path : String}
    {document : Text} (sound : ¬HasFaultyTree parser path document) :
    (planDocument parser options path document).errors = [] := by
  by_contra faults
  exact sound (errors_planDocument_ne_nil_iff.mp faults)

/-- A document without an edit has no finding. -/
theorem findings_planDocument_eq_nil {parser : Parser} {options : Options} {path : String}
    {document : Text} (settled : (planDocument parser options path document).edits = []) :
    (planDocument parser options path document).findings = [] := by
  rw [planDocument] at settled ⊢
  cases read : Reading.ofDocument parser path document with
  | unsupported => rfl
  | noScript => rfl
  | broken error => rfl
  | script script =>
      rw [read, Reading.plan, Script.plan] at settled
      rw [Reading.plan, Script.plan]
      cases edit : script.edit? options with
      | none => rfl
      | some edit =>
          rw [edit] at settled
          cases settled

/-- A document with a faulty tree has no edit. -/
theorem edits_planDocument_eq_nil {parser : Parser} {options : Options} {path : String}
    {document : Text} (faulty : HasFaultyTree parser path document) :
    (planDocument parser options path document).edits = [] := by
  obtain ⟨error, read⟩ := exists_ofDocument_eq_broken_iff.mpr faulty
  rw [planDocument, read]
  rfl

/-! ## Reports -/

namespace Report

variable {parser : Parser} {options : Options} {arguments : CheckArguments} {tree : FileTree}
  {target : Path}

theorem failed_ofTarget_ne_zero_iff :
    (ofTarget parser options arguments target tree).failed ≠ 0 ↔ tree.Unusable parser target := by
  rw [ofTarget, FileTree.Unusable]
  cases tree.readText target with
  | error failure => simp
  | ok read =>
      cases read with
      | error error => simp [ofRead]
      | ok text => simpa [ofRead, ofText] using errors_planDocument_ne_nil_iff

theorem remaining_ofTarget_ne_zero_iff :
    (ofTarget parser options arguments target tree).remaining ≠ 0 ↔
      arguments.fix = false ∧ tree.Unordered parser options target := by
  rw [ofTarget, FileTree.Unordered]
  cases tree.readText target with
  | error failure => simp
  | ok read =>
      cases read with
      | error error => simp [ofRead]
      | ok text =>
          cases fix : arguments.fix with
          | false => simp [ofRead, ofText, fix]
          | true => simpa [ofRead, ofText, fix] using findings_planDocument_eq_nil

theorem written_ofTarget_eq_some_iff {content : Bytes} :
    (ofTarget parser options arguments target tree).written = some content ↔
      arguments.fix = true ∧ ∃ text, tree.readText target = .ok (.ok text) ∧
        (planDocument parser options target.render text).edits ≠ [] ∧
        content =
          Text.encode (applyEdits text (planDocument parser options target.render text).edits) := by
  rw [ofTarget]
  cases tree.readText target with
  | error failure => simp
  | ok read => simp only [written_ofRead_eq_some_iff, Except.ok.injEq]

end Report

/-- What is written to the targets, in their order. -/
def writesOf (report : Path → Report) (targets : List Path) : List (Path × Bytes) :=
  targets.filterMap fun target => (report target).written.map fun content => (target, content)

theorem mem_writesOf {report : Path → Report} {targets : List Path} {target : Path}
    {content : Bytes} :
    (target, content) ∈ writesOf report targets ↔
      target ∈ targets ∧ (report target).written = some content := by
  simp [writesOf]

theorem foldl_apply_eq_writeAll (report : Path → Report) (targets : List Path)
    (tree : FileTree) :
    targets.foldl (fun later target => later.apply target (report target)) tree =
      tree.writeAll (writesOf report targets) := by
  induction targets generalizing tree with
  | nil => rfl
  | cons target targets ih =>
      rw [List.foldl_cons, ih, FileTree.apply, writesOf, writesOf, List.filterMap_cons]
      cases (report target).written with
      | none => rfl
      | some content => rw [Option.map_some, FileTree.writeAll_cons]

theorem FileTree.not_unusable_of_edits {tree : FileTree} {parser : Parser} {options : Options}
    {target : Path} {text : Text} (found : tree.readText target = .ok (.ok text))
    (edited : (planDocument parser options target.render text).edits ≠ []) :
    ¬tree.Unusable parser target := by
  rintro (⟨error, unread⟩ | ⟨again, read, faulty⟩)
  · rw [found] at unread
    cases unread
  · rw [found] at read
    cases read
    exact edited (edits_planDocument_eq_nil faulty)

/-! ## Runs -/

theorem CheckOutcome.exitCode_ofReports_eq_two_iff (arguments : CheckArguments) (tree : FileTree)
    (reports : List Report) :
    (ofReports arguments tree reports).exitCode = 2 ↔ ∃ report ∈ reports, report.failed ≠ 0 := by
  simp only [ofReports, List.any_eq_true, decide_eq_true_eq]
  split_ifs with failed <;> simp [failed]

theorem CheckOutcome.exitCode_ofReports_eq_one_iff (arguments : CheckArguments) (tree : FileTree)
    (reports : List Report) :
    (ofReports arguments tree reports).exitCode = 1 ↔
      (¬∃ report ∈ reports, report.failed ≠ 0) ∧ ∃ report ∈ reports, report.remaining ≠ 0 := by
  simp only [ofReports, List.any_eq_true, decide_eq_true_eq]
  split_ifs with failed remaining
  · simp [failed]
  · simp [failed, remaining]
  · simp [remaining]

section Run

variable {parser : Parser} {options : Options} {tree : FileTree} {arguments : CheckArguments}
  {targets : List Path} (answered : ∀ target ∈ targets, tree.Answers target)
  (once : targets.Nodup) (apart : tree.Apart targets)

include answered once apart

theorem exitCode_checkFiles_eq_two_iff :
    (checkFiles parser options tree arguments targets).exitCode = 2 ↔
      ∃ target ∈ targets, tree.Unusable parser target := by
  rw [checkFiles_eq_ofReports answered fun _ => apart.pairwise once,
    CheckOutcome.exitCode_ofReports_eq_two_iff]
  simp only [List.mem_map, exists_exists_and_eq_and, Report.failed_ofTarget_ne_zero_iff]

theorem exitCode_checkFiles_eq_one_iff :
    (checkFiles parser options tree arguments targets).exitCode = 1 ↔
      (¬∃ target ∈ targets, tree.Unusable parser target) ∧ arguments.fix = false ∧
        ∃ target ∈ targets, tree.Unordered parser options target := by
  rw [checkFiles_eq_ofReports answered fun _ => apart.pairwise once,
    CheckOutcome.exitCode_ofReports_eq_one_iff]
  simp only [List.mem_map, exists_exists_and_eq_and, Report.failed_ofTarget_ne_zero_iff,
    Report.remaining_ofTarget_ne_zero_iff, exists_and_left, and_left_comm]

/-- A run leaves the tree with what is written to the targets. -/
theorem tree_checkFiles :
    (checkFiles parser options tree arguments targets).tree =
      tree.writeAll (writesOf (fun target => Report.ofTarget parser options arguments target tree)
        targets) := by
  rw [checkFiles_eq_ofReports answered fun _ => apart.pairwise once, foldl_apply_eq_writeAll]
  rfl

/-- Without fixes, a run leaves the tree as it is. -/
theorem tree_checkFiles_of_kept (kept : arguments.fix = false) :
    (checkFiles parser options tree arguments targets).tree = tree := by
  rw [tree_checkFiles answered once apart]
  have none : writesOf (fun target => Report.ofTarget parser options arguments target tree)
      targets = [] := by
    rw [List.eq_nil_iff_forall_not_mem]
    rintro ⟨target, content⟩ member
    obtain ⟨fixes, _⟩ := Report.written_ofTarget_eq_some_iff.mp (mem_writesOf.mp member).2
    rw [kept] at fixes
    cases fixes
  rw [none]
  rfl

end Run

/-! ## Checks -/

/-- The writes of a check: what is written to which targets, and what is read afterwards. -/
structure CheckOutcome.Writes (parser : Parser) (options : Options) (tree : FileTree)
    (arguments : CheckArguments) (outcome : CheckOutcome) (writes : List (Path × Bytes)) :
    Prop where
  tree_eq : outcome.tree = tree.writeAll writes
  mem_iff : ∀ target content, (target, content) ∈ writes ↔
    target ∈ arguments.targets tree ∧ arguments.fix = true ∧
      ∃ text, tree.readText target = .ok (.ok text) ∧
        (planDocument parser options target.render text).edits ≠ [] ∧
        content = Text.encode (applyEdits text
          (planDocument parser options target.render text).edits)
  usable : ∀ write ∈ writes, ¬tree.Unusable parser write.1
  read_written : ∀ write ∈ writes, outcome.tree.read write.1 = .ok write.2
  read_other : ∀ path, (∀ write ∈ writes, ¬tree.SameFile write.1 path) →
    outcome.tree.read path = tree.read path

theorem writes_checkFiles {parser : Parser} {options : Options} {tree : FileTree}
    {arguments : CheckArguments}
    (answered : ∀ target ∈ arguments.targets tree, tree.Answers target)
    (apart : tree.Apart (arguments.targets tree)) :
    (checkFiles parser options tree arguments (arguments.targets tree)).Writes parser options tree
      arguments (writesOf (fun target => Report.ofTarget parser options arguments target tree)
        (arguments.targets tree)) := by
  have once := arguments.nodup_targets tree
  have tree_eq : (checkFiles parser options tree arguments (arguments.targets tree)).tree = _ :=
    tree_checkFiles answered once apart
  have mem_iff : ∀ target content, (target, content) ∈ writesOf (fun target =>
      Report.ofTarget parser options arguments target tree) (arguments.targets tree) ↔ _ :=
    fun target content => mem_writesOf.trans (and_congr_right' Report.written_ofTarget_eq_some_iff)
  refine ⟨tree_eq, mem_iff, ?_, ?_, ?_⟩
  · rintro ⟨target, content⟩ member
    obtain ⟨_, _, text, found, edited, _⟩ := (mem_iff target content).mp member
    exact FileTree.not_unusable_of_edits found edited
  · rintro ⟨target, content⟩ member
    obtain ⟨listed, written⟩ := mem_writesOf.mp member
    rw [read_checkFiles answered once listed fun _ other otherListed same =>
      apart other otherListed target listed same, Report.left, written]
  · intro path untouched
    rw [tree_eq]
    refine FileTree.read_writeAll_of_untouched ?_ untouched
    rintro ⟨target, content⟩ member
    obtain ⟨_, _, text, found, _⟩ := (mem_iff target content).mp member
    obtain ⟨_, bytes, readable, _⟩ := FileTree.readText_eq_ok_ok_iff.mp found
    exact ⟨bytes, readable⟩

/-- The exit code of a check, and what it writes.  Refused options end it with the exit code two
before any target is looked at.  Otherwise, if nothing stands in its way and the targets are files
of their own, the exit code is two exactly when a target is unusable, else one exactly when nothing
is to be fixed and a target is out of order.  Files are written exactly when they are to be fixed
and have an edit, and nothing else changes. -/
theorem check_exitCode_and_writes (parser : Parser) (tree : FileTree) (arguments : CheckArguments) :
    (∀ error, (∀ path ∈ arguments.allPaths, path.hasNull = false) →
      Config.resolve tree (some arguments.root) arguments.config [] = .error (.refused error) →
        check parser tree arguments = { exitCode := 2, err := [printed error.message], tree }) ∧
    ∀ options, Config.resolve tree (some arguments.root) arguments.config [] = .ok options →
      arguments.Workable tree → tree.Apart (arguments.targets tree) →
        (check parser tree arguments).failure = none ∧
        (check parser tree arguments).exitCode ≤ 2 ∧
        ((check parser tree arguments).exitCode = 2 ↔
          ∃ target ∈ arguments.targets tree, tree.Unusable parser target) ∧
        ((check parser tree arguments).exitCode = 1 ↔
          (¬∃ target ∈ arguments.targets tree, tree.Unusable parser target) ∧
            arguments.fix = false ∧
            ∃ target ∈ arguments.targets tree, tree.Unordered parser options target) ∧
        (arguments.fix = false → (check parser tree arguments).tree = tree) ∧
        ∃ writes, (check parser tree arguments).Writes parser options tree arguments writes := by
  refine ⟨fun error named refused => ?_, fun options resolved workable apart => ?_⟩
  · have noNull : ¬(arguments.allPaths.any Path.hasNull = true) := by
      simpa using named
    rw [check, if_neg noNull, refused]
  · obtain ⟨run, answered⟩ : check parser tree arguments = _ ∧ _ :=
      check_of_workable resolved workable
    have once := arguments.nodup_targets tree
    rw [run]
    exact ⟨(failure_checkFiles_eq_none_iff _).mpr answered, exitCode_checkFiles_le _,
      exitCode_checkFiles_eq_two_iff answered once apart,
      exitCode_checkFiles_eq_one_iff answered once apart,
      tree_checkFiles_of_kept answered once apart, _, writes_checkFiles answered apart⟩

theorem check_exitCode_and_writes_mixed :
    mixedArguments.Workable mixedTree ∧ mixedTree.Apart (mixedArguments.targets mixedTree) ∧
      (check swappedParser mixedTree mixedArguments).exitCode = 2 ∧
      ∃ writes, (check swappedParser mixedTree mixedArguments).Writes swappedParser {} mixedTree
        mixedArguments writes ∧ (swappedPath, Text.encode unswapped) ∈ writes := by
  have apart : mixedTree.Apart (mixedArguments.targets mixedTree) := by
    rw [targets_mixed]
    decide
  have missing : { names := ["missing.ts"] } ∈ mixedArguments.targets mixedTree := by
    rw [targets_mixed]
    decide
  have listed : swappedPath ∈ mixedArguments.targets mixedTree := by
    rw [targets_mixed]
    decide
  obtain ⟨_, _, two, _, _, writes, written⟩ :=
    (check_exitCode_and_writes swappedParser mixedTree mixedArguments).2 {} rfl workable_mixed apart
  refine ⟨workable_mixed, apart, two.mpr ⟨_, missing, .inl ⟨.missing, rfl⟩⟩, writes, written, ?_⟩
  exact (written.mem_iff _ _).mpr ⟨listed,
    Report.written_ofTarget_eq_some_iff.mp (written_ofTarget_swapped rfl rfl)⟩

theorem FileTree.locate_of_overlong {name : String} (long : longestName < name.utf8ByteSize) :
    locate {} { names := [name] } = .error .tooLong := by
  rw [locate]
  split
  · rfl
  · show (if longestName < name.utf8ByteSize then _ else _) = _
    rw [if_pos long]

/-- The name of a component, of so many letters before its extension. -/
def longName (count : Nat) : String :=
  String.ofList (List.replicate count 'x' ++ ['.', 'v', 'u', 'e'])

theorem le_utf8ByteSize_longName (count : Nat) : count ≤ (longName count).utf8ByteSize := by
  rw [longName, String.utf8ByteSize_ofList]
  induction count with
  | zero => exact Nat.zero_le _
  | succ count ih =>
      rw [List.replicate_succ, List.cons_append, String.utf8Len_cons]
      exact Nat.add_le_add ih (Char.utf8Size_pos _)

theorem hasNull_longName (count : Nat) : Path.hasNull { names := [longName count] } = false := by
  simp [Path.hasNull, longName, List.mem_replicate]

/-- A path that is too long to be read ends a check by a failure, and not with the exit code of a
target that cannot be read. -/
theorem check_fails_at_overlong_name :
    FileTree.readText {} { names := [longName 256] } = .ok (.error .tooLong) ∧
      (check swappedParser {} { paths := [{ names := [longName 256] }] }).failure =
        some .pathTooLong ∧
      (check swappedParser {} { paths := [{ names := [longName 256] }] }).exitCode = 1 := by
  have located : FileTree.locate {} { names := [longName 256] } = .error .tooLong :=
    FileTree.locate_of_overlong (Nat.lt_of_lt_of_le (by decide) (le_utf8ByteSize_longName 256))
  have failed : check swappedParser {} { paths := [{ names := [longName 256] }] } =
      Progress.fail { tree := {} } .pathTooLong := by
    have resolved : Config.resolve {} (some { names := [] }) none [] = .ok {} := rfl
    rw [check_of_resolved resolved, if_neg, if_pos]
    · simp [CheckArguments.searched, FileTree.isUnanswerable, hasNull_longName, located]
    · simp only [CheckArguments.allPaths, Option.toList_none, List.nil_append, List.cons_append,
        List.any_cons, hasNull_longName]
      decide
  rw [failed]
  refine ⟨?_, rfl, rfl⟩
  rw [FileTree.readText, hasNull_longName, FileTree.read_eq, located]
  rfl

end DeclOrder

import DeclOrder.Check
import DeclOrder.Proofs.FileWrites

/-!
# Reports about targets

A check takes its targets one after the other.  What one target adds to it depends on what is read
from that target alone: the lines about it, its response, what it counts as, and what is written to
it.
-/

namespace DeclOrder

/-- What a check says about one target, and what it writes to it. -/
structure Report where
  out : List String := []
  err : List String := []
  responses : List Response := []
  remaining : Nat := 0
  failed : Nat := 0
  written : Option Bytes := none

namespace Report

section

variable (parser : Parser) (options : Options) (arguments : CheckArguments) (path : Path)

/-- The report about a target that was read as a text. -/
def ofText (text : Text) : Report :=
  let plan := planDocument parser options path.render text
  let events := (Reading.ofDocument parser path.render text).events options path.render
  let rewrites := arguments.fix && !plan.edits.isEmpty
  { out :=
      if arguments.json then []
      else if rewrites then [printed ("Fixed " ++ path.render)]
      else (plan.findings.map Finding.render).map printed
    err := (if arguments.verbose then events.map Event.render else []) ++
      if arguments.json then [] else plan.errors.map printed
    responses := [Response.ofPlan path.render text plan]
    remaining := if rewrites then 0 else plan.findings.length
    failed := plan.errors.length
    written := if rewrites then some (Text.encode (applyEdits text plan.edits)) else none }

/-- The report about a target, by what came of reading it. -/
def ofRead : Except ReadError Text → Report
  | .error error =>
    { err := [printed (path.render ++ ": failed to read: " ++ error.message path)]
      failed := 1 }
  | .ok text => ofText parser options arguments path text

/-- The report about a target of a tree; there is nothing to report when reading it fails. -/
def ofTarget (tree : FileTree) : Report :=
  match tree.readText path with
  | .error _ => {}
  | .ok read => ofRead parser options arguments path read

variable {parser options arguments path}

/-- What is written to a target: its text after the planned edits, if it is to be fixed and there
are any. -/
theorem written_ofRead_eq_some_iff {read : Except ReadError Text} {content : Bytes} :
    (ofRead parser options arguments path read).written = some content ↔
      arguments.fix = true ∧ ∃ text, read = .ok text ∧
        (planDocument parser options path.render text).edits ≠ [] ∧
        content =
          Text.encode (applyEdits text (planDocument parser options path.render text).edits) := by
  cases read with
  | error error => simp [ofRead]
  | ok text =>
      simp only [ofRead, ofText, Option.ite_none_right_eq_some, Bool.and_eq_true, Bool.not_eq_true',
        List.isEmpty_eq_false_iff, Option.some.injEq, Except.ok.injEq, exists_eq_left', and_assoc,
        eq_comm (a := content)]

end

/-- What a target holds after its report: what was written to it, or else what it held before. -/
def left (report : Report) (before : Except ReadError Bytes) : Except ReadError Bytes :=
  match report.written with
  | none => before
  | some content => .ok content

end Report

/-- A tree after what is to be written to a target was written. -/
def FileTree.apply (tree : FileTree) (path : Path) (report : Report) : FileTree :=
  match report.written with
  | none => tree
  | some content => tree.write path content

namespace Progress

/-- The progress after a target was reported about. -/
def add (progress : Progress) (path : Path) (report : Report) : Progress where
  tree := progress.tree.apply path report
  out := progress.out ++ report.out
  err := progress.err ++ report.err
  responses := progress.responses ++ report.responses
  remaining := progress.remaining + report.remaining
  failed := progress.failed + report.failed

theorem checkText_eq (parser : Parser) (options : Options) (arguments : CheckArguments)
    (progress : Progress) (path : Path) (text : Text) :
    progress.checkText parser options arguments path text =
      progress.add path (Report.ofText parser options arguments path text) := by
  rw [checkText, Report.ofText, planDocument]
  split
  · cases json : arguments.json <;> cases verbose : arguments.verbose <;>
      simp [add, note, complain, print, applyPlan, FileTree.apply, json, verbose]
  · cases json : arguments.json <;> cases verbose : arguments.verbose <;>
      simp [add, note, complain, print, reportFindings, FileTree.apply, json, verbose]

/-- What one target does to a check: nothing but adding its report, unless reading it fails. -/
theorem checkFile_eq (parser : Parser) (options : Options) (arguments : CheckArguments)
    (progress : Progress) (path : Path) :
    progress.checkFile parser options arguments path =
      match progress.tree.readText path with
      | .error failure => .error (failure, progress)
      | .ok read => .ok (progress.add path (Report.ofRead parser options arguments path read)) := by
  rw [checkFile]
  cases progress.tree.readText path with
  | error failure => rfl
  | ok read =>
      cases read with
      | error error => simp [complain, add, Report.ofRead, FileTree.apply]
      | ok text =>
          dsimp only
          rw [checkText_eq, Report.ofRead]

end Progress

/-! ## What writing to a target leaves alone -/

namespace FileTree

/-- Reading a path gives an answer: a text, or why there is none. -/
def Answers (tree : FileTree) (path : Path) : Prop :=
  ∃ read, tree.readText path = .ok read

theorem readText_congr {tree later : FileTree} {path : Path}
    (same : later.read path = tree.read path) : later.readText path = tree.readText path := by
  rw [readText, readText, same]

theorem readText_eq_ok_ok_iff {tree : FileTree} {path : Path} {text : Text} :
    tree.readText path = .ok (.ok text) ↔
      path.hasNull = false ∧ ∃ bytes, tree.read path = .ok bytes ∧
        Text.ofBytes? bytes = some text := by
  rw [readText]
  cases path.hasNull with
  | true => simp
  | false =>
      cases tree.read path with
      | error error => simp
      | ok bytes => cases decoded : Text.ofBytes? bytes <;> simp [decoded]

theorem answers_iff_of_text {tree : FileTree} {path : Path} {bytes : Bytes} {text : Text}
    (readable : tree.read path = .ok bytes) (decoded : Text.ofBytes? bytes = some text) :
    tree.Answers path ↔ path.hasNull = false := by
  rw [Answers, readText, readable]
  cases path.hasNull <;> simp [decoded]

variable (parser : Parser) (options : Options) (arguments : CheckArguments) {tree : FileTree}
  {path : Path} {read : Except ReadError Text} (found : tree.readText path = .ok read)

include found

/-- Whatever is written to a target is a text, and is written to a file that was read. -/
theorem apply_cases :
    tree.apply path (Report.ofRead parser options arguments path read) = tree ∨
      ∃ text bytes edited, arguments.fix = true ∧ read = .ok text ∧ tree.read path = .ok bytes ∧
        tree.apply path (Report.ofRead parser options arguments path read) =
          tree.write path (Text.encode edited) := by
  rw [apply]
  cases written : (Report.ofRead parser options arguments path read).written with
  | none => exact .inl rfl
  | some content =>
      obtain ⟨fixes, text, rfl, _, rfl⟩ := Report.written_ofRead_eq_some_iff.mp written
      obtain ⟨_, bytes, readable, _⟩ := readText_eq_ok_ok_iff.mp found
      exact .inr ⟨text, bytes, _, fixes, rfl, readable, rfl⟩

theorem read_apply_self :
    (tree.apply path (Report.ofRead parser options arguments path read)).read path =
      (Report.ofRead parser options arguments path read).left (tree.read path) := by
  rw [apply, Report.left]
  cases written : (Report.ofRead parser options arguments path read).written with
  | none => rfl
  | some content =>
      obtain ⟨_, text, rfl, _⟩ := Report.written_ofRead_eq_some_iff.mp written
      obtain ⟨_, bytes, readable, _⟩ := readText_eq_ok_ok_iff.mp found
      exact read_write_of_sameFile readable content (sameFile_self readable)

theorem locate_apply (other : Path) :
    (tree.apply path (Report.ofRead parser options arguments path read)).locate other =
      tree.locate other := by
  rcases apply_cases parser options arguments found with same |
    ⟨_, _, edited, _, _, readable, same⟩
  · rw [same]
  · rw [same, locate_write readable]

theorem sameFile_apply_iff (first second : Path) :
    (tree.apply path (Report.ofRead parser options arguments path read)).SameFile first second ↔
      tree.SameFile first second := by
  rw [SameFile, SameFile, locate_apply parser options arguments found,
    locate_apply parser options arguments found]

/-- Nothing is written but to the file of the target, and to that only if files are to be fixed. -/
theorem read_apply_of_untouched {other : Path}
    (untouched : arguments.fix = true → ¬tree.SameFile path other) :
    (tree.apply path (Report.ofRead parser options arguments path read)).read other =
      tree.read other := by
  rcases apply_cases parser options arguments found with same |
    ⟨_, _, edited, fixes, _, readable, same⟩
  · rw [same]
  · rw [same, read_write_of_not_sameFile readable _ (untouched fixes)]

/-- Writing to a target makes no path unreadable, nor does it make one readable. -/
theorem answers_apply_iff (other : Path) :
    (tree.apply path (Report.ofRead parser options arguments path read)).Answers other ↔
      tree.Answers other := by
  rcases apply_cases parser options arguments found with same |
    ⟨text, bytes, edited, _, rfl, readable, same⟩
  · rw [same]
  · rw [same]
    by_cases shared : tree.SameFile path other
    · obtain ⟨_, _, again, decoded⟩ := readText_eq_ok_ok_iff.mp found
      rw [readable, Except.ok.injEq] at again
      subst again
      rw [answers_iff_of_text (read_of_sameFile shared readable) decoded,
        answers_iff_of_text (read_write_of_sameFile readable _ shared) (Text.ofBytes?_encode _)]
    · rw [Answers, Answers, readText_congr (read_write_of_not_sameFile readable _ shared)]

end FileTree

/-! ## What a run of targets comes to -/

theorem Report.ofTarget_of_readText {parser : Parser} {options : Options}
    {arguments : CheckArguments} {path : Path} {tree : FileTree} {read : Except ReadError Text}
    (found : tree.readText path = .ok read) :
    ofTarget parser options arguments path tree = ofRead parser options arguments path read := by
  rw [ofTarget, found]

theorem Report.ofTarget_congr {parser : Parser} {options : Options} {arguments : CheckArguments}
    {path : Path} {tree later : FileTree} (same : later.readText path = tree.readText path) :
    ofTarget parser options arguments path later = ofTarget parser options arguments path tree := by
  rw [ofTarget, ofTarget, same]

namespace Progress

variable {parser : Parser} {options : Options} {arguments : CheckArguments}

/-- A run takes its first target, which must give an answer, and goes on from there. -/
theorem foldlM_cons_eq_ok_iff {target : Path} {targets : List Path} {progress final : Progress} :
    (target :: targets).foldlM (checkFile parser options arguments) progress = .ok final ↔
      ∃ read, progress.tree.readText target = .ok read ∧
        targets.foldlM (checkFile parser options arguments)
          (progress.add target (Report.ofRead parser options arguments target read)) =
            .ok final := by
  rw [List.foldlM_cons, checkFile_eq]
  cases progress.tree.readText target <;> simp [bind, Except.bind]

/-- A run comes to its end exactly when reading every target gives an answer. -/
theorem exists_foldlM_checkFile_iff (targets : List Path) (progress : Progress) :
    (∃ final, targets.foldlM (checkFile parser options arguments) progress = .ok final) ↔
      ∀ target ∈ targets, progress.tree.Answers target := by
  induction targets generalizing progress with
  | nil => simp [pure, Except.pure]
  | cons target targets ih =>
      rw [List.forall_mem_cons]
      simp only [foldlM_cons_eq_ok_iff]
      constructor
      · rintro ⟨final, read, found, run⟩
        refine ⟨⟨read, found⟩, fun other member => ?_⟩
        rw [← FileTree.answers_apply_iff parser options arguments found]
        exact (ih _).mp ⟨final, run⟩ other member
      · rintro ⟨⟨read, found⟩, answered⟩
        obtain ⟨final, run⟩ := (ih (progress.add target
          (Report.ofRead parser options arguments target read))).mpr fun other member =>
            (FileTree.answers_apply_iff parser options arguments found other).mpr
              (answered other member)
        exact ⟨final, read, found, run⟩

/-- Where every target is a file of its own, a run adds the reports that the targets get from the
tree it started with. -/
theorem foldlM_checkFile_eq {targets : List Path} {progress : Progress}
    (answered : ∀ target ∈ targets, progress.tree.Answers target)
    (apart : arguments.fix = true → targets.Pairwise fun first second =>
      ¬progress.tree.SameFile first second) :
    targets.foldlM (checkFile parser options arguments) progress =
      .ok (targets.foldl (fun progress' target => progress'.add target
        (Report.ofTarget parser options arguments target progress.tree)) progress) := by
  induction targets generalizing progress with
  | nil => rfl
  | cons target targets ih =>
      obtain ⟨read, found⟩ := answered target List.mem_cons_self
      have apartHead := fun fixes => (List.pairwise_cons.mp (apart fixes)).1
      have apartTail := fun fixes => (List.pairwise_cons.mp (apart fixes)).2
      have kept : ∀ other ∈ targets,
          (progress.tree.apply target (Report.ofRead parser options arguments target read)).readText
            other = progress.tree.readText other := by
        intro other member
        exact FileTree.readText_congr (FileTree.read_apply_of_untouched parser options arguments
          found fun fixes => apartHead fixes other member)
      rw [List.foldlM_cons, checkFile_eq, found, List.foldl_cons,
        Report.ofTarget_of_readText found]
      show targets.foldlM _ (progress.add target _) = _
      rw [ih]
      · congr 1
        apply List.foldl_ext
        intro later other member
        exact congrArg (later.add other) (Report.ofTarget_congr (kept other member))
      · intro other member
        exact (FileTree.answers_apply_iff parser options arguments found other).mpr
          (answered other (List.mem_cons_of_mem _ member))
      · intro fixes
        refine (apartTail fixes).imp fun {first second} different same => ?_
        exact different ((FileTree.sameFile_apply_iff parser options arguments found _ _).mp same)

/-- The progress after targets were reported about, part by part. -/
theorem foldl_add (report : Path → Report) (targets : List Path) (progress : Progress) :
    targets.foldl (fun progress target => progress.add target (report target)) progress =
      { tree := targets.foldl (fun tree target => tree.apply target (report target)) progress.tree
        out := progress.out ++ targets.flatMap fun target => (report target).out
        err := progress.err ++ targets.flatMap fun target => (report target).err
        responses := progress.responses ++ targets.flatMap fun target => (report target).responses
        remaining := progress.remaining + (targets.map fun target => (report target).remaining).sum
        failed := progress.failed + (targets.map fun target => (report target).failed).sum } := by
  induction targets generalizing progress with
  | nil => simp
  | cons target targets ih =>
      rw [List.foldl_cons, ih]
      simp [add, Nat.add_assoc]

/-- A run changes no file but those of its targets, and these only if files are to be fixed. -/
theorem read_foldlM_of_untouched {targets : List Path} {progress final : Progress}
    (run : targets.foldlM (checkFile parser options arguments) progress = .ok final) {path : Path}
    (untouched : arguments.fix = true → ∀ target ∈ targets, ¬progress.tree.SameFile target path) :
    final.tree.read path = progress.tree.read path := by
  induction targets generalizing progress with
  | nil =>
      cases run
      rfl
  | cons target targets ih =>
      obtain ⟨read, found, run⟩ := foldlM_cons_eq_ok_iff.mp run
      rw [ih run]
      · exact FileTree.read_apply_of_untouched parser options arguments found
          fun fixes => untouched fixes target List.mem_cons_self
      · intro fixes other member same
        exact untouched fixes other (List.mem_cons_of_mem _ member)
          ((FileTree.sameFile_apply_iff parser options arguments found _ _).mp same)

theorem sameFile_foldlM_iff {targets : List Path} {progress final : Progress}
    (run : targets.foldlM (checkFile parser options arguments) progress = .ok final)
    (first second : Path) :
    final.tree.SameFile first second ↔ progress.tree.SameFile first second := by
  induction targets generalizing progress with
  | nil =>
      cases run
      rfl
  | cons target targets ih =>
      obtain ⟨read, found, run⟩ := foldlM_cons_eq_ok_iff.mp run
      rw [ih run]
      exact FileTree.sameFile_apply_iff parser options arguments found _ _

/-- A file that is a target under one name only is left as the report about it has it. -/
theorem read_foldlM_of_sole {targets : List Path} {progress final : Progress}
    (run : targets.foldlM (checkFile parser options arguments) progress = .ok final)
    (once : targets.Nodup) {target : Path} (listed : target ∈ targets)
    (sole : arguments.fix = true → ∀ other ∈ targets,
      progress.tree.SameFile other target → other = target) :
    final.tree.read target =
      (Report.ofTarget parser options arguments target progress.tree).left
        (progress.tree.read target) := by
  obtain ⟨before, behind, rfl⟩ := List.append_of_mem listed
  rw [List.nodup_append, List.nodup_cons] at once
  obtain ⟨_, ⟨notBehind, _⟩, apart⟩ := once
  rw [List.foldlM_append] at run
  cases first : before.foldlM (checkFile parser options arguments) progress with
  | error failure =>
      rw [first] at run
      cases run
  | ok middle =>
      rw [first] at run
      obtain ⟨read, found, rest⟩ := foldlM_cons_eq_ok_iff.mp run
      -- Neither the targets before nor those behind have anything to do with the file.
      have kept : middle.tree.read target = progress.tree.read target := by
        refine read_foldlM_of_untouched first fun fixes other member same => ?_
        exact apart other member target List.mem_cons_self
          (sole fixes other (List.mem_append_left _ member) same)
      rw [read_foldlM_of_untouched rest, Report.ofTarget_of_readText
        ((FileTree.readText_congr kept).symm.trans found), ← kept]
      · exact FileTree.read_apply_self parser options arguments found
      · intro fixes other member same
        have earlier := (sameFile_foldlM_iff first _ _).mp
          ((FileTree.sameFile_apply_iff parser options arguments found _ _).mp same)
        have equal := sole fixes other
          (List.mem_append_right _ (List.mem_cons_of_mem _ member)) earlier
        exact notBehind (equal ▸ member)

/-- A run that fails has come as far as the targets before the failing one bring it. -/
theorem exists_prefix_of_failed {targets : List Path} {progress reached : Progress}
    {failure : Failure}
    (run : targets.foldlM (checkFile parser options arguments) progress =
      .error (failure, reached)) :
    ∃ done, done <+: targets ∧
      done.foldlM (checkFile parser options arguments) progress = .ok reached := by
  induction targets generalizing progress with
  | nil => cases run
  | cons target targets ih =>
      rw [List.foldlM_cons, checkFile_eq] at run
      cases found : progress.tree.readText target with
      | error failure =>
          rw [found] at run
          cases run
          exact ⟨[], List.nil_prefix, rfl⟩
      | ok read =>
          rw [found] at run
          obtain ⟨done, before, rest⟩ := ih run
          exact ⟨target :: done, List.cons_prefix_cons.mpr ⟨rfl, before⟩,
            foldlM_cons_eq_ok_iff.mpr ⟨read, found, rest⟩⟩

end Progress

end DeclOrder

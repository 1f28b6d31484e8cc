import DeclOrder.Proofs.ExitCodes

/-!
# Rewritten files

A file that a check rewrites gets the rendered text in the place of its declarations.  What stands
around them stays, but for its line ends: every one of them becomes a line feed.
-/

namespace DeclOrder

/-- A document with an edit has a script, and its one edit is that of the script. -/
theorem exists_script_of_edits {parser : Parser} {options : Options} {path : String} {text : Text}
    (edited : (planDocument parser options path text).edits ≠ []) :
    ∃ script edit, Reading.ofDocument parser path text = .script script ∧
      script.edit? options = some edit ∧ (planDocument parser options path text).edits = [edit] := by
  rw [planDocument] at edited ⊢
  cases read : Reading.ofDocument parser path text with
  | unsupported =>
      rw [read] at edited
      exact absurd rfl edited
  | noScript =>
      rw [read] at edited
      exact absurd rfl edited
  | broken error =>
      rw [read] at edited
      exact absurd rfl edited
  | script script =>
      rw [read, Reading.plan, Script.edits_plan] at edited
      cases planned : script.edit? options with
      | none =>
          rw [planned] at edited
          exact absurd rfl edited
      | some edit =>
          refine ⟨script, edit, rfl, planned, ?_⟩
          rw [Reading.plan, Script.edits_plan, planned, Option.toList_some]

/-! ## Files that change -/

section

variable {parser : Parser} {options : Options} {tree : FileTree} {arguments : CheckArguments}
  {targets : List Path} {path : Path}

/-- Whatever a run comes to, its tree is that of a run over some of its first targets. -/
theorem exists_prefix_checkFiles (parser : Parser) (options : Options) (tree : FileTree)
    (arguments : CheckArguments) (targets : List Path) :
    ∃ done final, done <+: targets ∧
      done.foldlM (Progress.checkFile parser options arguments)
        (.start tree arguments targets.length) = .ok final ∧
      (checkFiles parser options tree arguments targets).tree = final.tree := by
  rw [checkFiles, Progress.note_eq_start]
  cases run : targets.foldlM (Progress.checkFile parser options arguments)
      (.start tree arguments targets.length) with
  | ok final => exact ⟨targets, final, List.prefix_rfl, run, rfl⟩
  | error failed =>
      obtain ⟨failure, reached⟩ := failed
      obtain ⟨done, before, rest⟩ := Progress.exists_prefix_of_failed run
      exact ⟨done, reached, before, rest, rfl⟩

/-- A file that goes by no other name among the targets is left as its own report has it, or as it
was. -/
theorem read_checkFiles_cases (once : targets.Nodup)
    (sole : ∀ other ∈ targets, tree.SameFile other path → other = path) :
    (checkFiles parser options tree arguments targets).tree.read path = tree.read path ∨
      path ∈ targets ∧ (checkFiles parser options tree arguments targets).tree.read path =
        (Report.ofTarget parser options arguments path tree).left (tree.read path) := by
  obtain ⟨done, final, before, run, same⟩ :=
    exists_prefix_checkFiles parser options tree arguments targets
  rw [same]
  by_cases listed : path ∈ done
  · refine .inr ⟨before.subset listed, ?_⟩
    exact Progress.read_foldlM_of_sole run (once.sublist before.sublist) listed
      fun _ other otherListed => sole other (before.subset otherListed)
  · refine .inl (Progress.read_foldlM_of_untouched run fun _ other otherListed shared => ?_)
    exact listed (sole other (before.subset otherListed) shared ▸ otherListed)

/-- A check without options, or without targets, leaves the tree as it is. -/
theorem tree_check_cases (parser : Parser) (tree : FileTree) (arguments : CheckArguments) :
    (check parser tree arguments).tree = tree ∨
      ∃ options, Config.resolve tree (some arguments.root) arguments.config [] = .ok options ∧
        (check parser tree arguments).tree =
          (checkFiles parser options tree arguments (arguments.targets tree)).tree := by
  cases resolved : Config.resolve tree (some arguments.root) arguments.config [] with
  | error error =>
      left
      rw [check, resolved]
      split
      · rfl
      · cases error <;> rfl
  | ok options =>
      rw [check_of_resolved resolved]
      split_ifs
      · exact .inl rfl
      · exact .inl rfl
      · exact .inr ⟨options, rfl, rfl⟩

/-- A check that changes a file does so by the edits of its text. -/
theorem exists_edits_of_changed {bytes : Bytes} (readable : tree.read path = .ok bytes)
    (sole : ∀ other ∈ arguments.targets tree, tree.SameFile other path → other = path)
    (changed : (check parser tree arguments).tree.read path ≠ .ok bytes) :
    ∃ options text,
      Config.resolve tree (some arguments.root) arguments.config [] = .ok options ∧
      tree.readText path = .ok (.ok text) ∧
      (planDocument parser options path.render text).edits ≠ [] ∧
      (check parser tree arguments).tree.read path = .ok (Text.encode (applyEdits text
        (planDocument parser options path.render text).edits)) := by
  rcases tree_check_cases parser tree arguments with same | ⟨options, resolved, same⟩
  · rw [same, readable] at changed
    exact absurd rfl changed
  · rw [same] at changed ⊢
    rcases read_checkFiles_cases (arguments.nodup_targets tree) sole with kept | ⟨_, left⟩
    · rw [kept, readable] at changed
      exact absurd rfl changed
    · rw [left, Report.left] at changed ⊢
      cases written : (Report.ofTarget parser options arguments path tree).written with
      | none =>
          rw [written, readable] at changed
          exact absurd rfl changed
      | some content =>
          obtain ⟨_, text, found, edited, rfl⟩ := Report.written_ofTarget_eq_some_iff.mp written
          exact ⟨options, text, resolved, found, edited, rfl⟩

end

/-! ## What stands around the declarations -/

/-- The part of a text that its unified form has before a bound. -/
def Text.rawUpTo (text : Text) (bound : Int) : Text :=
  text.take (text.rawCount (place text.unifyLineEnds.length bound))

/-- The part of a text that its unified form has from a bound on. -/
def Text.rawOnward (text : Text) (bound : Int) : Text :=
  text.drop (text.rawCount (place text.unifyLineEnds.length bound))

theorem Text.unifyLineEnds_rawUpTo (text : Text) (bound : Int) :
    (text.rawUpTo bound).unifyLineEnds = text.unifyLineEnds.upTo bound :=
  (unifyLineEnds_cut text _).1

theorem Text.unifyLineEnds_rawOnward (text : Text) (bound : Int) :
    (text.rawOnward bound).unifyLineEnds = text.unifyLineEnds.onward bound :=
  (unifyLineEnds_cut text _).2

theorem Text.encode_rawUpTo_append (text : Text) (bound : Int) :
    encode (text.rawUpTo bound) ++ encode (text.rawOnward bound) = encode text := by
  rw [← encode_append, rawUpTo, rawOnward, List.take_append_drop]

/-- What a check does to a file that it changes.  The edit replaces the declarations, from the first
to the last one.  The bytes around them stay up to their line ends, and stay as they are exactly when
no carriage return is among them. -/
theorem check_replaces_declarations (parser : Parser) (tree : FileTree)
    (arguments : CheckArguments) (path : Path) (bytes : Bytes) (original : Text)
    (readable : tree.read path = .ok bytes) (decoded : Utf8.decode? bytes = some original)
    (sole : ∀ other ∈ arguments.targets tree, tree.SameFile other path → other = path)
    (changed : (check parser tree arguments).tree.read path ≠ .ok bytes) :
    ∃ options script edit,
      Config.resolve tree (some arguments.root) arguments.config [] = .ok options ∧
      Reading.ofDocument parser path.render original.unifyLineEnds = .script script ∧
      script.edit? options = some edit ∧
      declarationSpan? script.statements = some (edit.start, edit.stop) ∧
      (original.rawUpTo edit.start).unifyLineEnds = original.unifyLineEnds.upTo edit.start ∧
      (original.rawOnward edit.stop).unifyLineEnds = original.unifyLineEnds.onward edit.stop ∧
      Text.encode (original.rawUpTo edit.start) <+: bytes ∧
      Text.encode (original.rawOnward edit.stop) <:+ bytes ∧
      (check parser tree arguments).tree.read path =
        .ok (Text.encode (original.rawUpTo edit.start).unifyLineEnds ++
          Text.encode edit.replacement ++
          Text.encode (original.rawOnward edit.stop).unifyLineEnds) ∧
      ((check parser tree arguments).tree.read path =
          .ok (Text.encode (original.rawUpTo edit.start) ++ Text.encode edit.replacement ++
            Text.encode (original.rawOnward edit.stop)) ↔
        '\r' ∉ original.rawUpTo edit.start ∧ '\r' ∉ original.rawOnward edit.stop) := by
  obtain ⟨options, text, resolved, found, edited, read⟩ :=
    exists_edits_of_changed readable sole changed
  have unified : text = original.unifyLineEnds := by
    obtain ⟨_, _, again, textual⟩ := FileTree.readText_eq_ok_ok_iff.mp found
    rw [readable, Except.ok.injEq] at again
    rw [← again, Text.ofBytes?, decoded, Option.map_some, Option.some.injEq] at textual
    exact textual.symm
  subst unified
  obtain ⟨script, edit, scripted, planned, edits⟩ := exists_script_of_edits edited
  have spliced : (check parser tree arguments).tree.read path =
      .ok (Text.encode (original.rawUpTo edit.start).unifyLineEnds ++
        Text.encode edit.replacement ++
        Text.encode (original.rawOnward edit.stop).unifyLineEnds) := by
    rw [read, edits, applyEdits_singleton, Text.unifyLineEnds_rawUpTo,
      Text.unifyLineEnds_rawOnward, Text.encode_append, Text.encode_append]
  have encoded : bytes = Text.encode original := Utf8.decode?_eq_some_iff.mp decoded
  refine ⟨options, script, edit, resolved, scripted, planned,
    (Script.edit?_eq_some_iff.mp planned).1, Text.unifyLineEnds_rawUpTo _ _,
    Text.unifyLineEnds_rawOnward _ _, ?_, ?_, spliced, ?_⟩
  · exact ⟨_, (original.encode_rawUpTo_append edit.start).trans encoded.symm⟩
  · exact ⟨_, (original.encode_rawUpTo_append edit.stop).trans encoded.symm⟩
  · rw [spliced, Except.ok.injEq]
    exact Text.encode_unifyLineEnds_around_iff _ _ _

/-! ## A script with line ends of several kinds -/

/-- The script that is out of order, with a line end behind it. -/
def endedScript : Script :=
  { swappedScript with source := swappedScript.source ++ ['\n'] }

theorem ofDocument_ended :
    Reading.ofDocument swappedParser swappedPath.render endedScript.source =
      .script endedScript := rfl

theorem edit?_ended : endedScript.edit? {} = some swappingEdit := by
  cbv

/-- A single file. -/
def singleTree (original : Text) : FileTree where
  entries := [("swapped.ts", .file (Text.encode original))]

/-- A check that is to fix that file. -/
def singleArguments : CheckArguments where
  paths := [swappedPath]
  fix := true

theorem targets_single (original : Text) :
    singleArguments.targets (singleTree original) = [swappedPath] :=
  CheckArguments.targets_eq_searched (List.forall_mem_singleton.mpr ⟨rfl, rfl⟩) (by decide)
    (by decide)

theorem read_check_single {original : Text}
    (unified : original.unifyLineEnds = endedScript.source) :
    (check swappedParser (singleTree original) singleArguments).tree.read swappedPath =
      .ok (Text.encode (unswapped ++ ['\n'])) := by
  have resolved : Config.resolve (singleTree original) (some singleArguments.root)
      singleArguments.config [] = .ok {} := rfl
  have answerable : singleArguments.searched.any (singleTree original).isUnanswerable = false := rfl
  have found : (singleTree original).readText swappedPath = .ok (.ok endedScript.source) :=
    FileTree.readText_eq_ok_ok_iff.mpr
      ⟨rfl, _, rfl, (Text.ofBytes?_encode original).trans (congrArg some unified)⟩
  have written : (Report.ofTarget swappedParser {} singleArguments swappedPath
      (singleTree original)).written = some (Text.encode (unswapped ++ ['\n'])) := by
    have edits : (planDocument swappedParser {} swappedPath.render endedScript.source).edits =
        [swappingEdit] := by
      rw [planDocument, ofDocument_ended, Reading.plan, Script.edits_plan, edit?_ended,
        Option.toList_some]
    rw [Report.written_ofTarget_eq_some_iff]
    refine ⟨rfl, _, found, ?_, ?_⟩
    · rw [edits]
      exact List.cons_ne_nil _ _
    · rw [edits, applyEdits_singleton]
      rfl
  rw [check_of_resolved resolved, answerable, if_neg (by decide), if_neg Bool.false_ne_true,
    targets_single,
    read_checkFiles (by simpa using ⟨_, found⟩) (List.nodup_singleton _)
      (List.mem_singleton_self _) fun _ other listed _ => List.mem_singleton.mp listed,
    Report.left, written]

theorem sole_single (original : Text) :
    ∀ other ∈ singleArguments.targets (singleTree original),
      (singleTree original).SameFile other swappedPath → other = swappedPath := by
  rw [targets_single]
  exact fun other listed _ => List.mem_singleton.mp listed

/-- The script with a carriage return inside its declarations only. -/
def returnInside : Text := "run()\r\nconst n = ref()\n".toList

theorem check_replaces_declarations_returnInside :
    (check swappedParser (singleTree returnInside) singleArguments).tree.read swappedPath ≠
        .ok (Text.encode returnInside) ∧
      (check swappedParser (singleTree returnInside) singleArguments).tree.read swappedPath =
        .ok (Text.encode (returnInside.rawUpTo swappingEdit.start) ++
          Text.encode swappingEdit.replacement ++
          Text.encode (returnInside.rawOnward swappingEdit.stop)) := by
  have changed : (check swappedParser (singleTree returnInside) singleArguments).tree.read
      swappedPath ≠ .ok (Text.encode returnInside) := by
    rw [read_check_single (by decide)]
    intro same
    have equal := Text.encode_injective (Except.ok.inj same)
    revert equal
    decide
  obtain ⟨options, script, edit, resolved, read, planned, _, _, _, _, _, _, kept⟩ :=
    check_replaces_declarations swappedParser (singleTree returnInside) singleArguments swappedPath
      _ returnInside rfl (Utf8.decode?_eq_some_iff.mpr rfl) (sole_single _) changed
  cases (Except.ok.inj resolved : ({} : Options) = options)
  cases (Reading.script.inj read : endedScript = script)
  cases (Option.some.inj (edit?_ended.symm.trans planned) : swappingEdit = edit)
  exact ⟨changed, kept.mpr ⟨by decide, by decide⟩⟩

/-- The script with a carriage return behind its declarations too. -/
def returnBehind : Text := "run()\r\nconst n = ref()\r\n".toList

/-- Fixing a file changes the line end behind its declarations. -/
theorem check_changes_lineEnd_behind :
    (check swappedParser (singleTree returnBehind) singleArguments).tree.read swappedPath =
        .ok (Text.encode (unswapped ++ ['\n'])) ∧
      returnBehind.rawUpTo swappingEdit.start = [] ∧
      returnBehind.rawOnward swappingEdit.stop = ['\r', '\n'] ∧
      (check swappedParser (singleTree returnBehind) singleArguments).tree.read swappedPath ≠
        .ok (Text.encode (returnBehind.rawUpTo swappingEdit.start) ++
          Text.encode swappingEdit.replacement ++
          Text.encode (returnBehind.rawOnward swappingEdit.stop)) := by
  have read : (check swappedParser (singleTree returnBehind) singleArguments).tree.read
      swappedPath = .ok (Text.encode (unswapped ++ ['\n'])) := read_check_single (by decide)
  have before : returnBehind.rawUpTo swappingEdit.start = [] := by decide
  have behind : returnBehind.rawOnward swappingEdit.stop = ['\r', '\n'] := by decide
  refine ⟨read, before, behind, ?_⟩
  rw [read, before, behind, ← Text.encode_append, ← Text.encode_append]
  intro same
  have equal := Text.encode_injective (Except.ok.inj same)
  revert equal
  decide

end DeclOrder

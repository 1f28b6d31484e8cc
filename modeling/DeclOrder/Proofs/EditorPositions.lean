import DeclOrder.Proofs.PlannedEdit
import DeclOrder.Proofs.Stretches
import DeclOrder.Session
import Mathlib

/-!
# Positions in an editor, read back

An editor finds the place that a position denotes by counting lines and then, on the line, UTF-16
code units.  The position of an offset is read back as that offset, and positions ascend with the
offsets.  So an editor that replaces the ranges it is sent arrives at the same text as the edits
themselves, and a diagnostic covers its line from the finding on.
-/

namespace DeclOrder

/-- One position is read before another one: on an earlier line, or earlier on the same line. -/
def Position.Before (a b : Position) : Prop :=
  a.line < b.line ∨ (a.line = b.line ∧ a.column < b.column)

namespace Text

/-- The offset at which a line starts, provided that the text has that many lines. -/
def lineStart? : Text → Nat → Option Nat
  | _, 0 => some 0
  | [], _ + 1 => none
  | c :: rest, line + 1 =>
    (lineStart? rest (if c = '\n' then line else line + 1)).map (· + 1)

/-- The number of characters that make up the given number of code units from the start of a text;
there is none when the units end inside a character or behind the text. -/
def charsOfUnits? : Text → Nat → Option Nat
  | _, 0 => some 0
  | [], _ + 1 => none
  | c :: rest, units + 1 =>
    if unitCount c ≤ units + 1 then
      (charsOfUnits? rest (units + 1 - unitCount c)).map (· + 1)
    else none

/-- A text up to its first line feed. -/
def firstLine (text : Text) : Text :=
  text.takeWhile (· ≠ '\n')

/-- The offset that an editor finds at a position. -/
def offsetAt? (text : Text) (position : Position) : Option Nat :=
  (text.lineStart? position.line).bind fun start =>
    (charsOfUnits? (firstLine (text.drop start)) position.column).map (start + ·)

/-- A text with some of its stretches replaced, read from a place on; the stretches are given from
left to right by the offsets of their ends. -/
def splice (text : Text) : Nat → List (Nat × Nat × Text) → Text
  | place, [] => text.drop place
  | place, (start, stop, replacement) :: rest =>
    (text.take start).drop place ++ (replacement ++ splice text stop rest)

end Text

namespace Range

/-- The offsets that an editor finds at the two ends of a range. -/
def bounds? (text : Text) (range : Range) : Option (Nat × Nat) :=
  (text.offsetAt? range.start).bind fun start =>
    (text.offsetAt? range.stop).map fun stop => (start, stop)

end Range

/-- The text that an editor makes by replacing ranges, given from left to right. -/
def replaceRanges? (text : Text) (ranges : List (Range × Text)) : Option Text :=
  (ranges.mapM fun change : Range × Text =>
    (change.1.bounds? text).map fun bounds => (bounds.1, bounds.2, change.2)).map (text.splice 0)

/-! ## Reading positions back -/

namespace Text

theorem one_le_unitCount (c : Char) : 1 ≤ unitCount c := by
  rw [unitCount]
  split <;> omega

theorem units_cons (c : Char) (text : Text) : units (c :: text) = unitCount c + units text := rfl

theorem units_append (first second : Text) :
    (first ++ second).units = first.units + second.units := by
  induction first with
  | nil => simp [units]
  | cons c rest ih => rw [List.cons_append, units_cons, units_cons, ih, Nat.add_assoc]

theorem lineFeeds_append (first second : Text) :
    (first ++ second).lineFeeds = first.lineFeeds + second.lineFeeds :=
  List.count_append

theorem charsOfUnits?_append (text rest : Text) :
    charsOfUnits? (text ++ rest) text.units = some text.length := by
  induction text with
  | nil => simp [units, charsOfUnits?]
  | cons c text ih =>
      have positive := one_le_unitCount c
      obtain ⟨count, shape⟩ : ∃ count, units (c :: text) = count + 1 :=
        Nat.exists_eq_add_one.mpr (by rw [units_cons]; omega)
      have left : count + 1 - unitCount c = units text := by
        rw [units_cons] at shape
        omega
      rw [shape, List.cons_append, charsOfUnits?, left, ih, if_pos]
      · rfl
      · rw [units_cons] at shape
        omega

theorem lineStart?_append (front rest : Text) :
    lineStart? (front ++ '\n' :: rest) (front.lineFeeds + 1) = some (front.length + 1) := by
  induction front with
  | nil => simp [lineFeeds, lineStart?]
  | cons c front ih =>
      rw [List.cons_append, lineStart?]
      by_cases feed : c = '\n'
      · rw [if_pos feed, lineFeeds, feed, List.count_cons_self, ← lineFeeds, ih]
        rfl
      · rw [if_neg feed, lineFeeds, List.count_cons_of_ne feed, ← lineFeeds, ih]
        rfl

/-- The last line of a text is the whole text, or it stands behind a line feed. -/
theorem eq_lastLine_or (text : Text) :
    text = text.lastLine ∨ ∃ front, text = front ++ '\n' :: text.lastLine := by
  have parts : text.rdropWhile (· ≠ '\n') ++ text.lastLine = text :=
    List.rdropWhile_append_rtakeWhile
  rcases List.eq_nil_or_concat (text.rdropWhile (· ≠ '\n')) with none | ⟨front, c, shape⟩
  · rw [none, List.nil_append] at parts
    exact .inl parts.symm
  · rw [List.concat_eq_append] at shape
    have last := List.rdropWhile_last_not (fun c => decide (c ≠ '\n')) text
      (by rw [shape]; simp)
    rw [List.getLast_congr _ (by simp) shape, List.getLast_concat] at last
    have feed : c = '\n' := by simpa using last
    rw [shape, feed, List.append_assoc] at parts
    exact .inr ⟨front, parts.symm⟩

theorem lastLine_append_of_not_mem (text : Text) {more : Text} (absent : '\n' ∉ more) :
    (text ++ more).lastLine = text.lastLine ++ more := by
  have pass : ∀ c ∈ more.reverse, decide (c ≠ '\n') = true := by
    intro c member
    have different : c ≠ '\n' := fun same => absent (same ▸ List.mem_reverse.mp member)
    exact decide_eq_true different
  rw [lastLine, List.reverse_append, List.takeWhile_append_of_pos pass, List.reverse_append,
    List.reverse_reverse, lastLine]

theorem firstLine_append_of_not_mem {text : Text} (absent : '\n' ∉ text) (rest : Text) :
    (text ++ rest).firstLine = text ++ rest.firstLine := by
  apply List.takeWhile_append_of_pos
  intro c member
  have different : c ≠ '\n' := fun same => absent (same ▸ member)
  exact decide_eq_true different

/-- The position after a beginning of a text is read back as the length of that beginning. -/
theorem offsetAt?_endPosition (text rest : Text) :
    (text ++ rest).offsetAt? text.endPosition = some text.length := by
  have line := not_mem_lastLine text
  have column : charsOfUnits? (text.lastLine ++ rest.firstLine) text.lastLine.units =
      some text.lastLine.length := charsOfUnits?_append _ _
  rcases eq_lastLine_or text with whole | ⟨front, shape⟩
  · have start : text.lineFeeds = 0 := by
      rw [whole]
      exact List.count_eq_zero.mpr line
    have first : (text ++ rest).firstLine = text.lastLine ++ rest.firstLine := by
      conv_lhs => rw [whole]
      exact firstLine_append_of_not_mem line rest
    rw [offsetAt?, endPosition, start, lineStart?, Option.bind_some, List.drop_zero, first, column,
      ← whole]
    simp
  · have start : (text ++ rest).lineStart? text.lineFeeds = some (front.length + 1) := by
      have feeds : text.lineFeeds = front.lineFeeds + 1 := by
        rw [shape, lineFeeds_append, lineFeeds, lineFeeds, List.count_cons_self,
          List.count_eq_zero.mpr line]
      rw [feeds, shape, List.append_assoc, List.cons_append]
      exact lineStart?_append front _
    have behind : (text ++ rest).drop (front.length + 1) = text.lastLine ++ rest := by
      conv_lhs => rw [shape]
      rw [List.append_assoc, List.drop_length_add_append]
      rfl
    have count := congrArg List.length shape
    rw [List.length_append, List.length_cons] at count
    rw [offsetAt?, endPosition, start, Option.bind_some, behind, firstLine_append_of_not_mem line,
      column, Option.map_some, Option.some.injEq]
    omega

/-- Positions ascend as more of a text is read. -/
theorem endPosition_before_append (text : Text) {more : Text} (some : more ≠ []) :
    text.endPosition.Before (text ++ more).endPosition := by
  by_cases feed : '\n' ∈ more
  · left
    have more := List.count_pos_iff.mpr feed
    show text.lineFeeds < (text ++ _).lineFeeds
    rw [lineFeeds_append]
    exact Nat.lt_add_of_pos_right more
  · right
    constructor
    · show text.lineFeeds = (text ++ more).lineFeeds
      rw [lineFeeds_append, lineFeeds, lineFeeds, List.count_eq_zero.mpr feed, Nat.add_zero]
    · show text.lastLine.units < (text ++ more).lastLine.units
      obtain ⟨c, rest, rfl⟩ := List.exists_cons_of_ne_nil some
      have positive := one_le_unitCount c
      rw [lastLine_append_of_not_mem text feed, units_append, units_cons]
      omega

theorem positionAt_of_nonneg (text : Text) {offset : Int} (nonneg : 0 ≤ offset) :
    text.positionAt offset = endPosition (text.take offset.toNat) := by
  rw [positionAt, upTo_of_nonneg text nonneg]

/-- The position of an offset is read back as that offset. -/
theorem offsetAt?_positionAt (text : Text) {offset : Int} (nonneg : 0 ≤ offset)
    (inside : offset ≤ text.length) :
    text.offsetAt? (text.positionAt offset) = some offset.toNat := by
  have back := offsetAt?_endPosition (text.take offset.toNat) (text.drop offset.toNat)
  rw [List.take_append_drop, List.length_take, Nat.min_eq_left (by omega)] at back
  rw [positionAt_of_nonneg text nonneg, back]

theorem positionAt_before (text : Text) {first second : Nat} (ascending : first < second)
    (inside : second ≤ text.length) :
    (text.positionAt first).Before (text.positionAt second) := by
  have split : text.take second = text.take first ++ (text.take second).drop first := by
    conv_lhs => rw [← List.take_append_drop first (text.take second)]
    rw [List.take_take, Nat.min_eq_left (Nat.le_of_lt ascending)]
  rw [positionAt_of_nonneg text (by omega), positionAt_of_nonneg text (by omega),
    Int.toNat_natCast, Int.toNat_natCast, split]
  apply endPosition_before_append
  intro none
  have length := congrArg List.length none
  rw [List.length_drop, List.length_take, List.length_nil] at length
  omega

end Text

/-! ## Ranges of edits and findings -/

/-- The bounds of an edit are offsets of a text of the given length. -/
structure Edit.Inside (length : Nat) (edit : Edit) : Prop where
  start : 0 ≤ edit.start ∧ edit.start ≤ length
  stop : 0 ≤ edit.stop ∧ edit.stop ≤ length

/-- The edits and findings of a plan are at offsets of a text of the given length. -/
structure Plan.Inside (length : Nat) (plan : Plan) : Prop where
  edits : ∀ edit ∈ plan.edits, edit.Inside length
  findings : ∀ finding ∈ plan.findings, 0 ≤ finding.offset ∧ finding.offset ≤ length

/-- An edit as an editor is sent it: a range and what to put there. -/
def Edit.change (text : Text) (edit : Edit) : Range × Text :=
  (⟨edit.startPosition text, edit.stopPosition text⟩, edit.replacement)

/-- The change that an action asks for. -/
def Action.change (action : Action) : Range × Text :=
  (action.range, action.newText)

/-- The change that a reported edit asks for. -/
def EditReport.change (report : EditReport) : Range × Text :=
  (⟨report.start, report.stop⟩, report.replacement)

theorem Range.bounds?_positionAt (text : Text) {start stop : Int}
    (startInside : 0 ≤ start ∧ start ≤ text.length) (stopInside : 0 ≤ stop ∧ stop ≤ text.length) :
    Range.bounds? text ⟨text.positionAt start, text.positionAt stop⟩ =
      some (start.toNat, stop.toNat) := by
  rw [Range.bounds?, Text.offsetAt?_positionAt text startInside.1 startInside.2,
    Text.offsetAt?_positionAt text stopInside.1 stopInside.2]
  rfl

/-- An editor that replaces the range of at most one edit carries out the edit. -/
theorem replaceRanges?_change (text : Text) (edit? : Option Edit)
    (inside : ∀ edit ∈ edit?.toList, edit.Inside text.length) :
    replaceRanges? text (edit?.toList.map (Edit.change text)) =
      some (applyEdits text edit?.toList) := by
  cases edit? with
  | none =>
      rw [Option.toList_none, applyEdits_nil]
      rfl
  | some edit =>
      obtain ⟨start, stop⟩ := inside edit (by simp)
      have bounds := Range.bounds?_positionAt text start stop
      rw [Option.toList_some, applyEdits_singleton, replaceRanges?, List.map_singleton,
        List.mapM_cons, List.mapM_nil]
      dsimp only [Edit.change, Edit.startPosition, Edit.stopPosition]
      rw [bounds, Text.upTo_of_nonneg text start.1, Text.onward_of_le text stop.1 stop.2,
        List.append_assoc]
      rfl

/-! ## Documents -/

theorem SourceKind.document_of_extract? {kind : SourceKind} {path : Path} {document : Text}
    {extract : Extract} (found : kind.extract? path document = some extract) :
    extract.body.document = document := by
  cases kind with
  | component =>
      obtain ⟨setup, _, rfl⟩ := Option.map_eq_some_iff.mp found
      rfl
  | script =>
      cases found
      rfl

theorem Extract.source_of_parse {parser : Parser} {path : String} {extract : Extract}
    {script : Script} (parsed : extract.parse parser path = .ok script) :
    script.source = extract.body.document := by
  rw [Extract.parse] at parsed
  cases read : extract.body.statements path (parser extract.grammar extract.text) with
  | error error =>
      rw [read] at parsed
      cases parsed
  | ok statements =>
      rw [read] at parsed
      cases parsed
      rfl

theorem Reading.source_of_ofKind {parser : Parser} {kind : SourceKind} {path : String}
    {document : Text} {script : Script} (read : ofKind parser kind path document = .script script) :
    script.source = document := by
  rw [ofKind] at read
  split at read
  · cases read
  · rename_i extract found
    split at read
    · cases read
    · rename_i parsed
      cases read
      exact (Extract.source_of_parse parsed).trans (SourceKind.document_of_extract? found)

theorem Reading.source_of_ofDocument {parser : Parser} {path : String} {document : Text}
    {script : Script} (read : ofDocument parser path document = .script script) :
    script.source = document := by
  unfold ofDocument at read
  split at read
  · cases read
  · exact source_of_ofKind read

/-- A document is planned like the script in it, or it needs no edit. -/
theorem planDocument_eq_plan_or (parser : Parser) (options : Options) (path : String)
    (text : Text) :
    (∃ script : Script, script.source = text ∧
        planDocument parser options path text = script.plan options) ∨
      ((planDocument parser options path text).edits = [] ∧
        (planDocument parser options path text).findings = []) := by
  rw [planDocument]
  cases read : Reading.ofDocument parser path text with
  | unsupported => exact .inr ⟨rfl, rfl⟩
  | noScript => exact .inr ⟨rfl, rfl⟩
  | broken error => exact .inr ⟨rfl, rfl⟩
  | script script => exact .inl ⟨script, Reading.source_of_ofDocument read, rfl⟩

theorem Script.position_of_mem_findings {options : Options} {script : Script} {finding : Finding}
    (member : finding ∈ (script.plan options).findings) :
    finding.position = script.source.positionAt finding.offset := by
  rw [plan] at member
  cases edit : script.edit? options with
  | none => simp [edit] at member
  | some edit =>
      simp only [edit, Option.mem_toList] at member
      obtain ⟨first, _, rfl⟩ := Option.map_eq_some_iff.mp member
      rfl

/-- A finding of a document knows its position in it. -/
theorem position_of_mem_findings {parser : Parser} {options : Options} {path : String}
    {text : Text} {finding : Finding}
    (member : finding ∈ (planDocument parser options path text).findings) :
    finding.position = text.positionAt finding.offset := by
  rcases planDocument_eq_plan_or parser options path text with ⟨script, rfl, same⟩ | ⟨_, none⟩
  · rw [same] at member
    exact Script.position_of_mem_findings member
  · rw [none] at member
    cases member

/-- A document has at most one edit. -/
theorem exists_edits_planDocument (parser : Parser) (options : Options) (path : String)
    (text : Text) :
    ∃ edit? : Option Edit, (planDocument parser options path text).edits = edit?.toList := by
  rcases planDocument_eq_plan_or parser options path text with ⟨script, _, same⟩ | ⟨none, _⟩
  · exact ⟨script.edit? options, by rw [same, Script.edits_plan]⟩
  · exact ⟨Option.none, none⟩

/-- A range covers the text from an offset to the end of its line. -/
def Range.CoversLine (text : Text) (offset : Int) (range : Range) : Prop :=
  ∃ stop, range.bounds? text = some (offset.toNat, stop) ∧
    (text.take stop).drop offset.toNat = Text.firstLine (text.drop offset.toNat)

theorem Diagnostic.coversLine_rangeOf {text : Text} {finding : Finding}
    (placed : finding.position = text.positionAt finding.offset)
    (inside : 0 ≤ finding.offset ∧ finding.offset ≤ text.length) :
    (rangeOf text finding).CoversLine text finding.offset := by
  have here : Text.place text.length finding.offset = finding.offset.toNat := by
    rw [Text.place, if_neg (Int.not_lt.mpr inside.1), Nat.min_eq_left (by omega)]
  have line : Text.firstLine (text.drop finding.offset.toNat) <+: text.drop finding.offset.toNat :=
    List.takeWhile_prefix _
  have bound := line.length_le
  rw [List.length_drop] at bound
  refine ⟨finding.offset.toNat + (Text.firstLine (text.drop finding.offset.toNat)).length, ?_, ?_⟩
  · rw [rangeOf, placed, here, ← Text.firstLine, Range.bounds?_positionAt text inside ⟨by omega, by omega⟩,
      Int.toNat_natCast]
  · rw [List.drop_take, Nat.add_sub_cancel_left]
    exact (List.prefix_iff_eq_take.mp line).symm

/-- The fix in an editor is the fix of the edits.  Every offset of a text is read back from its
position, and positions ascend with the offsets.  So replacing the ranges of the offered actions, or
of the reported edits, gives the text after the planned edits, and each diagnostic covers the text
from its finding to the end of the line. -/
theorem replaceRanges?_eq_applyEdits (text : Text) :
    (∀ offset : Nat, offset ≤ text.length →
      text.offsetAt? (text.positionAt offset) = some offset) ∧
    (∀ first second : Nat, first < second → second ≤ text.length →
      (text.positionAt first).Before (text.positionAt second)) ∧
    ∀ (parser : Parser) (options : Options) (uri path : String) (known : List Diagnostic),
      (planDocument parser options path text).Inside text.length →
        replaceRanges? text ((actionsOf parser options uri path text known).map Action.change) =
          some (applyEdits text (planDocument parser options path text).edits) ∧
        replaceRanges? text ((Response.ofPlan path text
            (planDocument parser options path text)).edits.map EditReport.change) =
          some (applyEdits text (planDocument parser options path text).edits) ∧
        List.Forall₂ (fun diagnostic finding =>
            diagnostic.range.CoversLine text finding.offset)
          (diagnosticsOf parser options path text)
          (planDocument parser options path text).findings := by
  refine ⟨fun offset inside => ?_, fun first second ascending inside =>
    text.positionAt_before ascending inside, ?_⟩
  · rw [Text.offsetAt?_positionAt text (by omega) (by omega), Int.toNat_natCast]
  · intro parser options uri path known inside
    obtain ⟨edit?, edits⟩ := exists_edits_planDocument parser options path text
    have replaced := replaceRanges?_change text edit? (edits ▸ inside.edits)
    refine ⟨?_, ?_, ?_⟩
    · rw [actionsOf, List.map_map, edits]
      exact replaced
    · rw [Response.ofPlan, List.map_map, edits]
      exact replaced
    · rw [diagnosticsOf, List.forall₂_map_left_iff, List.forall₂_same]
      intro finding member
      exact Diagnostic.coversLine_rangeOf (position_of_mem_findings member)
        (inside.findings finding member)

/-- A script with a character of two code units on the line where its declarations start. -/
def wideScript : Script where
  path := "wide.ts"
  source := "import 😀; run()\nconst n = ref()".toList
  statements :=
    [{ kind := .importing, start := 0, stop := 9 },
     { kind := .expression, start := 10, stop := 15, expression := some { kind := .call } },
     { kind := .variables, start := 16, stop := 31
       initializer := some { kind := .call, callee := some "ref" } }]

/-- The tree of the script with a wide character. -/
def wideTree : Node :=
  let node := fun (kind : String) (start stop : Nat) (children : List Node) =>
    { kind, start := ⟨start, 0, start⟩, stop := ⟨stop, 0, stop⟩, children : Node }
  node "program" 0 34
    [node "import_statement" 0 12 [],
     node "expression_statement" 13 18 [node "call_expression" 13 18 []],
     node "lexical_declaration" 19 34
       [node "variable_declarator" 25 34
         [{ node "call_expression" 29 34
             [{ node "identifier" 29 32 [] with field := some "function" }] with
            field := some "value" }]]]

theorem replaceRanges?_wideScript :
    wideScript.source.positionAt 10 = ⟨0, 11⟩ ∧
      (planDocument (fun _ _ => wideTree) {} "wide.ts" wideScript.source).Inside 31 ∧
      replaceRanges? wideScript.source
        ((actionsOf (fun _ _ => wideTree) {} "file:///wide.ts" "wide.ts" wideScript.source []).map
          Action.change) =
        some "import 😀; const n = ref()\n\nrun()".toList := by
  have read : Reading.ofDocument (fun _ _ => wideTree) "wide.ts" wideScript.source =
      .script wideScript := rfl
  have planned : planDocument (fun _ _ => wideTree) {} "wide.ts" wideScript.source =
      { edits := [⟨"wide.ts", 10, 31, "const n = ref()\n\nrun()".toList⟩]
        findings := [{ path := "wide.ts", offset := 10, position := ⟨0, 11⟩
                       message := Plan.outOfOrder }] } := by
    rw [planDocument, read]
    show wideScript.plan {} = _
    cbv
  have inside : (planDocument (fun _ _ => wideTree) {} "wide.ts" wideScript.source).Inside 31 := by
    rw [planned]
    constructor
    · intro edit member
      rw [List.mem_singleton.mp member]
      exact ⟨by decide, by decide⟩
    · intro finding member
      rw [List.mem_singleton.mp member]
      decide
  have replaced := ((replaceRanges?_eq_applyEdits wideScript.source).2.2 (fun _ _ => wideTree) {}
    "file:///wide.ts" "wide.ts" [] inside).1
  refine ⟨by decide, inside, replaced.trans ?_⟩
  rw [planned]
  cbv

end DeclOrder

import DeclOrder.Proofs.BlockLines
import DeclOrder.Proofs.PlannedEdit
import Mathlib

/-!
# Conservation of visible characters

Every visible character of a separated script reaches the rendered text once, together with its
statement: first the imports that stood among the declarations, then the declarations in their
sorted order.  So a fix changes blanks and the order of statements and nothing else, and a script
that needs no edit already has the visible characters of its sorted form.
-/

namespace DeclOrder

/-- The imports that stand, with their comments, inside a stretch of the document. -/
def importsWithin (span : Stretch) (statements : List Statement) : List Statement :=
  statements.filter fun statement =>
    statement.isImport && (span.start ≤ statement.extentStart && statement.extentStop ≤ span.stop)

/-- The visible characters of a statement and its comments. -/
def Statement.visible (source : Text) (statement : Statement) : Text :=
  (statement.extent.text source).visible

namespace Script

section Span

variable {script : Script} {start stop : Int}

/-- The imports that are moved are those that stand among the declarations. -/
theorem Arranged.interleavedImports_eq (arranged : script.Arranged)
    (span : declarationSpan? script.statements = some (start, stop)) :
    interleavedImports script.statements = importsWithin ⟨start, stop⟩ script.statements := by
  rw [interleavedImports, span]
  apply List.filter_congr
  intro statement member
  cases imports : statement.isImport with
  | false => rfl
  | true =>
      have bounds := (arranged.statement member).bounds
      rw [Bool.true_and, Bool.true_and, Bool.eq_iff_iff, Bool.and_eq_true, Bool.and_eq_true]
      simp only [decide_eq_true_eq]
      rcases arranged.import_inside_or_outside span member imports with before | behind | inside
      all_goals omega

namespace Separated

/-- Only blanks stand between the pieces of a statement in the span of the declarations. -/
theorem blank_statement (separated : script.Separated)
    (span : declarationSpan? script.statements = some (start, stop)) {statement : Statement}
    (member : statement ∈ script.statements)
    (inside : start ≤ statement.extentStart ∧ statement.extentStop ≤ stop) :
    Stretch.BlankOutside script.source statement.extent statement.pieces := by
  intro place above below outside
  have above : statement.extentStart ≤ place := above
  have below : place < statement.extentStop := below
  apply separated.blank (start, stop) span place (by dsimp only; omega) (by dsimp only; omega)
  intro piece inPieces
  obtain ⟨other, otherMember, inOther⟩ := List.mem_flatMap.mp inPieces
  by_cases same : other = statement
  · subst same
    exact outside piece inOther
  · have pieceInside := (separated.statement otherMember).piece_inside inOther
    have disjoint := separated.extents_disjoint otherMember member same
    omega

/-- The lines of a statement hold all its visible characters. -/
theorem visible_lines (separated : script.Separated)
    (span : declarationSpan? script.statements = some (start, stop)) {statement : Statement}
    (member : statement ∈ script.statements)
    (inside : start ≤ statement.extentStart ∧ statement.extentStop ≤ stop) :
    (statement.lines.flatMap fun line => (line.text script.source).visible) =
      statement.visible script.source := by
  have arranged := separated.statement member
  have bounds := arranged.bounds
  symm
  refine (Stretch.laid_of_blankOutside bounds.1 (by omega) bounds.2.2.2.2
    ⟨fun line inLines => arranged.line_inside inLines, arranged.lines_apart⟩ ?_).visible_slice
      bounds.1
  intro place above below outside
  apply separated.blank_statement span member inside place above below
  intro piece inPieces
  rcases List.mem_append.mp inPieces with comment | rest
  · exact outside piece (List.mem_append_left _ comment)
  · have starts := arranged.start_le_of_mem rest
    have stops := (arranged.piece_inside inPieces).2
    have final := outside ⟨statement.start, statement.extentStop⟩ (by simp [Statement.lines])
    dsimp only at final
    omega

theorem visible_text (separated : script.Separated)
    (span : declarationSpan? script.statements = some (start, stop)) {statement : Statement}
    (member : statement ∈ script.statements)
    (inside : start ≤ statement.extentStart ∧ statement.extentStop ≤ stop) :
    (statement.text script.source).visible = statement.visible script.source := by
  rw [Statement.text_eq_join (separated.quoted_leading member), Text.visible_join Text.blank_break,
    List.flatMap_map, separated.visible_lines span member inside]

/-- Only blanks stand between neighbouring statements in the span of the declarations. -/
theorem blank_between (separated : script.Separated)
    (span : declarationSpan? script.statements = some (start, stop)) {a b : Statement}
    {before behind : List Statement} (shape : script.statements = before ++ a :: b :: behind)
    (aInside : start ≤ a.extentStart) (bInside : b.extentStop ≤ stop) :
    a.extentStop ≤ b.extentStart ∧
      Text.Blank (script.source.slice a.extentStop b.extentStart) := by
  have aMember : a ∈ script.statements := by simp [shape]
  have bMember : b ∈ script.statements := by simp [shape]
  have aBounds := (separated.statement aMember).bounds
  have bBounds := (separated.statement bMember).bounds
  have apart := separated.extents_apart
  rw [shape] at apart
  obtain ⟨_, fromA, acrossA⟩ := List.pairwise_append.mp apart
  obtain ⟨behindA, fromB⟩ := List.pairwise_cons.mp fromA
  have next := behindA b List.mem_cons_self
  refine ⟨next, Text.blank_slice (by omega) next ?_⟩
  intro place above below
  apply separated.blank (start, stop) span place (by dsimp only; omega) (by dsimp only; omega)
  intro piece inPieces
  obtain ⟨other, otherMember, inOther⟩ := List.mem_flatMap.mp inPieces
  have pieceInside := (separated.statement otherMember).piece_inside inOther
  rw [shape] at otherMember
  rcases List.mem_append.mp otherMember with earlier | later
  · have := acrossA other earlier a List.mem_cons_self
    omega
  · rcases List.mem_cons.mp later with rfl | later
    · omega
    · rcases List.mem_cons.mp later with rfl | later
      · omega
      · have := (List.pairwise_cons.mp fromB).1 other later
        omega

end Separated

/-- An item stands where its statement stands, inside the span of the declarations. -/
structure Locates (script : Script) (start stop : Int) (item : Item) : Prop where
  place : ∃ place : Nat, script.statements[place]? = some item.statement ∧ item.index = place
  inside : start ≤ item.start ∧ item.stop ≤ stop

theorem Separated.blank_between_items (separated : script.Separated)
    (span : declarationSpan? script.statements = some (start, stop)) {a b : Item}
    (aLocated : script.Locates start stop a) (bLocated : script.Locates start stop b)
    (next : a.index + 1 = b.index) :
    a.stop ≤ b.start ∧ Text.Blank (script.source.slice a.stop b.start) := by
  obtain ⟨aPlace, aFound, aIndex⟩ := aLocated.place
  obtain ⟨bPlace, bFound, bIndex⟩ := bLocated.place
  have consecutive : bPlace = aPlace + 1 := by omega
  subst consecutive
  obtain ⟨aBound, aHere⟩ := List.getElem?_eq_some_iff.mp aFound
  obtain ⟨bBound, bHere⟩ := List.getElem?_eq_some_iff.mp bFound
  have shape : script.statements = script.statements.take aPlace ++
      a.statement :: b.statement :: script.statements.drop (aPlace + 1 + 1) := by
    conv_lhs => rw [← List.take_append_drop aPlace script.statements,
      List.drop_eq_getElem_cons aBound, List.drop_eq_getElem_cons bBound, aHere, bHere]
  exact separated.blank_between span shape aLocated.inside.1 bLocated.inside.2

/-- A run holds the visible characters of its items. -/
theorem Separated.visible_run (separated : script.Separated)
    (span : declarationSpan? script.statements = some (start, stop)) {run : List Item}
    (some : run ≠ []) (located : ∀ item ∈ run, script.Locates start stop item)
    (chain : run.IsChain fun a b => a.index + 1 = b.index) :
    (Block.runStretch run).start ≤ (Block.runStretch run).stop ∧
      ((Block.runStretch run).text script.source).visible =
        run.flatMap fun item => item.statement.visible script.source := by
  induction run with
  | nil => exact absurd rfl some
  | cons a rest ih =>
      have aLocated := located a List.mem_cons_self
      obtain ⟨place, found, _⟩ := aLocated.place
      have aBounds := (separated.statement (List.mem_of_getElem? found)).bounds
      have aOrder : a.start ≤ a.stop := by
        show a.statement.extentStart ≤ a.statement.extentStop
        omega
      cases rest with
      | nil =>
          rw [List.flatMap_singleton]
          exact ⟨aOrder, rfl⟩
      | cons b others =>
          obtain ⟨next, chainRest⟩ := List.isChain_cons_cons.mp chain
          have gap := separated.blank_between_items span aLocated (located b (by simp)) next
          have inner := ih (List.cons_ne_nil _ _)
            (fun item member => located item (List.mem_cons_of_mem _ member)) chainRest
          have innerOrder : b.start ≤ (Block.runStretch (b :: others)).stop := inner.1
          have cut : (Block.runStretch (a :: b :: others)).text script.source =
              a.statement.extent.text script.source ++
                (script.source.slice a.stop b.start ++
                  (Block.runStretch (b :: others)).text script.source) := by
            show script.source.slice a.start (Block.runStretch (b :: others)).stop =
              script.source.slice a.start a.stop ++ (script.source.slice a.stop b.start ++
                script.source.slice b.start (Block.runStretch (b :: others)).stop)
            have nonneg : 0 ≤ a.start := aBounds.1
            rw [Text.slice_append_slice _ (by omega) gap.1 innerOrder,
              Text.slice_append_slice _ nonneg aOrder (by omega)]
          refine ⟨Int.le_trans aOrder (Int.le_trans gap.1 innerOrder), ?_⟩
          rw [cut, Text.visible_append, Text.visible_append, gap.2.visible_eq, inner.2,
            List.nil_append]
          rfl

theorem Arranged.locates (arranged : script.Arranged)
    (span : declarationSpan? script.statements = some (start, stop)) {options : Options}
    {item : Item} (member : item ∈ sortedItems options script.source script.statements) :
    script.Locates start stop item := by
  have tagged := (sortItems_perm _).mem_iff.mp member
  obtain ⟨place, found, index, _⟩ := mem_itemsFrom tagged
  have declares : item.statement ∈ declarations script.statements :=
    (map_statement_sortedItems_perm options script.source script.statements).mem_iff.mp
      (List.mem_map_of_mem member)
  exact ⟨⟨place, found, by rw [index, Nat.zero_add]⟩, arranged.declaration_inside span declares⟩

/-- A block holds the visible characters of its items. -/
theorem Separated.visible_block (separated : script.Separated)
    (span : declarationSpan? script.statements = some (start, stop)) {options : Options}
    {block : Block}
    (member : block ∈ blocks (sortedItems options script.source script.statements)) :
    (block.render script.source).visible =
      block.items.flatMap fun item => item.statement.visible script.source := by
  have located : ∀ item ∈ block.items, script.Locates start stop item := fun item inBlock =>
    separated.locates span ((mem_blocks member).2 item inBlock).1
  rw [Block.visible_render (separated.quotes member), Block.lines]
  split
  · rw [List.flatMap_map, ← block.flatten_runs, List.flatMap_def, List.flatMap_def,
      List.map_flatten, List.flatten_flatten, List.map_map]
    congr 1
    apply List.map_congr_left
    intro run inRuns
    rw [(separated.visible_run span (Block.ne_nil_of_mem_runs inRuns)
      (fun item inRun => located item (Block.mem_items_of_mem_runs inRuns inRun))
      (Block.isChain_of_mem_runs inRuns)).2, List.flatMap_def]
    rfl
  · rw [List.flatMap_assoc]
    apply List.flatMap_congr
    intro item inBlock
    have itemLocated := located item inBlock
    obtain ⟨place, found, _⟩ := itemLocated.place
    exact separated.visible_lines span (List.mem_of_getElem? found) itemLocated.inside

/-- The rendered text has the visible characters of the imports that stood among the declarations
and then those of the declarations in their sorted order. -/
theorem Separated.visible_render (separated : script.Separated)
    (span : declarationSpan? script.statements = some (start, stop)) (options : Options) :
    (script.render options).visible =
      ((importsWithin ⟨start, stop⟩ script.statements).flatMap fun statement =>
        statement.visible script.source) ++
      (sortedItems options script.source script.statements).flatMap fun item =>
        item.statement.visible script.source := by
  have sorted : (renderBlocks script.source
      (blocks (sortedItems options script.source script.statements))).visible =
        (sortedItems options script.source script.statements).flatMap fun item =>
          item.statement.visible script.source := by
    rw [renderBlocks, Text.visible_join Text.blank_blankLine, List.flatMap_map]
    conv_rhs => rw [← flatMap_items_blocks (sortedItems options script.source script.statements),
      List.flatMap_assoc]
    exact List.flatMap_congr fun block member => separated.visible_block span member
  have imports : ∀ statement ∈ interleavedImports script.statements,
      (statement.text script.source).visible = statement.visible script.source := by
    intro statement member
    exact separated.visible_text span ((mem_interleavedImports span).mp member).1
      (separated.import_inside span member)
  rw [← separated.interleavedImports_eq span, render]
  cases interleaved : interleavedImports script.statements with
  | nil => exact sorted
  | cons first rest =>
      rw [interleaved] at imports
      show Text.visible (Text.join "\n" ((first :: rest).map fun statement =>
        statement.text script.source) ++ "\n\n".toList ++ renderBlocks script.source _) = _
      rw [Text.visible_append, Text.visible_append, Text.visible_join Text.blank_break,
        Text.blank_blankLine.visible_eq, sorted, List.append_nil, List.flatMap_map, List.flatMap_congr imports]

/-! ## The source between the first declaration and the last -/

/-- The statements that a fix writes anew: the declarations and the imports among them. -/
def rewritten (span : Stretch) (statements : List Statement) : List Statement :=
  statements.filter fun statement =>
    !statement.isImport ||
      (span.start ≤ statement.extentStart && statement.extentStop ≤ span.stop)

theorem rewritten_perm (span : Stretch) (statements : List Statement) :
    (rewritten span statements).Perm
      (importsWithin span statements ++ declarations statements) := by
  have parted := (List.filter_append_perm Statement.isImport (rewritten span statements)).symm
  have imports : (rewritten span statements).filter Statement.isImport =
      importsWithin span statements := by
    rw [rewritten, importsWithin, List.filter_filter]
    apply List.filter_congr
    intro statement _
    cases statement.isImport <;> rfl
  have others : (rewritten span statements).filter (fun statement => !statement.isImport) =
      declarations statements := by
    rw [rewritten, declarations, List.filter_filter]
    apply List.filter_congr
    intro statement _
    cases statement.isImport <;> rfl
  rwa [imports, others] at parted

theorem Arranged.inside_of_mem_rewritten (arranged : script.Arranged)
    (span : declarationSpan? script.statements = some (start, stop)) {statement : Statement}
    (member : statement ∈ rewritten ⟨start, stop⟩ script.statements) :
    statement ∈ script.statements ∧ start ≤ statement.extentStart ∧
      statement.extentStop ≤ stop := by
  obtain ⟨found, chosen⟩ := List.mem_filter.mp member
  cases imports : statement.isImport with
  | false => exact ⟨found, arranged.declaration_inside span (mem_declarations.mpr ⟨found, imports⟩)⟩
  | true => exact ⟨found, by simpa [imports] using chosen⟩

/-- What is not written anew is an import on one side of the span. -/
theorem Arranged.outside_of_not_mem_rewritten (arranged : script.Arranged)
    (span : declarationSpan? script.statements = some (start, stop)) {statement : Statement}
    (found : statement ∈ script.statements)
    (left : statement ∉ rewritten ⟨start, stop⟩ script.statements) :
    statement.extentStop ≤ start ∨ stop ≤ statement.extentStart := by
  have unchosen : ¬ (!statement.isImport || (decide (start ≤ statement.extentStart) &&
      decide (statement.extentStop ≤ stop))) = true := fun kept =>
    left (List.mem_filter.mpr ⟨found, kept⟩)
  simp only [Bool.or_eq_true, Bool.not_eq_true', Bool.and_eq_true, decide_eq_true_eq,
    not_or, Bool.not_eq_false] at unchosen
  rcases arranged.import_inside_or_outside span found unchosen.1 with before | behind | within
  · exact .inl before
  · exact .inr behind
  · exact absurd within unchosen.2

/-- The span of the declarations has the visible characters of the statements in it. -/
theorem Separated.visible_span (separated : script.Separated)
    (span : declarationSpan? script.statements = some (start, stop)) :
    (script.source.slice start stop).visible =
      (rewritten ⟨start, stop⟩ script.statements).flatMap fun statement =>
        statement.visible script.source := by
  have spanBounds := separated.span_bounds span
  have parts : (Stretch.text script.source ⟨start, stop⟩).visible =
      ((rewritten ⟨start, stop⟩ script.statements).map Statement.extent).flatMap fun part =>
        (part.text script.source).visible := by
    have stacked : Stretch.Stacked start stop
        ((rewritten ⟨start, stop⟩ script.statements).map Statement.extent) := by
      refine ⟨?_, List.pairwise_map.mpr (separated.extents_apart.filter _)⟩
      intro part member
      obtain ⟨statement, chosen, rfl⟩ := List.mem_map.mp member
      obtain ⟨found, above, below⟩ := separated.inside_of_mem_rewritten span chosen
      have bounds := (separated.statement found).bounds
      refine ⟨above, ?_, below⟩
      show statement.extentStart < statement.extentStop
      omega
    refine (Stretch.laid_of_blankOutside spanBounds.1 (Int.le_of_lt spanBounds.2.1) spanBounds.2.2
      stacked ?_).visible_slice spanBounds.1
    intro place above below outside
    apply separated.blank (start, stop) span place above below
    dsimp only at above below
    intro piece inPieces
    obtain ⟨statement, found, inStatement⟩ := List.mem_flatMap.mp inPieces
    have pieceInside := (separated.statement found).piece_inside inStatement
    by_cases chosen : statement ∈ rewritten ⟨start, stop⟩ script.statements
    · have missed : place < statement.extentStart ∨ statement.extentStop ≤ place :=
        outside statement.extent (List.mem_map_of_mem chosen)
      omega
    · have missed := separated.outside_of_not_mem_rewritten span found chosen
      omega
  rw [List.flatMap_map] at parts
  exact parts

/-- Every statement keeps its visible characters together, in their order. -/
theorem exists_of_visible_infix {text own : Text} (kept : own <:+: text.visible) :
    ∃ before middle behind, text = before ++ middle ++ behind ∧ middle.visible = own := by
  obtain ⟨front, back, shape⟩ := kept
  obtain ⟨both, behind, rfl, bothVisible, _⟩ := Text.exists_of_visible_eq_append shape.symm
  obtain ⟨before, middle, rfl, _, middleVisible⟩ := Text.exists_of_visible_eq_append bothVisible
  exact ⟨before, middle, behind, rfl, middleVisible⟩

end Span

/-- The characters that a fix leaves visible. -/
theorem Separated.visible_fix {script : Script} (separated : script.Separated) {options : Options}
    {edit : Edit} (planned : edit ∈ (script.plan options).edits) :
    (script.fix options).visible =
      (script.source.upTo edit.start).visible ++
        (((importsWithin ⟨edit.start, edit.stop⟩ script.statements).flatMap fun statement =>
            statement.visible script.source) ++
          (sortedItems options script.source script.statements).flatMap fun item =>
            item.statement.visible script.source) ++
        (script.source.onward edit.stop).visible := by
  have span := (edit?_eq_some_iff.mp (edit?_of_mem_plan planned)).1
  rw [fix_of_mem_plan planned, Text.visible_append, Text.visible_append,
    separated.visible_render span]

theorem Separated.visible_fix_perm {script : Script} (separated : script.Separated)
    {options : Options} {edit : Edit} (planned : edit ∈ (script.plan options).edits) :
    (script.fix options).visible.Perm script.source.visible := by
  have span := (edit?_eq_some_iff.mp (edit?_of_mem_plan planned)).1
  have bounds := separated.span_bounds span
  have moved := map_statement_sortedItems_perm options script.source script.statements
  have middle := (moved.append_left (importsWithin ⟨edit.start, edit.stop⟩ script.statements)).trans
    (rewritten_perm ⟨edit.start, edit.stop⟩ script.statements).symm
  have whole := congrArg Text.visible (Text.upTo_append_slice_append_onward script.source
    bounds.1 (Int.le_of_lt bounds.2.1))
  rw [Text.visible_append, Text.visible_append, separated.visible_span span] at whole
  rw [separated.visible_fix planned, ← whole]
  refine (List.Perm.append_left _ ?_).append_right _
  have texts := middle.flatMap_right (Statement.visible script.source)
  rwa [List.flatMap_append, List.flatMap_map] at texts

/-- Every statement, moved or not, is still in one place after a fix. -/
theorem Separated.visible_infix_fix {script : Script} (separated : script.Separated)
    {options : Options} {edit : Edit} (planned : edit ∈ (script.plan options).edits)
    {statement : Statement} (member : statement ∈ script.statements) :
    statement.visible script.source <:+: (script.fix options).visible := by
  have span := (edit?_eq_some_iff.mp (edit?_of_mem_plan planned)).1
  have spanBounds := separated.span_bounds span
  have bounds := (separated.statement member).bounds
  have inOrder : statement.extentStart ≤ statement.extentStop := by omega
  rw [separated.visible_fix planned]
  cases imports : statement.isImport with
  | false =>
      have moved := map_statement_sortedItems_perm options script.source script.statements
      obtain ⟨item, inItems, rfl⟩ := List.mem_map.mp
        (moved.mem_iff.mpr (mem_declarations.mpr ⟨member, imports⟩))
      apply List.infix_append_of_infix_left
      apply List.infix_append_of_infix_right
      apply List.infix_append_of_infix_right
      exact List.infix_of_mem_flatten (List.mem_map_of_mem inItems)
  | true =>
      rcases separated.import_inside_or_outside span member imports with before | behind | inside
      · apply List.infix_append_of_infix_left
        apply List.infix_append_of_infix_left
        rw [Text.upTo_eq_slice _ spanBounds.1]
        exact List.IsInfix.filter _
          (Text.slice_infix_slice _ (Int.le_refl 0) bounds.1 inOrder before)
      · apply List.infix_append_of_infix_right
        rw [Text.onward_eq_slice _ (by omega) spanBounds.2.2]
        exact List.IsInfix.filter _
          (Text.slice_infix_slice _ (by omega) behind inOrder bounds.2.2.2.2)
      · have hoisted : statement ∈ importsWithin ⟨edit.start, edit.stop⟩ script.statements :=
          List.mem_filter.mpr ⟨member, by simpa [imports] using inside⟩
        apply List.infix_append_of_infix_left
        apply List.infix_append_of_infix_right
        apply List.infix_append_of_infix_left
        exact List.infix_of_mem_flatten (List.mem_map_of_mem hoisted)

/-- A fix loses, doubles and cuts nothing.  Between the untouched text before the first declaration
and behind the last one it leaves the visible characters of the imports that stood among the
declarations and then those of the declarations in their sorted order; so it permutes the visible
characters, and each statement keeps its own together. -/
theorem fix_keeps_statements {options : Options} {script : Script} (separated : script.Separated)
    {first last : Statement} (head : (declarations script.statements).head? = some first)
    (final : (declarations script.statements).getLast? = some last)
    (edited : (script.plan options).edits ≠ []) :
    (script.fix options).visible =
        (script.source.upTo first.extentStart).visible ++
          (((importsWithin ⟨first.extentStart, last.extentStop⟩ script.statements).flatMap
              fun statement => statement.visible script.source) ++
            (sortedItems options script.source script.statements).flatMap
              fun item => item.statement.visible script.source) ++
          (script.source.onward last.extentStop).visible ∧
      (script.fix options).visible.Perm script.source.visible ∧
      ∀ statement ∈ script.statements, ∃ before own behind,
        script.fix options = before ++ own ++ behind ∧
          own.visible = statement.visible script.source := by
  obtain ⟨edit, planned⟩ := List.exists_mem_of_ne_nil _ edited
  have span := (edit?_eq_some_iff.mp (edit?_of_mem_plan planned)).1
  have named := declarationSpan?_eq_some_iff.mpr ⟨first, last, head, final, rfl, rfl⟩
  obtain ⟨starts, stops⟩ := Prod.mk.inj (Option.some.inj (span.symm.trans named))
  refine ⟨?_, separated.visible_fix_perm planned, fun statement member =>
    exists_of_visible_infix (separated.visible_infix_fix planned member)⟩
  rw [← starts, ← stops]
  exact separated.visible_fix planned

/-- A script whose second declaration belongs in front of its first, with an import between. -/
def untidy : Script where
  path := "Counter.vue"
  source := "// start\nrun()  // now \nimport ref\n\nconst n = ref()\n".toList
  statements :=
    [{ kind := .expression, start := 9, stop := 14
       expression := some { kind := .call, callee := some "run" }
       leading := [⟨0, 8, "// start".toList⟩]
       trailing := some ⟨16, 23, "// now ".toList⟩ },
     { kind := .importing, start := 24, stop := 34 },
     { kind := .variables, start := 36, stop := 51
       initializer := some { kind := .call, callee := some "ref" } }]

theorem fix_keeps_statements_untidy :
    untidy.Separated ∧ (untidy.plan {}).edits ≠ [] ∧
      (untidy.fix {}).visible = "importrefconstn=ref()//startrun()//now".toList ∧
        (untidy.fix {}).visible.Perm untidy.source.visible := by
  have separated : untidy.Separated := by decide +kernel
  have edited : (untidy.plan {}).edits ≠ [] := by
    cbv
    exact List.cons_ne_nil _ _
  have kept := fix_keeps_statements separated rfl rfl edited
  exact ⟨separated, edited, kept.1.trans (by cbv), kept.2.1⟩

/-- A script that needs no edit already reads like its sorted form: from the first declaration to
the last stand the visible characters of the imports among the declarations, and then those of the
declarations in their sorted order. -/
theorem unedited_reads_sorted {options : Options} {script : Script} (separated : script.Separated)
    {first last : Statement} (head : (declarations script.statements).head? = some first)
    (final : (declarations script.statements).getLast? = some last)
    (unedited : (script.plan options).edits = []) :
    (script.source.slice first.extentStart last.extentStop).visible =
      ((importsWithin ⟨first.extentStart, last.extentStop⟩ script.statements).flatMap
          fun statement => statement.visible script.source) ++
        (sortedItems options script.source script.statements).flatMap
          fun item => item.statement.visible script.source := by
  have span := declarationSpan?_eq_some_iff.mpr ⟨first, last, head, final, rfl, rfl⟩
  have silent : script.edit? options = none := by
    rw [edits_plan] at unedited
    exact Option.toList_eq_nil_iff.mp unedited
  have same := congrArg Text.visible ((edit?_eq_none_iff span).mp silent)
  rw [Text.visible_condense, Text.visible_condense] at same
  rw [same, separated.visible_render span]

/-- A script whose declarations are in order, with two blank lines between them. -/
def tidy : Script where
  path := "Counter.vue"
  source := "import ref\nconst n = ref()\n\n\n// start\nrun()".toList
  statements :=
    [{ kind := .importing, start := 0, stop := 10 },
     { kind := .variables, start := 11, stop := 26
       initializer := some { kind := .call, callee := some "ref" } },
     { kind := .expression, start := 38, stop := 43
       expression := some { kind := .call, callee := some "run" }
       leading := [⟨29, 37, "// start".toList⟩] }]

theorem unedited_reads_sorted_tidy :
    tidy.Separated ∧ (tidy.plan {}).edits = [] ∧
      (tidy.source.slice 11 43).visible = "constn=ref()//startrun()".toList := by
  have separated : tidy.Separated := by decide +kernel
  have unedited : (tidy.plan {}).edits = [] := by cbv
  have reads := unedited_reads_sorted separated rfl rfl unedited
  exact ⟨separated, unedited, reads.trans (by cbv)⟩

end Script

end DeclOrder

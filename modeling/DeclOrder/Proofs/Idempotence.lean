import DeclOrder.Proofs.SettledBlocks

/-!
# Idempotence

A fixed script needs no further fix.  Its declarations stand in their sorted order with the keys
they had before, so sorting leaves them in place; no import stands among them any more, and their
blocks are rendered to the text that stands there.
-/

namespace DeclOrder

theorem declarations_append (first second : List Statement) :
    declarations (first ++ second) = declarations first ++ declarations second :=
  List.filter_append ..

theorem declarations_of_imports {statements : List Statement}
    (imports : ∀ statement ∈ statements, statement.isImport = true) :
    declarations statements = [] := by
  rw [declarations, List.filter_eq_nil_iff]
  intro statement member
  rw [imports statement member]
  exact Bool.false_ne_true

theorem declarationSpan?_of_reach {statements : List Statement} {start stop : Int}
    (reach : Statement.Reach start stop (declarations statements)) :
    declarationSpan? statements = some (start, stop) := by
  obtain ⟨first, head, starts⟩ := Option.map_eq_some_iff.mp reach.1
  obtain ⟨last, final, stops⟩ := Option.map_eq_some_iff.mp reach.2
  exact declarationSpan?_eq_some_iff.mpr ⟨first, last, head, final, starts.symm, stops.symm⟩

/-- Neighbouring blocks are of different groups. -/
theorem isChain_group_blocks (items : List Item) :
    (blocks items).IsChain fun a b => a.group ≠ b.group := by
  have apart := List.isChain_getLast_head_splitBy
    (fun a b : Item => a.tag.group = b.tag.group) items
  rw [← map_items_blocks, List.isChain_map] at apart
  apply apart.imp_of_mem_imp
  intro a b aMember bMember differs
  obtain ⟨aSome, bSome, different⟩ := differs
  have aGroup := ((mem_blocks aMember).2 _ (List.getLast_mem aSome)).2
  have bGroup := ((mem_blocks bMember).2 _ (List.head_mem bSome)).2
  rw [← aGroup, ← bGroup]
  exact of_decide_eq_false different

namespace Script

/-- A separated script in which no piece starts with a blank, no body ends with one, and no line
feed stands among the blanks at the end of a comment. -/
structure WellFormed (script : Script) : Prop extends Separated script where
  starts : ∀ piece ∈ script.pieces, (piece.text script.source).StartsVisible
  ends : ∀ statement ∈ script.statements, (statement.body.text script.source).EndsVisible
  closed : ∀ statement ∈ script.statements, ∀ comment ∈ statement.comments, comment.text.Closed

instance (script : Script) : Decidable script.WellFormed :=
  decidable_of_iff
    (script.Separated ∧ (∀ piece ∈ script.pieces, (piece.text script.source).StartsVisible) ∧
      (∀ statement ∈ script.statements, (statement.body.text script.source).EndsVisible) ∧
      ∀ statement ∈ script.statements, ∀ comment ∈ statement.comments, comment.text.Closed)
    ⟨fun ⟨separated, starts, ends, closed⟩ => ⟨separated, starts, ends, closed⟩,
      fun ⟨separated, starts, ends, closed⟩ => ⟨separated, starts, ends, closed⟩⟩

section Relocated

variable {options : Options} {script : Script} {start stop : Int}

theorem WellFormed.statement (formed : script.WellFormed) {statement : Statement}
    (member : statement ∈ script.statements) : statement.WellFormed script.source where
  toArranged := formed.toArranged.statement member
  quoted := formed.quoted statement member
  starts := fun piece found => formed.starts piece (List.mem_flatMap_of_mem member found)
  ends := formed.ends statement member
  closed := formed.closed statement member

/-- The blocks of a well-formed script come from its statements. -/
theorem WellFormed.grounded (formed : script.WellFormed)
    (span : declarationSpan? script.statements = some (start, stop)) {block : Block}
    (member : block ∈ blocks (sortedItems options script.source script.statements)) :
    block.Grounded options script.source := by
  have inItems := (mem_blocks member).2
  have located : ∀ item ∈ block.items, script.Locates start stop item := fun item inBlock =>
    formed.locates span (inItems item inBlock).1
  refine ⟨Block.items_ne_nil_of_mem member, fun item inBlock => (inItems item inBlock).2,
    ?_, ?_, ?_⟩
  · intro item inBlock
    obtain ⟨_, _, _, made⟩ := mem_itemsFrom ((sortItems_perm _).mem_iff.mp (inItems item inBlock).1)
    exact made
  · intro item inBlock
    obtain ⟨place, found, _⟩ := (located item inBlock).place
    exact formed.statement (List.mem_of_getElem? found)
  · intro run inRuns
    have some := Block.ne_nil_of_mem_runs inRuns
    have inBlock : ∀ item ∈ run, script.Locates start stop item := fun item inRun =>
      located item (Block.mem_items_of_mem_runs inRuns inRun)
    have forward := (formed.visible_run span some inBlock (Block.isChain_of_mem_runs inRuns)).1
    have first := (inBlock _ (List.head_mem some)).inside.1
    have last := (inBlock _ (List.getLast_mem some)).inside.2
    have bounds := formed.span_bounds span
    rw [Block.runStretch_of_ne_nil some] at forward ⊢
    dsimp only at forward ⊢
    omega

/-- The rendered text stands in the fixed source. -/
theorem WellFormed.stands_render (formed : script.WellFormed) {edit : Edit}
    (planned : edit ∈ (script.plan options).edits) :
    (script.fix options).Stands edit.start (script.render options) := by
  have bounds := formed.span_bounds (edit?_eq_some_iff.mp (edit?_of_mem_plan planned)).1
  have length : edit.start = (script.source.upTo edit.start).length := by
    rw [Text.upTo_of_nonneg _ bounds.1, List.length_take]
    omega
  refine ⟨script.source.upTo edit.start, script.source.onward edit.stop, ?_, length⟩
  rw [fix_of_mem_plan planned, List.append_assoc]

/-- The sorted declarations stand in the fixed source, behind the imports put in front of them. -/
theorem WellFormed.stands (formed : script.WellFormed) {edit : Edit}
    (planned : edit ∈ (script.plan options).edits) :
    (script.fix options).Stands (edit.start + script.preamble.length)
      (renderBlocks script.source
        (blocks (sortedItems options script.source script.statements))) := by
  have whole := formed.stands_render planned
  rw [render_eq_preamble] at whole
  exact whole.right

theorem mem_hoisted {place : Int} {statement : Statement}
    (member : statement ∈ script.hoisted place) :
    ∃ spot ∈ placed (fun statement => (statement.text script.source).length) 1 place
        (interleavedImports script.statements),
      spot.2 ∈ interleavedImports script.statements ∧
        statement = spot.2.written id id script.source spot.1 := by
  obtain ⟨spot, found, rfl⟩ := List.mem_map.mp member
  exact ⟨spot, found, snd_mem_of_mem_placed found, rfl⟩

theorem isImport_of_mem_hoisted
    (span : declarationSpan? script.statements = some (start, stop)) {place : Int} :
    ∀ statement ∈ script.hoisted place, statement.isImport = true := by
  intro statement member
  obtain ⟨spot, _, inImports, rfl⟩ := mem_hoisted member
  exact ((mem_interleavedImports span).mp inImports).2.1

/-- The imports put in front of the declarations start before them. -/
theorem WellFormed.start_lt_of_mem_hoisted (formed : script.WellFormed)
    (span : declarationSpan? script.statements = some (start, stop)) {place : Int} :
    ∀ statement ∈ script.hoisted place, statement.start < place + script.preamble.length := by
  intro statement member
  obtain ⟨spot, found, inImports, rfl⟩ := mem_hoisted member
  have arranged := (formed.statement ((mem_interleavedImports span).mp inImports).1).toArranged
  have starts := arranged.start_written_lt spot.1
  have feed : "\n".toList.length = 1 := rfl
  have stops := add_length_le_of_mem_placed feed spot found
  have longer : (Text.join "\n" ((interleavedImports script.statements).map fun statement =>
      statement.text script.source)).length ≤ script.preamble.length := by
    rw [preamble]
    cases interleavedImports script.statements with
    | nil => simp
    | cons first rest => simp
  omega

/-- The statements of a relocated script. -/
theorem statements_relocated
    (span : declarationSpan? script.statements = some (start, stop)) :
    (script.relocated options).statements =
      script.statements.filter (fun statement =>
          statement.isImport && statement.start < start) ++
        script.hoisted start ++
        script.settled options (start + script.preamble.length) ++
        (script.statements.filter fun statement =>
          statement.isImport && stop ≤ statement.start).map
            (Statement.shift ((script.render options).length - (stop - start))) := by
  rw [relocated, span]

theorem isImport_of_mem_filter {statements : List Statement} {chosen : Statement → Bool} :
    ∀ statement ∈ statements.filter (fun statement => statement.isImport && chosen statement),
      statement.isImport = true := by
  intro statement member
  have both := (List.mem_filter.mp member).2
  rw [Bool.and_eq_true] at both
  exact both.1

theorem isImport_of_mem_map_shift {statements : List Statement} (distance : Int)
    (imports : ∀ statement ∈ statements, statement.isImport = true) :
    ∀ statement ∈ statements.map (Statement.shift distance), statement.isImport = true := by
  intro statement member
  obtain ⟨original, found, rfl⟩ := List.mem_map.mp member
  exact imports original found

/-- The declarations of a relocated script are the settled ones. -/
theorem declarations_relocated (formed : script.WellFormed)
    (span : declarationSpan? script.statements = some (start, stop)) :
    declarations (script.relocated options).statements =
      script.settled options (start + script.preamble.length) := by
  have declare : ∀ statement ∈ script.settled options (start + script.preamble.length),
      statement.isImport = false := by
    intro statement member
    obtain ⟨spot, found, inBlock⟩ := List.mem_flatMap.mp member
    exact (formed.grounded span (snd_mem_of_mem_placed found)).declares statement inBlock
  rw [statements_relocated span, declarations_append, declarations_append, declarations_append,
    declarations_of_imports isImport_of_mem_filter,
    declarations_of_imports (isImport_of_mem_hoisted span),
    declarations_of_imports (isImport_of_mem_map_shift _ isImport_of_mem_filter),
    declarations_eq_self declare, List.append_nil, List.nil_append, List.nil_append]

theorem sortItems_settled (formed : script.WellFormed)
    (span : declarationSpan? script.statements = some (start, stop)) (target : Text)
    (index : Nat) (place : Int) :
    sortItems (itemsFrom options target index (script.settled options place)) =
      itemsFrom options target index (script.settled options place) := by
  have keys : (itemsFrom options target index (script.settled options place)).map Item.key =
      (sortedItems options script.source script.statements).map Item.key := by
    rw [settled, map_key_settledBlocks fun block member => formed.grounded span member,
      flatMap_items_blocks]
  exact sortItems_of_pairwise (Item.pairwise_follows_of_keys keys (pairwise_sortItems _))
    (itemsFrom_pairwise _ _)

/-- A relocated script is sorted already. -/
theorem sortedItems_relocated (formed : script.WellFormed)
    (span : declarationSpan? script.statements = some (start, stop)) (target : Text) :
    ∃ index, sortedItems options target (script.relocated options).statements =
      itemsFrom options target index
        (script.settled options (start + script.preamble.length)) := by
  rw [sortedItems_eq_sortItems, statements_relocated span, itemsFrom_append, itemsFrom_append,
    itemsFrom_append, itemsFrom_of_imports isImport_of_mem_filter,
    itemsFrom_of_imports (isImport_of_mem_hoisted span),
    itemsFrom_of_imports (isImport_of_mem_map_shift _ isImport_of_mem_filter),
    List.append_nil, List.nil_append, List.nil_append, sortItems_settled formed span]
  exact ⟨_, rfl⟩

/-- No import stands among the declarations of a relocated script. -/
theorem interleavedImports_relocated (formed : script.WellFormed)
    (span : declarationSpan? script.statements = some (start, stop))
    (newSpan : declarationSpan? (script.relocated options).statements =
      some (start + script.preamble.length, start + (script.render options).length)) :
    interleavedImports (script.relocated options).statements = [] := by
  rw [List.eq_nil_iff_forall_not_mem]
  intro statement member
  obtain ⟨found, imports, above, below⟩ := (mem_interleavedImports newSpan).mp member
  rw [statements_relocated span] at found
  rcases List.mem_append.mp found with earlier | behind
  · rcases List.mem_append.mp earlier with earlier | settled
    · rcases List.mem_append.mp earlier with before | hoisted
      · have := (List.mem_filter.mp before).2
        rw [Bool.and_eq_true, decide_eq_true_eq] at this
        omega
      · have := formed.start_lt_of_mem_hoisted span statement hoisted
        omega
    · rw [← declarations_relocated formed span] at settled
      have declares := (mem_declarations.mp settled).2
      exact Bool.noConfusion (imports.symm.trans declares)
  · obtain ⟨original, chosen, rfl⟩ := List.mem_map.mp behind
    have above := (List.mem_filter.mp chosen).2
    rw [Bool.and_eq_true, decide_eq_true_eq] at above
    dsimp only [Statement.shift] at below
    omega

/-- The declarations of a relocated script span the text to which they have been rendered. -/
theorem declarationSpan?_relocated (formed : script.WellFormed) {edit : Edit}
    (planned : edit ∈ (script.plan options).edits) :
    declarationSpan? (script.relocated options).statements =
      some (edit.start + script.preamble.length,
        edit.start + (script.render options).length) := by
  have span := (edit?_eq_some_iff.mp (edit?_of_mem_plan planned)).1
  have reach : Statement.Reach (edit.start + script.preamble.length)
      (edit.start + script.preamble.length + (renderBlocks script.source
        (blocks (sortedItems options script.source script.statements))).length)
      (script.settled options (edit.start + script.preamble.length)) := by
    apply Statement.Reach.placed rfl (blocks_ne_nil (sortedItems_ne_nil span))
    intro spot member
    exact (formed.grounded span (snd_mem_of_mem_placed member)).reach
      ((formed.stands planned).placed rfl spot member)
  apply declarationSpan?_of_reach
  rw [declarations_relocated formed span, render_eq_preamble, List.length_append, Int.natCast_add,
    ← Int.add_assoc]
  exact reach

/-- A relocated script is rendered to the text that stands there. -/
theorem render_relocated (formed : script.WellFormed) {edit : Edit}
    (planned : edit ∈ (script.plan options).edits) :
    (script.relocated options).render options = renderBlocks script.source
      (blocks (sortedItems options script.source script.statements)) := by
  have span := (edit?_eq_some_iff.mp (edit?_of_mem_plan planned)).1
  have source : (script.relocated options).source = script.fix options := by
    rw [relocated, span]
  obtain ⟨index, sorted⟩ := sortedItems_relocated formed span (script.fix options)
  have imports := interleavedImports_relocated formed span
    (declarationSpan?_relocated formed planned)
  have texts := map_render_blocks_settledBlocks
    (fun block member => formed.grounded span member) (isChain_group_blocks _)
    (formed.stands planned) index
  rw [render, imports, source, sorted, renderBlocks, settled, texts, renderBlocks]

/-- A fixed script needs no further fix: relocated to where the fix has put its statements, a
well-formed script has an empty plan, and a second fix leaves it as it is. -/
theorem plan_relocated (formed : script.WellFormed) (edited : (script.plan options).edits ≠ []) :
    (script.relocated options).source = script.fix options ∧
      (script.relocated options).plan options = {} ∧
        (script.relocated options).fix options = script.fix options := by
  obtain ⟨edit, planned⟩ := List.exists_mem_of_ne_nil _ edited
  have span := (edit?_eq_some_iff.mp (edit?_of_mem_plan planned)).1
  have source : (script.relocated options).source = script.fix options := by
    rw [relocated, span]
  have slice := (formed.stands planned).slice_eq
  have length : edit.start + ((script.render options).length : Int) =
      edit.start + script.preamble.length + (renderBlocks script.source
        (blocks (sortedItems options script.source script.statements))).length := by
    rw [render_eq_preamble, List.length_append]
    omega
  have silent : (script.relocated options).plan options = {} := by
    rw [plan_eq_empty_iff, edit?_eq_none_iff (declarationSpan?_relocated formed planned), source,
      length, slice, render_relocated formed planned]
  refine ⟨source, silent, ?_⟩
  rw [fix, silent, source]
  exact applyEdits_nil _

end Relocated

theorem plan_relocated_untidy :
    untidy.WellFormed ∧ (untidy.plan {}).edits ≠ [] ∧
      (untidy.relocated {}).pieces.map (Stretch.text (untidy.fix {})) =
        ["import ref".toList, "const n = ref()".toList, "// start".toList, "run()".toList,
          "// now ".toList] ∧
      (untidy.relocated {}).plan {} = {} := by
  have formed : untidy.WellFormed := by decide +kernel
  have edited : (untidy.plan {}).edits ≠ [] := by
    cbv
    exact List.cons_ne_nil _ _
  exact ⟨formed, edited, by cbv, (plan_relocated formed edited).2.1⟩

end Script

end DeclOrder

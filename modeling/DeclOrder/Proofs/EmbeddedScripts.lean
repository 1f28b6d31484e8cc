import DeclOrder.Proofs.Preservation

/-!
# Scripts inside larger documents

When the document of a script stands inside a larger one, the script can be planned in either.  Its
items have the same keys and texts in both, so they are sorted, grouped and rendered alike; the
bounds of the edit and the offset of the finding move by the distance at which the script stands,
and nothing else of the plan depends on it.
-/

namespace DeclOrder

/-- A stretch that has both ends in a document of the given length, in order. -/
structure Stretch.Inside (length : Nat) (stretch : Stretch) : Prop where
  nonneg : 0 ≤ stretch.start
  forward : stretch.start ≤ stretch.stop
  within : stretch.stop ≤ length

/-- An item whose statement has been moved by a distance. -/
def Item.shift (distance : Int) (item : Item) : Item :=
  { item with statement := item.statement.shift distance }

/-- A block whose items have been moved by a distance. -/
def Block.shift (distance : Int) (block : Block) : Block :=
  { block with items := block.items.map (Item.shift distance) }

/-- An edit that has been moved by a distance. -/
def Edit.shift (distance : Int) (edit : Edit) : Edit :=
  { edit with start := edit.start + distance, stop := edit.stop + distance }

/-- A finding that has been moved by a distance, with its position in the larger document. -/
def Finding.embed (document : Text) (distance : Int) (finding : Finding) : Finding :=
  { finding with
    offset := finding.offset + distance
    position := document.positionAt (finding.offset + distance) }

/-- A plan for a document that stands at a distance inside a larger one. -/
def Plan.embed (document : Text) (distance : Int) (plan : Plan) : Plan :=
  { plan with
    edits := plan.edits.map (Edit.shift distance)
    findings := plan.findings.map (Finding.embed document distance) }

/-- A script whose document stands at a distance inside a larger one. -/
def Script.embed (document : Text) (distance : Int) (script : Script) : Script :=
  { script with
    source := document
    statements := script.statements.map (Statement.shift distance) }

/-! ## Moved statements -/

theorem Text.Stands.slice_add {target source : Text} {distance : Int}
    (stands : target.Stands distance source) {start stop : Int} (startNonneg : 0 ≤ start)
    (stopNonneg : 0 ≤ stop) (inside : stop ≤ source.length) :
    target.slice (start + distance) (stop + distance) = source.slice start stop := by
  obtain ⟨before, behind, rfl, rfl⟩ := stands
  have starts : (start + before.length).toNat = before.length + start.toNat := by omega
  have stops : (stop + before.length).toNat = before.length + stop.toNat := by omega
  rw [Text.slice_of_nonneg _ (by omega) (by omega), Text.slice_of_nonneg _ startNonneg stopNonneg,
    starts, stops, List.take_length_add_append, List.drop_length_add_append,
    List.take_append_of_le_length (by omega)]

namespace Statement

theorem inside_extentStart {length : Nat} {statement : Statement}
    (inside : ∀ piece ∈ statement.pieces, piece.Inside length) :
    0 ≤ statement.extentStart ∧ statement.extentStart ≤ length := by
  obtain ⟨first, rest, shape, starts⟩ := statement.pieces_eq_cons
  obtain ⟨nonneg, forward, within⟩ := inside first (by simp [shape])
  omega

theorem inside_extentStop {length : Nat} {statement : Statement}
    (inside : ∀ piece ∈ statement.pieces, piece.Inside length) :
    0 ≤ statement.extentStop ∧ statement.extentStop ≤ length := by
  obtain ⟨front, last, shape, stops⟩ := statement.pieces_eq_concat
  obtain ⟨nonneg, forward, within⟩ := inside last (by simp [shape])
  omega

theorem text_shift {target source : Text} {distance : Int}
    (stands : target.Stands distance source) {statement : Statement}
    (inside : ∀ piece ∈ statement.pieces, piece.Inside source.length) :
    (statement.shift distance).text target = statement.text source := by
  have stop := inside_extentStop inside
  have start := (inside _ statement.body_mem_pieces).nonneg
  have body : target.slice (statement.shift distance).start (statement.shift distance).extentStop =
      source.slice statement.start statement.extentStop := by
    rw [extentStop_shift]
    exact stands.slice_add start stop.1 stop.2
  rw [text, text, body]
  dsimp only [shift]
  rw [List.map_map]
  rfl

end Statement

theorem declarations_map_shift (distance : Int) (statements : List Statement) :
    declarations (statements.map (Statement.shift distance)) =
      (declarations statements).map (Statement.shift distance) := by
  rw [declarations, List.filter_map]
  rfl

theorem declarationSpan?_map_shift (distance : Int) (statements : List Statement) :
    declarationSpan? (statements.map (Statement.shift distance)) =
      (declarationSpan? statements).map fun span => (span.1 + distance, span.2 + distance) := by
  rw [declarationSpan?, declarationSpan?, declarations_map_shift, List.head?_map, List.getLast?_map]
  cases (declarations statements).head? with
  | none => rfl
  | some first =>
      cases (declarations statements).getLast? with
      | none => rfl
      | some last =>
          show some _ = some _
          rw [Statement.extentStart_shift, Statement.extentStop_shift]

theorem interleavedImports_map_shift (distance : Int) (statements : List Statement) :
    interleavedImports (statements.map (Statement.shift distance)) =
      (interleavedImports statements).map (Statement.shift distance) := by
  rw [interleavedImports, interleavedImports, declarationSpan?_map_shift]
  cases declarationSpan? statements with
  | none => rfl
  | some span =>
      dsimp only [Option.map_some]
      rw [List.filter_map]
      congr 1
      apply List.filter_congr
      intro statement _
      have imports : (statement.shift distance).isImport = statement.isImport := rfl
      have start : (statement.shift distance).start = statement.start + distance := rfl
      rw [Function.comp_apply, Bool.eq_iff_iff]
      simp [imports, start]

/-! ## Moved items -/

/-- Splitting a list goes along with a function that does not change where it is split. -/
theorem splitBy_map {α β : Type} {f : α → β} {r : β → β → Bool} {s : α → α → Bool}
    (same : ∀ a b, r (f a) (f b) = s a b) (list : List α) :
    (list.map f).splitBy r = (list.splitBy s).map (List.map f) := by
  rw [List.splitBy_eq_iff]
  refine ⟨?_, ?_, ?_, ?_⟩
  · rw [← List.map_flatten, List.flatten_splitBy]
  · intro member
    obtain ⟨part, found, empty⟩ := List.mem_map.mp member
    exact List.ne_nil_of_mem_splitBy found (List.map_eq_nil_iff.mp empty)
  · intro part member
    obtain ⟨original, found, rfl⟩ := List.mem_map.mp member
    rw [List.isChain_map]
    exact (List.isChain_of_mem_splitBy found).imp fun a b linked => (same a b).trans linked
  · rw [List.isChain_map]
    apply (List.isChain_getLast_head_splitBy s list).imp
    rintro first second ⟨firstSome, secondSome, apart⟩
    refine ⟨by simpa using firstSome, by simpa using secondSome, ?_⟩
    rw [List.getLast_map, List.head_map, same]
    exact apart

section SameKeys

variable {f : Item → Item}

theorem fillHooks_map (sameTag : ∀ item, (f item).tag = item.tag) (items hooks : List Item) :
    fillHooks (items.map f) (hooks.map f) = (fillHooks items hooks).map f := by
  have sameHook : ∀ item, (f item).isHook = item.isHook := by
    intro item
    rw [Item.isHook, Item.isHook, sameTag]
  induction items generalizing hooks with
  | nil => rfl
  | cons item rest ih =>
      cases hook : item.isHook with
      | false =>
          rw [List.map_cons, fillHooks_cons_of_not_hook ((sameHook item).trans hook),
            fillHooks_cons_of_not_hook hook, ih, List.map_cons]
      | true =>
          cases hooks with
          | nil =>
              have none := ih []
              rw [List.map_nil] at none
              rw [List.map_cons, List.map_nil, fillHooks.eq_def, fillHooks.eq_def (item :: rest)]
              simp [sameHook, hook, none]
          | cons first others =>
              rw [List.map_cons, List.map_cons,
                fillHooks_cons_of_hook ((sameHook item).trans hook), fillHooks_cons_of_hook hook,
                ih, List.map_cons]

/-- Items are sorted alike when they have the same keys. -/
theorem sortItems_map (sameTag : ∀ item, (f item).tag = item.tag)
    (sameIndex : ∀ item, (f item).index = item.index)
    (samePrimary : ∀ item, (f item).primary = item.primary)
    (sameSecondary : ∀ item, (f item).secondary = item.secondary) (items : List Item) :
    sortItems (items.map f) = (sortItems items).map f := by
  have sorted : (items.map f).mergeSort Item.beforeInSource =
      (items.mergeSort Item.beforeInSource).map f := by
    refine (List.map_mergeSort fun a _ b _ => ?_).symm
    simp only [Item.beforeInSource, samePrimary, sameIndex]
  have split : stretches (items.map f) = (stretches items).map (List.map f) := by
    rw [stretches, stretches, sorted, splitBy_map]
    intro a b
    rw [samePrimary, samePrimary]
  have ranked : ∀ stretch : List Item, rankHooks (stretch.map f) = (rankHooks stretch).map f := by
    intro stretch
    have hooks : (stretch.map f).filter Item.isHook = (stretch.filter Item.isHook).map f := by
      rw [List.filter_map]
      congr 1
      apply List.filter_congr
      intro item _
      rw [Function.comp_apply, Item.isHook, Item.isHook, sameTag]
    rw [rankHooks, rankHooks, hooks, ← fillHooks_map sameTag]
    congr 1
    refine (List.map_mergeSort fun a _ b _ => ?_).symm
    simp only [Item.beforeByRank, sameSecondary, sameIndex]
  rw [sortItems, sortItems, split, List.flatMap_map, List.map_flatMap]
  exact List.flatMap_congr fun stretch _ => ranked stretch

end SameKeys

section Embedded

variable {target source : Text} {distance : Int} (stands : target.Stands distance source)

include stands

theorem ofStatement?_shift {options : Options} {statement : Statement}
    (inside : ∀ piece ∈ statement.pieces, piece.Inside source.length) (index : Int) :
    Item.ofStatement? options target (statement.shift distance) index =
      (Item.ofStatement? options source statement index).map (Item.shift distance) := by
  rw [Item.ofStatement?, Item.ofStatement?, Option.map_map, Statement.text_shift stands inside]
  rfl

theorem itemsFrom_map_shift {options : Options} {statements : List Statement}
    (inside : ∀ statement ∈ statements, ∀ piece ∈ statement.pieces, piece.Inside source.length)
    (index : Nat) :
    itemsFrom options target index (statements.map (Statement.shift distance)) =
      (itemsFrom options source index statements).map (Item.shift distance) := by
  induction statements generalizing index with
  | nil => rfl
  | cons statement rest ih =>
      rw [List.map_cons, itemsFrom_cons, itemsFrom_cons, List.map_append,
        ih fun other member => inside other (List.mem_cons_of_mem _ member),
        ofStatement?_shift stands (inside statement List.mem_cons_self), Option.toList_map]

theorem sortedItems_map_shift {options : Options} {statements : List Statement}
    (inside : ∀ statement ∈ statements, ∀ piece ∈ statement.pieces, piece.Inside source.length) :
    sortedItems options target (statements.map (Statement.shift distance)) =
      (sortedItems options source statements).map (Item.shift distance) := by
  rw [sortedItems_eq_sortItems, itemsFrom_map_shift stands inside,
    sortItems_map (f := Item.shift distance) (fun _ => rfl) (fun _ => rfl) (fun _ => rfl)
      (fun _ => rfl)]
  rfl

/-! ## Moved blocks -/

omit stands in
theorem blocks_map_shift (items : List Item) :
    blocks (items.map (Item.shift distance)) = (blocks items).map (Block.shift distance) := by
  rw [blocks, blocks, splitBy_map (f := Item.shift distance)
    (s := fun a b => a.tag.group = b.tag.group) fun _ _ => rfl, List.filterMap_map,
    List.map_filterMap]
  congr 1
  funext stretch
  cases stretch with
  | nil => rfl
  | cons first rest => rfl

theorem runText_map_shift {run : List Item}
    (inside : ∀ item ∈ run, ∀ piece ∈ item.statement.pieces, piece.Inside source.length) :
    Block.runText target (run.map (Item.shift distance)) = Block.runText source run := by
  rw [Block.runText, Block.runText, List.head?_map, List.getLast?_map]
  cases head : run.head? with
  | none => rfl
  | some first =>
      cases final : run.getLast? with
      | none => rfl
      | some last =>
          have start := Statement.inside_extentStart (inside first (List.mem_of_mem_head? head))
          have stop := Statement.inside_extentStop (inside last (List.mem_of_getLast? final))
          show target.slice (first.statement.shift distance).extentStart
            (last.statement.shift distance).extentStop = _
          rw [Statement.extentStart_shift, Statement.extentStop_shift]
          exact stands.slice_add start.1 stop.1 stop.2

theorem render_shift {block : Block}
    (inside : ∀ item ∈ block.items, ∀ piece ∈ item.statement.pieces,
      piece.Inside source.length) :
    (block.shift distance).render target = block.render source := by
  have runs : (block.shift distance).runs = block.runs.map (List.map (Item.shift distance)) :=
    splitBy_map (fun _ _ => rfl) block.items
  have texts : (block.shift distance).items.map Item.text = block.items.map Item.text := by
    rw [Block.shift, List.map_map]
    rfl
  rw [Block.render, Block.render, runs, texts, List.map_map]
  congr 2
  apply List.map_congr_left
  intro run member
  exact runText_map_shift stands fun item inRun =>
    inside item (Block.mem_items_of_mem_runs member inRun)

theorem decideEdit_map_shift {statements : List Statement}
    (inside : ∀ statement ∈ statements, ∀ piece ∈ statement.pieces, piece.Inside source.length)
    (path : String) (rendered : Text) :
    decideEdit path target (statements.map (Statement.shift distance)) rendered =
      (decideEdit path source statements rendered).map (Edit.shift distance) := by
  rw [decideEdit, decideEdit, declarationSpan?_map_shift]
  cases span : declarationSpan? statements with
  | none => rfl
  | some bounds =>
      obtain ⟨first, last, head, final, starts, stops⟩ := declarationSpan?_eq_some_iff.mp span
      have start := Statement.inside_extentStart
        (inside first (mem_declarations.mp (List.mem_of_mem_head? head)).1)
      have stop := Statement.inside_extentStop
        (inside last (mem_declarations.mp (List.mem_of_getLast? final)).1)
      dsimp only [Option.map_some]
      rw [stands.slice_add (by omega) (by omega) (by omega)]
      split
      · rfl
      · rfl

end Embedded

/-! ## Embedded scripts -/

namespace Script

variable (options : Options) {script : Script} {document : Text} {distance : Int}
  (stands : document.Stands distance script.source)
  (inside : ∀ statement ∈ script.statements, ∀ piece ∈ statement.pieces,
    piece.Inside script.source.length)

include stands inside

theorem render_embed : (script.embed document distance).render options = script.render options := by
  have blocksText : renderBlocks document (blocks (sortedItems options document
      (script.statements.map (Statement.shift distance)))) =
      renderBlocks script.source (blocks (sortedItems options script.source script.statements)) := by
    rw [sortedItems_map_shift stands inside, blocks_map_shift, renderBlocks, renderBlocks,
      List.map_map]
    congr 1
    apply List.map_congr_left
    intro block member
    apply render_shift stands
    intro item inBlock
    have found := (sortItems_perm _).mem_iff.mp ((mem_blocks member).2 item inBlock).1
    obtain ⟨place, at?, _⟩ := mem_itemsFrom found
    exact inside item.statement (List.mem_of_getElem? at?)
  have imports : ((interleavedImports script.statements).map (Statement.shift distance)).map
        (fun statement => statement.text document) =
      (interleavedImports script.statements).map fun statement =>
        statement.text script.source := by
    rw [List.map_map]
    apply List.map_congr_left
    intro statement member
    apply Statement.text_shift stands
    apply inside
    rw [interleavedImports] at member
    split at member
    · cases member
    · exact List.mem_of_mem_filter member
  rw [render, render]
  dsimp only [embed]
  rw [blocksText, interleavedImports_map_shift]
  cases shape : interleavedImports script.statements with
  | nil => rfl
  | cons first rest =>
      rw [shape] at imports
      show Text.join "\n" (((first :: rest).map (Statement.shift distance)).map fun statement =>
        statement.text document) ++ _ ++ _ = _
      rw [imports]

theorem edit?_embed :
    (script.embed document distance).edit? options =
      (script.edit? options).map (Edit.shift distance) := by
  rw [edit?, edit?, render_embed options stands inside]
  exact decideEdit_map_shift stands inside _ _

/-- A script is planned alike wherever its document stands. -/
theorem plan_embed :
    (script.embed document distance).plan options =
      (script.plan options).embed document distance := by
  rw [plan, plan, edit?_embed options stands inside]
  cases script.edit? options with
  | none => rfl
  | some edit =>
      have finding : (script.embed document distance).finding?.toList =
          script.finding?.toList.map (Finding.embed document distance) := by
        rw [finding?, finding?, ← Option.toList_map, Option.map_map]
        dsimp only [embed]
        rw [declarations_map_shift, List.head?_map, Option.map_map]
        rfl
      dsimp only [Option.map_some]
      rw [finding]
      rfl

end Script

end DeclOrder

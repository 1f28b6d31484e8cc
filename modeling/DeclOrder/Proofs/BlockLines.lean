import DeclOrder.Proofs.SortedItems

/-!
# Blocks and their lines

The blocks of a list of items hold the items in their order, and each block is rendered from
stretches of the source that it puts on lines of their own: the runs of a block that is copied as
it stands, the comments and statements of any other block.
-/

namespace DeclOrder

/-- A block of items is one stretch of items of the same group. -/
theorem mem_blocks {items : List Item} {block : Block} (member : block ∈ blocks items) :
    block.items ∈ items.splitBy (fun a b => a.tag.group = b.tag.group) ∧
      ∀ item ∈ block.items, item ∈ items ∧ item.tag.group = block.group := by
  obtain ⟨stretch, found, made⟩ := List.mem_filterMap.mp member
  cases stretch with
  | nil => cases made
  | cons first rest =>
      cases made
      have inItems : ∀ item ∈ first :: rest, item ∈ items := by
        intro item inStretch
        rw [← List.flatten_splitBy (fun a b : Item => a.tag.group = b.tag.group) items]
        exact List.mem_flatten_of_mem found inStretch
      exact ⟨found, fun item inStretch => ⟨inItems item inStretch,
        eq_of_mem_splitBy found item inStretch first List.mem_cons_self⟩⟩

theorem Block.items_ne_nil_of_mem {items : List Item} {block : Block}
    (member : block ∈ blocks items) : block.items ≠ [] :=
  List.ne_nil_of_mem_splitBy (mem_blocks member).1

theorem map_items_blocks (items : List Item) :
    (blocks items).map Block.items = items.splitBy fun a b => a.tag.group = b.tag.group := by
  have some := List.nil_notMem_splitBy (fun a b : Item => a.tag.group = b.tag.group) items
  rw [blocks]
  generalize (items.splitBy fun a b => a.tag.group = b.tag.group) = groups at *
  induction groups with
  | nil => rfl
  | cons group rest ih =>
      rw [List.mem_cons, not_or] at some
      cases group with
      | nil => exact absurd rfl some.1
      | cons first others => exact congrArg ((first :: others) :: ·) (ih some.2)

/-- The blocks of a list of items hold the items in their order. -/
theorem flatMap_items_blocks (items : List Item) : (blocks items).flatMap Block.items = items := by
  rw [List.flatMap_def, map_items_blocks, List.flatten_splitBy]

theorem blocks_ne_nil {items : List Item} (some : items ≠ []) : blocks items ≠ [] := by
  intro none
  rw [← flatMap_items_blocks items, none] at some
  exact some rfl

namespace Block

/-- The stretch of source over a run of items. -/
def runStretch (run : List Item) : Stretch :=
  ⟨(run.head?.map Item.start).getD 0, (run.getLast?.map Item.stop).getD 0⟩

/-- What a block puts on lines of their own. -/
def lines (block : Block) : List Stretch :=
  if block.group.isVerbatim then block.runs.map runStretch
  else block.items.flatMap fun item => item.statement.lines

theorem runStretch_of_ne_nil {run : List Item} (some : run ≠ []) :
    runStretch run = ⟨(run.head some).start, (run.getLast some).stop⟩ := by
  rw [runStretch, List.head?_eq_some_head some, List.getLast?_eq_some_getLast some]
  rfl

theorem runStretch_append {first second : List Item} (firstSome : first ≠ [])
    (secondSome : second ≠ []) :
    runStretch (first ++ second) = ⟨(runStretch first).start, (runStretch second).stop⟩ := by
  rw [runStretch, List.head?_append_of_ne_nil _ firstSome,
    List.getLast?_append_of_ne_nil _ secondSome]
  rfl

theorem runText_eq (source : Text) (run : List Item) :
    runText source run = (runStretch run).text source := by
  cases run with
  | nil => simp [runText, runStretch, Stretch.text, Text.slice, Text.upTo, Text.place]
  | cons first rest =>
      rw [runText, runStretch, List.head?_cons,
        List.getLast?_eq_some_getLast (List.cons_ne_nil first rest)]
      rfl

theorem ne_nil_of_mem_runs {block : Block} {run : List Item} (member : run ∈ block.runs) :
    run ≠ [] :=
  List.ne_nil_of_mem_splitBy member

theorem flatten_runs (block : Block) : block.runs.flatten = block.items :=
  List.flatten_splitBy ..

theorem runs_ne_nil {block : Block} (some : block.items ≠ []) : block.runs ≠ [] := by
  intro none
  rw [← block.flatten_runs, none] at some
  exact some rfl

theorem mem_items_of_mem_runs {block : Block} {run : List Item} (member : run ∈ block.runs)
    {item : Item} (inRun : item ∈ run) : item ∈ block.items := by
  rw [← block.flatten_runs]
  exact List.mem_flatten_of_mem member inRun

theorem isChain_of_mem_runs {block : Block} {run : List Item} (member : run ∈ block.runs) :
    run.IsChain fun a b => a.index + 1 = b.index :=
  (List.isChain_of_mem_splitBy member).imp fun _ _ next => of_decide_eq_true next

/-- The items of a block come from a document: their texts, and the texts of their comments. -/
def Quotes (source : Text) (block : Block) : Prop :=
  ∀ item ∈ block.items, item.text = item.statement.text source ∧
    ∀ comment ∈ item.statement.leading, comment.text = comment.stretch.text source

/-- A block is its lines, joined, and without blank lines unless it is copied as it stands. -/
theorem render_eq {source : Text} {block : Block} (quotes : block.Quotes source) :
    block.render source =
      if block.group.isVerbatim then Text.join "\n" (block.lines.map (Stretch.text source))
      else (Text.join "\n" (block.lines.map (Stretch.text source))).condense := by
  rw [render, lines]
  split
  · rw [List.map_map]
    exact congrArg _ (List.map_congr_left fun run _ => runText_eq source run)
  · rw [List.map_flatMap, Text.join_flatMap fun item _ => by simp [Statement.lines]]
    have texts : block.items.map Item.text = block.items.map fun item =>
        Text.join "\n" (item.statement.lines.map (Stretch.text source)) := by
      apply List.map_congr_left
      intro item member
      rw [(quotes item member).1, Statement.text_eq_join (quotes item member).2]
    rw [texts]

/-- A block has the visible characters of its lines. -/
theorem visible_render {source : Text} {block : Block} (quotes : block.Quotes source) :
    (block.render source).visible =
      block.lines.flatMap fun line => (line.text source).visible := by
  have joined : (Text.join "\n" (block.lines.map (Stretch.text source))).visible =
      block.lines.flatMap fun line => (line.text source).visible := by
    rw [Text.visible_join Text.blank_break, List.flatMap_map]
  rw [render_eq quotes]
  split
  · exact joined
  · rw [Text.visible_condense, joined]

end Block

/-- The blocks of an arranged script quote its source. -/
theorem Script.Arranged.quotes {options : Options} {script : Script} (arranged : script.Arranged)
    {block : Block}
    (member : block ∈ blocks (sortedItems options script.source script.statements)) :
    block.Quotes script.source := by
  intro item inBlock
  have tagged := (sortItems_perm _).mem_iff.mp ((mem_blocks member).2 item inBlock).1
  obtain ⟨place, found, _, made⟩ := mem_itemsFrom tagged
  exact ⟨(Item.of_ofStatement?_eq_some made).2.2.1,
    arranged.quoted_leading (List.mem_of_getElem? found)⟩

end DeclOrder

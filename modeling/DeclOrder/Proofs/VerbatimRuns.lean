import DeclOrder.Proofs.HookPlaces
import DeclOrder.Proofs.Relocation

/-!
# Runs that are copied as they stand

Unknown statements are copied from the source, run by run.  A run is a stretch of statements without
a gap: the source over it holds these statements with their comments and touches no other one, not
even an import, because imports take part in the numbering.  Sorting never changes the order of
unknown statements, so the runs of all blocks, read one after the other, are the unknown statements
in the order of the source, each of them once.
-/

namespace DeclOrder

/-- One stretch lies inside another one. -/
def Stretch.Holds (whole part : Stretch) : Prop :=
  whole.start ≤ part.start ∧ part.stop ≤ whole.stop

/-- Two stretches have no place in common. -/
def Stretch.Apart (first second : Stretch) : Prop :=
  first.stop ≤ second.start ∨ second.stop ≤ first.start

/-- The runs of all blocks that are copied as they stand. -/
def verbatimRuns (items : List Item) : List (List Item) :=
  ((blocks items).filter fun block => block.group.isVerbatim).flatMap Block.runs

/-- Whether a run has an item with the given index. -/
def hasIndex (index : Int) (run : List Item) : Bool :=
  run.any fun item => item.index = index

theorem hasIndex_iff {index : Int} {run : List Item} :
    hasIndex index run = true ↔ ∃ item ∈ run, item.index = index := by
  simp [hasIndex]

/-- The extents of the statements lie in the document, one behind the other. -/
structure Script.Spread (script : Script) : Prop where
  inside : ∀ statement ∈ script.statements, 0 ≤ statement.extentStart ∧
    statement.extentStart ≤ statement.extentStop ∧ statement.extentStop ≤ script.source.length
  apart : script.statements.Pairwise fun a b => a.extentStop ≤ b.extentStart

/-! ## Which items are copied -/

theorem Section.isVerbatim_group (tag : Section) :
    tag.group.isVerbatim = decide (tag = .unknowns) := by
  cases tag <;> rfl

/-- A block is copied as a whole or not at all. -/
theorem filter_unknowns_of_mem_blocks {items : List Item} {block : Block}
    (member : block ∈ blocks items) :
    block.items.filter (fun item => item.tag = .unknowns) =
      if block.group.isVerbatim then block.items else [] := by
  have same : ∀ item ∈ block.items,
      decide (item.tag = .unknowns) = block.group.isVerbatim := by
    intro item inBlock
    rw [← ((mem_blocks member).2 item inBlock).2, Section.isVerbatim_group]
  rw [List.filter_congr same]
  cases block.group.isVerbatim with
  | false => exact List.filter_false _
  | true => exact List.filter_true _

/-- The runs that are copied hold the unknown statements, in the order of the items. -/
theorem flatten_verbatimRuns (items : List Item) :
    (verbatimRuns items).flatten = items.filter fun item => item.tag = .unknowns := by
  have whole : (verbatimRuns items).flatten =
      (blocks items).flatMap fun block => if block.group.isVerbatim then block.items else [] := by
    rw [verbatimRuns]
    induction blocks items with
    | nil => rfl
    | cons block rest ih =>
        rw [List.flatMap_cons, List.filter_cons]
        split
        · rw [List.flatMap_cons, List.flatten_append, block.flatten_runs, ih]
        · exact ih
  rw [whole]
  conv_rhs => rw [← flatMap_items_blocks items, List.filter_flatMap]
  exact List.flatMap_congr fun block member => (filter_unknowns_of_mem_blocks member).symm

/-- Where no index occurs twice, the index of an item is found in one run only. -/
theorem countP_hasIndex {runs : List (List Item)}
    (distinct : runs.flatten.Pairwise fun a b => a.index ≠ b.index) {item : Item}
    (member : item ∈ runs.flatten) : runs.countP (hasIndex item.index) = 1 := by
  induction runs with
  | nil => cases member
  | cons run rest ih =>
      rw [List.flatten_cons, List.pairwise_append] at distinct
      rw [List.flatten_cons, List.mem_append] at member
      obtain ⟨_, distinctRest, across⟩ := distinct
      rcases member with inRun | inRest
      · have here : hasIndex item.index run = true := hasIndex_iff.mpr ⟨item, inRun, rfl⟩
        have later : rest.countP (hasIndex item.index) = 0 := by
          rw [List.countP_eq_zero]
          intro next inNext found
          obtain ⟨other, inOther, same⟩ := hasIndex_iff.mp found
          exact across item inRun other (List.mem_flatten_of_mem inNext inOther) same.symm
        rw [List.countP_cons_of_pos here, later]
      · have elsewhere : ¬hasIndex item.index run = true := by
          intro found
          obtain ⟨other, inOther, same⟩ := hasIndex_iff.mp found
          exact across other inOther item inRest same
        rw [List.countP_cons_of_neg elsewhere, ih distinctRest inRest]

/-! ## Items of one section -/

section Items

variable {options : Options} {source : Text} {statements : List Statement}

/-- The items of a section stand in the order of the source, unless they are lifecycle hooks. -/
theorem pairwise_index_filter_tag {tag : Section} (other : tag ≠ .lifecycle) :
    ((sortedItems options source statements).filter fun item => item.tag = tag).Pairwise
      fun a b => a.index ≤ b.index := by
  have place : ∀ item ∈ sortedItems options source statements, item.tag = tag →
      decide (item.primary = options.sections.rank tag) = true ∧ (!item.isHook) = true := by
    intro item member here
    have keys := Item.keys_of_ofStatement?_eq_some (ofStatement?_of_mem_sortedItems member)
    rw [keys.1, Item.isHook, here, decide_eq_false other]
    exact ⟨decide_eq_true rfl, rfl⟩
  -- Among the items of one section place that are no hooks, sorting is sorting by index.
  have plain : ((atPrimary (options.sections.rank tag)
      (sortedItems options source statements)).filter fun item => !item.isHook).Pairwise
        fun a b => a.index ≤ b.index := by
    rw [sortedItems_eq_sortItems, atPrimary_sortItems, rankHooks,
      filter_not_isHook_fillHooks isHook_of_mem_mergeSort (List.length_mergeSort _).symm]
    apply (((Item.pairwise_mergeSort_beforeInSource _).filter _).filter _).imp_of_mem
    intro a b aMember bMember before
    have aPlace := (primary_of_mem_atPrimary (List.mem_of_mem_filter aMember)).2
    have bPlace := (primary_of_mem_atPrimary (List.mem_of_mem_filter bMember)).2
    have := Item.beforeInSource_iff.mp before
    omega
  rw [atPrimary, List.pairwise_filter, List.pairwise_filter] at plain
  rw [List.pairwise_filter]
  apply plain.imp_of_mem
  intro a b aMember bMember ordered aHere bHere
  obtain ⟨aPlace, aOther⟩ := place a aMember (of_decide_eq_true aHere)
  obtain ⟨bPlace, bOther⟩ := place b bMember (of_decide_eq_true bHere)
  exact ordered aPlace bPlace aOther bOther

/-- Sorting keeps the order of the items of a section, unless they are lifecycle hooks. -/
theorem filter_tag_sortedItems {tag : Section} (other : tag ≠ .lifecycle) :
    (sortedItems options source statements).filter (fun item => item.tag = tag) =
      (itemsFrom options source 0 statements).filter fun item => item.tag = tag := by
  apply eq_of_pairwise_index (nodup_index_sortedItems options source statements)
    (List.filter_subset_self _)
  · exact (sortItems_perm _).filter _
  · exact pairwise_index_filter_tag other
  · exact ((itemsFrom_pairwise 0 statements).filter _).imp Int.le_of_lt

/-- The runs that are copied hold the unknown statements in the order of the source. -/
theorem flatten_verbatimRuns_sortedItems :
    (verbatimRuns (sortedItems options source statements)).flatten =
      (itemsFrom options source 0 statements).filter fun item => item.tag = .unknowns := by
  rw [flatten_verbatimRuns, filter_tag_sortedItems (by decide)]

/-- The item of a statement that is not an import is among the items. -/
theorem exists_mem_itemsFrom (source : Text) {place : Nat} {statement : Statement} {tag : Section}
    (found : statements[place]? = some statement)
    (classified : statement.section? options.tables = some tag) :
    ∃ item ∈ itemsFrom options source 0 statements, item.index = place ∧ item.tag = tag := by
  obtain ⟨item, made⟩ : ∃ item, Item.ofStatement? options source statement place = some item :=
    ⟨_, Option.map_eq_some_iff.mpr ⟨tag, classified, rfl⟩⟩
  obtain ⟨_, index, _, itemTag⟩ := Item.of_ofStatement?_eq_some made
  refine ⟨item, ?_, index, Option.some.inj (itemTag.symm.trans classified)⟩
  exact List.mem_filterMap.mpr
    ⟨(statement, place), List.mem_zipIdx_iff_getElem?.mpr found, made⟩

/-- Every unknown statement is in one of the runs that are copied, and in no second one. -/
theorem countP_verbatimRuns {place : Nat} {statement : Statement}
    (found : statements[place]? = some statement)
    (unknown : statement.section? options.tables = some .unknowns) :
    (verbatimRuns (sortedItems options source statements)).countP (hasIndex place) = 1 := by
  obtain ⟨item, member, index, tag⟩ := exists_mem_itemsFrom source found unknown
  rw [← index]
  apply countP_hasIndex
  · rw [flatten_verbatimRuns_sortedItems]
    exact ((itemsFrom_pairwise 0 statements).filter _).imp Int.ne_of_lt
  · rw [flatten_verbatimRuns_sortedItems]
    exact List.mem_filter.mpr ⟨member, decide_eq_true tag⟩

end Items

/-! ## What a run covers -/

namespace Block

/-- A run has all indices from that of its first item to that of its last one. -/
theorem hasIndex_iff_between {run : List Item}
    (chain : run.IsChain fun a b => a.index + 1 = b.index) {first last : Item}
    (head : run.head? = some first) (final : run.getLast? = some last) :
    ∀ index : Int,
      hasIndex index run = true ↔ first.index ≤ index ∧ index ≤ last.index := by
  induction run generalizing first with
  | nil => cases head
  | cons a rest ih =>
      cases head
      intro index
      cases rest with
      | nil =>
          have same : a = last := Option.some.inj final
          subst same
          simp only [hasIndex_iff, List.mem_singleton, exists_eq_left]
          omega
      | cons b others =>
          obtain ⟨next, chainRest⟩ := List.isChain_cons_cons.mp chain
          rw [List.getLast?_cons_cons] at final
          have later := ih chainRest rfl final
          have ascends := (later b.index).mp (hasIndex_iff.mpr ⟨b, List.mem_cons_self, rfl⟩)
          have cut : hasIndex index (a :: b :: others) = true ↔
              a.index = index ∨ hasIndex index (b :: others) = true := by
            rw [hasIndex, List.any_cons, ← hasIndex, Bool.or_eq_true, decide_eq_true_eq]
          rw [cut, later index]
          omega

/-- Neighbouring runs leave out at least one statement between them. -/
theorem isChain_runs (block : Block) :
    block.runs.IsChain fun run next =>
      ∀ last ∈ run.getLast?, ∀ first ∈ next.head?, last.index + 1 ≠ first.index := by
  apply (List.isChain_getLast_head_splitBy (fun a b : Item => a.index + 1 = b.index)
    block.items).imp
  rintro run next ⟨runSome, nextSome, apart⟩ last isLast first isFirst
  rw [List.getLast?_eq_some_getLast runSome] at isLast
  rw [List.head?_eq_some_head nextSome] at isFirst
  cases isLast
  cases isFirst
  exact of_decide_eq_false apart

end Block

namespace Script

/-- The items of a run are statements of the script, under the numbers that they have there. -/
def Numbers (script : Script) (run : List Item) : Prop :=
  ∀ item ∈ run, ∃ place : Nat,
    script.statements[place]? = some item.statement ∧ item.index = place

variable {options : Options} {script : Script} {run : List Item}

theorem numbers_of_mem_runs {block : Block}
    (member : block ∈ blocks (sortedItems options script.source script.statements))
    (inRuns : run ∈ block.runs) : script.Numbers run := by
  intro item inRun
  have inItems := ((mem_blocks member).2 item (Block.mem_items_of_mem_runs inRuns inRun)).1
  obtain ⟨place, found, index, _⟩ := mem_itemsFrom ((sortItems_perm _).mem_iff.mp inItems)
  rw [Nat.zero_add] at index
  exact ⟨place, found, index⟩

/-- A run reaches from the extent of its first statement to that of its last one, and it has every
statement between them. -/
theorem Numbers.ends (numbers : script.Numbers run) (present : run ≠ [])
    (chain : run.IsChain fun a b => a.index + 1 = b.index) :
    ∃ (i j : Nat) (first last : Statement), script.statements[i]? = some first ∧
      script.statements[j]? = some last ∧
      Block.runStretch run = ⟨first.extentStart, last.extentStop⟩ ∧
      ∀ place : Nat, hasIndex place run = true ↔ i ≤ place ∧ place ≤ j := by
  obtain ⟨i, firstFound, firstIndex⟩ := numbers _ (List.head_mem present)
  obtain ⟨j, lastFound, lastIndex⟩ := numbers _ (List.getLast_mem present)
  refine ⟨i, j, _, _, firstFound, lastFound, Block.runStretch_of_ne_nil present, ?_⟩
  intro place
  rw [Block.hasIndex_iff_between chain (List.head?_eq_some_head present)
    (List.getLast?_eq_some_getLast present), firstIndex, lastIndex, Int.ofNat_le, Int.ofNat_le]

end Script

namespace Script.Spread

variable {script : Script} (spread : script.Spread)

include spread

theorem forward {place : Nat} {statement : Statement}
    (found : script.statements[place]? = some statement) :
    statement.extentStart ≤ statement.extentStop :=
  (spread.inside statement (List.mem_of_getElem? found)).2.1

theorem extent_before {i j : Nat} {a b : Statement} (aFound : script.statements[i]? = some a)
    (bFound : script.statements[j]? = some b) (before : i < j) :
    a.extentStop ≤ b.extentStart := by
  obtain ⟨iInside, rfl⟩ := List.getElem?_eq_some_iff.mp aFound
  obtain ⟨jInside, rfl⟩ := List.getElem?_eq_some_iff.mp bFound
  exact List.pairwise_iff_getElem.mp spread.apart i j iInside jInside before

/-- Extents start and stop in the order of the statements. -/
theorem extent_mono {i j : Nat} {a b : Statement} (aFound : script.statements[i]? = some a)
    (bFound : script.statements[j]? = some b) (inOrder : i ≤ j) :
    a.extentStart ≤ b.extentStart ∧ a.extentStop ≤ b.extentStop := by
  rcases Nat.lt_or_eq_of_le inOrder with before | rfl
  · have apart := spread.extent_before aFound bFound before
    exact ⟨Int.le_trans (spread.forward aFound) apart, Int.le_trans apart (spread.forward bFound)⟩
  · rw [Option.some.inj (aFound.symm.trans bFound)]
    exact ⟨Int.le_refl _, Int.le_refl _⟩

variable {run : List Item} (numbers : script.Numbers run) (present : run ≠ [])
  (chain : run.IsChain fun a b => a.index + 1 = b.index) {place : Nat} {statement : Statement}
  (found : script.statements[place]? = some statement)

include numbers present chain found

/-- A run holds each of its statements, with all comments. -/
theorem holds_extent (inRun : hasIndex place run = true) :
    (Block.runStretch run).Holds statement.extent := by
  obtain ⟨i, j, first, last, firstFound, lastFound, stretch, between⟩ :=
    numbers.ends present chain
  obtain ⟨above, below⟩ := (between place).mp inRun
  rw [stretch]
  exact ⟨(spread.extent_mono firstFound found above).1,
    (spread.extent_mono found lastFound below).2⟩

/-- A run touches no other statement and no comment of another statement. -/
theorem apart_extent (outside : hasIndex place run = false) :
    (Block.runStretch run).Apart statement.extent := by
  obtain ⟨i, j, first, last, firstFound, lastFound, stretch, between⟩ :=
    numbers.ends present chain
  have beyond : place < i ∨ j < place := by
    rw [Bool.eq_false_iff, ne_eq, between place] at outside
    omega
  rw [stretch]
  rcases beyond with before | behind
  · exact .inr (spread.extent_before found firstFound before)
  · exact .inl (spread.extent_before lastFound found behind)

/-- The text of a run has the text of each of its statements as one piece. -/
theorem infix_runText (inRun : hasIndex place run = true) :
    statement.extent.text script.source <:+: Block.runText script.source run := by
  obtain ⟨i, j, first, last, firstFound, lastFound, stretch, _⟩ := numbers.ends present chain
  obtain ⟨starts, stops⟩ := spread.holds_extent numbers present chain found inRun
  rw [Block.runText_eq]
  apply Text.slice_infix_slice _ _ starts (spread.forward found) stops
  rw [stretch]
  exact (spread.inside first (List.mem_of_getElem? firstFound)).1

end Script.Spread

/-! ## Runs in the rendered text -/

/-- The runs of a block that is copied stand in the rendered text as one piece, line by line. -/
theorem Script.infix_render {options : Options} {script : Script} {block : Block}
    (member : block ∈ blocks (sortedItems options script.source script.statements))
    (verbatim : block.group.isVerbatim = true) :
    Text.join "\n" (block.runs.map (Block.runText script.source)) <:+:
      script.render options := by
  have text : block.render script.source =
      Text.join "\n" (block.runs.map (Block.runText script.source)) := by
    rw [Block.render, if_pos verbatim]
  rw [← text, script.render_eq_preamble options]
  exact (Text.infix_join _ (List.mem_map_of_mem member)).trans (List.suffix_append _ _).isInfix

/-- Unknown statements are copied, and nothing else is copied with them.  A block of them is cut
into runs of neighbours, the text of a run holds its statements with their comments and has no
place in common with any other statement, imports included, and the runs of a block are put on
lines of their own.  Each unknown statement is in one run only, and the runs keep the order of the
source. -/
theorem Script.unknowns_copied_alone {script : Script} (spread : script.Spread)
    (options : Options) :
    (∀ block ∈ blocks (sortedItems options script.source script.statements),
      block.group.isVerbatim = true →
        block.runs.flatten = block.items ∧
        block.runs.IsChain (fun run next =>
          ∀ last ∈ run.getLast?, ∀ first ∈ next.head?, last.index + 1 ≠ first.index) ∧
        (∀ run ∈ block.runs, run ≠ [] ∧ script.Numbers run ∧
          run.IsChain (fun a b => a.index + 1 = b.index) ∧
          Block.runText script.source run = (Block.runStretch run).text script.source ∧
          ∀ (place : Nat) (statement : Statement), script.statements[place]? = some statement →
            (hasIndex place run = true →
              (Block.runStretch run).Holds statement.extent ∧
                statement.extent.text script.source <:+: Block.runText script.source run) ∧
            (hasIndex place run = false → (Block.runStretch run).Apart statement.extent)) ∧
        Text.join "\n" (block.runs.map (Block.runText script.source)) <:+:
          script.render options) ∧
    (verbatimRuns (sortedItems options script.source script.statements)).flatten =
      ((itemsFrom options script.source 0 script.statements).filter fun item =>
        item.tag = .unknowns) ∧
    ∀ (place : Nat) (statement : Statement), script.statements[place]? = some statement →
      statement.section? options.tables = some .unknowns →
        (verbatimRuns (sortedItems options script.source script.statements)).countP
          (hasIndex place) = 1 := by
  refine ⟨fun block member verbatim => ⟨block.flatten_runs, block.isChain_runs, ?_,
    infix_render member verbatim⟩, flatten_verbatimRuns_sortedItems,
    fun place statement found unknown => countP_verbatimRuns found unknown⟩
  intro run inRuns
  have present := Block.ne_nil_of_mem_runs inRuns
  have numbers := numbers_of_mem_runs member inRuns
  have chain := Block.isChain_of_mem_runs inRuns
  refine ⟨present, numbers, chain, Block.runText_eq _ _, fun place statement found => ⟨?_, ?_⟩⟩
  · intro inRun
    exact ⟨spread.holds_extent numbers present chain found inRun,
      spread.infix_runText numbers present chain found inRun⟩
  · exact spread.apart_extent numbers present chain found

/-- Unknown statements that are apart from each other: two neighbours, one behind an import, and one
behind a variable. -/
def Script.scattered : Script where
  path := "Counter.vue"
  source := "a()  // now\nb()\nimport c\nd()\nlet e = 1\nf()".toList
  statements :=
    [{ kind := .other, start := 0, stop := 3, trailing := some ⟨5, 11, "// now".toList⟩ },
     { kind := .other, start := 12, stop := 15 },
     { kind := .importing, start := 16, stop := 24 },
     { kind := .other, start := 25, stop := 28 },
     { kind := .variables, start := 29, stop := 38, initializer := some { kind := .other } },
     { kind := .other, start := 39, stop := 42 }]

theorem Script.unknowns_copied_alone_scattered :
    scattered.Spread ∧
      (blocks (sortedItems {} scattered.source scattered.statements)).map
          (fun block => (block.group.isVerbatim, block.runs.map (List.map Item.index))) =
        [(false, [[4]]), (true, [[0, 1], [3], [5]])] ∧
      "a()  // now\nb()\nd()\nf()".toList <:+: scattered.render {} ∧
      (verbatimRuns (sortedItems {} scattered.source scattered.statements)).countP
        (hasIndex 3) = 1 := by
  have spread : scattered.Spread := ⟨by decide, by decide⟩
  obtain ⟨copied, _, once⟩ := unknowns_copied_alone spread {}
  have texts : (blocks (sortedItems {} scattered.source scattered.statements)).map
      (fun block => (block.group.isVerbatim,
        Text.join "\n" (block.runs.map (Block.runText scattered.source)))) =
        [(false, "let e = 1".toList), (true, "a()  // now\nb()\nd()\nf()".toList)] := by cbv
  have member : (true, "a()  // now\nb()\nd()\nf()".toList) ∈
      (blocks (sortedItems {} scattered.source scattered.statements)).map fun block =>
        (block.group.isVerbatim,
          Text.join "\n" (block.runs.map (Block.runText scattered.source))) := by
    rw [texts]
    exact List.mem_cons_of_mem _ List.mem_cons_self
  obtain ⟨block, inBlocks, same⟩ := List.mem_map.mp member
  obtain ⟨verbatim, text⟩ := Prod.mk.inj same
  refine ⟨spread, by cbv, ?_, once 3 _ rfl rfl⟩
  rw [← text]
  exact (copied block inBlocks verbatim).2.2.2

end DeclOrder

import DeclOrder.Proofs.Relocation

/-!
# Settled blocks

The statements of sorted blocks, put where the rendered text of the blocks stands.  They keep the
keys of their items, so grouping finds the same blocks again, and each block is rendered from its
new place to the text that stands there.
-/

namespace DeclOrder

/-! ## Sort keys -/

/-- What the section of a statement depends on. -/
def Statement.shape (statement : Statement) :
    StatementKind × Option Expression × Option Expression :=
  (statement.kind, statement.initializer, statement.expression)

/-- What the order of items and their blocks depend on, places in the source apart. -/
def Item.key (item : Item) : Section × Int × Option Int :=
  (item.tag, item.primary, item.secondary)

theorem Statement.isImport_eq_of_shape {a b : Statement} (same : a.shape = b.shape) :
    a.isImport = b.isImport := by
  rw [isImport, isImport, (Prod.mk.inj same).1]

namespace Item

/-- Statements of equal shape give items of equal key. -/
theorem key_ofStatement? (options : Options) {a b : Statement} (same : a.shape = b.shape)
    (source target : Text) (index place : Int) :
    (ofStatement? options target a place).map key =
      (ofStatement? options source b index).map key := by
  obtain ⟨kind, start, stop, initializer, expression, leading, trailing⟩ := a
  obtain ⟨sameKind, sameRest⟩ := Prod.mk.inj same
  obtain ⟨sameInitializer, sameExpression⟩ := Prod.mk.inj sameRest
  dsimp only at sameKind sameInitializer sameExpression
  subst sameKind sameInitializer sameExpression
  rw [ofStatement?, ofStatement?, Option.map_map, Option.map_map]
  rfl

theorem tag_eq_of_key {a b : Item} (same : a.key = b.key) : a.tag = b.tag :=
  (Prod.mk.inj same).1

theorem Follows.of_key {a b c d : Item} (follows : Follows a b) (first : c.key = a.key)
    (second : d.key = b.key) : Follows c d := by
  obtain ⟨aTag, aRest⟩ := Prod.mk.inj first
  obtain ⟨aPrimary, aSecondary⟩ := Prod.mk.inj aRest
  obtain ⟨bTag, bRest⟩ := Prod.mk.inj second
  obtain ⟨bPrimary, bSecondary⟩ := Prod.mk.inj bRest
  obtain ⟨primary, rank⟩ := follows
  rw [isHook, isHook, Item.rank, Item.rank] at rank
  refine ⟨?_, ?_⟩
  · rwa [aPrimary, bPrimary]
  · rwa [isHook, isHook, Item.rank, Item.rank, aTag, bTag, aPrimary, bPrimary, aSecondary,
      bSecondary]

/-- Items follow each other if items with the same keys do. -/
theorem pairwise_follows_of_keys {items others : List Item}
    (same : items.map key = others.map key) (follows : others.Pairwise Follows) :
    items.Pairwise Follows := by
  induction items generalizing others with
  | nil => exact .nil
  | cons item rest ih =>
      cases others with
      | nil => cases same
      | cons other more =>
          obtain ⟨sameFirst, sameRest⟩ := List.cons.inj same
          obtain ⟨before, followsRest⟩ := List.pairwise_cons.mp follows
          refine List.pairwise_cons.mpr ⟨?_, ih sameRest followsRest⟩
          intro later member
          have keyMember : later.key ∈ more.map key := sameRest ▸ List.mem_map_of_mem member
          obtain ⟨counterpart, found, sameKey⟩ := List.mem_map.mp keyMember
          exact (before counterpart found).of_key sameFirst sameKey.symm

end Item

/-- Statements shaped like those of some items give items with the same keys. -/
theorem map_key_itemsFrom {options : Options} {source target : Text} {items : List Item}
    {statements : List Statement}
    (made : ∀ item ∈ items,
      Item.ofStatement? options source item.statement item.index = some item)
    (same : statements.map Statement.shape = items.map fun item => item.statement.shape)
    (index : Nat) :
    (itemsFrom options target index statements).map Item.key = items.map Item.key := by
  induction statements generalizing items index with
  | nil =>
      have none : items = [] := List.map_eq_nil_iff.mp same.symm
      rw [none]
      rfl
  | cons statement rest ih =>
      cases items with
      | nil => cases same
      | cons item others =>
          obtain ⟨sameFirst, sameRest⟩ := List.cons.inj same
          have key := Item.key_ofStatement? options sameFirst source target item.index index
          rw [made item List.mem_cons_self] at key
          obtain ⟨first, found, sameKey⟩ := Option.map_eq_some_iff.mp key
          rw [itemsFrom_cons, found, Option.toList_some, List.singleton_append, List.map_cons,
            List.map_cons, sameKey,
            ih (fun item member => made item (List.mem_cons_of_mem _ member)) sameRest]

/-! ## The items and blocks of declarations in a row -/

section Row

variable {options : Options} {target : Text} {statements : List Statement}

theorem declarations_eq_self (declare : ∀ statement ∈ statements, statement.isImport = false) :
    declarations statements = statements := by
  rw [declarations, List.filter_eq_self]
  intro statement member
  rw [declare statement member]
  rfl

theorem map_text_itemsFrom (declare : ∀ statement ∈ statements, statement.isImport = false)
    (index : Nat) :
    (itemsFrom options target index statements).map Item.text =
      statements.map (Statement.text · target) := by
  have texts : (itemsFrom options target index statements).map Item.text =
      ((itemsFrom options target index statements).map Item.statement).map
        (Statement.text · target) := by
    rw [List.map_map]
    apply List.map_congr_left
    intro item member
    obtain ⟨_, _, _, made⟩ := mem_itemsFrom member
    exact (Item.of_ofStatement?_eq_some made).2.2.1
  rw [texts, map_statement_itemsFrom, declarations_eq_self declare]

theorem itemsFrom_cons_of_declares {statement : Statement} (declares : statement.isImport = false)
    (index : Nat) (rest : List Statement) :
    ∃ item, itemsFrom options target index (statement :: rest) =
      item :: itemsFrom options target (index + 1) rest ∧ item.index = index := by
  cases found : Item.ofStatement? options target statement index with
  | none =>
      rw [Item.ofStatement?, Option.map_eq_none_iff, Statement.section?_eq_none_iff,
        declares] at found
      cases found
  | some item =>
      refine ⟨item, ?_, (Item.of_ofStatement?_eq_some found).2.1⟩
      rw [itemsFrom_cons, found]
      rfl

/-- Declarations in a row have indices in a row. -/
theorem isChain_itemsFrom (declare : ∀ statement ∈ statements, statement.isImport = false)
    (index : Nat) :
    (itemsFrom options target index statements).IsChain fun a b => a.index + 1 = b.index := by
  induction statements generalizing index with
  | nil => exact .nil
  | cons statement rest ih =>
      have declareRest : ∀ other ∈ rest, other.isImport = false := fun other member =>
        declare other (List.mem_cons_of_mem _ member)
      obtain ⟨first, shape, firstIndex⟩ :=
        itemsFrom_cons_of_declares (declare statement List.mem_cons_self) index rest
      rw [shape]
      refine (ih declareRest (index + 1)).cons ?_
      intro next head
      cases rest with
      | nil => cases head
      | cons other others =>
          obtain ⟨second, shapeRest, secondIndex⟩ :=
            itemsFrom_cons_of_declares (declareRest other List.mem_cons_self) (index + 1) others
          rw [shapeRest] at head
          obtain rfl : second = next := Option.some.inj head
          rw [firstIndex, secondIndex]
          rfl

end Row

theorem blocks_append {first second : List Item}
    (apart : ∀ a ∈ first.getLast?, ∀ b ∈ second.head?, a.tag.group ≠ b.tag.group) :
    blocks (first ++ second) = blocks first ++ blocks second := by
  rw [blocks, List.splitBy_append, List.filterMap_append]
  · rfl
  · intro a last b head
    exact decide_eq_false (apart a last b head)

theorem blocks_of_group {items : List Item} {group : Group} (some : items ≠ [])
    (same : ∀ item ∈ items, item.tag.group = group) : blocks items = [⟨group, items⟩] := by
  have chain : items.IsChain fun a b => decide (a.tag.group = b.tag.group) = true := by
    apply List.Pairwise.isChain
    apply List.pairwise_of_forall_mem_list
    intro a aMember b bMember
    exact decide_eq_true ((same a aMember).trans (same b bMember).symm)
  rw [blocks, List.splitBy_of_isChain some chain]
  obtain ⟨first, rest, rfl⟩ := List.exists_cons_of_ne_nil some
  simp [Block.ofItems?, same first List.mem_cons_self]

/-! ## Settled blocks -/

namespace Statement

theorem extentStart_shift (distance : Int) (statement : Statement) :
    (statement.shift distance).extentStart = statement.extentStart + distance := by
  rw [extentStart, extentStart, shift]
  cases statement.leading with
  | nil => rfl
  | cons comment others => rfl

theorem extentStop_shift (distance : Int) (statement : Statement) :
    (statement.shift distance).extentStop = statement.extentStop + distance := by
  rw [extentStop, extentStop, shift]
  cases statement.trailing with
  | none => rfl
  | some comment => rfl

end Statement

namespace Block

/-- The items of a block come from well-formed statements of a document. -/
structure Grounded (options : Options) (source : Text) (block : Block) : Prop where
  present : block.items ≠ []
  group : ∀ item ∈ block.items, item.tag.group = block.group
  made : ∀ item ∈ block.items,
    Item.ofStatement? options source item.statement item.index = some item
  formed : ∀ item ∈ block.items, item.statement.WellFormed source
  runs : ∀ run ∈ block.runs, 0 ≤ (runStretch run).start ∧
    (runStretch run).start ≤ (runStretch run).stop ∧ (runStretch run).stop ≤ source.length

theorem map_shape_settledItems (source : Text) (place : Int) (items : List Item) :
    (settledItems source place items).map Statement.shape =
      items.map fun item => item.statement.shape := by
  induction items generalizing place with
  | nil => rfl
  | cons item rest ih =>
      cases rest with
      | nil => rfl
      | cons next others => exact congrArg (item.statement.shape :: ·) (ih _)

/-- A settled block has statements of the shapes of its items. -/
theorem map_shape_settled (source : Text) (place : Int) (block : Block) :
    (block.settled source place).map Statement.shape =
      block.items.map fun item => item.statement.shape := by
  rw [settled]
  split
  · have shapes : ∀ spot : Int × List Item,
        (settledRun spot.1 spot.2).map Statement.shape =
          spot.2.map fun item => item.statement.shape := by
      intro spot
      rw [settledRun, List.map_map]
      rfl
    rw [List.map_flatMap, List.flatMap_congr fun spot _ => shapes spot,
      flatMap_snd_placed fun run : List Item => run.map fun item => item.statement.shape,
      List.flatMap_def, ← List.map_flatten, block.flatten_runs]
  · exact map_shape_settledItems source place block.items

/-- A run that has been moved reaches over its text. -/
theorem reach_settledRun {source : Text} {run : List Item} (some : run ≠ [])
    (bounds : 0 ≤ (runStretch run).start ∧ (runStretch run).start ≤ (runStretch run).stop ∧
      (runStretch run).stop ≤ source.length) (place : Int) :
    Statement.Reach place (place + (runText source run).length) (settledRun place run) := by
  have length : ((runText source run).length : Int) =
      (runStretch run).stop - (runStretch run).start := by
    rw [runText_eq]
    exact Text.length_slice source bounds.1 bounds.2.1 bounds.2.2
  have first := List.head?_eq_some_head some
  have last := List.getLast?_eq_some_getLast some
  rw [length, runStretch, settledRun, runStretch, Statement.Reach, List.head?_map,
    List.getLast?_map, first, last]
  simp only [Option.map_some, Option.getD_some, Statement.extentStart_shift,
    Statement.extentStop_shift, Item.start, Item.stop, Option.some.injEq]
  omega

section Condensed

variable {options : Options} {source target : Text} {items : List Item}

/-- The text to which the items of a condensed block are rendered. -/
def condensedText (items : List Item) : Text :=
  (Text.join "\n" (items.map fun item => item.text.collapse)).trimEnd

theorem condensedText_cons_cons (item next : Item) (rest : List Item)
    (starts : next.text.collapse.StartsVisible) :
    condensedText (item :: next :: rest) =
      item.text.collapse ++ ("\n".toList ++ condensedText (next :: rest)) := by
  have behind : (Text.join "\n" ((next :: rest).map fun item =>
      item.text.collapse)).StartsVisible := Text.startsVisible_join starts
  rw [condensedText, condensedText, Text.join_map_cons_cons, ← List.append_assoc,
    Text.trimEnd_append behind, List.append_assoc]

/-- The statements of a condensed block, written anew, reach over its text and have it. -/
theorem settledItems_spec (present : items ≠ [])
    (texts : ∀ item ∈ items, item.text = item.statement.text source)
    (formed : ∀ item ∈ items, item.statement.WellFormed source) {place : Int}
    (stands : target.Stands place (condensedText items)) :
    Statement.Reach place (place + (condensedText items).length)
        (settledItems source place items) ∧
      Text.join "\n" ((settledItems source place items).map (Statement.text · target)) =
        condensedText items := by
  induction items generalizing place with
  | nil => exact absurd rfl present
  | cons item rest ih =>
      have itemFormed := formed item List.mem_cons_self
      have text := texts item List.mem_cons_self
      cases rest with
      | nil =>
          have only : condensedText [item] = (item.statement.text source).collapse.trimEnd := by
            rw [← text]
            simp [condensedText]
          rw [only] at stands ⊢
          obtain ⟨reach, same⟩ := itemFormed.written_spec Text.reformsEnd_trimEnd stands
          exact ⟨reach, by simpa [settledItems] using same⟩
      | cons next others =>
          have nextStarts : next.text.collapse.StartsVisible := by
            rw [texts next (by simp)]
            exact (formed next (by simp)).text_starts.collapse
          rw [condensedText_cons_cons item next others nextStarts] at stands ⊢
          have standsRest : target.Stands (place + item.text.collapse.length + 1)
              (condensedText (next :: others)) := stands.right.right
          have standsItem := stands.left
          rw [text] at standsItem
          obtain ⟨reach, same⟩ := itemFormed.written_spec Text.reformsEnd_id standsItem
          obtain ⟨reachRest, joined⟩ := ih (List.cons_ne_nil _ _)
            (fun item member => texts item (List.mem_cons_of_mem _ member))
            (fun item member => formed item (List.mem_cons_of_mem _ member)) standsRest
          have restSome : (settledItems source (place + item.text.collapse.length + 1)
              (next :: others)).map (Statement.text · target) ≠ [] := by
            simpa using reachRest.ne_nil
          have length : place + (item.text.collapse ++
              ("\n".toList ++ condensedText (next :: others))).length =
                place + item.text.collapse.length + 1 +
                  (condensedText (next :: others)).length := by
            have feed : "\n".toList.length = 1 := rfl
            rw [List.length_append, List.length_append, feed]
            omega
          constructor
          · rw [length]
            exact reach.append reachRest
          · rw [settledItems, List.map_cons, Text.join_cons restSome, joined, same, text]
            rfl

end Condensed

/-- Items in a row are rendered, as a block that is copied, to the source over all of them. -/
theorem render_row {target : Text} {items : List Item} {group : Group}
    (verbatim : group.isVerbatim = true) (present : items ≠ [])
    (chain : items.IsChain fun a b => a.index + 1 = b.index) :
    Block.render target ⟨group, items⟩ = (runStretch items).text target := by
  have whole : runs ⟨group, items⟩ = [items] := by
    apply List.splitBy_of_isChain present
    exact chain.imp fun _ _ next => decide_eq_true next
  rw [render, if_pos verbatim, whole, List.map_singleton, Text.join_singleton, runText_eq]

namespace Grounded

variable {options : Options} {source target : Text} {block : Block} {place : Int}

theorem text (grounded : block.Grounded options source) :
    ∀ item ∈ block.items, item.text = item.statement.text source := fun item member =>
  (Item.of_ofStatement?_eq_some (grounded.made item member)).2.2.1

theorem declares (grounded : block.Grounded options source) :
    ∀ statement ∈ block.settled source place, statement.isImport = false := by
  intro statement member
  have shaped : statement.shape ∈ block.items.map fun item => item.statement.shape := by
    rw [← map_shape_settled source place]
    exact List.mem_map_of_mem member
  obtain ⟨item, found, same⟩ := List.mem_map.mp shaped
  have classified := (Item.of_ofStatement?_eq_some (grounded.made item found)).2.2.2
  rw [← Statement.isImport_eq_of_shape same, Bool.eq_false_iff, ne_eq,
    ← Statement.section?_eq_none_iff options.tables, classified]
  exact Option.some_ne_none _

theorem join_starts (grounded : block.Grounded options source) :
    (Text.join "\n" (block.items.map Item.text)).StartsVisible := by
  obtain ⟨first, rest, shape⟩ := List.exists_cons_of_ne_nil grounded.present
  have member : first ∈ block.items := by simp [shape]
  have starts := (grounded.formed first member).text_starts
  rw [← grounded.text first member] at starts
  rw [shape]
  exact Text.startsVisible_join starts

/-- A condensed block is rendered to the condensed text of its items. -/
theorem render_eq_condensedText (grounded : block.Grounded options source)
    (condensed : block.group.isVerbatim = false) :
    block.render source = condensedText block.items := by
  have texts : ∀ text ∈ block.items.map Item.text, text.StartsVisible ∧ text.Closed := by
    intro text member
    obtain ⟨item, found, rfl⟩ := List.mem_map.mp member
    rw [grounded.text item found]
    exact ⟨(grounded.formed item found).text_starts, (grounded.formed item found).text_closed⟩
  rw [render, if_neg (by simp [condensed]), grounded.join_starts.condense_eq,
    Text.collapse_join Text.collapse_break (fun text member => (texts text member).1)
      (fun text member => (texts text member).2), List.map_map]
  rfl

theorem condense_render (grounded : block.Grounded options source)
    (condensed : block.group.isVerbatim = false) :
    (block.render source).condense = block.render source := by
  rw [render, if_neg (by simp [condensed]), grounded.join_starts.condense_condense]

/-- A settled block reaches over its rendered text. -/
theorem reach (grounded : block.Grounded options source)
    (stands : target.Stands place (block.render source)) :
    Statement.Reach place (place + (block.render source).length) (block.settled source place) := by
  cases verbatim : block.group.isVerbatim with
  | true =>
      rw [render, settled, if_pos verbatim, if_pos verbatim]
      apply Statement.Reach.placed rfl (runs_ne_nil grounded.present)
      intro spot member
      have found : spot.2 ∈ block.runs := snd_mem_of_mem_placed member
      exact reach_settledRun (ne_nil_of_mem_runs found) (grounded.runs _ found) spot.1
  | false =>
      rw [grounded.render_eq_condensedText verbatim] at stands ⊢
      rw [settled, if_neg (by simp [verbatim])]
      exact (settledItems_spec grounded.present grounded.text grounded.formed stands).1

theorem map_statement_settled (grounded : block.Grounded options source) (place : Int)
    (index : Nat) :
    (itemsFrom options target index (block.settled source place)).map Item.statement =
      block.settled source place := by
  rw [map_statement_itemsFrom, declarations_eq_self grounded.declares]

theorem itemsFrom_ne_nil (grounded : block.Grounded options source)
    (stands : target.Stands place (block.render source)) (index : Nat) :
    itemsFrom options target index (block.settled source place) ≠ [] := by
  intro none
  have statements : (itemsFrom options target index (block.settled source place)).map
      Item.statement = block.settled source place := grounded.map_statement_settled place index
  rw [none] at statements
  exact (grounded.reach stands).ne_nil statements.symm

/-- A settled block is rendered to its text again. -/
theorem render_settled (grounded : block.Grounded options source)
    (stands : target.Stands place (block.render source)) (index : Nat) :
    Block.render target ⟨block.group, itemsFrom options target index
      (block.settled source place)⟩ = block.render source := by
  have declare : ∀ statement ∈ block.settled source place, statement.isImport = false :=
    grounded.declares
  cases verbatim : block.group.isVerbatim with
  | true =>
      have statements : (itemsFrom options target index (block.settled source place)).map
          Item.statement = block.settled source place := grounded.map_statement_settled place index
      have stretch : runStretch (itemsFrom options target index (block.settled source place)) =
          ⟨place, place + (block.render source).length⟩ := by
        obtain ⟨starts, stops⟩ := grounded.reach stands
        rw [← statements, List.head?_map, Option.map_map] at starts
        rw [← statements, List.getLast?_map, Option.map_map] at stops
        change Option.map Item.start _ = _ at starts
        change Option.map Item.stop _ = _ at stops
        rw [runStretch, starts, stops]
        rfl
      rw [render_row verbatim (grounded.itemsFrom_ne_nil stands index)
        (isChain_itemsFrom declare index), stretch]
      exact stands.slice_eq
  | false =>
      rw [render, if_neg (by simp [verbatim]), map_text_itemsFrom declare]
      rw [grounded.render_eq_condensedText verbatim] at stands ⊢
      rw [settled, if_neg (by simp [verbatim]),
        (settledItems_spec grounded.present grounded.text grounded.formed stands).2,
        ← grounded.render_eq_condensedText verbatim, grounded.condense_render verbatim]

end Grounded

end Block

section SettledBlocks

variable {options : Options} {source target : Text}

theorem map_shape_settledBlocks (source : Text) (place : Int) (list : List Block) :
    (settledBlocks source place list).map Statement.shape =
      (list.flatMap Block.items).map fun item => item.statement.shape := by
  rw [settledBlocks, List.map_flatMap, List.flatMap_congr fun spot _ =>
    Block.map_shape_settled source spot.1 spot.2,
    flatMap_snd_placed fun block : Block => block.items.map fun item => item.statement.shape,
    List.map_flatMap]

theorem map_key_settledBlocks {list : List Block}
    (grounded : ∀ block ∈ list, block.Grounded options source) (place : Int) (index : Nat) :
    (itemsFrom options target index (settledBlocks source place list)).map Item.key =
      (list.flatMap Block.items).map Item.key := by
  apply map_key_itemsFrom
  · intro item member
    obtain ⟨block, found, inBlock⟩ := List.mem_flatMap.mp member
    exact (grounded block found).made item inBlock
  · exact map_shape_settledBlocks source place list

theorem Block.Grounded.group_settled {block : Block} (grounded : block.Grounded options source)
    (place : Int) (index : Nat) :
    ∀ item ∈ itemsFrom options target index (block.settled source place),
      item.tag.group = block.group := by
  intro item member
  have keys : (itemsFrom options target index (block.settled source place)).map Item.key =
      block.items.map Item.key :=
    map_key_itemsFrom grounded.made (Block.map_shape_settled source place block) index
  have keyMember : item.key ∈ block.items.map Item.key := keys ▸ List.mem_map_of_mem member
  obtain ⟨counterpart, found, same⟩ := List.mem_map.mp keyMember
  rw [← Item.tag_eq_of_key same, grounded.group counterpart found]

theorem group_head_settledBlocks {block : Block} {rest : List Block}
    (grounded : ∀ other ∈ block :: rest, other.Grounded options source) (place : Int)
    (index : Nat) :
    ∀ item ∈ (itemsFrom options target index (settledBlocks source place (block :: rest))).head?,
      item.tag.group = block.group := by
  intro item head
  have blockGrounded := grounded block List.mem_cons_self
  have keys : ((itemsFrom options target index (settledBlocks source place (block :: rest))).map
      Item.key).head? = (((block :: rest).flatMap Block.items).map Item.key).head? :=
    congrArg List.head? (map_key_settledBlocks grounded place index)
  obtain ⟨first, others, shape⟩ := List.exists_cons_of_ne_nil blockGrounded.present
  rw [List.head?_map, Option.mem_def.mp head, List.flatMap_cons, shape] at keys
  have same : item.key = first.key := Option.some.inj keys
  rw [Item.tag_eq_of_key same, blockGrounded.group first (by simp [shape])]

/-- Settled blocks are found again and rendered to their texts again. -/
theorem map_render_blocks_settledBlocks {list : List Block}
    (grounded : ∀ block ∈ list, block.Grounded options source)
    (apart : list.IsChain fun a b => a.group ≠ b.group) {place : Int}
    (stands : target.Stands place (renderBlocks source list)) (index : Nat) :
    (blocks (itemsFrom options target index (settledBlocks source place list))).map
        (Block.render target) = list.map (Block.render source) := by
  induction list generalizing place index with
  | nil => rfl
  | cons block rest ih =>
      have own := grounded block List.mem_cons_self
      have groundedRest : ∀ other ∈ rest, other.Grounded options source := fun other member =>
        grounded other (List.mem_cons_of_mem _ member)
      have standsOwn : target.Stands place (block.render source) :=
        stands.placed rfl (place, block) List.mem_cons_self
      have alone := blocks_of_group (own.itemsFrom_ne_nil standsOwn index)
        (own.group_settled place index)
      have split : ∀ a ∈ (itemsFrom options target index (block.settled source place)).getLast?,
          ∀ b ∈ (itemsFrom options target (index + (block.settled source place).length)
            (settledBlocks source (place + (block.render source).length + 2) rest)).head?,
              a.tag.group ≠ b.tag.group := by
        intro a last b head
        have aGroup := own.group_settled place index a (List.mem_of_getLast? last)
        cases rest with
        | nil => cases head
        | cons next others =>
            rw [aGroup, group_head_settledBlocks groundedRest _ _ b head]
            exact (List.isChain_cons_cons.mp apart).1
      have restRender : (blocks (itemsFrom options target
          (index + (block.settled source place).length)
          (settledBlocks source (place + (block.render source).length + 2) rest))).map
            (Block.render target) = rest.map (Block.render source) := by
        cases rest with
        | nil => rfl
        | cons next others =>
            rw [renderBlocks, Text.join_map_cons_cons] at stands
            exact ih groundedRest apart.tail stands.right.right _
      have cut : settledBlocks source place (block :: rest) = block.settled source place ++
          settledBlocks source (place + (block.render source).length + 2) rest := rfl
      rw [cut, itemsFrom_append, blocks_append split, alone, List.map_append, restRender,
        List.map_singleton, own.render_settled standsOwn]
      rfl

end SettledBlocks

end DeclOrder

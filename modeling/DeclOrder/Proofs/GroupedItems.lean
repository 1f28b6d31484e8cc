import DeclOrder.Proofs.Idempotence

/-!
# Items in groups

Blocks cut a list of items into stretches of one group that cannot be made longer, and a list of
items has no other cut of this kind.  Sorted items ascend in the place of their section.  A listed
section has a place of its own, so all of its items stand together, and so do the items of a group
whose sections stand together in the order of sections: each of them fills one block.
-/

namespace DeclOrder

/-- Blocks that cut a list of items into the longest stretches of one group. -/
structure GroupsInto (items : List Item) (list : List Block) : Prop where
  present : ∀ block ∈ list, block.items ≠ []
  whole : list.flatMap Block.items = items
  grouped : ∀ block ∈ list, ∀ item ∈ block.items, item.tag.group = block.group
  apart : list.IsChain fun a b => a.group.name ≠ b.group.name

/-- Whether a block has an item of a section. -/
def Block.holds (tag : Section) (block : Block) : Bool :=
  block.items.any fun item => item.tag = tag

/-! ## Groups -/

theorem Section.group_eq_alone_iff {tag other : Section} (single : tag.group ≠ .define) :
    other.group = tag.group ↔ other = tag := by
  cases tag <;> cases other <;> simp_all [Section.group]

/-- No section is named like the group of the macros, so groups are told apart by their names. -/
theorem Group.name_injective : Function.Injective Group.name := by
  have sections : ∀ first ∈ Section.all, ∀ second ∈ Section.all,
      first.name = second.name → first = second := by decide
  have macros : ∀ tag ∈ Section.all, tag.name ≠ Group.define.name := by decide
  intro first second same
  cases first with
  | define =>
      cases second with
      | define => rfl
      | alone tag => exact absurd same.symm (macros tag (Section.mem_all tag))
  | alone tag =>
      cases second with
      | define => exact absurd same (macros tag (Section.mem_all tag))
      | alone other => rw [sections tag (Section.mem_all tag) other (Section.mem_all other) same]

/-! ## The cut into blocks -/

theorem groupsInto_blocks (items : List Item) : GroupsInto items (blocks items) where
  present _ := Block.items_ne_nil_of_mem
  whole := flatMap_items_blocks items
  grouped _ member item inBlock := ((mem_blocks member).2 item inBlock).2
  apart := (isChain_group_blocks items).imp fun _ _ different => Group.name_injective.ne different

namespace GroupsInto

variable {items : List Item} {block : Block} {rest : List Block}

theorem tail (groups : GroupsInto items (block :: rest)) :
    GroupsInto (rest.flatMap Block.items) rest where
  present other member := groups.present other (List.mem_cons_of_mem _ member)
  whole := rfl
  grouped other member := groups.grouped other (List.mem_cons_of_mem _ member)
  apart := groups.apart.tail

/-- Where one block ends and the next one starts, the group changes. -/
theorem seam (groups : GroupsInto items (block :: rest)) :
    ∀ a ∈ block.items.getLast?, ∀ b ∈ (rest.flatMap Block.items).head?,
      a.tag.group ≠ b.tag.group := by
  intro a last b head
  cases rest with
  | nil => cases head
  | cons next others =>
      have inNext : b ∈ next.items := by
        rw [List.flatMap_cons, List.head?_append_of_ne_nil _ (groups.present next (by simp))] at head
        exact List.mem_of_mem_head? head
      rw [groups.grouped block List.mem_cons_self a (List.mem_of_getLast? last),
        groups.grouped next (by simp) b inNext]
      intro same
      exact (List.isChain_cons_cons.mp groups.apart).1 (congrArg Group.name same)

/-- Items are cut into the longest stretches of one group in one way only. -/
theorem eq_blocks {list : List Block} (groups : GroupsInto items list) : list = blocks items := by
  induction list generalizing items with
  | nil =>
      rw [← groups.whole]
      rfl
  | cons block rest ih =>
      have alone : blocks block.items = [block] :=
        blocks_of_group (groups.present block List.mem_cons_self)
          (groups.grouped block List.mem_cons_self)
      rw [← groups.whole, List.flatMap_cons, blocks_append groups.seam, alone, ← ih groups.tail,
        List.singleton_append]

section Ascending

variable (ascending : items.Pairwise fun a b => a.primary ≤ b.primary) {group : Group}
  {low high : Int} (between : ∀ item ∈ items,
    item.tag.group = group ↔ low ≤ item.primary ∧ item.primary < high)

include ascending between

/-- A group that fills a range of section places is not met again behind a block of it. -/
theorem not_met_again (groups : GroupsInto items (block :: rest)) (here : block.group = group) :
    ∀ other ∈ rest, other.group ≠ group := by
  intro other member again
  have otherMember : other ∈ block :: rest := List.mem_cons_of_mem _ member
  cases rest with
  | nil => cases member
  | cons next others =>
      have changes : next.group ≠ group := by
        intro same
        exact (List.isChain_cons_cons.mp groups.apart).1 (congrArg Group.name (here.trans same.symm))
      rcases List.mem_cons.mp member with rfl | later
      · exact changes again
      · -- An item of the next block has its section place between two places of the group.
        have find : ∀ found ∈ block :: next :: others, ∃ item, item ∈ found.items :=
          fun found inList => List.exists_mem_of_ne_nil _ (groups.present found inList)
        obtain ⟨a, aMember⟩ := find block List.mem_cons_self
        obtain ⟨b, bMember⟩ := find next (by simp)
        obtain ⟨c, cMember⟩ := find other otherMember
        have inItems : ∀ found ∈ block :: next :: others, ∀ item ∈ found.items, item ∈ items := by
          intro found inList item inBlock
          rw [← groups.whole]
          exact List.mem_flatMap_of_mem inList inBlock
        rw [← groups.whole, List.pairwise_flatMap] at ascending
        obtain ⟨first, second⟩ := List.pairwise_cons.mp ascending.2
        have aPlace := (between a (inItems block List.mem_cons_self a aMember)).mp
          ((groups.grouped block List.mem_cons_self a aMember).trans here)
        have cPlace := (between c (inItems other otherMember c cMember)).mp
          ((groups.grouped other otherMember c cMember).trans again)
        have lower := first next List.mem_cons_self a aMember b bMember
        have upper := (List.pairwise_cons.mp second).1 other later b bMember c cMember
        have inGroup := (between b (inItems next (by simp) b bMember)).mpr ⟨by omega, by omega⟩
        exact changes ((groups.grouped next (by simp) b bMember).symm.trans inGroup)

/-- A group that fills a range of section places fills at most one block of ascending items. -/
theorem countP_le_one {list : List Block} (groups : GroupsInto items list) :
    list.countP (fun block => block.group = group) ≤ 1 := by
  induction list generalizing items with
  | nil => exact Nat.zero_le 1
  | cons block rest ih =>
      rw [List.countP_cons]
      split
      · rename_i here
        have none : rest.countP (fun block => block.group = group) = 0 := by
          rw [List.countP_eq_zero]
          intro other member again
          exact groups.not_met_again ascending between (of_decide_eq_true here) other member
            (of_decide_eq_true again)
        rw [none]
      · have part : (rest.flatMap Block.items).Sublist items := by
          rw [← groups.whole, List.flatMap_cons]
          exact List.sublist_append_right _ _
        exact ih (ascending.sublist part) (fun item member => between item (part.subset member))
          groups.tail

end Ascending

end GroupsInto

/-! ## The bounds of a block -/

namespace Block

variable {block : Block} (some : block.items ≠ [])

include some

theorem start_least : (∃ item ∈ block.items, item.start = block.start) ∧
    ∀ item ∈ block.items, block.start ≤ item.start := by
  obtain ⟨least, found⟩ := Option.isSome_iff_exists.mp
    (List.isSome_min?_of_ne_nil (l := block.items.map Item.start) (by simpa using some))
  obtain ⟨member, least_le⟩ := List.min?_eq_some_iff.mp found
  rw [start, found, Option.getD_some]
  exact ⟨List.mem_map.mp member, fun item inBlock => least_le _ (List.mem_map_of_mem inBlock)⟩

theorem stop_greatest : (∃ item ∈ block.items, item.stop = block.stop) ∧
    ∀ item ∈ block.items, item.stop ≤ block.stop := by
  obtain ⟨greatest, found⟩ := Option.isSome_iff_exists.mp
    (List.isSome_max?_of_ne_nil (l := block.items.map Item.stop) (by simpa using some))
  obtain ⟨member, le_greatest⟩ := List.max?_eq_some_iff.mp found
  rw [stop, found, Option.getD_some]
  exact ⟨List.mem_map.mp member, fun item inBlock => le_greatest _ (List.mem_map_of_mem inBlock)⟩

end Block

/-! ## The places of sections -/

/-- The sections of a stretch of an order have the ranks that the stretch covers, and no other
section has one of these. -/
theorem SectionOrder.mem_iff_rank {order : SectionOrder} {before stretch behind : List Section}
    (cut : order.sections = before ++ (stretch ++ behind)) (tag : Section) :
    tag ∈ stretch ↔
      before.length ≤ order.rank tag ∧ order.rank tag < before.length + stretch.length := by
  have nodup := order.nodup
  rw [cut] at nodup
  have apart := (List.nodup_append.mp nodup).2.2
  rw [rank, cut]
  by_cases inBefore : tag ∈ before
  · have place := List.idxOf_lt_length_iff.mpr inBefore
    rw [List.idxOf_append_of_mem inBefore]
    constructor
    · intro member
      exact absurd rfl (apart tag inBefore tag (List.mem_append_left _ member))
    · omega
  · rw [List.idxOf_append_of_notMem inBefore]
    by_cases member : tag ∈ stretch
    · have place := List.idxOf_lt_length_iff.mpr member
      rw [List.idxOf_append_of_mem member]
      exact ⟨fun _ => by omega, fun _ => member⟩
    · rw [List.idxOf_append_of_notMem member]
      exact ⟨fun found => absurd found member, fun _ => by omega⟩

section Sorted

variable {options : Options} {source : Text} {statements : List Statement}

/-- A group whose occurring sections stand together in the order of sections fills one block. -/
theorem countP_group_sortedItems {group : Group} {stretch : List Section}
    (listed : stretch <:+: options.sections.sections)
    (occurring : ∀ tag, tag ∈ stretch ↔ tag.group = group ∧
      ∃ item ∈ sortedItems options source statements, item.tag = tag) :
    (blocks (sortedItems options source statements)).countP
      (fun block => block.group = group) ≤ 1 := by
  obtain ⟨before, behind, cut⟩ := listed
  rw [List.append_assoc] at cut
  have ascending : (sortedItems options source statements).Pairwise fun a b =>
      a.primary ≤ b.primary := (pairwise_sortItems _).imp Item.Follows.primary
  have between : ∀ item ∈ sortedItems options source statements, item.tag.group = group ↔
      (before.length : Int) ≤ item.primary ∧
        item.primary < (before.length : Int) + stretch.length := by
    intro item member
    have place := (Item.keys_of_ofStatement?_eq_some (ofStatement?_of_mem_sortedItems member)).1
    have inStretch : item.tag.group = group ↔ item.tag ∈ stretch := by
      rw [occurring]
      exact ⟨fun same => ⟨same, item, member, rfl⟩, And.left⟩
    rw [inStretch, SectionOrder.mem_iff_rank cut.symm, place]
    omega
  exact (groupsInto_blocks _).countP_le_one ascending between

/-- A listed section that is displayed by itself fills one block. -/
theorem countP_holds_sortedItems {tag : Section} (listed : tag ∈ options.sections.sections)
    (single : tag.group ≠ .define) :
    (blocks (sortedItems options source statements)).countP (Block.holds tag) ≤ 1 := by
  have ofGroup : ∀ block ∈ blocks (sortedItems options source statements),
      block.holds tag = true → decide (block.group = tag.group) = true := by
    intro block member holds
    obtain ⟨item, inBlock, same⟩ := List.any_eq_true.mp holds
    rw [← ((mem_blocks member).2 item inBlock).2, of_decide_eq_true same]
    exact decide_eq_true rfl
  apply Nat.le_trans (List.countP_mono_left ofGroup)
  by_cases occurs : ∃ item ∈ sortedItems options source statements, item.tag = tag
  · obtain ⟨before, behind, cut⟩ := List.append_of_mem listed
    have alone : [tag] <:+: options.sections.sections := ⟨before, behind, by simp [cut]⟩
    apply countP_group_sortedItems alone
    intro other
    rw [List.mem_singleton, Section.group_eq_alone_iff single]
    exact ⟨fun same => ⟨same, same ▸ occurs⟩, And.left⟩
  · apply countP_group_sortedItems (List.nil_infix (l := options.sections.sections))
    intro other
    rw [Section.group_eq_alone_iff single]
    constructor
    · intro member
      cases member
    · rintro ⟨rfl, found⟩
      exact absurd found occurs

end Sorted

/-- Grouping cuts items into the longest stretches of one group.  The blocks are the one cut of this
kind, and each has the bounds of its items.  In sorted items every listed section that is displayed
by itself fills at most one block, and so do the macros when those sections of them that occur stand
together in the order of sections. -/
theorem blocks_cut_longest :
    (∀ items : List Item, (∀ list, GroupsInto items list ↔ list = blocks items) ∧
      ∀ block ∈ blocks items,
        ((∃ item ∈ block.items, item.start = block.start) ∧
          ∀ item ∈ block.items, block.start ≤ item.start) ∧
        ((∃ item ∈ block.items, item.stop = block.stop) ∧
          ∀ item ∈ block.items, item.stop ≤ block.stop)) ∧
    ∀ (options : Options) (source : Text) (statements : List Statement),
      (∀ tag ∈ options.sections.sections, tag.group ≠ .define →
        (blocks (sortedItems options source statements)).countP (Block.holds tag) ≤ 1) ∧
      ∀ stretch, stretch <:+: options.sections.sections →
        (∀ tag, tag ∈ stretch ↔ tag.group = .define ∧
          ∃ item ∈ sortedItems options source statements, item.tag = tag) →
        (blocks (sortedItems options source statements)).countP
          (fun block => block.group = .define) ≤ 1 := by
  refine ⟨fun items => ⟨fun list => ⟨GroupsInto.eq_blocks, ?_⟩, fun block member => ?_⟩,
    fun options source statements => ⟨fun tag listed single => ?_, fun stretch listed occurring => ?_⟩⟩
  · rintro rfl
    exact groupsInto_blocks items
  · have present := Block.items_ne_nil_of_mem member
    exact ⟨Block.start_least present, Block.stop_greatest present⟩
  · exact countP_holds_sortedItems listed single
  · exact countP_group_sortedItems listed occurring

/-- An order that lists two of the macros and the plain variables. -/
def macrosFirst : Options where
  sections := ⟨[.defineEmits, .defineProps, .plainVars], by decide⟩

/-- Macros, variables, a function and other statements that take turns. -/
def takingTurns : Script where
  path := "Turns.vue"
  source :=
    "a()\ndefineProps()\nlet b = 1\nfunction c() {}\nd()\ndefineEmits()\nlet e = 2".toList
  statements :=
    [{ kind := .other, start := 0, stop := 3 },
     { kind := .expression, start := 4, stop := 17
       expression := some { kind := .call, callee := some "defineProps" } },
     { kind := .variables, start := 18, stop := 27, initializer := some { kind := .other } },
     { kind := .function, start := 28, stop := 43 },
     { kind := .other, start := 44, stop := 47 },
     { kind := .expression, start := 48, stop := 61
       expression := some { kind := .call, callee := some "defineEmits" } },
     { kind := .variables, start := 62, stop := 71, initializer := some { kind := .other } }]

/-- The blocks of the sorted statements that take turns. -/
def turnBlocks : List Block :=
  blocks (sortedItems macrosFirst takingTurns.source takingTurns.statements)

/-- The macros and the variables fill one block each; the unknown statements, whose section is not
listed, fill two. -/
theorem blocks_cut_longest_takingTurns :
    turnBlocks.map (fun block => (block.group, block.items.map Item.index)) =
        [(.define, [5, 1]), (.alone .plainVars, [2, 6]), (.alone .unknowns, [0]),
          (.alone .functions, [3]), (.alone .unknowns, [4])] ∧
      turnBlocks.map (fun block => (block.start, block.stop)) =
        [(4, 61), (18, 71), (0, 3), (28, 43), (44, 47)] ∧
      turnBlocks.countP (fun block => block.group = .define) ≤ 1 ∧
      turnBlocks.countP (Block.holds .plainVars) ≤ 1 ∧
      turnBlocks.countP (Block.holds .unknowns) = 2 := by
  have tags : (sortedItems macrosFirst takingTurns.source takingTurns.statements).map Item.tag =
      [.defineEmits, .defineProps, .plainVars, .plainVars, .unknowns, .functions, .unknowns] := by
    cbv
  have listed : [Section.defineEmits, Section.defineProps] <:+: macrosFirst.sections.sections :=
    ⟨[], [.plainVars], rfl⟩
  have occurring : ∀ tag, tag ∈ [Section.defineEmits, Section.defineProps] ↔
      tag.group = .define ∧
        ∃ item ∈ sortedItems macrosFirst takingTurns.source takingTurns.statements,
          item.tag = tag := by
    intro tag
    rw [← List.mem_map, tags]
    cases tag <;> decide
  obtain ⟨single, macros⟩ :=
    blocks_cut_longest.2 macrosFirst takingTurns.source takingTurns.statements
  refine ⟨by cbv, by cbv, macros _ listed occurring, single .plainVars (by decide) (by decide), ?_⟩
  cbv

end DeclOrder

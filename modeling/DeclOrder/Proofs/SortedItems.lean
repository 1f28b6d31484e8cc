import DeclOrder.Item
import DeclOrder.Proofs.Arrangement
import Mathlib.Data.List.Perm.Basic
import Mathlib.Data.List.SplitBy

/-!
# Sorted items

Sorting puts the items of a script into another order and changes nothing else.  The result is
ascending in the section place, and lifecycle hooks of equal section place are ascending in rank.
Items that are already in such an order and whose indices ascend stay where they are.
-/

namespace DeclOrder

/-! ## The items of a list of statements -/

namespace Statement

theorem section?_eq_none_iff (tables : CalleeTables) {statement : Statement} :
    statement.section? tables = none ↔ statement.isImport = true := by
  rw [section?, isImport]
  cases statement.kind <;> simp

end Statement

namespace Item

/-- The rank by which a lifecycle hook is sorted. -/
def rank (item : Item) : Int :=
  item.secondary.getD 0

theorem of_ofStatement?_eq_some {options : Options} {source : Text} {statement : Statement}
    {index : Int} {item : Item} (found : ofStatement? options source statement index = some item) :
    item.statement = statement ∧ item.index = index ∧ item.text = statement.text source ∧
      statement.section? options.tables = some item.tag := by
  obtain ⟨tag, classified, rfl⟩ := Option.map_eq_some_iff.mp found
  exact ⟨rfl, rfl, rfl, classified⟩

/-- The sort keys of an item follow from its section and, for a hook, from the call. -/
theorem keys_of_ofStatement?_eq_some {options : Options} {source : Text} {statement : Statement}
    {index : Int} {item : Item} (found : ofStatement? options source statement index = some item) :
    item.primary = options.sections.rank item.tag ∧
      item.secondary =
        if item.tag = .lifecycle then some (options.hooks.rank statement.hook?) else none := by
  obtain ⟨tag, classified, rfl⟩ := Option.map_eq_some_iff.mp found
  exact ⟨rfl, rfl⟩

end Item

/-- The items of a list of statements in the order of the source, the first statement having the
given index. -/
def itemsFrom (options : Options) (source : Text) (index : Nat) (statements : List Statement) :
    List Item :=
  (statements.zipIdx index).filterMap fun (statement, index) =>
    Item.ofStatement? options source statement index

section Items

variable {options : Options} {source : Text}

theorem sortedItems_eq_sortItems (statements : List Statement) :
    sortedItems options source statements =
      sortItems (itemsFrom options source 0 statements) := rfl

theorem itemsFrom_append (index : Nat) (first second : List Statement) :
    itemsFrom options source index (first ++ second) =
      itemsFrom options source index first ++
        itemsFrom options source (index + first.length) second := by
  rw [itemsFrom, List.zipIdx_append, List.filterMap_append]
  rfl

theorem itemsFrom_cons (index : Nat) (statement : Statement) (rest : List Statement) :
    itemsFrom options source index (statement :: rest) =
      (Item.ofStatement? options source statement index).toList ++
        itemsFrom options source (index + 1) rest := by
  rw [itemsFrom, List.zipIdx_cons, List.filterMap_cons]
  cases found : Item.ofStatement? options source statement index with
  | none => simp [found, itemsFrom]
  | some item => simp [found, itemsFrom]

theorem itemsFrom_of_imports {statements : List Statement}
    (imports : ∀ statement ∈ statements, statement.isImport = true) (index : Nat) :
    itemsFrom options source index statements = [] := by
  induction statements generalizing index with
  | nil => rfl
  | cons statement rest ih =>
      have none := (Statement.section?_eq_none_iff options.tables).mpr
        (imports statement List.mem_cons_self)
      rw [itemsFrom_cons, ih fun other member => imports other (List.mem_cons_of_mem _ member),
        Item.ofStatement?, none]
      rfl

/-- The items of a list of statements belong to its declarations, one to each. -/
theorem map_statement_itemsFrom (options : Options) (source : Text) (index : Nat)
    (statements : List Statement) :
    (itemsFrom options source index statements).map Item.statement = declarations statements := by
  induction statements generalizing index with
  | nil => rfl
  | cons statement rest ih =>
      rw [itemsFrom_cons, List.map_append, ih, declarations, declarations, List.filter_cons]
      cases tag : statement.section? options.tables with
      | none =>
          rw [(Statement.section?_eq_none_iff options.tables).mp tag, Item.ofStatement?, tag]
          rfl
      | some tag' =>
          have declares : statement.isImport = false := by
            rw [Bool.eq_false_iff, ne_eq,
              ← Statement.section?_eq_none_iff options.tables, tag]
            exact Option.some_ne_none tag'
          rw [declares, Item.ofStatement?, tag]
          rfl

/-- An item knows its statement, the place of that statement in the list, and its section. -/
theorem mem_itemsFrom {index : Nat} {statements : List Statement} {item : Item}
    (member : item ∈ itemsFrom options source index statements) :
    ∃ place : Nat, statements[place]? = some item.statement ∧ item.index = (index + place : Nat) ∧
      Item.ofStatement? options source item.statement item.index = some item := by
  obtain ⟨⟨statement, position⟩, numbered, found⟩ := List.mem_filterMap.mp member
  obtain ⟨above, at?⟩ := List.mem_zipIdx_iff_le_and_getElem?_sub.mp numbered
  obtain ⟨sameStatement, sameIndex, _, _⟩ := Item.of_ofStatement?_eq_some found
  refine ⟨position - index, ?_, ?_, ?_⟩
  · rw [sameStatement]
    exact at?
  · rw [sameIndex, Nat.add_sub_cancel' above]
  · rw [sameStatement, sameIndex]
    exact found

/-- The indices of the items ascend. -/
theorem itemsFrom_pairwise (index : Nat) (statements : List Statement) :
    (itemsFrom options source index statements).Pairwise fun a b => a.index < b.index := by
  induction statements generalizing index with
  | nil => exact List.Pairwise.nil
  | cons statement rest ih =>
      rw [itemsFrom_cons, List.pairwise_append]
      refine ⟨?_, ih (index + 1), ?_⟩
      · cases Item.ofStatement? options source statement index with
        | none => exact List.Pairwise.nil
        | some item => exact List.pairwise_singleton ..
      · intro item first other later
        obtain ⟨_, sameIndex, _, _⟩ := Item.of_ofStatement?_eq_some (Option.mem_toList.mp first)
        obtain ⟨place, _, otherIndex, _⟩ := mem_itemsFrom later
        rw [sameIndex, otherIndex]
        omega

end Items

/-! ## Hooks among their places -/

theorem fillHooks_cons_of_not_hook {item : Item} (other : item.isHook = false)
    (rest hooks : List Item) :
    fillHooks (item :: rest) hooks = item :: fillHooks rest hooks := by
  rw [fillHooks.eq_def]
  simp [other]

theorem fillHooks_cons_of_hook {item : Item} (hook : item.isHook = true) (rest : List Item)
    (first : Item) (others : List Item) :
    fillHooks (item :: rest) (first :: others) = first :: fillHooks rest others := by
  rw [fillHooks.eq_def]
  simp [hook]

theorem filter_isHook_fillHooks {items hooks : List Item}
    (hooksOnly : ∀ hook ∈ hooks, hook.isHook = true)
    (count : (items.filter Item.isHook).length = hooks.length) :
    (fillHooks items hooks).filter Item.isHook = hooks := by
  induction items generalizing hooks with
  | nil =>
      rw [List.eq_nil_of_length_eq_zero count.symm]
      rfl
  | cons item rest ih =>
      cases hook : item.isHook with
      | false =>
          have other : ¬ item.isHook = true := by simp [hook]
          rw [List.filter_cons_of_neg other] at count
          rw [fillHooks_cons_of_not_hook hook, List.filter_cons_of_neg other, ih hooksOnly count]
      | true =>
          rw [List.filter_cons_of_pos hook] at count
          cases hooks with
          | nil => cases count
          | cons first others =>
              have fewer := ih (fun other member => hooksOnly other (List.mem_cons_of_mem _ member))
                (Nat.succ.inj count)
              rw [fillHooks_cons_of_hook hook,
                List.filter_cons_of_pos (hooksOnly first List.mem_cons_self), fewer]

theorem filter_not_isHook_fillHooks {items hooks : List Item}
    (hooksOnly : ∀ hook ∈ hooks, hook.isHook = true)
    (count : (items.filter Item.isHook).length = hooks.length) :
    (fillHooks items hooks).filter (fun item => !item.isHook) =
      items.filter fun item => !item.isHook := by
  induction items generalizing hooks with
  | nil => rfl
  | cons item rest ih =>
      cases hook : item.isHook with
      | false =>
          rw [List.filter_cons_of_neg (by simp [hook])] at count
          rw [fillHooks_cons_of_not_hook hook, List.filter_cons_of_pos (by simp [hook]),
            List.filter_cons_of_pos (by simp [hook]), ih hooksOnly count]
      | true =>
          rw [List.filter_cons_of_pos hook] at count
          cases hooks with
          | nil => cases count
          | cons first others =>
              have isHook := hooksOnly first List.mem_cons_self
              have fewer := ih (fun other member => hooksOnly other (List.mem_cons_of_mem _ member))
                (Nat.succ.inj count)
              rw [fillHooks_cons_of_hook hook, List.filter_cons_of_neg (by simp [isHook]), fewer,
                List.filter_cons_of_neg (by simp [hook])]

theorem fillHooks_filter_isHook (items : List Item) :
    fillHooks items (items.filter Item.isHook) = items := by
  induction items with
  | nil => rfl
  | cons item rest ih =>
      cases hook : item.isHook with
      | false =>
          rw [List.filter_cons_of_neg (by simp [hook]), fillHooks_cons_of_not_hook hook, ih]
      | true => rw [List.filter_cons_of_pos hook, fillHooks_cons_of_hook hook, ih]

theorem isHook_of_mem_mergeSort {items : List Item} :
    ∀ hook ∈ (items.filter Item.isHook).mergeSort Item.beforeByRank, hook.isHook = true := by
  intro hook member
  exact (List.mem_filter.mp (List.mem_mergeSort.mp member)).2

theorem filter_isHook_rankHooks (items : List Item) :
    (rankHooks items).filter Item.isHook =
      (items.filter Item.isHook).mergeSort Item.beforeByRank :=
  filter_isHook_fillHooks isHook_of_mem_mergeSort (List.length_mergeSort _).symm

/-- Ranking the hooks moves items and does nothing else. -/
theorem rankHooks_perm (items : List Item) : (rankHooks items).Perm items := by
  have moved := (List.filter_append_perm Item.isHook (rankHooks items)).symm
  rw [filter_isHook_rankHooks, rankHooks, filter_not_isHook_fillHooks isHook_of_mem_mergeSort
    (List.length_mergeSort _).symm] at moved
  exact moved.trans (((List.mergeSort_perm _ _).append_right _).trans
    (List.filter_append_perm Item.isHook items))

/-- Sorting moves items and does nothing else. -/
theorem sortItems_perm (items : List Item) : (sortItems items).Perm items := by
  have ranked : (sortItems items).Perm ((stretches items).flatMap id) :=
    List.Perm.flatMap_left _ fun stretch _ => rankHooks_perm stretch
  rw [List.flatMap_id, stretches, List.flatten_splitBy] at ranked
  exact ranked.trans (List.mergeSort_perm _ _)

/-- The sorted items belong to the declarations, one to each. -/
theorem map_statement_sortedItems_perm (options : Options) (source : Text)
    (statements : List Statement) :
    ((sortedItems options source statements).map Item.statement).Perm
      (declarations statements) := by
  rw [← map_statement_itemsFrom options source 0 statements]
  exact (sortItems_perm _).map Item.statement

theorem ofStatement?_of_mem_sortedItems {options : Options} {source : Text}
    {statements : List Statement} {item : Item}
    (member : item ∈ sortedItems options source statements) :
    Item.ofStatement? options source item.statement item.index = some item := by
  obtain ⟨_, _, _, made⟩ := mem_itemsFrom ((sortItems_perm _).mem_iff.mp member)
  exact made

/-- No two sorted items have the same index. -/
theorem nodup_index_sortedItems (options : Options) (source : Text) (statements : List Statement) :
    ((sortedItems options source statements).map Item.index).Nodup := by
  have distinct : ((itemsFrom options source 0 statements).map Item.index).Nodup := by
    rw [List.nodup_iff_pairwise_ne, List.pairwise_map]
    exact (itemsFrom_pairwise 0 statements).imp Int.ne_of_lt
  exact ((sortItems_perm _).map Item.index).nodup_iff.mpr distinct

theorem sortedItems_ne_nil {options : Options} {source : Text} {statements : List Statement}
    {start stop : Int} (span : declarationSpan? statements = some (start, stop)) :
    sortedItems options source statements ≠ [] := by
  obtain ⟨first, _, head, _⟩ := declarationSpan?_eq_some_iff.mp span
  have moved := map_statement_sortedItems_perm options source statements
  intro none
  rw [none, List.map_nil] at moved
  rw [← moved.nil_eq] at head
  cases head

/-! ## The order of sorted items -/

namespace Item

theorem beforeInSource_iff {a b : Item} :
    beforeInSource a b = true ↔
      a.primary < b.primary ∨ (a.primary = b.primary ∧ a.index ≤ b.index) := by
  simp [beforeInSource]

theorem beforeByRank_iff {a b : Item} :
    beforeByRank a b = true ↔ a.rank < b.rank ∨ (a.rank = b.rank ∧ a.index ≤ b.index) := by
  simp [beforeByRank, rank]

theorem pairwise_mergeSort_beforeInSource (items : List Item) :
    (items.mergeSort beforeInSource).Pairwise fun a b => beforeInSource a b = true := by
  apply List.pairwise_mergeSort
  · intro a b c
    simp only [beforeInSource_iff]
    omega
  · intro a b
    rw [Bool.or_eq_true, beforeInSource_iff, beforeInSource_iff]
    omega

theorem pairwise_mergeSort_beforeByRank (items : List Item) :
    (items.mergeSort beforeByRank).Pairwise fun a b => beforeByRank a b = true := by
  apply List.pairwise_mergeSort
  · intro a b c
    simp only [beforeByRank_iff]
    omega
  · intro a b
    rw [Bool.or_eq_true, beforeByRank_iff, beforeByRank_iff]
    omega

/-- Two items in the order in which sorting leaves them: the section places do not descend, and
the ranks of hooks of equal section place do not descend. -/
structure Follows (a b : Item) : Prop where
  primary : a.primary ≤ b.primary
  rank : a.isHook = true → b.isHook = true → a.primary = b.primary → a.rank ≤ b.rank

end Item

/-- Stretches of equal section place are strictly apart when the section places do not descend. -/
theorem primary_lt_of_splitBy {items : List Item}
    (ascending : items.Pairwise fun a b => a.primary ≤ b.primary) :
    (items.splitBy fun a b => a.primary = b.primary).Pairwise fun first second =>
      ∀ a ∈ first, ∀ b ∈ second, a.primary < b.primary := by
  have same : ∀ stretch ∈ items.splitBy fun a b => a.primary = b.primary,
      ∀ a ∈ stretch, ∀ b ∈ stretch, a.primary = b.primary :=
    fun stretch => eq_of_mem_splitBy
  have different := List.isChain_getLast_head_splitBy
    (fun a b : Item => a.primary = b.primary) items
  rw [← List.flatten_splitBy (fun a b : Item => a.primary = b.primary) items] at ascending
  have across := (List.pairwise_flatten.mp ascending).2
  clear ascending
  generalize (items.splitBy fun a b => a.primary = b.primary) = groups at *
  induction groups with
  | nil => exact List.Pairwise.nil
  | cons first rest ih =>
      obtain ⟨acrossFirst, acrossRest⟩ := List.pairwise_cons.mp across
      refine List.pairwise_cons.mpr ⟨?_, ih (fun stretch member =>
        same stretch (List.mem_cons_of_mem _ member)) different.tail acrossRest⟩
      intro second member a aMember b bMember
      cases rest with
      | nil => exact absurd member List.not_mem_nil
      | cons next others =>
          -- Between `a` and `b` the section place changes at the start of the next stretch.
          obtain ⟨firstSome, nextSome, changes⟩ := (List.isChain_cons_cons.mp different).1
          have nextMember := List.head_mem nextSome
          have aSame := same first List.mem_cons_self a aMember _ (List.getLast_mem firstSome)
          have step := acrossFirst next List.mem_cons_self a aMember _ nextMember
          have apart : a.primary ≠ (next.head nextSome).primary := by
            rw [aSame]
            exact of_decide_eq_false changes
          have onward : (next.head nextSome).primary ≤ b.primary := by
            rcases List.mem_cons.mp member with rfl | later
            · exact Int.le_of_eq (same second (by simp) _ nextMember b bMember)
            · exact (List.pairwise_cons.mp acrossRest).1 second later _ nextMember b bMember
          omega

theorem pairwise_rankHooks {items : List Item}
    (same : ∀ a ∈ items, ∀ b ∈ items, a.primary = b.primary) :
    (rankHooks items).Pairwise Item.Follows := by
  have hooks := Item.pairwise_mergeSort_beforeByRank (items.filter Item.isHook)
  rw [← filter_isHook_rankHooks, List.pairwise_filter] at hooks
  apply hooks.imp_of_mem
  intro a b aMember bMember ranked
  have equal := same a ((rankHooks_perm items).mem_iff.mp aMember) b
    ((rankHooks_perm items).mem_iff.mp bMember)
  refine ⟨Int.le_of_eq equal, fun aHook bHook _ => ?_⟩
  have := Item.beforeByRank_iff.mp (ranked aHook bHook)
  omega

/-- Sorted items follow each other: section places ascend, and hooks of equal section place ascend
in rank. -/
theorem pairwise_sortItems (items : List Item) : (sortItems items).Pairwise Item.Follows := by
  have ascending : (items.mergeSort Item.beforeInSource).Pairwise fun a b =>
      a.primary ≤ b.primary := by
    apply (Item.pairwise_mergeSort_beforeInSource items).imp
    intro a b before
    have := Item.beforeInSource_iff.mp before
    omega
  rw [sortItems, List.pairwise_flatMap]
  constructor
  · intro stretch member
    exact pairwise_rankHooks (eq_of_mem_splitBy member)
  · apply (primary_lt_of_splitBy ascending).imp
    intro first second below a aMember b bMember
    have less := below a ((rankHooks_perm first).mem_iff.mp aMember) b
      ((rankHooks_perm second).mem_iff.mp bMember)
    exact ⟨Int.le_of_lt less, fun _ _ equal => absurd equal (Int.ne_of_lt less)⟩

theorem rankHooks_of_pairwise {items : List Item}
    (same : ∀ a ∈ items, ∀ b ∈ items, a.primary = b.primary)
    (follows : items.Pairwise Item.Follows)
    (indices : items.Pairwise fun a b => a.index < b.index) : rankHooks items = items := by
  have ranked : (items.filter Item.isHook).Pairwise fun a b => Item.beforeByRank a b = true := by
    rw [List.pairwise_filter]
    apply (follows.and indices).imp_of_mem
    intro a b aMember bMember both aHook bHook
    have := both.1.rank aHook bHook (same a aMember b bMember)
    have := both.2
    rw [Item.beforeByRank_iff]
    omega
  rw [rankHooks, List.mergeSort_of_pairwise ranked, fillHooks_filter_isHook]

/-- Items that follow each other and whose indices ascend are sorted already. -/
theorem sortItems_of_pairwise {items : List Item} (follows : items.Pairwise Item.Follows)
    (indices : items.Pairwise fun a b => a.index < b.index) : sortItems items = items := by
  have sorted : items.Pairwise fun a b => Item.beforeInSource a b = true := by
    apply (follows.and indices).imp
    intro a b both
    have := both.1.primary
    have := both.2
    rw [Item.beforeInSource_iff]
    omega
  have fixed : ∀ stretch ∈ stretches items, rankHooks stretch = id stretch := by
    intro stretch member
    rw [stretches, List.mergeSort_of_pairwise sorted] at member
    have part : stretch.Sublist items := by
      conv_rhs => rw [← List.flatten_splitBy (fun a b : Item => a.primary = b.primary) items]
      exact List.sublist_flatten_of_mem member
    exact rankHooks_of_pairwise (eq_of_mem_splitBy member) (follows.sublist part)
      (indices.sublist part)
  rw [sortItems, List.flatMap_congr fixed, List.flatMap_id, stretches,
    List.mergeSort_of_pairwise sorted, List.flatten_splitBy]

end DeclOrder

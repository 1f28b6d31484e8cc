import DeclOrder.Proofs.SortedItems
import Mathlib

/-!
# Hooks among the places of hooks

What sorting promises about lifecycle hooks.  Compared with the plain sort by section place and
index, a hook may change places with other hooks of its section place and everything else stays
where it is; the hooks of one section place are read in the order of their ranks.  For items with
distinct indices there is exactly one such arrangement.  It therefore depends on the items and not
on the order in which they are given, and it is the plain sort by all keys whenever hooks share
their section place with hooks only.
-/

namespace DeclOrder

namespace Item

/-- Order by section place, of two hooks then by rank, and last by place in the source. -/
def before (a b : Item) : Bool :=
  a.primary < b.primary || (a.primary = b.primary &&
    if a.isHook && b.isHook then beforeByRank a b else a.index ≤ b.index)

/-- One item stands where another one stood: a hook for a hook, any other item for itself. -/
structure StandsFor (a b : Item) : Prop where
  hook : a.isHook = b.isHook
  same : b.isHook = false → a = b

end Item

/-- The items of one section place, in their order. -/
def atPrimary (primary : Int) (items : List Item) : List Item :=
  items.filter fun item => item.primary = primary

/-- The items in an order in which section places ascend, every item but the hooks stands where the
plain sort puts it, and the hooks of each section place ascend in rank and then in index. -/
structure RanksHooks (items sorted : List Item) : Prop where
  perm : sorted.Perm items
  ascending : sorted.Pairwise fun a b => a.primary ≤ b.primary
  places : ∀ primary, List.Forall₂ Item.StandsFor (atPrimary primary sorted)
    (atPrimary primary (items.mergeSort Item.beforeInSource))
  ranked : ∀ primary, ((atPrimary primary sorted).filter Item.isHook).Pairwise fun a b =>
    a.rank < b.rank ∨ (a.rank = b.rank ∧ a.index ≤ b.index)

/-! ## Hooks that are filled in -/

theorem forall₂_fillHooks {items hooks : List Item}
    (hooksOnly : ∀ hook ∈ hooks, hook.isHook = true)
    (count : (items.filter Item.isHook).length = hooks.length) :
    List.Forall₂ Item.StandsFor (fillHooks items hooks) items := by
  induction items generalizing hooks with
  | nil => exact List.Forall₂.nil
  | cons item rest ih =>
      cases isHook : item.isHook with
      | false =>
          rw [List.filter_cons_of_neg (by simp [isHook])] at count
          rw [fillHooks_cons_of_not_hook isHook]
          exact .cons ⟨rfl, fun _ => rfl⟩ (ih hooksOnly count)
      | true =>
          rw [List.filter_cons_of_pos isHook] at count
          cases hooks with
          | nil => cases count
          | cons first others =>
              rw [fillHooks_cons_of_hook isHook]
              refine .cons ⟨?_, ?_⟩ (ih (fun other member =>
                hooksOnly other (List.mem_cons_of_mem _ member)) (Nat.succ.inj count))
              · rw [hooksOnly first List.mem_cons_self, isHook]
              · intro other
                exact Bool.noConfusion (other.symm.trans isHook)

/-- Items that stand for others are those others with their own hooks filled in. -/
theorem eq_fillHooks_of_forall₂ {items others : List Item}
    (stands : List.Forall₂ Item.StandsFor items others) :
    items = fillHooks others (items.filter Item.isHook) := by
  induction stands with
  | nil => rfl
  | @cons a b rest othersRest first stands ih =>
      cases isHook : b.isHook with
      | false =>
          rw [fillHooks_cons_of_not_hook isHook,
            List.filter_cons_of_neg (by simp [first.hook, isHook]), ← ih, first.same isHook]
      | true =>
          rw [List.filter_cons_of_pos (first.hook.trans isHook), fillHooks_cons_of_hook isHook, ← ih]

/-- Among hooks, any may stand for any other. -/
theorem forall₂_standsFor_of_hooks {first second : List Item}
    (count : first.length = second.length) (firstHooks : ∀ item ∈ first, item.isHook = true)
    (secondHooks : ∀ item ∈ second, item.isHook = true) :
    List.Forall₂ Item.StandsFor first second := by
  rw [List.forall₂_iff_zip]
  refine ⟨count, fun {a b} pair => ?_⟩
  have aHook := firstHooks a (List.of_mem_zip pair).1
  have bHook := secondHooks b (List.of_mem_zip pair).2
  exact ⟨aHook.trans bHook.symm, fun other => Bool.noConfusion (other.symm.trans bHook)⟩

/-! ## The items of one section place -/

theorem primary_of_mem_atPrimary {primary : Int} {items : List Item} {item : Item}
    (member : item ∈ atPrimary primary items) : item ∈ items ∧ item.primary = primary := by
  rw [atPrimary, List.mem_filter] at member
  exact ⟨member.1, of_decide_eq_true member.2⟩

theorem mem_atPrimary_self {items : List Item} {item : Item} (member : item ∈ items) :
    item ∈ atPrimary item.primary items :=
  List.mem_filter.mpr ⟨member, decide_eq_true rfl⟩

theorem atPrimary_cons_self (item : Item) (rest : List Item) :
    atPrimary item.primary (item :: rest) = item :: atPrimary item.primary rest :=
  List.filter_cons_of_pos (decide_eq_true rfl)

theorem atPrimary_eq_self {primary : Int} {items : List Item}
    (same : ∀ item ∈ items, item.primary = primary) : atPrimary primary items = items :=
  List.filter_eq_self.mpr fun item member => decide_eq_true (same item member)

theorem atPrimary_eq_nil {primary : Int} {items : List Item}
    (other : ∀ item ∈ items, item.primary ≠ primary) : atPrimary primary items = [] :=
  List.filter_eq_nil_iff.mpr fun item member => by simpa using other item member

/-- Items whose section places ascend are determined by what stands at each section place. -/
theorem eq_of_atPrimary_eq {first second : List Item}
    (firstAscends : first.Pairwise fun a b => a.primary ≤ b.primary)
    (secondAscends : second.Pairwise fun a b => a.primary ≤ b.primary)
    (same : ∀ primary, atPrimary primary first = atPrimary primary second) : first = second := by
  induction first generalizing second with
  | nil =>
      cases second with
      | nil => rfl
      | cons b rest =>
          have empty := same b.primary
          rw [atPrimary_cons_self] at empty
          cases empty
  | cons a rest ih =>
      cases second with
      | nil =>
          have empty := same a.primary
          rw [atPrimary_cons_self] at empty
          cases empty
      | cons b others =>
          obtain ⟨aLeast, restAscends⟩ := List.pairwise_cons.mp firstAscends
          obtain ⟨bLeast, othersAscend⟩ := List.pairwise_cons.mp secondAscends
          -- Each head is among the other items, so neither has the greater section place.
          have below : b.primary ≤ a.primary := by
            have found := mem_atPrimary_self (List.mem_cons_self (a := a) (l := rest))
            rw [same] at found
            rcases List.mem_cons.mp (primary_of_mem_atPrimary found).1 with rfl | later
            · exact Int.le_refl _
            · exact bLeast a later
          have above : a.primary ≤ b.primary := by
            have found := mem_atPrimary_self (List.mem_cons_self (a := b) (l := others))
            rw [← same] at found
            rcases List.mem_cons.mp (primary_of_mem_atPrimary found).1 with rfl | later
            · exact Int.le_refl _
            · exact aLeast b later
          have equal : a.primary = b.primary := Int.le_antisymm above below
          have heads := same a.primary
          rw [atPrimary_cons_self, equal, atPrimary_cons_self] at heads
          obtain rfl := (List.cons.inj heads).1
          congr 1
          apply ih restAscends othersAscend
          intro primary
          have here := same primary
          rw [atPrimary, atPrimary, List.filter_cons, List.filter_cons] at here
          split at here
          · exact (List.cons.inj here).2
          · exact here

/-- At each section place, sorting ranks the hooks that the plain sort has put there. -/
theorem atPrimary_flatMap_rankHooks {groups : List (List Item)}
    (same : ∀ group ∈ groups, ∀ a ∈ group, ∀ b ∈ group, a.primary = b.primary)
    (apart : groups.Pairwise fun first second =>
      ∀ a ∈ first, ∀ b ∈ second, a.primary < b.primary) (primary : Int) :
    atPrimary primary (groups.flatMap rankHooks) =
      rankHooks (atPrimary primary groups.flatten) := by
  induction groups with
  | nil => rfl
  | cons group rest ih =>
      obtain ⟨below, restApart⟩ := List.pairwise_cons.mp apart
      have ih := ih (fun other member => same other (List.mem_cons_of_mem _ member)) restApart
      have whole : ∀ list : List Item, atPrimary primary (group ++ list) =
          atPrimary primary group ++ atPrimary primary list := fun list => List.filter_append ..
      rw [List.flatMap_cons, List.flatten_cons, whole, atPrimary, List.filter_append, ← atPrimary,
        ← atPrimary, ih]
      by_cases here : ∃ item ∈ group, item.primary = primary
      · obtain ⟨item, member, rfl⟩ := here
        have rest : atPrimary item.primary rest.flatten = [] := by
          apply atPrimary_eq_nil
          intro other found
          obtain ⟨second, inRest, inSecond⟩ := List.mem_flatten.mp found
          exact (Int.ne_of_lt (below second inRest item member other inSecond)).symm
        have all : ∀ other ∈ group, other.primary = item.primary :=
          fun other found => same group List.mem_cons_self other found item member
        rw [rest, atPrimary_eq_self all, atPrimary_eq_self fun other found =>
          all other ((rankHooks_perm group).mem_iff.mp found), List.append_nil]
        exact List.append_nil _
      · have none : ∀ item ∈ group, item.primary ≠ primary :=
          fun item member equal => here ⟨item, member, equal⟩
        rw [atPrimary_eq_nil none, atPrimary_eq_nil fun other found =>
          none other ((rankHooks_perm group).mem_iff.mp found), List.nil_append, List.nil_append]

theorem pairwise_primary_mergeSort (items : List Item) :
    (items.mergeSort Item.beforeInSource).Pairwise fun a b => a.primary ≤ b.primary := by
  apply (Item.pairwise_mergeSort_beforeInSource items).imp
  intro a b before
  have := Item.beforeInSource_iff.mp before
  omega

theorem atPrimary_sortItems (items : List Item) (primary : Int) :
    atPrimary primary (sortItems items) =
      rankHooks (atPrimary primary (items.mergeSort Item.beforeInSource)) := by
  have ranked := atPrimary_flatMap_rankHooks (fun group => eq_of_mem_splitBy)
    (primary_lt_of_splitBy (pairwise_primary_mergeSort items)) primary
  rwa [List.flatten_splitBy] at ranked

/-! ## The arrangement and its uniqueness -/

theorem ranksHooks_sortItems (items : List Item) : RanksHooks items (sortItems items) where
  perm := sortItems_perm items
  ascending := (pairwise_sortItems items).imp Item.Follows.primary
  places primary := by
    rw [atPrimary_sortItems]
    exact forall₂_fillHooks isHook_of_mem_mergeSort (List.length_mergeSort _).symm
  ranked primary := by
    rw [atPrimary_sortItems, filter_isHook_rankHooks]
    exact (Item.pairwise_mergeSort_beforeByRank _).imp Item.beforeByRank_iff.mp

section Distinct

variable {items : List Item} (distinct : (items.map Item.index).Nodup)

include distinct

theorem eq_of_index_eq {a b : Item} (aMember : a ∈ items) (bMember : b ∈ items)
    (equal : a.index = b.index) : a = b :=
  List.inj_on_of_nodup_map distinct aMember bMember equal

/-- Items in the order of their indices are determined by which items they are. -/
theorem eq_of_pairwise_index {first second : List Item} (inside : first ⊆ items)
    (moved : first.Perm second) (firstAscends : first.Pairwise fun a b => a.index ≤ b.index)
    (secondAscends : second.Pairwise fun a b => a.index ≤ b.index) : first = second := by
  refine List.Perm.eq_of_pairwise ?_ firstAscends secondAscends moved
  intro a b aMember bMember forth back
  exact eq_of_index_eq distinct (inside aMember) (inside (moved.mem_iff.mpr bMember))
    (Int.le_antisymm forth back)

/-- Only one order of the items ranks their hooks. -/
theorem RanksHooks.unique {first second : List Item} (firstRanks : RanksHooks items first)
    (secondRanks : RanksHooks items second) : first = second := by
  apply eq_of_atPrimary_eq firstRanks.ascending secondRanks.ascending
  intro primary
  have hooks : (atPrimary primary first).filter Item.isHook =
      (atPrimary primary second).filter Item.isHook := by
    refine List.Perm.eq_of_pairwise ?_ (firstRanks.ranked primary) (secondRanks.ranked primary)
      (((firstRanks.perm.trans secondRanks.perm.symm).filter _).filter _)
    intro a b aMember bMember forth back
    have aFound := (primary_of_mem_atPrimary (List.mem_of_mem_filter aMember)).1
    have bFound := (primary_of_mem_atPrimary (List.mem_of_mem_filter bMember)).1
    apply eq_of_index_eq distinct (firstRanks.perm.mem_iff.mp aFound)
      (secondRanks.perm.mem_iff.mp bFound)
    omega
  rw [eq_fillHooks_of_forall₂ (firstRanks.places primary), hooks,
    ← eq_fillHooks_of_forall₂ (secondRanks.places primary)]

theorem mergeSort_beforeInSource_of_perm {given : List Item} (moved : given.Perm items) :
    given.mergeSort Item.beforeInSource = items.mergeSort Item.beforeInSource := by
  refine List.Perm.eq_of_pairwise ?_ (Item.pairwise_mergeSort_beforeInSource given)
    (Item.pairwise_mergeSort_beforeInSource items)
    ((List.mergeSort_perm _ _).trans (moved.trans (List.mergeSort_perm _ _).symm))
  intro a b aMember bMember forth back
  apply eq_of_index_eq distinct (moved.mem_iff.mp (List.mem_mergeSort.mp aMember))
    (List.mem_mergeSort.mp bMember)
  rw [Item.beforeInSource_iff] at forth back
  omega

end Distinct

/-! ## Hooks that share their section place with hooks only -/

namespace Item

/-- The order `before` with hooks kept apart from other items at the outset; unlike `before` it is
transitive whatever the items are. -/
def beforeApart (a b : Item) : Bool :=
  a.primary < b.primary || (a.primary = b.primary &&
    ((!a.isHook && b.isHook) || (a.isHook = b.isHook && before a b)))

theorem beforeApart_iff {a b : Item} :
    beforeApart a b = true ↔ a.primary < b.primary ∨ (a.primary = b.primary ∧
      ((a.isHook = false ∧ b.isHook = true) ∨
        (a.isHook = false ∧ b.isHook = false ∧ a.index ≤ b.index) ∨
        (a.isHook = true ∧ b.isHook = true ∧
          (a.rank < b.rank ∨ (a.rank = b.rank ∧ a.index ≤ b.index))))) := by
  cases aHook : a.isHook <;> cases bHook : b.isHook <;>
    simp [beforeApart, before, aHook, bHook, beforeByRank_iff] <;> omega

theorem pairwise_mergeSort_beforeApart (items : List Item) :
    (items.mergeSort beforeApart).Pairwise fun a b => beforeApart a b = true := by
  apply List.pairwise_mergeSort
  · intro a b c
    simp only [beforeApart_iff]
    cases a.isHook <;> cases b.isHook <;> cases c.isHook <;> simp <;> omega
  · intro a b
    rw [Bool.or_eq_true, beforeApart_iff, beforeApart_iff]
    cases a.isHook <;> cases b.isHook <;> simp <;> omega

end Item

section Unmixed

variable {items : List Item}
  (unmixed : ∀ a ∈ items, ∀ b ∈ items, a.primary = b.primary → a.isHook = b.isHook)

include unmixed

theorem mergeSort_before_eq :
    items.mergeSort Item.before = items.mergeSort Item.beforeApart := by
  have agree : ∀ a ∈ items, ∀ b ∈ items,
      Item.before a b = Item.beforeApart (id a) (id b) := by
    intro a aMember b bMember
    by_cases equal : a.primary = b.primary
    · simp [Item.beforeApart, Item.before, equal, unmixed a aMember b bMember equal]
    · simp [Item.beforeApart, Item.before, equal]
  simpa using List.map_mergeSort agree

theorem pairwise_mergeSort_before :
    (items.mergeSort Item.before).Pairwise fun a b => Item.beforeApart a b = true := by
  rw [mergeSort_before_eq unmixed]
  exact Item.pairwise_mergeSort_beforeApart items

/-- Where no hook stands, the plain sort by all keys goes by the index. -/
theorem atPrimary_mergeSort_before (distinct : (items.map Item.index).Nodup) {primary : Int}
    (none : ∀ item ∈ atPrimary primary items, item.isHook = false) :
    atPrimary primary (items.mergeSort Item.before) =
      atPrimary primary (items.mergeSort Item.beforeInSource) := by
  have moved := (List.mergeSort_perm items Item.before).filter fun item => item.primary = primary
  have plainMoved :=
    (List.mergeSort_perm items Item.beforeInSource).filter fun item => item.primary = primary
  apply eq_of_pairwise_index distinct
    (fun item member => (primary_of_mem_atPrimary (moved.mem_iff.mp member)).1)
    (moved.trans plainMoved.symm)
  · apply ((pairwise_mergeSort_before unmixed).filter _).imp_of_mem
    intro a b aMember bMember before
    have aHere := (primary_of_mem_atPrimary aMember).2
    have bHere := (primary_of_mem_atPrimary bMember).2
    have aOther := none a (moved.mem_iff.mp aMember)
    have bOther := none b (moved.mem_iff.mp bMember)
    simpa [Item.beforeApart_iff, aOther, bOther, aHere, bHere] using before
  · apply ((Item.pairwise_mergeSort_beforeInSource items).filter _).imp_of_mem
    intro a b aMember bMember before
    have aHere := (primary_of_mem_atPrimary aMember).2
    have bHere := (primary_of_mem_atPrimary bMember).2
    have := Item.beforeInSource_iff.mp before
    omega

/-- The plain sort by all keys ranks hooks that share their section place with hooks only. -/
theorem ranksHooks_mergeSort_before (distinct : (items.map Item.index).Nodup) :
    RanksHooks items (items.mergeSort Item.before) := by
  have sorted := pairwise_mergeSort_before unmixed
  refine ⟨List.mergeSort_perm _ _, sorted.imp fun {a b} before => ?_, fun primary => ?_,
    fun primary => ?_⟩
  · have := Item.beforeApart_iff.mp before
    omega
  · by_cases hooks : ∃ hook ∈ atPrimary primary items, hook.isHook = true
    · obtain ⟨hook, hookMember, isHook⟩ := hooks
      have all : ∀ item ∈ atPrimary primary items, item.isHook = true := by
        intro item member
        obtain ⟨found, here⟩ := primary_of_mem_atPrimary member
        obtain ⟨hookFound, hookHere⟩ := primary_of_mem_atPrimary hookMember
        rw [unmixed item found hook hookFound (here.trans hookHere.symm), isHook]
      have moved : ∀ order : Item → Item → Bool,
          (atPrimary primary (items.mergeSort order)).Perm (atPrimary primary items) :=
        fun order => (List.mergeSort_perm items order).filter _
      exact forall₂_standsFor_of_hooks ((moved _).trans (moved _).symm).length_eq
        (fun item member => all item ((moved _).mem_iff.mp member))
        (fun item member => all item ((moved _).mem_iff.mp member))
    · have none : ∀ item ∈ atPrimary primary items, item.isHook = false :=
        fun item member => Bool.eq_false_iff.mpr fun isHook => hooks ⟨item, member, isHook⟩
      rw [atPrimary_mergeSort_before unmixed distinct none]
      exact List.forall₂_same.mpr fun item _ => ⟨rfl, fun _ => rfl⟩
  · apply ((sorted.filter _).filter _).imp_of_mem
    intro a b aMember bMember before
    have aHook := (List.mem_filter.mp aMember).2
    have bHook := (List.mem_filter.mp bMember).2
    have aHere := (primary_of_mem_atPrimary (List.mem_of_mem_filter aMember)).2
    have bHere := (primary_of_mem_atPrimary (List.mem_of_mem_filter bMember)).2
    simpa [Item.beforeApart_iff, aHook, bHook, aHere, bHere] using before

end Unmixed

theorem sortGiven_of_ranked {items : List Item}
    (ranked : ∀ item ∈ items, item.isHook = true → item.secondary.isSome = true) :
    sortGiven items = .ok (sortItems items) := by
  rw [sortGiven, if_pos]
  rw [List.all_eq_true]
  intro stretch member
  rw [comparable, Bool.or_eq_true]
  left
  rw [List.all_eq_true]
  intro hook found
  obtain ⟨inStretch, isHook⟩ := List.mem_filter.mp found
  have inItems := List.mem_flatten_of_mem member inStretch
  rw [stretches, List.flatten_splitBy, List.mem_mergeSort] at inItems
  exact ranked hook inItems isHook

/-- Sorting items with distinct indices, all hooks among them having ranks, gives the one order that
ranks the hooks.  Any other order of the same items is sorted to the same result, which is the plain
sort by all keys when hooks share their section place with hooks only. -/
theorem sortGiven_determined {items : List Item} (distinct : (items.map Item.index).Nodup)
    (ranked : ∀ item ∈ items, item.isHook = true → item.secondary.isSome = true) :
    ∃ sorted, sortGiven items = .ok sorted ∧
      (∀ other, RanksHooks items other ↔ other = sorted) ∧
      (∀ given, given.Perm items → sortGiven given = .ok sorted) ∧
      ((∀ a ∈ items, ∀ b ∈ items, a.primary = b.primary → a.isHook = b.isHook) →
        sorted = items.mergeSort Item.before) := by
  have ranks := ranksHooks_sortItems items
  refine ⟨sortItems items, sortGiven_of_ranked ranked, fun other => ⟨fun otherRanks =>
    RanksHooks.unique distinct otherRanks ranks, fun equal => equal ▸ ranks⟩, ?_, ?_⟩
  · intro given moved
    rw [sortGiven_of_ranked fun item member => ranked item (moved.mem_iff.mp member), sortItems,
      stretches, mergeSort_beforeInSource_of_perm distinct moved]
    rfl
  · intro unmixed
    exact RanksHooks.unique distinct ranks (ranksHooks_mergeSort_before unmixed distinct)

/-- Two hooks and a variable at one section place, and a variable at an earlier one. -/
def sharedPlace : List Item :=
  let item := fun (index primary : Int) (secondary : Option Int) (tag : Section) =>
    { statement := { kind := .other, start := index, stop := index }
      index, tag, primary, secondary, text := [] : Item }
  [item 2 7 (some 1) .lifecycle, item 3 0 none .plainVars, item 0 7 (some 4) .lifecycle,
    item 1 7 none .plainVars]

theorem sortGiven_sharedPlace :
    (sharedPlace.map Item.index).Nodup ∧
      (∀ item ∈ sharedPlace, item.isHook = true → item.secondary.isSome = true) ∧
      ∃ sorted, sortGiven sharedPlace = .ok sorted ∧ sorted.map Item.index = [3, 2, 1, 0] ∧
        RanksHooks sharedPlace sorted := by
  have distinct : (sharedPlace.map Item.index).Nodup := by decide
  have ranked : ∀ item ∈ sharedPlace, item.isHook = true → item.secondary.isSome = true := by
    decide
  obtain ⟨sorted, accepted, determined, _⟩ := sortGiven_determined distinct ranked
  refine ⟨distinct, ranked, sorted, accepted, ?_, (determined sorted).mpr rfl⟩
  have computed : (sortGiven sharedPlace).map (List.map Item.index) = .ok [3, 2, 1, 0] := by cbv
  rw [accepted] at computed
  exact Except.ok.inj computed

end DeclOrder

import DeclOrder.Proofs.HookPlaces

/-!
# Hooks without a rank

A hook that has no rank of its own is sorted by the number of ranked hooks, and hooks of equal rank
keep their order in the source.  So hooks without a rank keep their order among themselves, and they
stand behind every hook whose rank is below the number of ranked hooks; a hook with a greater rank
stands behind them.
-/

namespace DeclOrder

/-- The rank that the hook of a statement is given, if it is given one. -/
def HookRanks.given? (hooks : HookRanks) (statement : Statement) : Option Int :=
  statement.hook?.bind (hooks.ranks.lookup ·)

theorem HookRanks.rank_eq (hooks : HookRanks) (statement : Statement) :
    hooks.rank statement.hook? = (hooks.given? statement).getD hooks.ranks.length := by
  unfold rank given?
  cases statement.hook?.bind (hooks.ranks.lookup ·) with
  | none => rfl
  | some rank => rfl

theorem HookRanks.exists_mem_of_given? {hooks : HookRanks} {statement : Statement} {rank : Int}
    (given : hooks.given? statement = some rank) : ∃ entry ∈ hooks.ranks, entry.2 = rank := by
  obtain ⟨name, _, found⟩ := Option.bind_eq_some_iff.mp given
  obtain ⟨before, behind, shape, _⟩ := List.lookup_eq_some_iff.mp found
  exact ⟨(name, rank), by simp [shape], rfl⟩

/-! ## The keys of a hook -/

section Items

variable {options : Options} {source : Text} {statements : List Statement}

theorem primary_of_hook {item : Item} (member : item ∈ sortedItems options source statements)
    (hook : item.isHook = true) : item.primary = options.sections.rank .lifecycle := by
  have keys := Item.keys_of_ofStatement?_eq_some (ofStatement?_of_mem_sortedItems member)
  have lifecycle : item.tag = .lifecycle := of_decide_eq_true hook
  rw [keys.1, lifecycle]

theorem rank_of_hook {item : Item} (member : item ∈ sortedItems options source statements)
    (hook : item.isHook = true) :
    item.rank = (options.hooks.given? item.statement).getD options.hooks.ranks.length := by
  have keys := Item.keys_of_ofStatement?_eq_some (ofStatement?_of_mem_sortedItems member)
  rw [Item.rank, keys.2, if_pos (of_decide_eq_true hook), Option.getD_some, HookRanks.rank_eq]

/-- Hooks are in the order of their ranks, and those of equal rank in the order of the source. -/
theorem pairwise_hooks_sortedItems (options : Options) (source : Text)
    (statements : List Statement) :
    (sortedItems options source statements).Pairwise fun a b =>
      a.isHook = true → b.isHook = true →
        a.rank < b.rank ∨ (a.rank = b.rank ∧ a.index < b.index) := by
  have ranked := (ranksHooks_sortItems (itemsFrom options source 0 statements)).ranked
    (options.sections.rank .lifecycle)
  rw [← sortedItems_eq_sortItems, atPrimary, List.pairwise_filter, List.pairwise_filter] at ranked
  -- Ranking compares indices weakly; no two items have the same one.
  have distinct := nodup_index_sortedItems options source statements
  rw [List.nodup_iff_pairwise_ne, List.pairwise_map] at distinct
  apply (ranked.and distinct).imp_of_mem
  intro a b aMember bMember both aHook bHook
  have order := both.1 (decide_eq_true (primary_of_hook aMember aHook))
    (decide_eq_true (primary_of_hook bMember bHook)) aHook bHook
  have different := both.2
  omega

/-- Of two hooks the one with the lower rank stands first, and at equal rank the one that stands
first in the source. -/
theorem lt_iff_of_hooks {a b : Item} {i j : Nat}
    (aFound : (sortedItems options source statements)[i]? = some a)
    (bFound : (sortedItems options source statements)[j]? = some b)
    (aHook : a.isHook = true) (bHook : b.isHook = true) :
    i < j ↔ a.rank < b.rank ∨ (a.rank = b.rank ∧ a.index < b.index) := by
  have sorted := List.pairwise_iff_getElem.mp
    (pairwise_hooks_sortedItems options source statements)
  obtain ⟨iInside, rfl⟩ := List.getElem?_eq_some_iff.mp aFound
  obtain ⟨jInside, rfl⟩ := List.getElem?_eq_some_iff.mp bFound
  rcases Nat.lt_trichotomy i j with before | rfl | behind
  · have order := sorted i j iInside jInside before aHook bHook
    omega
  · omega
  · have order := sorted j i jInside iInside behind bHook aHook
    omega

/-- Where hooks without a rank stand.  They keep their order among themselves.  A ranked hook stands
before a hook without a rank exactly when its rank is below the number of ranked hooks, or equal to
it and the ranked hook comes first in the source.  So hooks without a rank come last when every rank
is below the number of ranked hooks. -/
theorem unranked_places {a b : Item} {i j : Nat}
    (aFound : (sortedItems options source statements)[i]? = some a)
    (bFound : (sortedItems options source statements)[j]? = some b)
    (aHook : a.isHook = true) (bHook : b.isHook = true)
    (unranked : options.hooks.given? b.statement = none) :
    (options.hooks.given? a.statement = none → (i < j ↔ a.index < b.index)) ∧
      (∀ rank, options.hooks.given? a.statement = some rank →
        (i < j ↔ rank < options.hooks.ranks.length ∨
          (rank = options.hooks.ranks.length ∧ a.index < b.index))) ∧
      ((∀ entry ∈ options.hooks.ranks, entry.2 < options.hooks.ranks.length) →
        options.hooks.given? a.statement ≠ none → i < j) := by
  have order := lt_iff_of_hooks aFound bFound aHook bHook
  have aRank := rank_of_hook (List.mem_of_getElem? aFound) aHook
  have bRank := rank_of_hook (List.mem_of_getElem? bFound) bHook
  rw [unranked, Option.getD_none] at bRank
  have ranked : ∀ rank, options.hooks.given? a.statement = some rank →
      (i < j ↔ rank < options.hooks.ranks.length ∨
        (rank = options.hooks.ranks.length ∧ a.index < b.index)) := by
    intro rank given
    rw [given, Option.getD_some] at aRank
    rw [order, aRank, bRank]
  refine ⟨?_, ranked, ?_⟩
  · intro alsoUnranked
    rw [alsoUnranked, Option.getD_none] at aRank
    rw [order, aRank, bRank]
    omega
  · intro dense isRanked
    obtain ⟨rank, given⟩ := Option.ne_none_iff_exists'.mp isRanked
    obtain ⟨entry, member, rfl⟩ := HookRanks.exists_mem_of_given? given
    exact (ranked _ given).mpr (.inl (dense entry member))

end Items

/-- A statement that calls a hook. -/
def hookCall (name : String) : Statement where
  kind := .expression
  start := 0
  stop := 0
  expression := some { kind := .call, callee := some name }

/-- The item of a call of a hook, at the standard place of hooks. -/
def hookItem (name : String) (index rank : Int) : Item where
  statement := hookCall name
  index := index
  tag := .lifecycle
  primary := 10
  secondary := some rank
  text := []

/-- Two calls of hooks, sorted with a rank for the second one only. -/
def denselySorted : List Item :=
  sortedItems { hooks := ⟨[("onMounted", 0)]⟩ } []
    [hookCall "onUnmounted", hookCall "onMounted"]

theorem unranked_places_dense :
    denselySorted[0]? = some (hookItem "onMounted" 1 0) ∧
      denselySorted[1]? = some (hookItem "onUnmounted" 0 1) ∧
      HookRanks.given? ⟨[("onMounted", 0)]⟩ (hookCall "onMounted") = some 0 ∧
      HookRanks.given? ⟨[("onMounted", 0)]⟩ (hookCall "onUnmounted") = none ∧
      ∀ i j : Nat, denselySorted[i]? = some (hookItem "onMounted" 1 0) →
        denselySorted[j]? = some (hookItem "onUnmounted" 0 1) → i < j := by
  have items : itemsFrom { hooks := ⟨[("onMounted", 0)]⟩ } [] 0
      [hookCall "onUnmounted", hookCall "onMounted"] =
        [hookItem "onUnmounted" 0 1, hookItem "onMounted" 1 0] := rfl
  have sorted : sortItems [hookItem "onUnmounted" 0 1, hookItem "onMounted" 1 0] =
      [hookItem "onMounted" 1 0, hookItem "onUnmounted" 0 1] := by cbv
  have found : denselySorted = [hookItem "onMounted" 1 0, hookItem "onUnmounted" 0 1] := by
    rw [denselySorted, sortedItems_eq_sortItems, items, sorted]
  refine ⟨by rw [found]; rfl, by rw [found]; rfl, rfl, rfl, ?_⟩
  intro i j rankedFound unrankedFound
  exact (unranked_places rankedFound unrankedFound rfl rfl rfl).2.2 (by decide) (by decide)

/-- A rank that is not below the number of ranked hooks puts a hook behind those without a rank. -/
theorem ranked_behind_unranked :
    HookRanks.ofValue (.table [("onMounted", .int 5)]) = .ok ⟨[("onMounted", 5)]⟩ ∧
      (sortedItems { hooks := ⟨[("onMounted", 5)]⟩ } []
          [hookCall "onMounted", hookCall "onUnmounted"]).map
          (fun item => (item.isHook, HookRanks.given? ⟨[("onMounted", 5)]⟩ item.statement)) =
        [(true, none), (true, some 5)] := by
  have items : itemsFrom { hooks := ⟨[("onMounted", 5)]⟩ } [] 0
      [hookCall "onMounted", hookCall "onUnmounted"] =
        [hookItem "onMounted" 0 5, hookItem "onUnmounted" 1 1] := rfl
  have sorted : sortItems [hookItem "onMounted" 0 5, hookItem "onUnmounted" 1 1] =
      [hookItem "onUnmounted" 1 1, hookItem "onMounted" 0 5] := by cbv
  constructor
  · rfl
  · rw [sortedItems_eq_sortItems, items, sorted]
    rfl

end DeclOrder

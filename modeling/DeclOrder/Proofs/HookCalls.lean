import DeclOrder.Proofs.SortedItems

/-!
# Calls of hooks

The section of a statement and the name of the hook that it calls are found separately, by looking
at the same expression.  A statement calls a hook when it is an expression statement that is a
call, or a variable whose initializer is a call under any number of type casts.  So casts make no
difference, a statement is a lifecycle hook exactly when it calls a name that the tables resolve to
one, and the rank of its item is the rank of that name.
-/

namespace DeclOrder

/-! ## Expressions under casts -/

namespace Expression

/-- An initializer, or none, under type casts.  Each cast is given with the name in its outline,
which means nothing. -/
def under : List (Option String) → Option Expression → Option Expression
  | [], initializer => initializer
  | callee :: casts, initializer => some ⟨.cast, callee, under casts initializer⟩

theorem uncast_cast (callee : Option String) (inner : Option Expression) :
    uncast ⟨.cast, callee, inner⟩ = inner.bind uncast := by
  cases inner with
  | none => rfl
  | some inner => rfl

/-- Casts do not change what is found under casts. -/
theorem bind_uncast_under (casts : List (Option String)) (initializer : Option Expression) :
    (under casts initializer).bind uncast = initializer.bind uncast := by
  induction casts with
  | nil => rfl
  | cons callee casts ih => rw [under, Option.bind_some, uncast_cast, ih]

/-- Casts lead to what is found under them. -/
theorem exists_under_of_uncast {expression value : Expression}
    (found : expression.uncast = some value) :
    ∃ casts, some expression = under casts (some value) := by
  induction expression using uncast.induct with
  | case1 callee => cases found
  | case2 callee inner ih =>
      rw [uncast_cast, Option.bind_some] at found
      obtain ⟨casts, shape⟩ := ih found
      exact ⟨callee :: casts, by rw [under, ← shape]⟩
  | case3 callee inner | case4 callee inner | case5 callee inner =>
      cases found
      exact ⟨[], rfl⟩

theorem calleeOfCall?_eq_some_iff {expression : Expression} {name : String} :
    expression.calleeOfCall? = some name ↔ ∃ inner, expression = ⟨.call, some name, inner⟩ := by
  obtain ⟨kind, callee, inner⟩ := expression
  cases kind <;> simp [calleeOfCall?]

end Expression

theorem CalleeTables.callSection_eq_some_iff {tables : CalleeTables} {expression : Expression}
    {tag : Section} :
    tables.callSection expression = some tag ↔ ∃ name, expression.calleeOfCall? = some name ∧
      name ≠ "" ∧ tables.resolve name = some tag := by
  rw [callSection]
  cases expression.calleeOfCall? with
  | none => simp
  | some name => by_cases empty : name = "" <;> simp [empty]

namespace Statement

/-- The statement calls a function by its name: as an expression, or as the initializer of a
variable under any number of type casts. -/
inductive Calls (name : String) : Statement → Prop where
  | expression {statement : Statement} {inner : Option Expression}
      (kind : statement.kind = .expression)
      (call : statement.expression = some ⟨.call, some name, inner⟩) : Calls name statement
  | initializer {statement : Statement} {inner : Option Expression} (casts : List (Option String))
      (kind : statement.kind = .variables)
      (call : statement.initializer = Expression.under casts (some ⟨.call, some name, inner⟩)) :
      Calls name statement

/-- The expression by which it is decided what a statement calls. -/
def value? (statement : Statement) : Option Expression :=
  match statement.kind with
  | .variables => statement.initializer.bind Expression.uncast
  | .expression => statement.expression
  | _ => none

theorem value?_eq_some_iff {statement : Statement} {value : Expression} :
    statement.value? = some value ↔
      statement.kind = .variables ∧ statement.initializer.bind Expression.uncast = some value ∨
        statement.kind = .expression ∧ statement.expression = some value := by
  rw [value?]
  cases statement.kind <;> simp

theorem hook?_eq_bind (statement : Statement) :
    statement.hook? = statement.value?.bind Expression.calleeOfCall? := by
  rw [hook?, value?]
  cases statement.kind <;> rfl

/-- The name found for a hook is the name that the statement calls. -/
theorem hook?_eq_some_iff {statement : Statement} {name : String} :
    statement.hook? = some name ↔ Calls name statement := by
  rw [hook?_eq_bind, Option.bind_eq_some_iff]
  simp only [Expression.calleeOfCall?_eq_some_iff, value?_eq_some_iff]
  constructor
  · rintro ⟨_, ⟨kind, found⟩ | ⟨kind, call⟩, inner, rfl⟩
    · obtain ⟨initializer, given, found⟩ := Option.bind_eq_some_iff.mp found
      obtain ⟨casts, shape⟩ := Expression.exists_under_of_uncast found
      exact .initializer casts kind (given.trans shape)
    · exact .expression kind call
  · intro calls
    cases calls with
    | expression kind call => exact ⟨_, .inr ⟨kind, call⟩, _, rfl⟩
    | @initializer inner casts kind call =>
        have found := Expression.bind_uncast_under casts (some ⟨.call, some name, inner⟩)
        rw [← call] at found
        exact ⟨_, .inl ⟨kind, found⟩, _, rfl⟩

theorem variableSection_eq_lifecycle_iff {tables : CalleeTables} {initializer : Option Expression} :
    variableSection tables initializer = .lifecycle ↔
      (initializer.bind Expression.uncast).bind tables.callSection = some .lifecycle := by
  rw [variableSection]
  cases initializer.bind Expression.uncast with
  | none => simp
  | some value =>
      rw [Option.bind_some]
      dsimp only
      split
      · rename_i function
        have noCall : value.calleeOfCall? = none := by simp [Expression.calleeOfCall?, function]
        simp [CalleeTables.callSection, noCall]
      · cases tables.callSection value <;> simp

/-- A statement is a lifecycle hook exactly when it calls a name that resolves to one. -/
theorem section?_eq_lifecycle_iff {tables : CalleeTables} {statement : Statement} :
    statement.section? tables = some .lifecycle ↔ ∃ name, statement.hook? = some name ∧
      name ≠ "" ∧ tables.resolve name = some .lifecycle := by
  have called : statement.section? tables = some .lifecycle ↔
      statement.value?.bind tables.callSection = some .lifecycle := by
    rw [section?, value?]
    cases statement.kind
    case «variables» => rw [Option.some.injEq, variableSection_eq_lifecycle_iff]
    case expression => cases statement.expression.bind tables.callSection <;> simp
    all_goals simp
  rw [called, hook?_eq_bind]
  cases statement.value? with
  | none => simp
  | some value => exact CalleeTables.callSection_eq_some_iff

/-- Casts around an initializer change neither the section of a statement nor the name it calls. -/
theorem under_casts (tables : CalleeTables) (statement : Statement) (casts : List (Option String)) :
    let wrapped := { statement with initializer := Expression.under casts statement.initializer }
    wrapped.section? tables = statement.section? tables ∧ wrapped.hook? = statement.hook? := by
  dsimp only [section?, hook?, variableSection]
  rw [Expression.bind_uncast_under]
  exact ⟨rfl, rfl⟩

end Statement

theorem HookRanks.rank_of_lookup {hooks : HookRanks} {name : String} {rank : Int}
    (found : hooks.ranks.lookup name = some rank) : hooks.rank (some name) = rank := by
  rw [HookRanks.rank, Option.bind_some, found]

theorem HookRanks.rank_of_not_mem {hooks : HookRanks} {name : String}
    (absent : name ∉ hooks.ranks.map Prod.fst) : hooks.rank (some name) = hooks.ranks.length := by
  have unknown : hooks.ranks.lookup name = none := by
    rw [List.lookup_eq_none_iff]
    intro entry member
    have differs : name ≠ entry.1 := fun same => absent (same ▸ List.mem_map_of_mem member)
    simpa using differs
  rw [HookRanks.rank, Option.bind_some, unknown]

/-- Sections and hooks agree.  Casts around an initializer change neither the section nor the hook
of a statement, and the hook is the name that the statement calls.  A statement is a lifecycle hook
exactly when that name is not empty and resolves to one, and then its item is ranked by the rank of
the name, or by the number of ranks if the name has none.  The items of other statements have no
rank, and only imports have no item. -/
theorem hooks_agree_with_sections (options : Options) (source : Text) (statement : Statement)
    (index : Int) :
    (∀ casts : List (Option String),
      let wrapped := { statement with initializer := Expression.under casts statement.initializer }
      wrapped.section? options.tables = statement.section? options.tables ∧
        wrapped.hook? = statement.hook?) ∧
    (∀ name, statement.hook? = some name ↔ statement.Calls name) ∧
    (statement.section? options.tables = some .lifecycle ↔ ∃ name,
      statement.hook? = some name ∧ name ≠ "" ∧
        options.tables.resolve name = some .lifecycle) ∧
    (Item.ofStatement? options source statement index = none ↔ statement.kind = .importing) ∧
    ∀ item, Item.ofStatement? options source statement index = some item →
      (statement.section? options.tables ≠ some .lifecycle → item.secondary = none) ∧
      ∀ name, statement.hook? = some name → name ≠ "" →
        options.tables.resolve name = some .lifecycle →
          (∀ rank, options.hooks.ranks.lookup name = some rank → item.secondary = some rank) ∧
          (name ∉ options.hooks.ranks.map Prod.fst →
            item.secondary = some (options.hooks.ranks.length : Int)) := by
  refine ⟨statement.under_casts options.tables, fun name => Statement.hook?_eq_some_iff,
    Statement.section?_eq_lifecycle_iff, ?_, ?_⟩
  · rw [Item.ofStatement?, Option.map_eq_none_iff, Statement.section?_eq_none_iff,
      Statement.isImport, decide_eq_true_eq]
  · intro item made
    have classified := (Item.of_ofStatement?_eq_some made).2.2.2
    have rank := (Item.keys_of_ofStatement?_eq_some made).2
    constructor
    · intro other
      have noHook : item.tag ≠ .lifecycle :=
        fun same => other (classified.trans (congrArg some same))
      rw [rank, if_neg noHook]
    · intro name called given resolved
      have hook := Statement.section?_eq_lifecycle_iff.mpr ⟨name, called, given, resolved⟩
      rw [classified, Option.some.injEq] at hook
      rw [rank, if_pos hook, called]
      constructor
      · intro number ranked
        rw [HookRanks.rank_of_lookup ranked]
      · intro unranked
        rw [HookRanks.rank_of_not_mem unranked]

/-- A variable that is initialized by the call of a hook under two casts. -/
def castHook (name : String) : Statement where
  kind := .variables
  start := 0
  stop := 0
  initializer := Expression.under [none, none] (some ⟨.call, some name, none⟩)

theorem hooks_agree_with_sections_castHook :
    (castHook "onMounted").section? {} = some .lifecycle ∧
      ∃ ranked unranked : Item,
        Item.ofStatement? { hooks := ⟨[("onMounted", 7)]⟩ } [] (castHook "onMounted") 0 =
          some ranked ∧
        Item.ofStatement? { hooks := ⟨[("onMounted", 7)]⟩ } [] (castHook "onUpdated") 1 =
          some unranked ∧
        ranked.secondary = some 7 ∧ unranked.secondary = some 1 := by
  obtain ⟨_, calls, lifecycle, _, keys⟩ :=
    hooks_agree_with_sections { hooks := ⟨[("onMounted", 7)]⟩ } [] (castHook "onMounted") 0
  obtain ⟨_, _, _, _, otherKeys⟩ :=
    hooks_agree_with_sections { hooks := ⟨[("onMounted", 7)]⟩ } [] (castHook "onUpdated") 1
  have called := (calls "onMounted").mpr (.initializer [none, none] rfl rfl)
  have resolved : CalleeTables.resolve {} "onMounted" = some .lifecycle := by decide
  refine ⟨lifecycle.mpr ⟨"onMounted", called, by decide, resolved⟩, _, _, rfl, rfl, ?_, ?_⟩
  · exact ((keys _ rfl).2 "onMounted" called (by decide) resolved).1 7 rfl
  · exact ((otherKeys _ rfl).2 "onUpdated" rfl (by decide) (by decide)).2 (by decide)

end DeclOrder

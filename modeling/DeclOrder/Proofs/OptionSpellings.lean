import DeclOrder.Proofs.RequestOptions

/-!
# Options under two spellings

Options come from a request and from a configuration file, and an option goes by two spellings in
each of them.  Keys are brought to their chief spelling before the two are laid over each other, so
of two spellings in one table the one that stands last counts, even if it holds null.  The value of
the request then counts unless it is null, then the value of the file unless it is null, then the
default.  Wherever no value stands before the other spelling of its option, this is the rule by
which options are read from one table: of the values that are not null, the one under the chief
spelling before the one under the other.
-/

namespace DeclOrder

/-! ## Tables laid over each other -/

namespace Table

theorem get?_cons (key : String) (entry : String × Value) (table : Table) :
    get? (entry :: table) key = if key = entry.1 then some entry.2 else table.get? key := by
  obtain ⟨name, value⟩ := entry
  rw [get?, List.lookup_cons]
  by_cases same : key = name
  · simp [same]
  · have differs : (key == name) = false := beq_false_of_ne same
    simp [same, differs, get?]

theorem get?_insert_of_ne {key other : String} (differs : other ≠ key) (table : Table)
    (value : Value) : (table.insert key value).get? other = table.get? other := by
  induction table with
  | nil =>
      rw [insert, get?_cons, if_neg differs]
  | cons entry table ih =>
      obtain ⟨name, found⟩ := entry
      rw [insert]
      split
      · rename_i same
        subst same
        rw [get?_cons, get?_cons, if_neg differs, if_neg differs]
      · rw [get?_cons, get?_cons, ih]

/-- A value that is set is the last one that is given for its key. -/
theorem get?_overlay (table entries : Table) (key : String) :
    (table.overlay entries).get? key = (List.lookup key entries.reverse).or (table.get? key) := by
  induction entries generalizing table with
  | nil => rfl
  | cons entry entries ih =>
      obtain ⟨name, value⟩ := entry
      have step : table.overlay ((name, value) :: entries) =
          (table.insert name value).overlay entries := rfl
      rw [step, ih, List.reverse_cons, List.lookup_append, Option.or_assoc]
      congr 1
      by_cases same : key = name
      · subst same
        rw [get?_insert_self]
        simp
      · have differs : (key == name) = false := beq_false_of_ne same
        rw [get?_insert_of_ne same]
        simp [List.lookup_cons, differs]

theorem keys_insert (table : Table) (key : String) (value : Value) :
    (table.insert key value).keys =
      if key ∈ table.keys then table.keys else table.keys ++ [key] := by
  induction table with
  | nil => rfl
  | cons entry table ih =>
      obtain ⟨name, found⟩ := entry
      simp only [keys] at ih
      rw [insert]
      by_cases same : name = key
      · simp [same, keys]
      · have other : key ≠ name := fun equal => same equal.symm
        rw [if_neg same, keys, List.map_cons, ih]
        by_cases known : key ∈ table.map Prod.fst <;> simp [keys, known, other]

theorem nodup_keys_overlay {table : Table} (distinct : table.keys.Nodup) (entries : Table) :
    (table.overlay entries).keys.Nodup := by
  induction entries generalizing table with
  | nil => exact distinct
  | cons entry entries ih =>
      apply ih
      rw [keys_insert]
      split
      · exact distinct
      · rename_i new
        exact distinct.append (List.nodup_singleton _) (by simpa using new)

/-- In a table with distinct keys, a value is found under its key. -/
theorem get?_eq_some_iff {table : Table} (distinct : table.keys.Nodup) {key : String}
    {value : Value} : table.get? key = some value ↔ (key, value) ∈ table := by
  induction table with
  | nil => simp [get?]
  | cons entry table ih =>
      obtain ⟨name, found⟩ := entry
      obtain ⟨new, rest⟩ := List.nodup_cons.mp distinct
      rw [get?_cons, List.mem_cons, ← ih rest]
      by_cases same : key = name
      · subst same
        have absent : get? table key ≠ some value := by
          intro again
          have listed : key ∈ keys table := List.mem_map_of_mem ((ih rest).mp again)
          exact new listed
        rw [if_pos rfl, or_iff_left absent]
        simp [eq_comm]
      · simp [same]

/-- The values of a payload count unless they are null, and then those of the defaults. -/
theorem get?_merge {payload : Table} (distinct : payload.keys.Nodup) (defaults : Table)
    (key : String) :
    (merge payload defaults).get? key =
      ((payload.get? key).filter fun value => !value.isNull).or (defaults.get? key) := by
  have some : List.Sublist (payload.filter fun entry => !entry.2.isNull) payload :=
    List.filter_sublist
  have distinctGiven : (keys (payload.filter fun entry => !entry.2.isNull).reverse).Nodup := by
    rw [keys, List.map_reverse, List.nodup_reverse]
    exact distinct.sublist (some.map Prod.fst)
  rw [merge, get?_overlay]
  congr 1
  ext value
  rw [← get?, get?_eq_some_iff distinctGiven, List.mem_reverse, List.mem_filter,
    Option.filter_eq_some_iff, get?_eq_some_iff distinct]

/-- A value is looked up under the keys that a function gives. -/
theorem lookup_map_key (f : String → String) (table : Table) (key : String) :
    List.lookup key (table.map fun (name, value) => (f name, value)) =
      (table.find? fun entry => f entry.1 = key).map Prod.snd := by
  induction table with
  | nil => rfl
  | cons entry table ih =>
      obtain ⟨name, value⟩ := entry
      rw [List.map_cons, List.lookup_cons, List.find?_cons, ih]
      by_cases same : f name = key
      · simp [same]
      · have differs : (key == f name) = false := beq_false_of_ne fun equal => same equal.symm
        simp [same, differs]

/-- The value of the last entry under one of the given keys. -/
def last? (table : Table) (spellings : List String) : Option Value :=
  (table.reverse.find? fun entry => entry.1 ∈ spellings).map Prod.snd

/-- The value that a table gives under one of the given keys: that of the last entry, unless it is
null. -/
def given? (table : Table) (spellings : List String) : Option Value :=
  (table.last? spellings).filter fun value => !value.isNull

/-- In a table with distinct keys, the last value of a key is the only one. -/
theorem last?_singleton {table : Table} (distinct : table.keys.Nodup) (key : String) :
    table.last? [key] = table.get? key := by
  have reversed : (keys table.reverse).Nodup := by
    rw [keys, List.map_reverse]
    exact List.nodup_reverse.mpr distinct
  have found : table.last? [key] = get? table.reverse key := by
    have looked := lookup_map_key id table.reverse key
    simp only [id_eq, List.map_id'] at looked
    simp only [last?, List.mem_singleton]
    exact looked.symm
  ext value
  rw [found, get?_eq_some_iff reversed, List.mem_reverse, get?_eq_some_iff distinct]

/-- A table with distinct keys gives a value for a key when one of its entries does. -/
theorem isSome_given?_singleton {table : Table} (distinct : table.keys.Nodup) {key : String} :
    (table.given? [key]).isSome ↔ ∃ value, (key, value) ∈ table ∧ value.isNull = false := by
  rw [given?, last?_singleton distinct, Option.isSome_iff_exists]
  simp only [Option.filter_eq_some_iff, get?_eq_some_iff distinct, Bool.not_eq_true']

end Table

theorem Options.firstPresent?_pair (table : Table) (first second : String) :
    firstPresent? table [first, second] =
      ((table.get? first).filter fun value => !value.isNull).or
        ((table.get? second).filter fun value => !value.isNull) := by
  rw [firstPresent?, List.findSome?_cons, List.findSome?_cons, List.findSome?_nil]
  cases (table.get? first).filter fun value => !value.isNull with
  | some value => rfl
  | none => cases (table.get? second).filter fun value => !value.isNull <;> rfl

namespace Config

open Table

/-! ## Chief spellings -/

/-- The keys whose chief spelling is the given one. -/
def spellings (key : String) : List String :=
  if key = "section_order" then ["section_order", "sectionOrder"]
  else if key = "lifecycle_order" then ["lifecycle_order", "lifecycleOrder"]
  else if key = "sectionOrder" ∨ key = "lifecycleOrder" then []
  else [key]

theorem canonicalKey_eq_iff {name key : String} :
    canonicalKey name = key ↔ name ∈ spellings key := by
  grind [canonicalKey, spellings]

/-- Under the chief spelling of its key, an option has the value of its last spelling. -/
theorem get?_canonical (table : Table) (key : String) :
    (canonical table).get? key = table.last? (spellings key) := by
  have empty : get? [] key = none := rfl
  rw [canonical, get?_overlay, ← List.map_reverse, lookup_map_key, empty, Option.or_none]
  simp only [canonicalKey_eq_iff]
  rfl

theorem nodup_keys_canonical (table : Table) : (canonical table).keys.Nodup :=
  @nodup_keys_overlay [] List.nodup_nil _

/-! ## The merged table -/

theorem spellings_of_not_mem {key : String} (other : key ∉ optionKeys) : spellings key = [key] := by
  simp only [optionKeys, List.mem_cons, not_or] at other
  simp [spellings, other]

/-- What is found in the table of a request over that of a file. -/
theorem get?_merge_canonical (payload table : Table) (key : String) :
    (merge (canonical payload) (canonical table)).get? key =
      (payload.given? (spellings key)).or (table.last? (spellings key)) := by
  rw [get?_merge (nodup_keys_canonical payload), get?_canonical, get?_canonical]
  rfl

theorem isSome_last?_singleton {table : Table} {key : String} :
    (table.last? [key]).isSome ↔ key ∈ table.keys := by
  simp [last?, keys, List.find?_isSome]

/-- Only known keys are merged when all keys of the file are known, and all keys to which the
request gives a value. -/
theorem known_keys_merge_iff {payload table : Table} :
    (∀ key ∈ (merge (canonical payload) (canonical table)).keys, key ∈ optionKeys) ↔
      (∀ key ∈ table.keys, key ∈ optionKeys) ∧
        ∀ key, (payload.given? [key]).isSome → key ∈ optionKeys := by
  have unknown : ∀ key, key ∉ optionKeys →
      (key ∈ (merge (canonical payload) (canonical table)).keys ↔
        (payload.given? [key]).isSome ∨ key ∈ table.keys) := by
    intro key other
    rw [← Request.isSome_get?_iff, get?_merge_canonical, spellings_of_not_mem other,
      Option.isSome_or, Bool.or_eq_true, isSome_last?_singleton]
  constructor
  · intro known
    constructor
    · intro key listed
      by_contra other
      exact other (known key ((unknown key other).mpr (.inr listed)))
    · intro key given
      by_contra other
      exact other (known key ((unknown key other).mpr (.inl given)))
  · rintro ⟨tableKnown, payloadKnown⟩ key merged
    by_contra other
    rcases (unknown key other).mp merged with given | listed
    · exact other (payloadKnown key given)
    · exact other (tableKnown key listed)

theorem filter_or_filter {α : Type} (p : α → Bool) (first second : Option α) :
    ((first.filter p).or second).filter p = (first.filter p).or (second.filter p) := by
  cases first with
  | none => simp
  | some value => cases passes : p value <;> simp [Option.filter, passes]

/-- The value that is used for an option: that of the request, or else that of the file, each under
the spelling that stands last in it. -/
def chosen? (payload table : Table) (spellings : List String) : Option Value :=
  (payload.given? spellings).or (table.given? spellings)

theorem filter_chosen? (payload table : Table) (spellings : List String) :
    ((chosen? payload table spellings).filter fun value => !value.isNull) =
      chosen? payload table spellings := by
  rw [chosen?, given?, given?, filter_or_filter, Option.filter_filter]
  simp only [Bool.and_self]

/-- The value of an option in the merged table is the one that is used for it. -/
theorem firstPresent?_merge (payload table : Table) {chief other : String}
    (unused : spellings other = []) :
    Options.firstPresent? (merge (canonical payload) (canonical table)) [chief, other] =
      chosen? payload table (spellings chief) := by
  have nothing : ∀ table : Table, table.last? [] = none := by simp [last?]
  rw [Options.firstPresent?_pair, get?_merge_canonical, get?_merge_canonical, unused, chosen?,
    given?, given?, given?, nothing, nothing, filter_or_filter]
  exact Option.or_none

end Config

namespace Options

/-- The table of both options under their chief spellings, each with the value that is found under
the spellings of the option, or null. -/
def chiefTable (find? : List String → Option Value) : Table :=
  [("section_order", (find? ["section_order", "sectionOrder"]).getD .null),
    ("lifecycle_order", (find? ["lifecycle_order", "lifecycleOrder"]).getD .null)]

theorem filter_getD_null (value : Option Value) :
    ((some (value.getD .null)).filter fun value => !value.isNull) =
      value.filter fun value => !value.isNull := by
  cases value <;> rfl

/-- Options under their chief spellings are the options of their values. -/
theorem ofTable_chiefTable_eq_ok_iff {find? : List String → Option Value} {options : Options} :
    ofTable (chiefTable find?) = .ok options ↔
      ofParts ((find? ["section_order", "sectionOrder"]).filter fun value => !value.isNull)
        ((find? ["lifecycle_order", "lifecycleOrder"]).filter fun value => !value.isNull) =
          .ok options := by
  have known : ∀ key ∈ (chiefTable find?).keys, key ∈ optionKeys := by
    simp [chiefTable, Table.keys, optionKeys]
  have given : ∀ {chief other : String} {value : Option Value},
      (chiefTable find?).get? chief = some (value.getD .null) →
        (chiefTable find?).get? other = none →
          firstPresent? (chiefTable find?) [chief, other] =
            value.filter fun value => !value.isNull := by
    intro chief other value found absent
    rw [firstPresent?_pair, found, absent, filter_getD_null]
    exact Option.or_none
  rw [ofTable_eq_ok_iff, and_iff_right known, given rfl rfl, given rfl rfl]

end Options

namespace Config

open Table

/-! ## Values that are hidden -/

/-- No value of a table stands before another entry for the same option, unless that entry has the
chief spelling and a value. -/
structure Unhidden (table : Table) : Prop where
  distinct : table.keys.Nodup
  kept : table.Pairwise fun earlier later => earlier.2.isNull = false →
    canonicalKey earlier.1 = canonicalKey later.1 →
      later.1 = canonicalKey later.1 ∧ later.2.isNull = false

/-- The entry that stands last for its option has the chief spelling and a value, if there is a
value under the other spelling. -/
theorem last_of_get? {table before behind : Table} (unhidden : Unhidden table) {chief key : String}
    {value : Value} {entry : String × Value} (shape : table = before ++ entry :: behind)
    (spelling : canonicalKey entry.1 = chief) (unlike : ∀ later ∈ behind, later.1 ≠ key)
    (differs : key ≠ entry.1) (same : canonicalKey key = chief)
    (found : table.get? key = some value) (present : value.isNull = false) :
    entry.1 = chief ∧ entry.2.isNull = false := by
  have listed : (key, value) ∈ before ++ entry :: behind :=
    shape ▸ (get?_eq_some_iff unhidden.distinct).mp found
  have earlier : (key, value) ∈ before := by
    rcases List.mem_append.mp listed with before | rest
    · exact before
    · rcases List.mem_cons.mp rest with rfl | behind
      · exact absurd rfl differs
      · exact absurd rfl (unlike _ behind)
  have kept := (List.pairwise_append.mp (shape ▸ unhidden.kept)).2.2 _ earlier entry (by simp)
  rw [← spelling]
  exact kept present (same.trans spelling.symm)

/-- A value for an option that has no other entry behind it is the value of the option. -/
theorem firstPresent?_of_last {table before behind : Table} (unhidden : Unhidden table)
    {chief other : String} (spelled : spellings chief = [chief, other]) (differs : chief ≠ other)
    {entry : String × Value} (spelling : entry.1 ∈ [chief, other])
    (shape : table = before ++ entry :: behind)
    (unlike : ∀ later ∈ behind, later.1 ∉ [chief, other]) :
    Options.firstPresent? table [chief, other] =
      (some entry.2).filter fun value => !value.isNull := by
  have chiefly : ∀ {key}, key ∈ [chief, other] → canonicalKey key = chief :=
    fun member => canonicalKey_eq_iff.mpr (spelled ▸ member)
  have own : table.get? entry.1 = some entry.2 := by
    rw [get?_eq_some_iff unhidden.distinct, shape]
    simp
  -- A value under the other spelling stands before the entry.
  have elsewhere : ∀ key ∈ [chief, other], key ≠ entry.1 →
      ¬(entry.1 = chief ∧ entry.2.isNull = false) →
        ((table.get? key).filter fun value => !value.isNull) = none := by
    intro key member unequal hidden
    rw [Option.filter_eq_none_iff]
    intro value found present
    exact hidden (last_of_get? unhidden shape (chiefly spelling)
      (fun later behind same => unlike later behind (same ▸ member)) unequal (chiefly member) found
      (by simpa using present))
  rw [Options.firstPresent?_pair]
  rcases List.mem_pair.mp spelling with here | here
  · rw [here] at own
    rw [own]
    cases absent : entry.2.isNull with
    | false => simp [Option.filter, absent]
    | true =>
        rw [elsewhere other (by simp) (fun same => differs (here.symm.trans same.symm))
          (by simp [absent])]
        exact Option.or_none
  · rw [here] at own
    rw [own, elsewhere chief (by simp) (fun same => differs (same.trans here))
      (fun last => differs (last.1.symm.trans here))]
    rfl

/-- Where no value is hidden, an option has the value of its chief spelling, or else that of the
other one. -/
theorem given?_eq_firstPresent? {table : Table} (unhidden : Unhidden table) {chief other : String}
    (spelled : spellings chief = [chief, other]) (differs : chief ≠ other) :
    table.given? [chief, other] = Options.firstPresent? table [chief, other] := by
  rw [given?, last?]
  cases found : table.reverse.find? fun entry => entry.1 ∈ [chief, other] with
  | none =>
      have absent : ∀ key ∈ [chief, other], table.get? key = none := by
        intro key spelling
        rw [get?, List.lookup_eq_none_iff]
        intro entry member
        have unlike := List.find?_eq_none.mp found entry (List.mem_reverse.mpr member)
        have differs : key ≠ entry.1 := fun same => unlike (decide_eq_true (same ▸ spelling))
        simpa using differs
      rw [Options.firstPresent?_pair, absent chief (by simp), absent other (by simp)]
      rfl
  | some entry =>
      obtain ⟨spelling, behind, before, shape, unlike⟩ := List.find?_eq_some_iff_append.mp found
      have split : table = before.reverse ++ entry :: behind.reverse := by
        rw [← List.reverse_reverse table, shape]
        simp
      have last : ∀ later ∈ behind.reverse, later.1 ∉ [chief, other] := by
        intro later member
        simpa using unlike later (List.mem_reverse.mp member)
      exact (firstPresent?_of_last unhidden spelled differs (by simpa using spelling) split
        last).symm

/-! ## The options that are resolved -/

/-- The value of an option by the rule for a single table: that of the request, or else that of the
file, each under the first spelling that has one. -/
def preferred? (payload table : Table) (spellings : List String) : Option Value :=
  (Options.firstPresent? payload spellings).or (Options.firstPresent? table spellings)

theorem chosen?_eq_preferred? {payload table : Table} (payloadUnhidden : Unhidden payload)
    (tableUnhidden : Unhidden table) :
    Options.chiefTable (chosen? payload table) = Options.chiefTable (preferred? payload table) := by
  have sections : spellings "section_order" = ["section_order", "sectionOrder"] := rfl
  have hooks : spellings "lifecycle_order" = ["lifecycle_order", "lifecycleOrder"] := rfl
  simp only [Options.chiefTable, chosen?, preferred?]
  rw [given?_eq_firstPresent? payloadUnhidden sections (by decide),
    given?_eq_firstPresent? tableUnhidden sections (by decide),
    given?_eq_firstPresent? payloadUnhidden hooks (by decide),
    given?_eq_firstPresent? tableUnhidden hooks (by decide)]

/-- The merged table is accepted when its keys are known and the values that are used accepted. -/
theorem ofTable_merge_eq_ok_iff {payload table : Table} {options : Options} :
    Options.ofTable (merge (canonical payload) (canonical table)) = .ok options ↔
      ((∀ key ∈ table.keys, key ∈ optionKeys) ∧
        ∀ key, (payload.given? [key]).isSome → key ∈ optionKeys) ∧
      Options.ofTable (Options.chiefTable (chosen? payload table)) = .ok options := by
  rw [Options.ofTable_eq_ok_iff, known_keys_merge_iff, Options.ofTable_chiefTable_eq_ok_iff,
    filter_chosen?, filter_chosen?, firstPresent?_merge payload table rfl,
    firstPresent?_merge payload table rfl]
  rfl

/-- Once the table of the file is read, options are resolved or refused, and never fail. -/
theorem resolve_of_table {tree : FileTree} {root config : Option Path} {table : Table}
    (loaded : (load tree (filePath root config)).map optionsOf = .ok table) (payload : Table) :
    resolve tree root config payload =
      (Options.ofTable (merge (canonical payload) (canonical table))).mapError
        ConfigError.refused := by
  obtain ⟨values, read, rfl⟩ := map_eq_ok_iff.mp loaded
  exact resolve_of_load read payload

/-- No unknown key of a table has a null value that would hide it. -/
def NullsKnown (table : Table) : Prop :=
  ∀ entry ∈ table, entry.2.isNull → entry.1 ∈ optionKeys

/-- Where no unknown key is null, the keys that are given a value are known when all of them are. -/
theorem known_given_iff {payload : Table} (distinct : payload.keys.Nodup)
    (nulls : NullsKnown payload) :
    (∀ key, (payload.given? [key]).isSome → key ∈ optionKeys) ↔
      ∀ key ∈ payload.keys, key ∈ optionKeys := by
  simp only [isSome_given?_singleton distinct]
  constructor
  · intro known key listed
    obtain ⟨⟨name, value⟩, member, rfl⟩ := List.mem_map.mp listed
    cases null : value.isNull with
    | true => exact nulls _ member null
    | false => exact known name ⟨value, member, null⟩
  · rintro known key ⟨value, member, _⟩
    exact known key (List.mem_map_of_mem member)

/-- Once the table of the file is read, the options of a request are resolved exactly when all keys
of the file are known, all keys to which the request gives a value, and the values that are used
are accepted: for each option that of the request, or else that of the file, or else the default,
each under the spelling that stands last.  They are refused otherwise.  Where no entry hides a
value of either table, these are the values of the rule for a single table, and all keys are to be
known. -/
theorem resolve_takes_last_spelling (tree : FileTree) (root config : Option Path)
    (payload table : Table)
    (loaded : (load tree (filePath root config)).map optionsOf = .ok table) :
    (∀ options, resolve tree root config payload = .ok options ↔
      ((∀ key ∈ table.keys, key ∈ optionKeys) ∧
        ∀ key, (payload.given? [key]).isSome → key ∈ optionKeys) ∧
      Options.ofTable (Options.chiefTable (chosen? payload table)) = .ok options) ∧
    ((∀ options, resolve tree root config payload ≠ .ok options) →
      ∃ error, resolve tree root config payload = .error (.refused error)) ∧
    (Unhidden payload → NullsKnown payload → Unhidden table → ∀ options,
      (resolve tree root config payload = .ok options ↔
        ((∀ key ∈ table.keys, key ∈ optionKeys) ∧ ∀ key ∈ payload.keys, key ∈ optionKeys) ∧
        Options.ofTable (Options.chiefTable (preferred? payload table)) = .ok options)) := by
  have resolved : ∀ options, resolve tree root config payload = .ok options ↔
      ((∀ key ∈ table.keys, key ∈ optionKeys) ∧
        ∀ key, (payload.given? [key]).isSome → key ∈ optionKeys) ∧
      Options.ofTable (Options.chiefTable (chosen? payload table)) = .ok options := by
    intro options
    rw [resolve_of_table loaded, mapError_eq_ok_iff, ofTable_merge_eq_ok_iff]
  refine ⟨resolved, ?_, ?_⟩
  · intro unresolved
    rw [resolve_of_table loaded] at unresolved ⊢
    cases accepted : Options.ofTable (merge (canonical payload) (canonical table)) with
    | ok options => exact absurd (mapError_eq_ok_iff.mpr accepted) (unresolved options)
    | error error => exact ⟨error, rfl⟩
  · intro payloadUnhidden nulls tableUnhidden options
    rw [resolved, known_given_iff payloadUnhidden.distinct nulls,
      chosen?_eq_preferred? payloadUnhidden tableUnhidden]

/-- A configuration file that gives an option under its other spelling. -/
def typedTree : FileTree :=
  { entries := [("setup_order.toml", .file
      (Text.encode "[declaration-order]\nsectionOrder = ['type']\n".toList))] }

theorem load_typedTree : (load typedTree (filePath none none)).map optionsOf =
    .ok [("sectionOrder", .list [.string "type"])] := by
  have names : ((load typedTree (filePath none none)).map optionsOf).toOption.map (fun table =>
      table.map fun entry => (entry.1, (Request.strings entry.2).toOption)) =
        some [("sectionOrder", some ["type"])] := by decide +kernel
  obtain ⟨table, loaded, named⟩ := Option.map_eq_some_iff.mp names
  obtain ⟨⟨key, value⟩, rfl, single⟩ := List.map_eq_singleton_iff.mp named
  obtain ⟨rfl, read⟩ := Prod.mk.inj single
  obtain rfl := Request.strings_eq_ok_iff.mp (toOption_eq_some_iff.mp read)
  exact toOption_eq_some_iff.mp loaded

/-- A section of the request counts before the one of the file, and null counts for nothing. -/
theorem resolve_takes_last_spelling_typedTree :
    (∃ options, resolve typedTree none none [("section_order", .list [.string "class"])] =
        .ok options ∧ options.sections.sections = [.classes]) ∧
      ∃ options, resolve typedTree none none [("sectionOrder", .null)] = .ok options ∧
        options.sections.sections = [.type] := by
  obtain ⟨_, _, laidOver⟩ := resolve_takes_last_spelling typedTree none none
    [("section_order", .list [.string "class"])] _ load_typedTree
  obtain ⟨_, _, fallen⟩ := resolve_takes_last_spelling typedTree none none
    [("sectionOrder", .null)] _ load_typedTree
  constructor
  · refine ⟨_, (laidOver ⟨by decide, by simp⟩ ?_ ⟨by decide, by simp⟩ _).mpr ⟨by decide, rfl⟩, rfl⟩
    simp [NullsKnown, Value.isNull]
  · refine ⟨_, (fallen ⟨by decide, by simp⟩ ?_ ⟨by decide, by simp⟩ _).mpr ⟨by decide, rfl⟩, rfl⟩
    simp [NullsKnown, optionKeys]

/-- A null under the chief spelling hides the value before it, a value under the other spelling
hides one under the chief spelling, and a null under an unknown key is not noticed. -/
theorem later_spelling_hides_earlier :
    (∃ preferred resolved,
      Options.ofTable (Options.chiefTable (preferred?
        [("sectionOrder", .list [.string "class"]), ("section_order", .null)] [])) =
          .ok preferred ∧
      resolve {} none none
        [("sectionOrder", .list [.string "class"]), ("section_order", .null)] = .ok resolved ∧
      preferred.sections.sections = [.classes] ∧ resolved.sections.sections = Section.all) ∧
    (∃ preferred resolved,
      Options.ofTable (Options.chiefTable (preferred?
        [("section_order", .list [.string "class"]), ("sectionOrder", .list [.string "type"])]
          [])) = .ok preferred ∧
      resolve {} none none
        [("section_order", .list [.string "class"]), ("sectionOrder", .list [.string "type"])] =
          .ok resolved ∧
      preferred.sections.sections = [.classes] ∧ resolved.sections.sections = [.type]) ∧
    "order" ∉ optionKeys ∧ ∃ resolved, resolve {} none none [("order", .null)] = .ok resolved := by
  refine ⟨⟨_, _, rfl, rfl, rfl, rfl⟩, ⟨_, _, rfl, rfl, rfl, rfl⟩, by decide, _, rfl⟩

end Config

end DeclOrder

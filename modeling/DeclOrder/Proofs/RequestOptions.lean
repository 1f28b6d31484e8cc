import DeclOrder.Proofs.ExitCodes
import DeclOrder.Proofs.SectionOrders
import DeclOrder.Request

/-!
# Options of requests

The options of a request are read twice: once with the request, once as options.  The first reading
takes more for a rank than the second one, and does not take two spellings of one option.  Apart from
that a request is answered exactly when its options are accepted.
-/

namespace DeclOrder

/-! ## Results with problems -/

theorem map_eq_ok_iff {α β ε : Type} {result : Except ε α} {f : α → β} {value : β} :
    result.map f = .ok value ↔ ∃ a, result = .ok a ∧ f a = value := by
  cases result <;> simp [Except.map]

theorem mapError_eq_ok_iff {α ε ε' : Type} {f : ε → ε'} {result : Except ε α} {value : α} :
    result.mapError f = .ok value ↔ result = .ok value := by
  cases result <;> simp [Except.mapError]

theorem toOption_eq_some_iff {α ε : Type} {result : Except ε α} {value : α} :
    result.toOption = some value ↔ result = .ok value := by
  cases result <;> simp [Except.toOption]

namespace Checked

theorem under_eq_ok_iff {α : Type} {name : String} {checked : Checked α} {value : α} :
    under name checked = .ok value ↔ checked = .ok value :=
  mapError_eq_ok_iff

theorem both_eq_ok_iff {α β : Type} {first : Checked α} {second : Checked β} {value : α × β} :
    both first second = .ok value ↔ first = .ok value.1 ∧ second = .ok value.2 := by
  obtain ⟨a, b⟩ := value
  cases first <;> cases second <;> simp [both]

/-- Results are read together exactly when each of them is. -/
theorem all_eq_ok_iff {α : Type} {results : List (Checked α)} {values : List α} :
    all results = .ok values ↔ List.Forall₂ (fun result value => result = .ok value) results
      values := by
  induction results generalizing values with
  | nil => simp [all, eq_comm]
  | cons result results ih =>
      rw [all, map_eq_ok_iff, List.forall₂_cons_left_iff]
      constructor
      · rintro ⟨⟨value, others⟩, read, rfl⟩
        obtain ⟨first, rest⟩ := both_eq_ok_iff.mp read
        exact ⟨value, others, first, ih.mp rest, rfl⟩
      · rintro ⟨value, others, first, rest, rfl⟩
        exact ⟨(value, others), both_eq_ok_iff.mpr ⟨first, ih.mpr rest⟩, rfl⟩

end Checked

theorem mapM_eq_ok_iff {α β ε : Type} {f : α → Except ε β} {items : List α} {values : List β} :
    items.mapM f = .ok values ↔ List.Forall₂ (fun item value => f item = .ok value) items
      values := by
  induction items generalizing values with
  | nil => simp [pure, Except.pure, eq_comm]
  | cons item items ih =>
      rw [List.mapM_cons, List.forall₂_cons_left_iff]
      show (f item).bind (fun value => (items.mapM f).bind fun others => .ok (value :: others)) =
        .ok values ↔ _
      simp only [bind_eq_ok_iff, ih, Except.ok.injEq]
      constructor
      · rintro ⟨value, first, others, rest, same⟩
        exact ⟨value, others, first, rest, same.symm⟩
      · rintro ⟨value, others, first, rest, same⟩
        exact ⟨value, first, others, rest, same.symm⟩

/-! ## Single options -/

/-- Whether a value other than an integer may be taken for one. -/
def Value.mayRank : Value → Bool
  | .bool _ | .float _ | .string _ => true
  | _ => false

/-- Ranks are accepted if they are integers, and not otherwise. -/
theorem HookRanks.ofValue_eq_ok_iff {value : Value} {hooks : HookRanks} :
    ofValue value = .ok hooks ↔
      value = .table (hooks.ranks.map fun hook => (hook.1, .int hook.2)) := by
  have integer : ∀ {entry : String × Value} {hook : String × Int},
      entryOfValue entry = .ok hook ↔ entry = (hook.1, .int hook.2) := by
    rintro ⟨name, value⟩ ⟨hook, number⟩
    cases value <;> simp [entryOfValue]
  cases value with
  | table entries =>
      rw [Value.table.injEq, ← List.forall₂_eq_eq_eq, List.forall₂_map_right_iff]
      simp only [← integer, ← mapM_eq_ok_iff]
      constructor
      · intro accepted
        obtain ⟨ranks, read, rfl⟩ := map_eq_ok_iff.mp accepted
        exact read
      · intro read
        exact map_eq_ok_iff.mpr ⟨hooks.ranks, read, rfl⟩
  | _ => simp [ofValue]

namespace Request

/-- A rank as the integer that a request takes it for. -/
def lenientRank (value : Value) : Value :=
  match rank value with
  | .ok rank => .int rank
  | .error _ => value

theorem lenientRank_of_not_mayRank {value : Value} (plain : value.mayRank = false) :
    lenientRank value = value := by
  cases value with
  | bool flag => cases plain
  | float number => cases plain
  | string text => cases plain
  | _ => rfl

/-- A table of ranks with the integers that a request takes them for. -/
def lenientRanks : Value → Value
  | .table entries => .table (entries.map fun entry => (entry.1, lenientRank entry.2))
  | other => other

theorem string_eq_ok_iff {value : Value} {name : String} :
    string value = .ok name ↔ value = .string name := by
  cases value <;> simp [string, Checked.problem]

/-- Strings are read from a list of strings, and from nothing else. -/
theorem strings_eq_ok_iff {value : Value} {names : List String} :
    strings value = .ok names ↔ value = .list (names.map Value.string) := by
  cases value with
  | list entries =>
      have read : List.Forall₂ (fun entry name => string entry = .ok name)
          (entries.zipIdx.map Prod.fst) names ↔ entries = names.map Value.string := by
        simp only [List.zipIdx_map_fst, string_eq_ok_iff]
        rw [← List.forall₂_map_right_iff, List.forall₂_eq_eq_eq]
      rw [List.forall₂_map_left_iff] at read
      rw [strings, Checked.all_eq_ok_iff, List.forall₂_map_left_iff, Value.list.injEq, ← read]
      simp only [Checked.under_eq_ok_iff]
  | _ => simp [strings, Checked.problem]

theorem lenientRank_eq_int_iff {value : Value} {number : Int} :
    lenientRank value = .int number ↔ rank value = .ok number := by
  rw [lenientRank]
  cases read : rank value with
  | ok found => simp
  | error problems =>
      cases value with
      | int found => cases read
      | _ => simp

/-- Ranks are read with a request as the integers that they are taken for. -/
theorem lenientRanks_eq_table_iff {value : Value} {hooks : List (String × Int)} :
    lenientRanks value = .table (hooks.map fun hook => (hook.1, .int hook.2)) ↔
      ranks value = .ok hooks := by
  cases value with
  | table entries =>
      rw [lenientRanks, ranks, Value.table.injEq, ← List.forall₂_eq_eq_eq,
        List.forall₂_map_left_iff, List.forall₂_map_right_iff, Checked.all_eq_ok_iff,
        List.forall₂_map_left_iff]
      simp only [Checked.under_eq_ok_iff, map_eq_ok_iff, Prod.ext_iff, lenientRank_eq_int_iff]
      simp [and_comm]
  | _ => simp [lenientRanks, ranks, Checked.problem]

/-- Sections that are accepted are read with a request. -/
theorem exists_strings_of_ofValue {value : Value} {order : SectionOrder}
    (accepted : SectionOrder.ofValue value = .ok order) : ∃ names, strings value = .ok names := by
  obtain rfl := SectionOrder.ofValue_eq_ok_iff.mp accepted
  refine ⟨order.sections.map Section.name, strings_eq_ok_iff.mpr ?_⟩
  rw [SectionOrder.entries, List.map_map]
  rfl

/-- The value of the sections of a request. -/
def sectionsValue : Option (List String) → Value
  | none => .null
  | some names => .list (names.map Value.string)

/-- The value of the ranks of a request. -/
def hooksValue : Option (List (String × Int)) → Value
  | none => .null
  | some ranks => .table (ranks.map fun entry => (entry.1, .int entry.2))

theorem optional_eq_ok_iff {α : Type} {read : Value → Checked α} {value : Value}
    {result : Option α} :
    optional read value = .ok result ↔ value = .null ∧ none = result ∨
      value ≠ .null ∧ ∃ found, read value = .ok found ∧ some found = result := by
  cases value with
  | null => simp [optional]
  | _ => simp [optional, map_eq_ok_iff]

theorem sectionsValue_of_optional {value : Value} {sections : Option (List String)}
    (read : optional strings value = .ok sections) : sectionsValue sections = value := by
  rcases optional_eq_ok_iff.mp read with ⟨rfl, rfl⟩ | ⟨_, names, found, rfl⟩
  · rfl
  · exact (strings_eq_ok_iff.mp found).symm

theorem hooksValue_of_optional {value : Value} {hooks : Option (List (String × Int))}
    (read : optional ranks value = .ok hooks) : hooksValue hooks = lenientRanks value := by
  rcases optional_eq_ok_iff.mp read with ⟨rfl, rfl⟩ | ⟨_, ranks, found, rfl⟩
  · rfl
  · exact (lenientRanks_eq_table_iff.mpr found).symm

/-! ## Options as a whole -/

/-- Options with the ranks that a request takes them for. -/
def lenient (table : Table) : Table :=
  table.map fun entry =>
    if entry.1 = "lifecycle_order" ∨ entry.1 = "lifecycleOrder" then
      (entry.1, lenientRanks entry.2) else entry

/-- No rank is given as a value, other than an integer, that could be taken for one. -/
def PlainRanks (table : Table) : Prop :=
  ∀ key entries, (key, Value.table entries) ∈ table →
    key = "lifecycle_order" ∨ key = "lifecycleOrder" →
      ∀ entry ∈ entries, entry.2.mayRank = false

/-- One option goes by both of its spellings. -/
def Doubled (table : Table) : Prop :=
  ((table.get? "sectionOrder").isSome ∧ (table.get? "section_order").isSome) ∨
    (table.get? "lifecycleOrder").isSome ∧ (table.get? "lifecycle_order").isSome

instance (table : Table) : Decidable (Doubled table) :=
  inferInstanceAs (Decidable (_ ∨ _))

/-- The value of an option that goes by either of two spellings. -/
def chosen (table : Table) (first second : String) : Value :=
  ((table.get? first).or (table.get? second)).getD .null

/-- A value unless it is null. -/
def present (value : Value) : Option Value :=
  if value.isNull then none else some value

theorem field_spelling?_eq_ok_iff {α : Type} {read : Value → Checked α} {table : Table}
    {first second : String} {result : Option α} :
    field (optional read) table (spelling? table [first, second]) = .ok result ↔
      optional read (chosen table first second) = .ok result := by
  rw [spelling?, chosen, List.find?_cons, List.find?_cons, List.find?_nil]
  cases found : table.get? first with
  | some value => simp [field, found, Checked.under_eq_ok_iff]
  | none =>
      cases other : table.get? second with
      | some value => simp [field, other, Checked.under_eq_ok_iff]
      | none => simp [field, optional]

theorem firstPresent?_eq_present {table : Table} {first second : String}
    (single : ¬((table.get? first).isSome ∧ (table.get? second).isSome)) :
    Options.firstPresent? table [second, first] = present (chosen table first second) := by
  rw [Options.firstPresent?, chosen, present]
  cases found : table.get? first with
  | none =>
      cases other : table.get? second with
      | none => simp [List.findSome?, found, other, Value.isNull]
      | some value => cases null : value.isNull <;>
        simp [List.findSome?, found, other, null, Option.filter]
  | some value =>
      cases other : table.get? second with
      | none => cases null : value.isNull <;>
        simp [List.findSome?, found, other, null, Option.filter]
      | some value =>
          rw [found, other] at single
          exact absurd ⟨rfl, rfl⟩ single

theorem get?_lenient (table : Table) (key : String) :
    (lenient table).get? key = (table.get? key).map fun value =>
      if key = "lifecycle_order" ∨ key = "lifecycleOrder" then lenientRanks value else value := by
  induction table with
  | nil => rfl
  | cons entry table ih =>
      obtain ⟨name, value⟩ := entry
      simp only [Table.get?, lenient, List.map_cons] at ih ⊢
      by_cases same : key = name
      · subst same
        split <;> simp_all
      · have differs : (key == name) = false := beq_false_of_ne same
        split <;> simp [List.lookup_cons, differs, ih]

theorem lenient_of_plainRanks {table : Table} (plain : PlainRanks table) :
    lenient table = table := by
  rw [lenient]
  refine (List.map_congr_left fun entry listed => ?_).trans (List.map_id table)
  obtain ⟨key, value⟩ := entry
  dsimp only
  split
  · rename_i hooks
    cases value with
    | table entries =>
        have kept : entries.map (fun entry => (entry.1, lenientRank entry.2)) = entries := by
          refine (List.map_congr_left fun entry member => ?_).trans (List.map_id entries)
          rw [lenientRank_of_not_mayRank (plain key entries listed hooks entry member)]
          rfl
        rw [lenientRanks, kept]
        rfl
    | _ => rfl
  · rfl

theorem keys_lenient (table : Table) : (lenient table).keys = table.keys := by
  rw [Table.keys, Table.keys, lenient, List.map_map]
  refine List.map_congr_left fun entry _ => ?_
  simp only [Function.comp_apply]
  split <;> rfl

end Request

/-- Options from the values of both of them. -/
def Options.ofParts (sections hooks : Option Value) : Except OptionsError Options :=
  (sections.elim (.ok SectionOrder.standard) SectionOrder.ofValue).bind fun sections =>
    (hooks.elim (.ok HookRanks.standard) HookRanks.ofValue).map fun hooks => { sections, hooks }

theorem Options.ofTable_eq_ok_iff {table : Table} {options : Options} :
    ofTable table = .ok options ↔ (∀ key ∈ table.keys, key ∈ optionKeys) ∧
      ofParts (firstPresent? table ["section_order", "sectionOrder"])
        (firstPresent? table ["lifecycle_order", "lifecycleOrder"]) = .ok options := by
  rw [ofTable]
  generalize firstPresent? table ["section_order", "sectionOrder"] = sections
  generalize firstPresent? table ["lifecycle_order", "lifecycleOrder"] = hooks
  split
  · rename_i known
    simp only [List.isEmpty_iff, List.filter_eq_nil_iff, decide_eq_true_eq, not_not] at known
    rw [and_iff_right known]
    cases sections <;> cases hooks <;> exact Iff.rfl
  · rename_i unknown
    simp only [List.isEmpty_iff, List.filter_eq_nil_iff, decide_eq_true_eq, not_not] at unknown
    simp [unknown]

/-- The options of a request, without a configuration file, are the options of its two values. -/
theorem Request.ofTable_payload (request : Request) :
    Options.ofTable (Table.merge (Config.canonical request.payload)
        (Config.canonical (Config.optionsOf []))) =
      Options.ofParts (present (sectionsValue request.sections))
        (present (hooksValue request.hooks)) := by
  obtain ⟨path, text, sections, hooks⟩ := request
  cases sections <;> cases hooks <;> rfl

namespace Request

theorem isSome_get?_iff {table : Table} {key : String} :
    (table.get? key).isSome ↔ key ∈ table.keys := by
  simp [Table.get?, Table.keys]

theorem spelling?_eq_some_iff {table : Table} {first second key : String} :
    spelling? table [first, second] = some key ↔
      key = first ∧ first ∈ table.keys ∨
        key = second ∧ first ∉ table.keys ∧ second ∈ table.keys := by
  rw [spelling?, List.find?_cons, List.find?_cons, List.find?_nil, ← isSome_get?_iff,
    ← isSome_get?_iff]
  cases table.get? first <;> cases table.get? second <;> simp [eq_comm]

/-- No key of a table is unknown to a request exactly when all are known and none is double. -/
theorem unknown_eq_nil_iff {table : Table} :
    (table.keys.filter fun key => some key ≠ spelling? table ["sectionOrder", "section_order"] &&
        some key ≠ spelling? table ["lifecycleOrder", "lifecycle_order"]) = [] ↔
      (∀ key ∈ table.keys, key ∈ optionKeys) ∧ ¬Doubled table := by
  have taken : ∀ key, ¬(decide (some key ≠ spelling? table ["sectionOrder", "section_order"]) &&
      decide (some key ≠ spelling? table ["lifecycleOrder", "lifecycle_order"])) = true ↔
        spelling? table ["sectionOrder", "section_order"] = some key ∨
          spelling? table ["lifecycleOrder", "lifecycle_order"] = some key := by
    intro key
    simp only [Bool.and_eq_true, decide_eq_true_eq, not_and_or, not_not, @eq_comm _ (some key)]
  simp only [List.filter_eq_nil_iff, taken, spelling?_eq_some_iff, Doubled, isSome_get?_iff]
  constructor
  · intro spelled
    constructor
    · intro key listed
      rcases spelled key listed with (⟨rfl, _⟩ | ⟨rfl, _⟩) | ⟨rfl, _⟩ | ⟨rfl, _⟩ <;> decide
    · rintro (⟨first, second⟩ | ⟨first, second⟩)
      · simpa [first] using spelled _ second
      · simpa [first] using spelled _ second
  · rintro ⟨known, single⟩ key listed
    rw [not_or, not_and, not_and] at single
    have spelled := known key listed
    simp only [optionKeys, List.mem_cons, List.not_mem_nil, or_false] at spelled
    rcases spelled with rfl | rfl | rfl | rfl
    · exact .inl (.inr ⟨rfl, fun first => single.1 first listed, listed⟩)
    · exact .inl (.inl ⟨rfl, listed⟩)
    · exact .inr (.inr ⟨rfl, fun first => single.2 first listed, listed⟩)
    · exact .inr (.inl ⟨rfl, listed⟩)

theorem all_refusals_eq_ok_iff {keys : List String} {units : List Unit} :
    Checked.all (keys.map fun key => Checked.under key (.problem .unknownKey)) = .ok units ↔
      keys = [] ∧ units = [] := by
  rw [Checked.all_eq_ok_iff, List.forall₂_map_left_iff]
  cases keys with
  | nil => simp
  | cons key keys =>
      rw [List.forall₂_cons_left_iff]
      simp [Checked.under_eq_ok_iff, Checked.problem]

/-- What a request takes for options: known keys, none of them double, and values that can be
read. -/
theorem options_eq_ok_iff {table : Table} {sections : Option (List String)}
    {hooks : Option (List (String × Int))} :
    options (.table table) = .ok (sections, hooks) ↔
      ((∀ key ∈ table.keys, key ∈ optionKeys) ∧ ¬Doubled table) ∧
        optional strings (chosen table "sectionOrder" "section_order") = .ok sections ∧
        optional ranks (chosen table "lifecycleOrder" "lifecycle_order") = .ok hooks := by
  rw [options, map_eq_ok_iff, ← unknown_eq_nil_iff, ← field_spelling?_eq_ok_iff,
    ← field_spelling?_eq_ok_iff]
  constructor
  · rintro ⟨⟨fields, units⟩, read, rfl⟩
    obtain ⟨read, refused⟩ := Checked.both_eq_ok_iff.mp read
    exact ⟨(all_refusals_eq_ok_iff.mp refused).1, Checked.both_eq_ok_iff.mp read⟩
  · rintro ⟨known, read⟩
    exact ⟨(_, []), Checked.both_eq_ok_iff.mpr ⟨Checked.both_eq_ok_iff.mpr read,
      all_refusals_eq_ok_iff.mpr ⟨known, rfl⟩⟩, rfl⟩

theorem doubled_lenient_iff {table : Table} : Doubled (lenient table) ↔ Doubled table := by
  simp only [Doubled, isSome_get?_iff, keys_lenient]

theorem chosen_lenient_sections (table : Table) :
    chosen (lenient table) "sectionOrder" "section_order" =
      chosen table "sectionOrder" "section_order" := by
  rw [chosen, get?_lenient, get?_lenient]
  simp [chosen]

theorem chosen_lenient_hooks (table : Table) :
    chosen (lenient table) "lifecycleOrder" "lifecycle_order" =
      lenientRanks (chosen table "lifecycleOrder" "lifecycle_order") := by
  rw [chosen, get?_lenient, get?_lenient, chosen]
  cases table.get? "lifecycleOrder" <;> cases table.get? "lifecycle_order" <;> simp [lenientRanks]

theorem present_of_ne_null {value : Value} (given : value ≠ .null) : present value = some value := by
  cases value with
  | null => exact absurd rfl given
  | _ => rfl

theorem lenientRanks_ne_null {value : Value} (given : value ≠ .null) :
    lenientRanks value ≠ .null := by
  cases value with
  | null => exact absurd rfl given
  | _ => simp [lenientRanks]

end Request

open Request

/-- Options that are accepted have sections and ranks that are, if they are given. -/
theorem Options.parts_of_ofParts {sections hooks : Option Value} {options : Options}
    (accepted : ofParts sections hooks = .ok options) :
    (∀ value ∈ sections, ∃ order, SectionOrder.ofValue value = .ok order) ∧
      ∀ value ∈ hooks, ∃ ranks, HookRanks.ofValue value = .ok ranks := by
  obtain ⟨order, ordered, accepted⟩ := bind_eq_ok_iff.mp accepted
  obtain ⟨ranks, ranked, _⟩ := map_eq_ok_iff.mp accepted
  constructor
  · rintro value rfl
    exact ⟨order, ordered⟩
  · rintro value rfl
    exact ⟨ranks, ranked⟩

/-- Without double options, those of a table are the options of its two values. -/
theorem ofTable_lenient_eq_ok_iff {table : Table} {options : Options} (single : ¬Doubled table) :
    Options.ofTable (lenient table) = .ok options ↔ (∀ key ∈ table.keys, key ∈ optionKeys) ∧
      Options.ofParts (present (chosen table "sectionOrder" "section_order"))
        (present (lenientRanks (chosen table "lifecycleOrder" "lifecycle_order"))) =
          .ok options := by
  rw [← doubled_lenient_iff, Doubled, not_or] at single
  rw [Options.ofTable_eq_ok_iff, keys_lenient, firstPresent?_eq_present single.1,
    firstPresent?_eq_present single.2, chosen_lenient_sections, chosen_lenient_hooks]

/-- Options that are accepted as they stand, none of them double, are also accepted with the ranks
that a request takes them for. -/
theorem ofTable_lenient_of_ofTable {table : Table} {options : Options} (single : ¬Doubled table)
    (accepted : Options.ofTable table = .ok options) :
    Options.ofTable (lenient table) = .ok options := by
  have spelled := not_or.mp single
  rw [Options.ofTable_eq_ok_iff, firstPresent?_eq_present spelled.1,
    firstPresent?_eq_present spelled.2] at accepted
  rw [ofTable_lenient_eq_ok_iff single]
  by_cases given : chosen table "lifecycleOrder" "lifecycle_order" = .null
  · rw [given] at accepted ⊢
    exact accepted
  · obtain ⟨ranks, ranked⟩ := (Options.parts_of_ofParts accepted.2).2 _ (present_of_ne_null given)
    have integers := HookRanks.ofValue_eq_ok_iff.mp ranked
    have kept : lenientRanks (chosen table "lifecycleOrder" "lifecycle_order") =
        chosen table "lifecycleOrder" "lifecycle_order" := by
      rw [integers, lenientRanks, List.map_map]
      rfl
    rw [kept]
    exact accepted

/-- Values that are accepted as options are read with a request. -/
theorem exists_optional_of_ofParts {sections hooks : Value} {options : Options}
    (accepted : Options.ofParts (present sections) (present (lenientRanks hooks)) = .ok options) :
    (∃ names, optional strings sections = .ok names) ∧
      ∃ ranked, optional ranks hooks = .ok ranked := by
  obtain ⟨sectionsAccepted, hooksAccepted⟩ := Options.parts_of_ofParts accepted
  constructor
  · by_cases given : sections = .null
    · subst given
      exact ⟨none, rfl⟩
    · obtain ⟨order, ordered⟩ := sectionsAccepted sections (present_of_ne_null given)
      obtain ⟨names, read⟩ := exists_strings_of_ofValue ordered
      exact ⟨some names, optional_eq_ok_iff.mpr (.inr ⟨given, names, read, rfl⟩)⟩
  · by_cases given : hooks = .null
    · subst given
      exact ⟨none, rfl⟩
    · obtain ⟨ranked, taken⟩ := hooksAccepted (lenientRanks hooks)
        (present_of_ne_null (lenientRanks_ne_null given))
      have read := lenientRanks_eq_table_iff.mp (HookRanks.ofValue_eq_ok_iff.mp taken)
      exact ⟨some ranked.ranks, optional_eq_ok_iff.mpr (.inr ⟨given, ranked.ranks, read, rfl⟩)⟩

/-- A request for a document whose text comes with it, and its options. -/
theorem Request.ofValue_eq_ok_iff {payload table : Table} {path text : String} {request : Request}
    (pathGiven : payload.get? "path" = some (.string path))
    (textGiven : payload.get? "text" = some (.string text))
    (optionsGiven : payload.get? "options" = some (.table table)) :
    Request.ofValue (.table payload) = .ok request ↔ ∃ sections hooks,
      options (.table table) = .ok (sections, hooks) ∧
        request = { path, text := some text.toList, sections, hooks } := by
  have given : (Value.table payload).isVoid = false := by
    cases payload with
    | nil => cases pathGiven
    | cons entry payload => rfl
  rw [Request.ofValue, given]
  simp only [Bool.false_eq_true, if_false, pathGiven, textGiven, optionsGiven]
  rw [map_eq_ok_iff]
  simp only [Checked.both_eq_ok_iff, Checked.under_eq_ok_iff]
  constructor
  · rintro ⟨⟨path, text, sections, hooks⟩, ⟨pathRead, textRead, read⟩, rfl⟩
    cases pathRead
    cases textRead
    exact ⟨sections, hooks, read, rfl⟩
  · rintro ⟨sections, hooks, read, rfl⟩
    exact ⟨(path, some text, sections, hooks), ⟨rfl, rfl, read⟩, rfl⟩

/-- Once a configuration file is read, options are those of the request over those of the file. -/
theorem Config.resolve_of_load {tree : FileTree} {root config : Option Path} {values : Table}
    (loaded : load tree (filePath root config) = .ok values) (payload : Table) :
    resolve tree root config payload =
      (Options.ofTable (Table.merge (canonical payload)
        (canonical (optionsOf values)))).mapError ConfigError.refused := by
  rw [resolve, loaded]
  simp only [bind, Except.bind]
  split <;> rename_i read <;> rw [read] <;> rfl

theorem Config.load_of_unreadable {tree : FileTree} {path : Path} {error : ReadError}
    (unreadable : tree.readText path = .ok (.error error)) : load tree path = .ok [] := by
  rw [load, unreadable]

section Answered

variable {parser : Parser} {tree : FileTree} {root : Option Path} {payload table : Table}
  {path text : String} {error : ReadError}
  (pathGiven : payload.get? "path" = some (.string path))
  (textGiven : payload.get? "text" = some (.string text))
  (optionsGiven : payload.get? "options" = some (.table table))
  (unreadable : tree.readText (Config.filePath root none) = .ok (.error error))

include pathGiven textGiven optionsGiven unreadable

/-- A request with options that are accepted is answered by the plan that is made with them. -/
theorem answer_of_accepted (single : ¬Doubled table) {options : Options}
    (accepted : Options.ofTable (lenient table) = .ok options) :
    Answer.ofValue parser tree root (.table payload) = .ok (.response
      (Response.ofPlan path text.toList (planDocument parser options path text.toList))) := by
  obtain ⟨known, accepted⟩ := (ofTable_lenient_eq_ok_iff single).mp accepted
  obtain ⟨⟨sections, sectionsRead⟩, hooks, hooksRead⟩ := exists_optional_of_ofParts accepted
  have read : Request.ofValue (.table payload) = .ok _ :=
    (Request.ofValue_eq_ok_iff pathGiven textGiven optionsGiven).mpr ⟨sections, hooks,
      options_eq_ok_iff.mpr ⟨⟨known, single⟩, sectionsRead, hooksRead⟩, rfl⟩
  rw [Answer.ofValue, read]
  dsimp only
  rw [Config.resolve_of_load (Config.load_of_unreadable unreadable), Request.ofTable_payload,
    sectionsValue_of_optional sectionsRead, hooksValue_of_optional hooksRead, accepted]
  rfl

/-- A request that is answered without errors has options that are accepted. -/
theorem accepted_of_answer {response : Response}
    (answered : Answer.ofValue parser tree root (.table payload) = .ok (.response response))
    (faultless : response.errors = []) :
    ¬Doubled table ∧ ∃ options, Options.ofTable (lenient table) = .ok options := by
  rw [Answer.ofValue] at answered
  cases read : Request.ofValue (.table payload) with
  | error problems =>
      rw [read] at answered
      cases answered
  | ok request =>
      obtain ⟨sections, hooks, taken, rfl⟩ :=
        (Request.ofValue_eq_ok_iff pathGiven textGiven optionsGiven).mp read
      obtain ⟨⟨known, single⟩, sectionsRead, hooksRead⟩ := options_eq_ok_iff.mp taken
      refine ⟨single, ?_⟩
      simp only [ofTable_lenient_eq_ok_iff single]
      rw [read] at answered
      dsimp only at answered
      rw [Config.resolve_of_load (Config.load_of_unreadable unreadable), Request.ofTable_payload,
        sectionsValue_of_optional sectionsRead, hooksValue_of_optional hooksRead] at answered
      cases accepted : Options.ofParts (present (chosen table "sectionOrder" "section_order"))
          (present (lenientRanks (chosen table "lifecycleOrder" "lifecycle_order"))) with
      | ok options => exact ⟨options, known, rfl⟩
      | error refusal =>
          rw [accepted] at answered
          cases answered
          cases faultless

end Answered

theorem Response.errors_ofPlan (path : String) (text : Text) (plan : Plan) :
    (ofPlan path text plan).errors = plan.errors := rfl

/-- A request with a text that can be parsed, and without a configuration file beside it, is answered
without errors exactly when none of its options is double and they are accepted with the ranks that
it takes them for.  The plan is then made with these options.  They are the accepted ones wherever the
options are accepted as they stand, and the options as they stand unless a rank is given as a flag, a
float or a text. -/
theorem answer_accepts_options (parser : Parser) (tree : FileTree) (root : Option Path)
    (payload table : Table) (path text : String) (error : ReadError)
    (pathGiven : payload.get? "path" = some (.string path))
    (textGiven : payload.get? "text" = some (.string text))
    (optionsGiven : payload.get? "options" = some (.table table))
    (unreadable : tree.readText (Config.filePath root none) = .ok (.error error))
    (parsed : ¬HasFaultyTree parser path text.toList) :
    ((∃ response, Answer.ofValue parser tree root (.table payload) = .ok (.response response) ∧
        response.errors = []) ↔
      ¬Doubled table ∧ ∃ options, Options.ofTable (lenient table) = .ok options) ∧
    (¬Doubled table → ∀ options, Options.ofTable (lenient table) = .ok options →
      Answer.ofValue parser tree root (.table payload) = .ok (.response
        (Response.ofPlan path text.toList (planDocument parser options path text.toList)))) ∧
    (¬Doubled table → ∀ options, Options.ofTable table = .ok options →
      Options.ofTable (lenient table) = .ok options) ∧
    (PlainRanks table → lenient table = table) := by
  refine ⟨⟨?_, ?_⟩, ?_, ?_, lenient_of_plainRanks⟩
  · rintro ⟨response, answered, faultless⟩
    exact accepted_of_answer pathGiven textGiven optionsGiven unreadable answered faultless
  · rintro ⟨single, options, accepted⟩
    refine ⟨_, answer_of_accepted pathGiven textGiven optionsGiven unreadable single accepted, ?_⟩
    rw [Response.errors_ofPlan, errors_planDocument_eq_nil parsed]
  · intro single options accepted
    exact answer_of_accepted pathGiven textGiven optionsGiven unreadable single accepted
  · intro single options accepted
    exact ofTable_lenient_of_ofTable single accepted

/-- A request for the fix of the script that is out of order. -/
def swappedPayload (options : Table) : Table :=
  [("path", .string "swapped.ts"), ("text", .string "run()\nconst n = ref()"),
    ("options", .table options)]

theorem not_hasFaultyTree_swapped :
    ¬HasFaultyTree swappedParser "swapped.ts" "run()\nconst n = ref()".toList := by
  rw [← exists_ofDocument_eq_broken_iff]
  rintro ⟨error, broken⟩
  have read : Reading.ofDocument swappedParser "swapped.ts" swappedScript.source =
      .script swappedScript := rfl
  cases read.symm.trans broken

/-- Options under either spelling. -/
def spelledOptions : Table :=
  [("sectionOrder", .list [.string "functions"]),
    ("lifecycle_order", .table [("onMounted", .int 5)])]

theorem answer_accepts_spelledOptions :
    ¬Doubled spelledOptions ∧ ∃ options, Options.ofTable spelledOptions = .ok options ∧
      Answer.ofValue swappedParser {} none (.table (swappedPayload spelledOptions)) =
        .ok (.response (Response.ofPlan "swapped.ts" "run()\nconst n = ref()".toList
          (planDocument swappedParser options "swapped.ts" "run()\nconst n = ref()".toList))) := by
  obtain ⟨_, answered, kept, _⟩ := answer_accepts_options swappedParser {} none
    (swappedPayload spelledOptions) spelledOptions "swapped.ts" "run()\nconst n = ref()" .missing
    rfl rfl rfl rfl not_hasFaultyTree_swapped
  have single : ¬Doubled spelledOptions := by decide
  exact ⟨single, _, rfl, answered single _ (kept single _ rfl)⟩

/-- Options with a flag in the place of a rank. -/
def flagOptions : Table :=
  [("lifecycle_order", .table [("onMounted", .bool true)])]

/-- A request takes a flag for a rank that is not accepted as one. -/
theorem answer_takes_flag_for_rank :
    Options.ofTable flagOptions = .error (.rankNotInteger "onMounted") ∧
      ∃ response, Answer.ofValue swappedParser {} none (.table (swappedPayload flagOptions)) =
        .ok (.response response) ∧ response.errors = [] := by
  have single : ¬Doubled flagOptions := by decide
  refine ⟨rfl, _, answer_of_accepted rfl rfl rfl rfl single rfl, ?_⟩
  rw [Response.errors_ofPlan, errors_planDocument_eq_nil not_hasFaultyTree_swapped]

end DeclOrder

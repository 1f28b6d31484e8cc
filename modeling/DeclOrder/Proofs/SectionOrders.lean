import DeclOrder.Proofs.SortedItems
import Mathlib.Data.List.Nodup
import Mathlib.Data.Set.List

/-!
# Orders of sections

Which configured orders of sections are accepted, and what an accepted order makes of the items.
The entries of an order determine it, and a list of entries is accepted exactly when it is the list
of entries of an order.  Any other list has a first entry that no order goes on with, and that entry
is the one that is reported.  As an accepted order lists no section twice, every listed section has
a section place of its own, and the sections that are not listed share the place behind all others.
-/

namespace DeclOrder

theorem bind_eq_ok_iff {α β ε : Type} {result : Except ε α} {f : α → Except ε β} {value : β} :
    result.bind f = .ok value ↔ ∃ a, result = .ok a ∧ f a = .ok value := by
  cases result <;> simp [Except.bind]

/-- A fold that fails does so at an entry, behind entries that it has taken. -/
theorem exists_split_of_foldlM_eq_error {α β ε : Type} {f : β → α → Except ε β} {entries : List α}
    {start : β} {error : ε} (failed : entries.foldlM f start = .error error) :
    ∃ before entry behind state, entries = before ++ entry :: behind ∧
      before.foldlM f start = .ok state ∧ f state entry = .error error := by
  induction entries generalizing start with
  | nil => cases failed
  | cons first rest ih =>
      rw [List.foldlM_cons] at failed
      cases step : f start first with
      | error found =>
          rw [step] at failed
          cases failed
          exact ⟨[], first, rest, start, rfl, rfl, step⟩
      | ok next =>
          rw [step] at failed
          obtain ⟨before, entry, behind, state, rfl, taken, refused⟩ := ih failed
          refine ⟨first :: before, entry, behind, state, rfl, ?_, refused⟩
          rw [List.foldlM_cons, step]
          exact taken

namespace Section

/-- The entry that lists a section. -/
def entry (tag : Section) : Value := .string tag.name

theorem name_injective : Function.Injective name := by
  intro first second same
  have found := congrArg ofName? same
  rwa [ofName?_name, ofName?_name, Option.some.injEq] at found

theorem entry_injective : Function.Injective entry :=
  fun _ _ same => name_injective (Value.string.inj same)

theorem mem_names_iff {name : String} :
    name ∈ all.map Section.name ↔ ∃ tag : Section, tag.name = name := by
  rw [List.mem_map]
  exact ⟨fun ⟨tag, _, same⟩ => ⟨tag, same⟩, fun ⟨tag, same⟩ => ⟨tag, mem_all tag, same⟩⟩

theorem ofName?_eq_none_iff {name : String} :
    ofName? name = none ↔ name ∉ all.map Section.name := by
  simp [ofName?]

end Section

namespace SectionOrder

/-- The entries that list an order. -/
def entries (order : SectionOrder) : List Value :=
  order.sections.map Section.entry

/-- What is wrong with an entry that stands behind the given ones. -/
inductive Refuses (earlier : List Value) : Value → OptionsError → Prop where
  | notString {entry : Value} (other : ∀ name, entry ≠ .string name) :
      Refuses earlier entry (.sectionNotString entry)
  | unknown {name : String} (new : name ∉ Section.all.map Section.name) :
      Refuses earlier (.string name) (.unknownSection name)
  | repeated {name : String} (known : name ∈ Section.all.map Section.name)
      (again : .string name ∈ earlier) : Refuses earlier (.string name) (.repeatedSection name)

/-- What is wrong with the entry at a place of a list. -/
def FaultAt (entries : List Value) (place : Nat) (error : OptionsError) : Prop :=
  ∃ entry, entries[place]? = some entry ∧ Refuses (entries.take place) entry error

/-! ## Entries that are taken -/

theorem mem_entries_iff {order : SectionOrder} {tag : Section} :
    tag.entry ∈ order.entries ↔ tag ∈ order.sections := by
  rw [entries, List.mem_map_of_injective Section.entry_injective]

theorem eq_of_entries_eq {first second : SectionOrder} (same : first.entries = second.entries) :
    first = second := by
  obtain ⟨sections, nodup⟩ := first
  obtain ⟨others, _⟩ := second
  obtain rfl : sections = others := Section.entry_injective.list_map same
  rfl

theorem entries_eq_append_iff {order later : SectionOrder} {tag : Section} :
    later.entries = order.entries ++ [tag.entry] ↔ later.sections = order.sections ++ [tag] := by
  have listed : order.entries ++ [tag.entry] = (order.sections ++ [tag]).map Section.entry := by
    rw [List.map_append]
    rfl
  rw [listed]
  exact Section.entry_injective.list_map.eq_iff

/-- An entry is taken exactly when an order goes on with it. -/
theorem push_eq_ok_iff {order later : SectionOrder} {entry : Value} :
    order.push entry = .ok later ↔ later.entries = order.entries ++ [entry] := by
  by_cases named : ∃ tag : Section, tag.entry = entry
  · obtain ⟨tag, rfl⟩ := named
    rw [entries_eq_append_iff, Section.entry, push, Section.ofName?_name]
    dsimp only
    split
    · rename_i known
      -- The order that would go on lists the section twice.
      constructor
      · intro taken
        cases taken
      · intro goesOn
        have nodup := later.nodup
        rw [goesOn] at nodup
        exact absurd rfl ((List.nodup_append.mp nodup).2.2 tag known tag (by simp))
    · rw [Except.ok.injEq]
      constructor
      · rintro rfl
        rfl
      · intro goesOn
        obtain ⟨sections, _⟩ := later
        cases goesOn
        rfl
  · have refused : order.push entry ≠ .ok later := by
      intro taken
      cases entry with
      | string name =>
          rw [push] at taken
          cases found : Section.ofName? name with
          | none =>
              rw [found] at taken
              cases taken
          | some tag => exact named ⟨tag, congrArg Value.string (Section.name_of_ofName? found)⟩
      | _ => cases taken
    refine ⟨fun taken => absurd taken refused, fun goesOn => ?_⟩
    have member : entry ∈ later.entries := goesOn ▸ List.mem_append_right _ (by simp)
    obtain ⟨tag, _, same⟩ := List.mem_map.mp member
    exact absurd ⟨tag, same⟩ named

/-- The order of the first sections of an order. -/
def take (order : SectionOrder) (count : Nat) : SectionOrder :=
  ⟨order.sections.take count, order.nodup.sublist (List.take_sublist _ _)⟩

theorem entries_take (order : SectionOrder) (count : Nat) :
    (order.take count).entries = order.entries.take count :=
  List.map_take

/-- Entries are taken exactly when an order goes on with them. -/
theorem foldlM_push_eq_ok_iff {list : List Value} {order final : SectionOrder} :
    list.foldlM push order = .ok final ↔ final.entries = order.entries ++ list := by
  induction list generalizing order with
  | nil =>
      rw [List.foldlM_nil, List.append_nil]
      show Except.ok order = Except.ok final ↔ _
      rw [Except.ok.injEq]
      exact ⟨fun same => same ▸ rfl, fun same => (eq_of_entries_eq same).symm⟩
  | cons entry list ih =>
      have step : (entry :: list).foldlM push order = .ok final ↔
          ∃ later, order.push entry = .ok later ∧ list.foldlM push later = .ok final :=
        bind_eq_ok_iff
      simp only [step, push_eq_ok_iff, ih]
      constructor
      · rintro ⟨later, first, rest⟩
        rw [rest, first, List.append_assoc]
        rfl
      · intro goesOn
        have begins :
            (final.take (order.entries.length + 1)).entries = order.entries ++ [entry] := by
          rw [entries_take, goesOn, List.take_length_add_append]
          rfl
        exact ⟨_, begins, by rw [begins, goesOn, List.append_assoc]; rfl⟩

/-- A value is accepted as an order exactly when it lists the entries of that order. -/
theorem ofValue_eq_ok_iff {value : Value} {order : SectionOrder} :
    ofValue value = .ok order ↔ value = .list order.entries := by
  cases value with
  | list entries =>
      rw [ofValue, foldlM_push_eq_ok_iff, Value.list.injEq, eq_comm]
      rfl
  | _ => simp [ofValue]

/-- The lists that are accepted are those of distinct names of sections. -/
theorem exists_entries_eq_iff {list : List Value} :
    (∃ order : SectionOrder, order.entries = list) ↔ ∃ names : List String,
      list = names.map Value.string ∧ names.Nodup ∧
        ∀ name ∈ names, name ∈ Section.all.map Section.name := by
  constructor
  · rintro ⟨order, rfl⟩
    refine ⟨order.sections.map Section.name, ?_,
      List.Nodup.map Section.name_injective order.nodup, ?_⟩
    · rw [List.map_map]
      rfl
    · intro name member
      obtain ⟨tag, _, rfl⟩ := List.mem_map.mp member
      exact List.mem_map_of_mem (Section.mem_all tag)
  · rintro ⟨names, rfl, nodup, known⟩
    have named : names ∈ Set.range (List.map Section.name) := by
      rw [Set.range_list_map]
      exact fun name member => Section.mem_names_iff.mp (known name member)
    obtain ⟨sections, rfl⟩ := named
    refine ⟨⟨sections, List.Nodup.of_map _ nodup⟩, ?_⟩
    rw [entries, List.map_map]
    rfl

/-! ## Entries that are refused -/

theorem push_eq_error_iff {order : SectionOrder} {entry : Value} {error : OptionsError} :
    order.push entry = .error error ↔ Refuses order.entries entry error := by
  constructor
  · intro failed
    cases entry with
    | string name =>
        rw [push] at failed
        cases found : Section.ofName? name with
        | none =>
            rw [found] at failed
            cases failed
            exact .unknown (Section.ofName?_eq_none_iff.mp found)
        | some tag =>
            obtain rfl := Section.name_of_ofName? found
            rw [found] at failed
            dsimp only at failed
            split at failed
            · rename_i again
              cases failed
              exact .repeated (Section.mem_names_iff.mpr ⟨tag, rfl⟩) (mem_entries_iff.mpr again)
            · cases failed
    | _ =>
        cases failed
        exact .notString fun name same => by cases same
  · intro refused
    cases refused with
    | notString other =>
        cases entry with
        | string name => exact absurd rfl (other name)
        | _ => rfl
    | unknown new => rw [push, Section.ofName?_eq_none_iff.mpr new]
    | repeated known again =>
        obtain ⟨tag, rfl⟩ := Section.mem_names_iff.mp known
        rw [push, Section.ofName?_name]
        exact dif_pos (mem_entries_iff.mp again)

namespace Refuses

/-- There is only one thing wrong with an entry. -/
theorem unique {earlier : List Value} {entry : Value} {first second : OptionsError}
    (refused : Refuses earlier entry first) (again : Refuses earlier entry second) :
    first = second := by
  cases refused with
  | notString other =>
      cases again with
      | notString => rfl
      | unknown => exact absurd rfl (other _)
      | repeated => exact absurd rfl (other _)
  | unknown new =>
      cases again with
      | notString other => exact absurd rfl (other _)
      | unknown => rfl
      | repeated known => exact absurd known new
  | repeated known =>
      cases again with
      | notString other => exact absurd rfl (other _)
      | unknown new => exact absurd known new
      | repeated => rfl

/-- No entry of an order is refused. -/
theorem not_of_entries_eq {order : SectionOrder} {before behind : List Value} {entry : Value}
    {error : OptionsError} (listed : order.entries = before ++ entry :: behind) :
    ¬Refuses before entry error := by
  intro refused
  have member : entry ∈ order.entries := by simp [listed]
  obtain ⟨tag, _, rfl⟩ := List.mem_map.mp member
  cases refused with
  | notString other => exact other tag.name rfl
  | unknown new => exact new (Section.mem_names_iff.mpr ⟨tag, rfl⟩)
  | repeated known again =>
      have nodup : order.entries.Nodup := List.Nodup.map Section.entry_injective order.nodup
      rw [listed] at nodup
      exact (List.nodup_append.mp nodup).2.2 _ again _ List.mem_cons_self rfl

end Refuses

theorem FaultAt.exists_split {list : List Value} {place : Nat} {error : OptionsError}
    (fault : FaultAt list place error) :
    ∃ entry, list = list.take place ++ entry :: list.drop (place + 1) ∧
      Refuses (list.take place) entry error := by
  obtain ⟨entry, found, refused⟩ := fault
  obtain ⟨inside, rfl⟩ := List.getElem?_eq_some_iff.mp found
  exact ⟨_, by rw [← List.drop_eq_getElem_cons inside, List.take_append_drop], refused⟩

/-- A list of entries that is refused is refused for its first fault. -/
theorem exists_faultAt_of_ofValue {list : List Value} {error : OptionsError}
    (failed : ofValue (.list list) = .error error) :
    ∃ place, FaultAt list place error ∧
      ∀ earlier < place, ∀ other, ¬FaultAt list earlier other := by
  obtain ⟨before, entry, behind, order, rfl, taken, refused⟩ :=
    exists_split_of_foldlM_eq_error failed
  have listed : order.entries = before := foldlM_push_eq_ok_iff.mp taken
  refine ⟨before.length, ⟨entry, by simp, ?_⟩, ?_⟩
  · rw [List.take_left, ← listed]
    exact push_eq_error_iff.mp refused
  · rintro earlier less other ⟨first, found, wrong⟩
    rw [List.getElem?_append_left less] at found
    rw [List.take_append_of_le_length (Nat.le_of_lt less)] at wrong
    obtain ⟨_, split, wrong⟩ := FaultAt.exists_split ⟨first, found, wrong⟩
    exact Refuses.not_of_entries_eq (listed.trans split) wrong

/-- A list of entries is refused for its first fault, and only then. -/
theorem ofValue_list_eq_error_iff {list : List Value} {error : OptionsError} :
    ofValue (.list list) = .error error ↔
      ∃ place, FaultAt list place error ∧
        ∀ earlier < place, ∀ other, ¬FaultAt list earlier other := by
  refine ⟨exists_faultAt_of_ofValue, ?_⟩
  rintro ⟨place, fault, first⟩
  cases result : ofValue (.list list) with
  | ok order =>
      obtain rfl := Value.list.inj (ofValue_eq_ok_iff.mp result)
      obtain ⟨_, split, refused⟩ := fault.exists_split
      exact absurd refused (Refuses.not_of_entries_eq split)
  | error found =>
      obtain ⟨other, otherFault, otherFirst⟩ := exists_faultAt_of_ofValue result
      have same : place = other := by
        rcases Nat.lt_trichotomy place other with before | same | behind
        · exact absurd fault (otherFirst place before error)
        · exact same
        · exact absurd otherFault (first other behind found)
      subst same
      obtain ⟨entry, here, refused⟩ := fault
      obtain ⟨_, there, again⟩ := otherFault
      cases here.symm.trans there
      rw [again.unique refused]

/-! ## The places of sections -/

/-- Only sections that are not listed share their place with other sections. -/
theorem rank_eq_rank_iff {order : SectionOrder} {first second : Section} :
    order.rank first = order.rank second ↔
      first = second ∨ first ∉ order.sections ∧ second ∉ order.sections := by
  by_cases listed : first ∈ order.sections
  · rw [rank, rank, List.idxOf_inj listed]
    simp [listed]
  · have behind : order.rank first = order.sections.length := List.idxOf_eq_length_iff.mpr listed
    rw [behind, eq_comm, rank, List.idxOf_eq_length_iff]
    constructor
    · intro other
      exact .inr ⟨listed, other⟩
    · rintro (rfl | ⟨_, other⟩)
      · exact listed
      · exact other

/-- A section has the place at which it is listed. -/
theorem rank_of_getElem? {order : SectionOrder} {place : Nat} {tag : Section}
    (listed : order.sections[place]? = some tag) : order.rank tag = place := by
  obtain ⟨inside, rfl⟩ := List.getElem?_eq_some_iff.mp listed
  exact order.nodup.idxOf_getElem place inside

theorem rank_lt_rank {order : SectionOrder} {first second : Section}
    (listed : first ∈ order.sections) (other : second ∉ order.sections) :
    order.rank first < order.rank second := by
  have behind : order.rank second = order.sections.length := List.idxOf_eq_length_iff.mpr other
  rw [behind]
  exact (rank_lt_length_iff order first).mpr listed

/-- Which orders of sections are accepted.  A value is accepted as an order exactly when it lists
the names of that order, and the lists that are accepted are those of distinct names of sections.
Any other value is refused, a list for the first of its entries that is no name, no name of a
section, or the name of a section that is listed before.  So two items have the same section place
exactly when they have the same section or neither of their sections is listed; the place of a
listed section is where it is listed, before that of every section that is not listed. -/
theorem ofValue_accepts_distinct_names :
    (∀ (value : Value) (order : SectionOrder),
      ofValue value = .ok order ↔ value = .list order.entries) ∧
    (∀ value : Value, (∃ order, ofValue value = .ok order) ↔ ∃ names : List String,
      value = .list (names.map Value.string) ∧ names.Nodup ∧
        ∀ name ∈ names, name ∈ Section.all.map Section.name) ∧
    (∀ value : Value, (∀ list, value ≠ .list list) →
      ofValue value = .error (.sectionsNotList value)) ∧
    (∀ (list : List Value) (error : OptionsError), ofValue (.list list) = .error error ↔
      ∃ place, FaultAt list place error ∧
        ∀ earlier < place, ∀ other, ¬FaultAt list earlier other) ∧
    ∀ (options : Options) (source : Text) (first second : Statement) (i j : Int) (a b : Item),
      Item.ofStatement? options source first i = some a →
      Item.ofStatement? options source second j = some b →
        (a.primary = b.primary ↔ a.tag = b.tag ∨
          a.tag ∉ options.sections.sections ∧ b.tag ∉ options.sections.sections) ∧
        (a.tag ∈ options.sections.sections → b.tag ∉ options.sections.sections →
          a.primary < b.primary) ∧
        ∀ place : Nat, options.sections.sections[place]? = some a.tag → a.primary = place := by
  refine ⟨fun value order => ofValue_eq_ok_iff, fun value => ?_, fun value other => ?_,
    fun list error => ofValue_list_eq_error_iff, ?_⟩
  · simp only [ofValue_eq_ok_iff]
    constructor
    · rintro ⟨order, rfl⟩
      obtain ⟨names, listed, distinct⟩ := exists_entries_eq_iff.mp ⟨order, rfl⟩
      exact ⟨names, congrArg Value.list listed, distinct⟩
    · rintro ⟨names, rfl, distinct⟩
      obtain ⟨order, listed⟩ := exists_entries_eq_iff.mpr ⟨names, rfl, distinct⟩
      exact ⟨order, congrArg Value.list listed.symm⟩
  · cases value with
    | list list => exact absurd rfl (other list)
    | _ => rfl
  · intro options source first second i j a b firstMade secondMade
    rw [(Item.keys_of_ofStatement?_eq_some firstMade).1,
      (Item.keys_of_ofStatement?_eq_some secondMade).1]
    refine ⟨?_, fun listed other => ?_, fun place listed => ?_⟩
    · rw [Int.ofNat_inj]
      exact rank_eq_rank_iff
    · exact Int.ofNat_lt.mpr (rank_lt_rank listed other)
    · rw [rank_of_getElem? listed]

/-- An order that lists the watchers and the types. -/
def watchersFirst : SectionOrder := ⟨[.watchers, .type], by decide⟩

/-- Entries that list the types twice, and behind them something that is no name. -/
def repeatedEntries : List Value :=
  [.string "watchers", .string "type", .string "type", .int 1]

theorem ofValue_accepts_distinct_names_watchersFirst :
    ofValue (.list [.string "watchers", .string "type"]) = .ok watchersFirst ∧
      ofValue (.string "type") = .error (.sectionsNotList (.string "type")) ∧
      (∃ place, FaultAt repeatedEntries place (.repeatedSection "type") ∧
        ∀ earlier < place, ∀ other, ¬FaultAt repeatedEntries earlier other) ∧
      ∃ a b : Item,
        Item.ofStatement? { sections := watchersFirst } []
          { kind := .type, start := 0, stop := 0 } 0 = some a ∧
        Item.ofStatement? { sections := watchersFirst } []
          { kind := .function, start := 0, stop := 0 } 1 = some b ∧
        a.primary = 1 ∧ a.primary < b.primary := by
  obtain ⟨accepted, _, notList, refused, places⟩ := ofValue_accepts_distinct_names
  obtain ⟨_, before, listed⟩ := places { sections := watchersFirst } []
    { kind := .type, start := 0, stop := 0 } { kind := .function, start := 0, stop := 0 } 0 1
    _ _ rfl rfl
  refine ⟨(accepted _ watchersFirst).mpr rfl, notList _ ?_, (refused _ _).mp rfl,
    _, _, rfl, rfl, listed 1 rfl, before (by decide) (by decide)⟩
  intro list same
  cases same

end SectionOrder

end DeclOrder

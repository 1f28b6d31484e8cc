import DeclOrder.Classification
import DeclOrder.Value

/-!
# Options

The order of the sections and the ranks of the lifecycle hooks can be configured.  An order that
is accepted lists known sections, none of them twice; ranks are integers.  Either option goes by
two spellings.
-/

namespace DeclOrder

inductive OptionsError where
  | optionsNotTable (found : Value)
  | unknownKeys (keys : List String)
  | sectionsNotList (found : Value)
  | sectionNotString (found : Value)
  | unknownSection (name : String)
  | repeatedSection (name : String)
  | ranksNotTable (found : Value)
  | rankNotInteger (hook : String)

def optionKeys : List String :=
  ["section_order", "sectionOrder", "lifecycle_order", "lifecycleOrder"]

def commaSeparated (names : List String) : String :=
  String.intercalate ", " names

def OptionsError.message : OptionsError → String
  | .optionsNotTable found =>
    "Invalid options: Expected an object, but received " ++ found.typeName ++ "."
  | .unknownKeys keys =>
    "Invalid options: unknown option(s) " ++ commaSeparated keys ++
      ". Valid options: " ++ commaSeparated optionKeys
  | .sectionsNotList found =>
    "Invalid \"sectionOrder\" option: Expected an array, but received " ++ found.typeName ++ "."
  | .sectionNotString found =>
    "Invalid \"sectionOrder\" option: Expected string values, but found " ++ found.typeName ++ "."
  | .unknownSection name =>
    "Invalid \"sectionOrder\" option: \"" ++ name ++ "\" is not a recognized section. " ++
      "Valid sections: " ++ commaSeparated (Section.all.map Section.name)
  | .repeatedSection name =>
    "Invalid \"sectionOrder\" option: \"" ++ name ++ "\" is listed more than once."
  | .ranksNotTable found =>
    "Invalid \"lifecycleOrder\" option: Expected an object, but received " ++ found.typeName ++ "."
  | .rankNotInteger hook =>
    "Invalid \"lifecycleOrder\" option: \"" ++ hook ++ "\" must map to an integer rank."

/-- An order of sections: a list without repetition. -/
structure SectionOrder where
  sections : List Section
  nodup : sections.Nodup

namespace SectionOrder

def empty : SectionOrder := ⟨[], List.nodup_nil⟩

/-- The order in which the sections are declared. -/
def standard : SectionOrder := ⟨Section.all, Section.nodup_all⟩

theorem nodup_append_new {sections : List Section} (nodup : sections.Nodup) {tag : Section}
    (new : tag ∉ sections) : (sections ++ [tag]).Nodup :=
  List.nodup_append.mpr ⟨nodup, List.pairwise_singleton .., fun a member b isTag => by
    rintro rfl
    exact new (List.mem_singleton.mp isTag ▸ member)⟩

def push (order : SectionOrder) (entry : Value) : Except OptionsError SectionOrder :=
  match entry with
  | .string name =>
    match Section.ofName? name with
    | none => .error (.unknownSection name)
    | some tag =>
      if known : tag ∈ order.sections then .error (.repeatedSection name)
      else .ok ⟨order.sections ++ [tag], nodup_append_new order.nodup known⟩
  | other => .error (.sectionNotString other)

def ofValue (value : Value) : Except OptionsError SectionOrder :=
  match value with
  | .list entries => entries.foldlM push empty
  | other => .error (.sectionsNotList other)

/-- The place of a section in an order; sections that are not listed come behind all others. -/
def rank (order : SectionOrder) (tag : Section) : Nat :=
  order.sections.idxOf tag

theorem rank_lt_length_iff (order : SectionOrder) (tag : Section) :
    order.rank tag < order.sections.length ↔ tag ∈ order.sections :=
  List.idxOf_lt_length_iff

end SectionOrder

structure HookRanks where
  ranks : List (String × Int)
  deriving DecidableEq, Repr

namespace HookRanks

def standard : HookRanks :=
  ⟨[("onBeforeMount", 0), ("onMounted", 1), ("onBeforeUpdate", 2), ("onUpdated", 3),
    ("onBeforeUnmount", 4), ("onUnmounted", 5), ("onErrorCaptured", 6), ("onRenderTracked", 7),
    ("onRenderTriggered", 8), ("onActivated", 9), ("onDeactivated", 10), ("onServerPrefetch", 11)]⟩

def entryOfValue (entry : String × Value) : Except OptionsError (String × Int) :=
  match entry.2 with
  | .int rank => .ok (entry.1, rank)
  | _ => .error (.rankNotInteger entry.1)

def ofValue (value : Value) : Except OptionsError HookRanks :=
  match value with
  | .table entries => HookRanks.mk <$> entries.mapM entryOfValue
  | other => .error (.ranksNotTable other)

/-- The rank of a call: that of its name if it has one, else the number of ranked hooks. -/
def rank (hooks : HookRanks) (hook : Option String) : Int :=
  match hook.bind (hooks.ranks.lookup ·) with
  | some rank => rank
  | none => hooks.ranks.length

end HookRanks

/-- Everything that the order of a script depends on. -/
structure Options where
  sections : SectionOrder := SectionOrder.standard
  hooks : HookRanks := HookRanks.standard
  tables : CalleeTables := {}

namespace Options

/-- The first key, of the given ones, that has a value other than null. -/
def firstPresent? (table : Table) (keys : List String) : Option Value :=
  keys.findSome? fun key => (table.get? key).filter fun value => !value.isNull

/-- Reads options from a table; what is missing or null keeps its default. -/
def ofTable (table : Table) : Except OptionsError Options :=
  let unknown := table.keys.filter fun key => key ∉ optionKeys
  if unknown.isEmpty then do
    let sections ← match firstPresent? table ["section_order", "sectionOrder"] with
      | none => pure SectionOrder.standard
      | some value => SectionOrder.ofValue value
    let hooks ← match firstPresent? table ["lifecycle_order", "lifecycleOrder"] with
      | none => pure HookRanks.standard
      | some value => HookRanks.ofValue value
    return { sections, hooks }
  else .error (.unknownKeys (unknown.mergeSort fun a b => a ≤ b))

/-- Reads options from a value; null stands for the defaults. -/
def ofValue (value : Value) : Except OptionsError Options :=
  match value with
  | .null => .ok {}
  | .table entries => ofTable entries
  | other => .error (.optionsNotTable other)

end Options

end DeclOrder

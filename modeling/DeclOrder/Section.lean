/-!
# Sections

The declarations of a setup script are sorted into thirteen sections.  The three sections of
compiler macros are displayed as one group; every other section is a group of its own.
-/

namespace DeclOrder

inductive Section where
  | type
  | defineProps
  | defineEmits
  | defineOthers
  | classes
  | plainVars
  | reactiveVars
  | composables
  | computed
  | watchers
  | lifecycle
  | unknowns
  | functions
  deriving DecidableEq, Repr

namespace Section

/-- All sections in their default order. -/
def all : List Section :=
  [.type, .defineProps, .defineEmits, .defineOthers, .classes, .plainVars, .reactiveVars,
    .composables, .computed, .watchers, .lifecycle, .unknowns, .functions]

def name : Section → String
  | .type => "type"
  | .defineProps => "defineProps"
  | .defineEmits => "defineEmits"
  | .defineOthers => "defineOthers"
  | .classes => "class"
  | .plainVars => "plainVars"
  | .reactiveVars => "reactiveVars"
  | .composables => "composables"
  | .computed => "computed"
  | .watchers => "watchers"
  | .lifecycle => "lifecycle"
  | .unknowns => "unknowns"
  | .functions => "functions"

def ofName? (name : String) : Option Section :=
  all.find? fun tag => tag.name = name

theorem mem_all (tag : Section) : tag ∈ all := by
  cases tag <;> decide

theorem nodup_all : all.Nodup := by
  decide

@[simp] theorem ofName?_name (tag : Section) : ofName? tag.name = some tag := by
  cases tag <;> decide

theorem name_of_ofName? {name : String} {tag : Section} (found : ofName? name = some tag) :
    tag.name = name := by
  simpa using List.find?_some found

end Section

/-- What is displayed together: the macros as one group, any other section by itself. -/
inductive Group where
  | define
  | alone (tag : Section)
  deriving DecidableEq, Repr

namespace Group

def name : Group → String
  | .define => "define"
  | .alone tag => tag.name

/-- Whether the declarations of a group are copied as they stand. -/
def isVerbatim (group : Group) : Bool :=
  group = .alone .unknowns

end Group

def Section.group : Section → Group
  | .defineProps | .defineEmits | .defineOthers => .define
  | tag => .alone tag

end DeclOrder

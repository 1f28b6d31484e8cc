import DeclOrder.Section
import DeclOrder.Statement

/-!
# Classification

The section of a statement follows from its kind and from the function it calls.  Names of
functions are looked up in tables; the first rule that knows a name decides.
-/

namespace DeclOrder

/-- The names by which calls are recognised. -/
structure CalleeTables where
  defineOthers : List String := ["defineModel", "defineExpose", "defineOptions", "defineSlots"]
  reactive : List String :=
    ["ref", "reactive", "shallowRef", "shallowReactive", "shallowReadonly", "markRaw"]
  hooks : List String :=
    ["onBeforeMount", "onMounted", "onBeforeUpdate", "onUpdated", "onBeforeUnmount", "onUnmounted",
      "onErrorCaptured", "onRenderTracked", "onRenderTriggered", "onActivated", "onDeactivated",
      "onServerPrefetch"]
  composableStart : String := "use"
  deriving Repr

namespace CalleeTables

/-- The section of a call by the name of the function, if the name is recognised. -/
def resolve (tables : CalleeTables) (name : String) : Option Section :=
  if name = "defineProps" then some .defineProps
  else if name = "defineEmits" then some .defineEmits
  else if name ∈ tables.defineOthers then some .defineOthers
  else if name ∈ tables.reactive then some .reactiveVars
  else if tables.composableStart.toList.isPrefixOf name.toList then some .composables
  else if name = "computed" then some .computed
  else if name = "watch" then some .watchers
  else if name ∈ tables.hooks then some .lifecycle
  else none

/-- The section of a call expression; a call without a name has none. -/
def callSection (tables : CalleeTables) (expression : Expression) : Option Section :=
  match expression.calleeOfCall? with
  | none => none
  | some name => if name = "" then none else tables.resolve name

end CalleeTables

namespace Statement

def variableSection (tables : CalleeTables) (initializer : Option Expression) : Section :=
  match initializer.bind Expression.uncast with
  | none => .unknowns
  | some value =>
    if value.kind = .function then .functions
    else (tables.callSection value).getD .plainVars

/-- The section of a statement; imports have none. -/
def section? (tables : CalleeTables) (statement : Statement) : Option Section :=
  match statement.kind with
  | .importing => none
  | .classes => some .classes
  | .type => some .type
  | .function => some .functions
  | .variables => some (variableSection tables statement.initializer)
  | .expression => some ((statement.expression.bind tables.callSection).getD .unknowns)
  | .other => some .unknowns

/-- The name of the function that a statement calls, under type casts for a variable. -/
def hook? (statement : Statement) : Option String :=
  match statement.kind with
  | .variables =>
    (statement.initializer.bind Expression.uncast).bind Expression.calleeOfCall?
  | .expression => statement.expression.bind Expression.calleeOfCall?
  | _ => none

end Statement

end DeclOrder

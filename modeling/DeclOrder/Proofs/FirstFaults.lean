import DeclOrder.Proofs.EmbeddedBodies

/-!
# The first fault of a tree

A parser marks the nodes that hold a fault, so that a search for the first one need not look below
the others.  Where the marks are right the search passes over no fault: it finds the first faulty
node of the preorder, and a marked tree has one, so that a syntax error never points at the tree as
a whole unless that is the fault.
-/

namespace DeclOrder.Node

/-- A tree is marked rightly: a node is marked exactly when it, or a node below it, is faulty. -/
def Marked (root : Node) : Prop :=
  ∀ node ∈ root.preorder, (node.hasError = true ↔ ∃ fault ∈ node.preorder, fault.isFaulty = true)

instance (root : Node) : Decidable root.Marked :=
  inferInstanceAs (Decidable (∀ node ∈ root.preorder,
    (node.hasError = true ↔ ∃ fault ∈ node.preorder, fault.isFaulty = true)))

namespace Marked

variable {root : Node} (marked : root.Marked)

include marked

theorem child {node : Node} (member : node ∈ root.children) : node.Marked := by
  intro other found
  apply marked
  rw [preorder_eq]
  exact List.mem_cons_of_mem _ (preorder_subset_of_mem member found)

theorem hasError_iff : root.hasError = true ↔ ∃ fault ∈ root.preorder, fault.isFaulty = true :=
  marked root (by simp [preorder_eq])

/-- What is passed over holds no fault. -/
theorem find?_preorder_of_passed (passed : (root.hasError || root.isMissing) = false) :
    root.preorder.find? isFaulty = none := by
  rw [List.find?_eq_none]
  intro node member faulty
  have mark := marked.hasError_iff.mpr ⟨node, member, faulty⟩
  rw [mark] at passed
  cases passed

end Marked

mutual

/-- In a tree that is marked rightly the search finds the first faulty node of the preorder. -/
theorem firstFault?_eq_find? {root : Node} (marked : root.Marked) :
    root.firstFault? = root.preorder.find? isFaulty := by
  cases root with
  | mk kind start stop isNamed isMissing hasError field children =>
      have below := firstFaultAmong?_eq_find? fun node (member : node ∈ children) =>
        marked.child member
      rw [preorder_eq]
      cases faulty : isFaulty
          ⟨kind, start, stop, isNamed, isMissing, hasError, field, children⟩ with
      | true => rw [firstFault?_of_isFaulty faulty, List.find?_cons_of_pos faulty]
      | false =>
          rw [firstFault?_of_sound faulty, List.find?_cons_of_neg (Bool.eq_false_iff.mp faulty)]
          exact below

theorem firstFaultAmong?_eq_find? {nodes : List Node} (marked : ∀ node ∈ nodes, node.Marked) :
    firstFaultAmong? nodes = (preorderAmong nodes).find? isFaulty := by
  cases nodes with
  | nil => rfl
  | cons child rest =>
      have here := firstFault?_eq_find? (marked child List.mem_cons_self)
      have later := firstFaultAmong?_eq_find? fun node member =>
        marked node (List.mem_cons_of_mem _ member)
      rw [firstFaultAmong?, preorderAmong, List.find?_append, here, later]
      split
      · cases child.preorder.find? isFaulty <;> rfl
      · rename_i passed
        rw [(marked child List.mem_cons_self).find?_preorder_of_passed
          (Bool.eq_false_iff.mpr passed), Option.none_or]

end

/-- In a tree that is marked rightly the first fault is the first faulty node in preorder, and there
is none exactly when no node is faulty.  So a tree that is refused has a first fault, and the syntax
error is the one that points at it. -/
theorem firstFault?_earliest {root : Node} (marked : root.Marked) :
    (∀ fault, root.firstFault? = some fault ↔
      fault.isFaulty = true ∧ ∃ before behind, root.preorder = before ++ fault :: behind ∧
        ∀ node ∈ before, node.isFaulty = false) ∧
    (root.firstFault? = none ↔ ∀ node ∈ root.preorder, node.isFaulty = false) ∧
    (root.hasError = true → ∃ fault, root.firstFault? = some fault ∧
      ∀ (body : ScriptBody) (path : String),
        body.statements path root = .error (body.syntaxError path fault)) := by
  have search := firstFault?_eq_find? marked
  refine ⟨fun fault => ?_, ?_, fun refused => ?_⟩
  · simp [search, List.find?_eq_some_iff_append]
  · simp [search]
  · obtain ⟨node, member, faulty⟩ := marked.hasError_iff.mp refused
    obtain ⟨fault, found⟩ := Option.isSome_iff_exists.mp
      (List.find?_isSome.mpr ⟨node, member, faulty⟩)
    have itself := firstFault?_of_isFaulty (List.find?_some found)
    refine ⟨fault, search.trans found, fun body path => ?_⟩
    rw [ScriptBody.statements, if_pos refused, ScriptBody.syntaxError, ScriptBody.syntaxError,
      search, found, itself]
    rfl

/-- The bracket that is missing behind an unfinished call. -/
def missingBracket : Node where
  kind := ")"
  start := ⟨5, 0, 5⟩
  stop := ⟨5, 0, 5⟩
  isNamed := false
  isMissing := true
  hasError := true

/-- A statement without a fault, one with a missing bracket two levels below it, and an error at the
top behind them. -/
def unfinishedCalls : Node where
  kind := "program"
  start := ⟨0, 0, 0⟩
  stop := ⟨8, 1, 2⟩
  hasError := true
  children := [
    { kind := "expression_statement", start := ⟨0, 0, 0⟩, stop := ⟨2, 0, 2⟩
      children := [{ kind := "identifier", start := ⟨0, 0, 0⟩, stop := ⟨1, 0, 1⟩ }] },
    { kind := "expression_statement", start := ⟨3, 0, 3⟩, stop := ⟨5, 0, 5⟩, hasError := true
      children := [
        { kind := "call_expression", start := ⟨3, 0, 3⟩, stop := ⟨5, 0, 5⟩, hasError := true
          children := [missingBracket] }] },
    { kind := "ERROR", start := ⟨6, 1, 0⟩, stop := ⟨8, 1, 2⟩, hasError := true }]

theorem firstFault?_earliest_unfinishedCalls :
    unfinishedCalls.Marked ∧ unfinishedCalls.hasError = true ∧
      unfinishedCalls.firstFault? = some missingBracket ∧
      ∃ fault, unfinishedCalls.firstFault? = some fault ∧
        ∀ (body : ScriptBody) (path : String),
          body.statements path unfinishedCalls = .error (body.syntaxError path fault) := by
  have marked : unfinishedCalls.Marked := by decide
  obtain ⟨earliest, _, refused⟩ := firstFault?_earliest marked
  refine ⟨marked, rfl, (earliest missingBracket).mpr ⟨rfl, ?_⟩, refused rfl⟩
  exact ⟨unfinishedCalls.preorder.take 5, unfinishedCalls.preorder.drop 6, rfl, by decide⟩

end DeclOrder.Node

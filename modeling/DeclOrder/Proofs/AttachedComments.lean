import DeclOrder.Proofs.EmbeddedBodies

/-!
# Comments and the statements they belong to

Gathering gives every node of a script one role: it is the body of a statement, a comment before
one, the comment behind one, or a comment that no statement follows.  Read statement by statement,
what was gathered is the list of the nodes again, and the role of a node depends on its neighbours
alone: a comment stands behind a statement exactly when the statement is the node right before it
and ends on the line where the comment starts.
-/

namespace DeclOrder

/-- What a node of a script is gathered as. -/
inductive Role where
  | leading
  | body
  | trailing
  | remaining
  deriving DecidableEq, Repr

/-- Where comments stand, all in the same role. -/
def Role.ofComments (role : Role) (comments : List Comment) : List (Role × Stretch) :=
  comments.map fun comment => (role, comment.stretch)

@[simp] theorem Role.map_fst_ofComments (role : Role) (comments : List Comment) :
    (role.ofComments comments).map Prod.fst = comments.map fun _ => role :=
  List.map_map

@[simp] theorem Role.map_snd_ofComments (role : Role) (comments : List Comment) :
    (role.ofComments comments).map Prod.snd = comments.map Comment.stretch :=
  List.map_map

/-- The pieces of a statement with their roles. -/
def Statement.reading (statement : Statement) : List (Role × Stretch) :=
  Role.leading.ofComments statement.leading ++
    (.body, statement.body) :: Role.trailing.ofComments statement.trailing.toList

theorem Statement.map_snd_reading (statement : Statement) :
    statement.reading.map Prod.snd = statement.pieces := by
  simp [reading, pieces]

namespace Gathering

/-- What was gathered, read statement by statement, and behind it the comments that remain. -/
def reading (gathering : Gathering) : List (Role × Stretch) :=
  gathering.statements.flatMap Statement.reading ++ Role.remaining.ofComments gathering.remaining

/-- The roles of what was gathered. -/
def roles (gathering : Gathering) : List Role :=
  gathering.reading.map Prod.fst

theorem roles_push (gathering : Gathering) (statement : Statement) :
    (gathering.push statement).roles = statement.reading.map Prod.fst ++ gathering.roles := by
  simp only [roles, reading, push, List.flatMap_cons, List.append_assoc, List.map_append]

theorem map_snd_reading (gathering : Gathering) :
    gathering.reading.map Prod.snd =
      gathering.statements.flatMap Statement.pieces ++
        gathering.remaining.map Comment.stretch := by
  rw [reading, List.map_append, List.map_flatMap, Role.map_snd_ofComments,
    List.flatMap_congr fun statement _ => statement.map_snd_reading]

end Gathering

namespace ScriptBody

/-! ## The role of a node among its neighbours -/

/-- A comment stands behind the node before it, if that is a statement on the same line. -/
def trailsPrevious (previous : Option Node) (node : Node) : Bool :=
  previous.any fun statement => !isComment statement && trails node statement

/-- What a comment waits for in front of the given nodes. -/
def waitingRole (behind : List Node) : Role :=
  if behind.all isComment then .remaining else .leading

/-- The role of a node between the node before it and the nodes behind it. -/
def roleOf (previous : Option Node) (node : Node) (behind : List Node) : Role :=
  if isComment node then
    if trailsPrevious previous node then .trailing else waitingRole behind
  else .body

/-- The roles of some nodes behind another one. -/
def rolesFrom (previous : Option Node) : List Node → List Role
  | [] => []
  | node :: behind => roleOf previous node behind :: rolesFrom (some node) behind

theorem rolesFrom_cons (previous : Option Node) (node : Node) (behind : List Node) :
    rolesFrom previous (node :: behind) =
      roleOf previous node behind :: rolesFrom (some node) behind := rfl

theorem waitingRole_cons_of_comment {node : Node} (comment : isComment node = true)
    (behind : List Node) : waitingRole (node :: behind) = waitingRole behind := by
  simp [waitingRole, comment]

theorem waitingRole_cons_of_statement {node : Node} (statement : ¬isComment node = true)
    (behind : List Node) : waitingRole (node :: behind) = .leading := by
  simp [waitingRole, statement]

theorem roleOf_of_statement (previous : Option Node) {node : Node}
    (statement : ¬isComment node = true) (behind : List Node) :
    roleOf previous node behind = .body :=
  if_neg statement

/-- A node counts for the next one only if the next one is the comment behind it. -/
theorem rolesFrom_of_not_trails {previous : Node} {nodes : List Node}
    (apart : ∀ next ∈ nodes.head?, trailsPrevious (some previous) next = false) :
    rolesFrom (some previous) nodes = rolesFrom none nodes := by
  cases nodes with
  | nil => rfl
  | cons next behind =>
      rw [rolesFrom_cons, rolesFrom_cons, roleOf, roleOf, apart next rfl]
      rfl

theorem not_trailsPrevious_of_comment {previous : Node} (comment : isComment previous = true)
    (node : Node) : trailsPrevious (some previous) node = false := by
  simp [trailsPrevious, comment]

/-- Gathering gives the waiting comments and the nodes their roles. -/
theorem roles_gather (body : ScriptBody) (waiting : List Comment) (nodes : List Node) :
    (body.gather waiting nodes).roles =
      waiting.map (fun _ => waitingRole nodes) ++ rolesFrom none nodes := by
  induction waiting, nodes using gather.induct body with
  | case1 waiting => simp [gather, Gathering.roles, Gathering.reading, rolesFrom, waitingRole]
  | case2 waiting node comment =>
      rw [gather, if_pos comment]
      simp [Gathering.roles, Gathering.reading, rolesFrom, roleOf, comment, waitingRole,
        trailsPrevious]
  | case3 waiting node statement =>
      rw [gather, if_neg statement]
      simp [Gathering.roles, Gathering.reading, Statement.reading, statementOf, rolesFrom, roleOf,
        statement, waitingRole]
  | case4 waiting node next rest comment ih =>
      have later : rolesFrom (some node) (next :: rest) = rolesFrom none (next :: rest) :=
        rolesFrom_of_not_trails fun other _ => not_trailsPrevious_of_comment comment other
      have here : roleOf none node (next :: rest) = waitingRole (next :: rest) := by
        simp [roleOf, comment, trailsPrevious]
      rw [gather, if_pos comment, ih, waitingRole_cons_of_comment comment,
        rolesFrom_cons none node, later, here]
      simp
  | case5 waiting node next rest statement trailing ih =>
      -- The statement takes the comment with it, so the induction goes on behind both.
      have comment : isComment next = true := (Bool.and_eq_true _ _ ▸ trailing).1
      have second : roleOf (some node) next rest = .trailing := by
        simp [roleOf, comment, trailsPrevious, statement, trailing]
      have later : rolesFrom (some next) rest = rolesFrom none rest :=
        rolesFrom_of_not_trails fun other _ => not_trailsPrevious_of_comment comment other
      rw [gather, if_neg statement, if_pos trailing, Gathering.roles_push, ih,
        waitingRole_cons_of_statement statement, rolesFrom_cons none node,
        rolesFrom_cons (some node) next, roleOf_of_statement none statement, second, later]
      simp [Statement.reading, statementOf]
  | case6 waiting node next rest statement apart ih =>
      have later : rolesFrom (some node) (next :: rest) = rolesFrom none (next :: rest) := by
        apply rolesFrom_of_not_trails
        intro other first
        cases first
        simp [trailsPrevious, apart]
      rw [gather, if_neg statement, if_neg apart, Gathering.roles_push, ih,
        waitingRole_cons_of_statement statement, rolesFrom_cons none node,
        roleOf_of_statement none statement, later]
      simp [Statement.reading, statementOf]

theorem getElem?_rolesFrom (previous : Option Node) {nodes : List Node} {place : Nat} {node : Node}
    (found : nodes[place]? = some node) :
    (rolesFrom previous nodes)[place]? =
      some (roleOf (if place = 0 then previous else nodes[place - 1]?) node
        (nodes.drop (place + 1))) := by
  induction nodes generalizing previous place with
  | nil => cases found
  | cons first behind ih =>
      cases place with
      | zero =>
          cases found
          rfl
      | succ place =>
          rw [List.getElem?_cons_succ] at found
          have later := ih (some first) found
          rw [rolesFrom_cons, List.getElem?_cons_succ, later]
          cases place with
          | zero => rfl
          | succ place => rfl

theorem roleOf_eq_body_iff {previous : Option Node} {node : Node} {behind : List Node} :
    roleOf previous node behind = .body ↔ isComment node = false := by
  unfold roleOf waitingRole
  split
  · rename_i comment
    rw [comment]
    split
    · simp
    · split <;> simp
  · rename_i statement
    simpa using statement

theorem roleOf_eq_trailing_iff {previous : Option Node} {node : Node} {behind : List Node} :
    roleOf previous node behind = .trailing ↔
      isComment node = true ∧ ∃ statement, previous = some statement ∧
        isComment statement = false ∧ node.start.row = statement.stop.row := by
  have reduced : roleOf previous node behind = .trailing ↔
      isComment node = true ∧ trailsPrevious previous node = true := by
    unfold roleOf waitingRole
    split
    · rename_i comment
      rw [comment]
      split
      · rename_i trailing
        simp [trailing]
      · rename_i apart
        split <;> simp [apart]
    · rename_i statement
      simp [statement]
  rw [reduced]
  refine and_congr_right fun comment => ?_
  cases previous with
  | none => simp [trailsPrevious]
  | some statement => simp [trailsPrevious, trails, comment]

/-! ## What is gathered from a tree -/

/-- The statements and comments at the top of a tree. -/
def gathered (body : ScriptBody) (root : Node) : Gathering :=
  body.gather [] root.namedChildren

theorem map_snd_reading_gathered (body : ScriptBody) (root : Node) :
    (body.gathered root).reading.map Prod.snd = root.namedChildren.map body.stretchOf := by
  rw [Gathering.map_snd_reading]
  exact body.pieces_gather [] root.namedChildren

theorem roles_gathered (body : ScriptBody) (root : Node) :
    (body.gathered root).roles = rolesFrom none root.namedChildren :=
  body.roles_gather [] root.namedChildren

theorem getElem?_reading_gathered (body : ScriptBody) {root : Node} {place : Nat} {node : Node}
    (found : root.namedChildren[place]? = some node) :
    (body.gathered root).reading[place]? =
      some (roleOf (if place = 0 then none else root.namedChildren[place - 1]?) node
        (root.namedChildren.drop (place + 1)), body.stretchOf node) := by
  have role := getElem?_rolesFrom none found
  have stretch : ((body.gathered root).reading.map Prod.snd)[place]? =
      some (body.stretchOf node) := by
    rw [map_snd_reading_gathered, List.getElem?_map, found, Option.map_some]
  rw [← roles_gathered body root, Gathering.roles, List.getElem?_map] at role
  rw [List.getElem?_map] at stretch
  obtain ⟨entry, here, first⟩ := Option.map_eq_some_iff.mp role
  rw [here, Option.map_some] at stretch
  rw [here, ← first, ← Option.some.inj stretch]

section Ordered

variable {body : ScriptBody} {root : Node}
  (forward : ∀ node ∈ root.namedChildren, node.start.byte ≤ node.stop.byte)
  (apart : root.namedChildren.Pairwise fun a b => a.stop.byte ≤ b.start.byte)

include apart

theorem pieces_apart :
    ((body.gathered root).statements.flatMap Statement.pieces).Pairwise
      fun a b => a.stop ≤ b.start := by
  refine List.Pairwise.sublist (body.pieces_prefix root.namedChildren).sublist ?_
  rw [List.pairwise_map]
  exact apart.imp fun ascending => body.offsetOf_mono ascending

include forward

theorem extent_forward_of_mem_gathered {statement : Statement}
    (member : statement ∈ (body.gathered root).statements) :
    statement.extentStart ≤ statement.extentStop := by
  apply Statement.extent_forward
  · exact (List.pairwise_flatMap.mp (pieces_apart apart)).1 statement member
  · intro piece inPieces
    have gathered : piece ∈ (body.gathered root).statements.flatMap Statement.pieces :=
      List.mem_flatMap.mpr ⟨statement, member, inPieces⟩
    obtain ⟨node, found, rfl⟩ :=
      List.mem_map.mp ((body.pieces_prefix root.namedChildren).subset gathered)
    exact body.offsetOf_mono (forward node found)

end Ordered

/-- Reading the statements of a sound tree, each with the comments before it and the comment behind
it, and then the comments that remain, gives the nodes at the top of the tree in their order.  A
node is the body of a statement exactly when it is no comment, and the comment behind a statement
exactly when it is a comment, the node right before it is a statement, and it starts on the line
where that statement ends.  If the nodes stand one behind the other, so do the extents of the
statements. -/
theorem statements_attach_comments (body : ScriptBody) (path : String) {root : Node}
    (sound : root.hasError = false) :
    body.statements path root = .ok (body.gathered root).statements ∧
      (body.gathered root).reading.map Prod.snd = root.namedChildren.map body.stretchOf ∧
      (∀ place node, root.namedChildren[place]? = some node →
        ∃ role, (body.gathered root).reading[place]? = some (role, body.stretchOf node) ∧
          (role = .body ↔ isComment node = false) ∧
          (role = .trailing ↔ isComment node = true ∧
            ∃ before statement, place = before + 1 ∧
              root.namedChildren[before]? = some statement ∧ isComment statement = false ∧
                node.start.row = statement.stop.row)) ∧
      ((∀ node ∈ root.namedChildren, node.start.byte ≤ node.stop.byte) →
        (root.namedChildren.Pairwise fun a b => a.stop.byte ≤ b.start.byte) →
        (∀ statement ∈ (body.gathered root).statements,
          statement.extentStart ≤ statement.extentStop) ∧
        (body.gathered root).statements.Pairwise fun a b => a.extentStop ≤ b.extentStart) := by
  refine ⟨?_, body.map_snd_reading_gathered root, ?_, ?_⟩
  · rw [statements, sound]
    rfl
  · intro place node found
    refine ⟨_, body.getElem?_reading_gathered found, roleOf_eq_body_iff, ?_⟩
    rw [roleOf_eq_trailing_iff]
    refine and_congr_right fun _ => ?_
    cases place with
    | zero => simp
    | succ before => simp
  · intro forward apart
    exact ⟨fun statement member => extent_forward_of_mem_gathered forward apart member,
      Statement.pairwise_extents (pieces_apart apart)⟩

/-- A body with three comments on its first line, the last of them with an accented letter. -/
def crowdedBody : ScriptBody where
  document := "<script>/* a */ run() /* b */ // é\nstop()\n// end</script>".toList
  start := 8
  stop := 48

/-- The tree of that body. -/
def crowdedTree : Node :=
  let node := fun (kind : String) (start stop row : Nat) =>
    { kind, start := ⟨start, row, 0⟩, stop := ⟨stop, row, 0⟩ : Node }
  { node "program" 0 41 0 with
    children :=
      [node "comment" 0 7 0, node "expression_statement" 8 13 0, node "comment" 14 21 0,
        node "comment" 22 27 0, node "expression_statement" 28 34 1, node "comment" 35 41 2] }

theorem statements_attach_comments_crowded :
    crowdedTree.hasError = false ∧
      (crowdedBody.gathered crowdedTree).reading[2]? = some (.trailing, ⟨22, 29⟩) ∧
      (∀ stretch, (crowdedBody.gathered crowdedTree).reading[3]? ≠ some (.trailing, stretch)) ∧
      ((crowdedBody.gathered crowdedTree).statements.map Statement.extent) =
        [⟨8, 29⟩, ⟨30, 41⟩] ∧
      (crowdedBody.gathered crowdedTree).statements.Pairwise
        fun a b => a.extentStop ≤ b.extentStart := by
  have sound : crowdedTree.hasError = false := rfl
  obtain ⟨_, _, roles, extents⟩ := statements_attach_comments crowdedBody "a.vue" sound
  refine ⟨sound, ?_, ?_, by decide +kernel, (extents (by decide) (by decide)).2⟩
  · obtain ⟨role, found, _, trailing⟩ := roles 2 _ rfl
    rw [found, trailing.mpr ⟨rfl, 1, _, rfl, rfl, rfl, rfl⟩]
    decide +kernel
  · intro stretch isTrailing
    obtain ⟨role, found, _, trailing⟩ := roles 3 _ rfl
    rw [found, Option.some.injEq, Prod.mk.injEq] at isTrailing
    obtain ⟨_, before, statement, place, here, declares, _⟩ := trailing.mp isTrailing.1
    cases place
    cases here
    cases declares

end ScriptBody

end DeclOrder

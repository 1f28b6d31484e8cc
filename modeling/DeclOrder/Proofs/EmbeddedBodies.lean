import DeclOrder.Document
import DeclOrder.Proofs.ElementBounds
import DeclOrder.Proofs.EmbeddedScripts

/-!
# Script bodies inside components

The body of a script is parsed as a text of its own, and its statements are placed in the document
that holds it.  Gathering statements keeps the nodes of the tree in their order, so every piece of
a statement is a node; as the nodes lie inside the body, the script of a component is the script of
its body alone, embedded where the body stands.  The plan for a component is therefore the plan for
the body, moved, and an edit touches nothing outside the body.
-/

namespace DeclOrder

/-! ## The nodes of a tree -/

namespace Node

mutual

/-- The nodes of a tree, each before its children. -/
def preorder : Node → List Node
  | ⟨kind, start, stop, isNamed, isMissing, hasError, field, children⟩ =>
    ⟨kind, start, stop, isNamed, isMissing, hasError, field, children⟩ :: preorderAmong children

/-- The nodes of several trees, each before its children. -/
def preorderAmong : List Node → List Node
  | [] => []
  | child :: rest => preorder child ++ preorderAmong rest

end

theorem preorder_eq (node : Node) : node.preorder = node :: preorderAmong node.children := by
  cases node
  rfl

theorem preorder_subset_of_mem {nodes : List Node} {node : Node} (member : node ∈ nodes) :
    node.preorder ⊆ preorderAmong nodes := by
  induction nodes with
  | nil => cases member
  | cons first rest ih =>
      rw [preorderAmong]
      rcases List.mem_cons.mp member with rfl | later
      · exact List.subset_append_left _ _
      · exact fun other found => List.mem_append_right _ (ih later found)

/-- A node has its bounds, in order, among the given number of bytes. -/
def Bounded (bytes : Nat) (node : Node) : Prop :=
  node.start.byte ≤ node.stop.byte ∧ node.stop.byte ≤ bytes

instance (bytes : Nat) (node : Node) : Decidable (node.Bounded bytes) :=
  inferInstanceAs (Decidable (_ ∧ _))

/-- A tree fits a text: all its nodes lie in the text, and those at the top do not overlap. -/
structure Fits (text : Text) (root : Node) : Prop where
  bounded : ∀ node ∈ root.preorder, node.Bounded text.byteCount
  apart : root.namedChildren.Pairwise fun a b => a.stop.byte ≤ b.start.byte

/-- All nodes of the given trees have their bounds among the given number of bytes. -/
def AllBounded (bytes : Nat) (nodes : List Node) : Prop :=
  ∀ node ∈ preorderAmong nodes, node.Bounded bytes

theorem AllBounded.mem {bytes : Nat} {nodes : List Node} (bounded : AllBounded bytes nodes)
    {node : Node} (member : node ∈ nodes) :
    node.Bounded bytes ∧ AllBounded bytes node.children := by
  have inside : ∀ other ∈ node.preorder, other.Bounded bytes :=
    fun other found => bounded other (preorder_subset_of_mem member found)
  rw [preorder_eq] at inside
  exact ⟨inside node List.mem_cons_self,
    fun other found => inside other (List.mem_cons_of_mem _ found)⟩

theorem AllBounded.tail {bytes : Nat} {first : Node} {rest : List Node}
    (bounded : AllBounded bytes (first :: rest)) : AllBounded bytes rest := by
  intro node member
  apply bounded
  rw [preorderAmong]
  exact List.mem_append_right _ member

theorem AllBounded.filter {bytes : Nat} {nodes : List Node} (bounded : AllBounded bytes nodes)
    (p : Node → Bool) : AllBounded bytes (nodes.filter p) := by
  intro node member
  induction nodes with
  | nil => cases member
  | cons first rest ih =>
      rw [List.filter_cons] at member
      split at member
      · rw [preorderAmong] at member
        rcases List.mem_append.mp member with here | later
        · exact bounded node (preorder_subset_of_mem List.mem_cons_self here)
        · exact ih bounded.tail later
      · exact ih bounded.tail member

end Node

/-! ## Bytes and characters of a text -/

namespace Text

theorem charsIn_le_length (text : Text) (bytes : Nat) : text.charsIn bytes ≤ text.length := by
  induction text generalizing bytes with
  | nil => exact Nat.le_refl _
  | cons c rest ih =>
      cases bytes with
      | zero => exact Nat.zero_le _
      | succ bytes => exact Nat.succ_le_succ (ih _)

theorem charsIn_mono (text : Text) {first second : Nat} (ascending : first ≤ second) :
    text.charsIn first ≤ text.charsIn second := by
  induction text generalizing first second with
  | nil => exact Nat.le_refl _
  | cons c rest ih =>
      cases first with
      | zero => exact Nat.zero_le _
      | succ first =>
          cases second with
          | zero => cases ascending
          | succ second => exact Nat.succ_le_succ (ih (by omega))

theorem utf8Size_of_lt {c : Char} (ascii : c.toNat < 0x80) : c.utf8Size = 1 := by
  rw [Char.utf8Size, if_pos]
  show c.val.toNat ≤ 127
  exact Nat.le_of_lt_succ ascii

theorem byteCount_of_isAscii {text : Text} (ascii : text.isAscii = true) :
    text.byteCount = text.length := by
  induction text with
  | nil => rfl
  | cons c rest ih =>
      rw [isAscii, List.all_cons, Bool.and_eq_true, decide_eq_true_eq] at ascii
      have rest := ih ascii.2
      rw [byteCount, List.foldr_cons, ← byteCount, rest, utf8Size_of_lt ascii.1, List.length_cons,
        Nat.add_comm]

/-- The text before a slice, the slice and the text behind it make up the text. -/
theorem take_append_slice_append_drop (text : Text) {start stop : Nat} (forward : start ≤ stop)
    (inside : stop ≤ text.length) :
    text.take start ++ text.slice start stop ++ text.drop stop = text := by
  have whole := upTo_append_slice_append_onward text (Int.natCast_nonneg start)
    (Int.ofNat_le.mpr forward)
  rwa [upTo_of_nonneg _ (Int.natCast_nonneg _),
    onward_of_le _ (Int.natCast_nonneg _) (Int.ofNat_le.mpr inside), Int.toNat_natCast,
    Int.toNat_natCast] at whole

end Text

/-! ## The body alone -/

namespace ScriptBody

/-- The body of a script as a document of its own. -/
def alone (body : ScriptBody) : ScriptBody :=
  ⟨body.text, 0, body.text.length⟩

@[simp] theorem text_alone (body : ScriptBody) : body.alone.text = body.text := by
  show body.text.slice 0 body.text.length = body.text
  rw [Text.slice_of_nonneg _ (Int.le_refl 0) (Int.natCast_nonneg _), Int.toNat_natCast,
    List.take_length]
  rfl

theorem offsetOf_alone (body : ScriptBody) (byte : Nat) :
    body.alone.offsetOf byte =
      ((if body.text.isAscii then byte else body.text.charsIn byte : Nat) : Int) := by
  rw [offsetOf, text_alone]
  split
  · exact Int.zero_add _
  · exact Int.zero_add _

theorem offsetOf_eq (body : ScriptBody) (byte : Nat) :
    body.offsetOf byte = body.alone.offsetOf byte + body.start := by
  rw [offsetOf_alone, offsetOf]
  split
  · exact Int.add_comm _ _
  · exact Int.add_comm _ _

theorem offsetOf_alone_le {body : ScriptBody} {byte : Nat}
    (inside : byte ≤ body.text.byteCount) : body.alone.offsetOf byte ≤ body.text.length := by
  rw [offsetOf_alone]
  split
  · rename_i ascii
    rw [Text.byteCount_of_isAscii ascii] at inside
    exact Int.ofNat_le.mpr inside
  · exact Int.ofNat_le.mpr (Text.charsIn_le_length _ _)

theorem offsetOf_alone_mono {body : ScriptBody} {first second : Nat} (ascending : first ≤ second) :
    body.alone.offsetOf first ≤ body.alone.offsetOf second := by
  rw [offsetOf_alone, offsetOf_alone]
  split
  · exact Int.ofNat_le.mpr ascending
  · exact Int.ofNat_le.mpr (Text.charsIn_mono _ ascending)

theorem offsetOf_mono (body : ScriptBody) {first second : Nat} (ascending : first ≤ second) :
    body.offsetOf first ≤ body.offsetOf second := by
  have alone : body.alone.offsetOf first ≤ body.alone.offsetOf second :=
    offsetOf_alone_mono ascending
  rw [offsetOf_eq body first, offsetOf_eq body second]
  omega

/-- Where a node stands in the document. -/
def stretchOf (body : ScriptBody) (node : Node) : Stretch :=
  ⟨body.offsetOf node.start.byte, body.offsetOf node.stop.byte⟩

theorem inside_stretchOf {body : ScriptBody} {node : Node}
    (bounded : node.Bounded body.text.byteCount) :
    (body.alone.stretchOf node).Inside body.text.length where
  nonneg := by
    rw [stretchOf, offsetOf_alone]
    exact Int.natCast_nonneg _
  forward := offsetOf_alone_mono bounded.1
  within := offsetOf_alone_le bounded.2

/-- Gathering keeps every node, in the order of the tree. -/
theorem pieces_gather (body : ScriptBody) (waiting : List Comment) (nodes : List Node) :
    (body.gather waiting nodes).statements.flatMap Statement.pieces ++
        (body.gather waiting nodes).remaining.map Comment.stretch =
      waiting.map Comment.stretch ++ nodes.map body.stretchOf := by
  induction waiting, nodes using gather.induct body with
  | case1 waiting => simp [gather]
  | case2 waiting node comment =>
      rw [gather, if_pos comment, List.map_append]
      rfl
  | case3 waiting node statement =>
      rw [gather, if_neg statement]
      simp [statementOf, Statement.pieces, Statement.body, stretchOf]
  | case4 waiting node next rest comment ih =>
      rw [gather, if_pos comment, ih, List.map_append, List.append_assoc]
      rfl
  | case5 waiting node next rest statement trails ih =>
      rw [gather, if_neg statement, if_pos trails]
      simp only [Gathering.push, List.flatMap_cons, List.append_assoc]
      rw [ih]
      simp [statementOf, commentOf, Statement.pieces, Statement.body, stretchOf, Comment.stretch]
  | case6 waiting node next rest statement apart ih =>
      rw [gather, if_neg statement, if_neg apart]
      simp only [Gathering.push, List.flatMap_cons, List.append_assoc]
      rw [ih]
      simp [statementOf, Statement.pieces, Statement.body, stretchOf]

/-- The body of a script lies inside the document. -/
structure Within (body : ScriptBody) : Prop where
  nonneg : 0 ≤ body.start
  forward : body.start ≤ body.stop
  inside : body.stop ≤ body.document.length

section Within

variable {body : ScriptBody} (within : body.Within)

include within

theorem stands : body.document.Stands body.start body.text :=
  Text.stands_slice _ within.nonneg within.forward within.inside

theorem textOf_alone {node : Node} (bounded : node.Bounded body.text.byteCount) :
    body.textOf node = body.alone.textOf node := by
  obtain ⟨nonneg, forward, inside⟩ := inside_stretchOf bounded
  rw [textOf, offsetOf_eq body node.start.byte, offsetOf_eq body node.stop.byte]
  exact (stands within).slice_add nonneg (Int.le_trans nonneg forward) inside

theorem calleeOf_alone {node : Node}
    (bounded : Node.AllBounded body.text.byteCount node.children) :
    body.calleeOf node = body.alone.calleeOf node := by
  rw [calleeOf, calleeOf]
  cases found : node.childInField? "function" with
  | none => rfl
  | some callee =>
      have member : callee ∈ node.children := List.mem_of_find?_eq_some found
      dsimp only
      rw [textOf_alone within (bounded.mem member).1]

end Within

section Outlines

variable {body : ScriptBody}

mutual

theorem outline_alone (within : body.Within) (node : Node)
    (bounded : Node.AllBounded body.text.byteCount node.children) :
    body.outline node = body.alone.outline node := by
  cases node with
  | mk kind start stop isNamed isMissing hasError field children =>
      rw [outline, outline, calleeOf_alone within bounded,
        firstOutline_alone within children bounded, lastOutline_alone within children bounded]

theorem firstOutline_alone (within : body.Within) (nodes : List Node)
    (bounded : Node.AllBounded body.text.byteCount nodes) :
    firstOutline body nodes = firstOutline body.alone nodes := by
  cases nodes with
  | nil => rfl
  | cons node rest =>
      rw [firstOutline, firstOutline,
        outline_alone within node (bounded.mem List.mem_cons_self).2,
        firstOutline_alone within rest bounded.tail]

theorem lastOutline_alone (within : body.Within) (nodes : List Node)
    (bounded : Node.AllBounded body.text.byteCount nodes) :
    lastOutline body nodes = lastOutline body.alone nodes := by
  cases nodes with
  | nil => rfl
  | cons node rest =>
      rw [lastOutline, lastOutline, outline_alone within node (bounded.mem List.mem_cons_self).2,
        lastOutline_alone within rest bounded.tail]

end

end Outlines

/-! ## Statements of a body -/

section Within

variable {body : ScriptBody} (within : body.Within)

include within

theorem initializerOf_alone {node : Node}
    (bounded : Node.AllBounded body.text.byteCount node.children) :
    body.initializerOf node = body.alone.initializerOf node := by
  apply Option.bind_congr
  intro binding found
  have member : binding ∈ node.children :=
    List.mem_of_mem_filter (List.mem_of_find?_eq_some found)
  apply Option.bind_congr
  intro value valued
  have inner : value ∈ binding.children := List.mem_of_find?_eq_some valued
  rw [outline_alone within value ((bounded.mem member).2.mem inner).2]

theorem commentOf_eq_shift {node : Node} (bounded : node.Bounded body.text.byteCount) :
    body.commentOf node = (body.alone.commentOf node).shift body.start := by
  rw [commentOf, commentOf, Comment.shift, textOf_alone within bounded, offsetOf_eq body,
    offsetOf_eq body]

theorem statementOf_eq_shift {node : Node}
    (bounded : Node.AllBounded body.text.byteCount node.children) (leading : List Comment)
    (trailing : Option Comment) :
    body.statementOf (leading.map (Comment.shift body.start)) node
        (trailing.map (Comment.shift body.start)) =
      (body.alone.statementOf leading node trailing).shift body.start := by
  rw [statementOf, statementOf, Statement.shift, initializerOf_alone within bounded,
    firstOutline_alone within node.children bounded, offsetOf_eq body, offsetOf_eq body]

/-- The statements of a body are those of the body alone, moved to where it stands. -/
theorem statements_gather_map_shift (waiting : List Comment) {nodes : List Node}
    (bounded : Node.AllBounded body.text.byteCount nodes) :
    (body.gather (waiting.map (Comment.shift body.start)) nodes).statements =
      (body.alone.gather waiting nodes).statements.map (Statement.shift body.start) := by
  induction waiting, nodes using gather.induct body.alone with
  | case1 waiting => rfl
  | case2 waiting node comment =>
      rw [gather, gather, if_pos comment, if_pos comment]
      rfl
  | case3 waiting node statement =>
      rw [gather, gather, if_neg statement, if_neg statement]
      exact congrArg (fun moved => [moved])
        (statementOf_eq_shift within (bounded.mem List.mem_cons_self).2 waiting none)
  | case4 waiting node next rest comment ih =>
      rw [gather, gather, if_pos comment, if_pos comment, ← ih bounded.tail, List.map_append,
        List.map_singleton, commentOf_eq_shift within (bounded.mem List.mem_cons_self).1]
  | case5 waiting node next rest statement trails ih =>
      have later := ih bounded.tail.tail
      have trailing := commentOf_eq_shift within (bounded.tail.mem List.mem_cons_self).1
      have first := statementOf_eq_shift within (bounded.mem List.mem_cons_self).2 waiting
        (some (body.alone.commentOf next))
      rw [gather, gather, if_neg statement, if_neg statement, if_pos trails, if_pos trails]
      dsimp only [Gathering.push]
      rw [List.map_cons, ← first, Option.map_some, ← trailing, ← later, List.map_nil]
  | case6 waiting node next rest statement apart ih =>
      have later := ih bounded.tail
      have first := statementOf_eq_shift within (bounded.mem List.mem_cons_self).2 waiting none
      rw [gather, gather, if_neg statement, if_neg statement, if_neg apart, if_neg apart]
      dsimp only [Gathering.push]
      rw [List.map_cons, ← first, Option.map_none, ← later, List.map_nil]

end Within

/-- Every piece of a statement is a node. -/
theorem pieces_prefix (body : ScriptBody) (nodes : List Node) :
    (body.gather [] nodes).statements.flatMap Statement.pieces <+: nodes.map body.stretchOf :=
  ⟨_, body.pieces_gather [] nodes⟩

theorem inside_of_mem_gather {body : ScriptBody} {nodes : List Node}
    (bounded : Node.AllBounded body.text.byteCount nodes) {piece : Stretch}
    (member : piece ∈ (body.alone.gather [] nodes).statements.flatMap Statement.pieces) :
    piece.Inside body.text.length := by
  obtain ⟨node, found, rfl⟩ := List.mem_map.mp ((body.alone.pieces_prefix nodes).subset member)
  exact inside_stretchOf (bounded.mem found).1

theorem apart_gather {body : ScriptBody} {nodes : List Node}
    (apart : nodes.Pairwise fun a b => a.stop.byte ≤ b.start.byte) :
    ((body.alone.gather [] nodes).statements.flatMap Statement.pieces).Pairwise
      fun a b => a.stop ≤ b.start := by
  refine List.Pairwise.sublist (body.alone.pieces_prefix nodes).sublist ?_
  rw [List.pairwise_map]
  exact apart.imp fun ascending => offsetOf_alone_mono ascending

end ScriptBody

/-! ## Placed scripts -/

namespace Script

/-- The pieces of the statements lie in the document, one behind the other.  They may be empty. -/
structure Placed (script : Script) : Prop where
  inside : ∀ piece ∈ script.pieces, piece.Inside script.source.length
  apart : script.pieces.Pairwise fun a b => a.stop ≤ b.start

namespace Placed

variable {script : Script} (placed : script.Placed)

include placed

theorem statement : ∀ statement ∈ script.statements, ∀ piece ∈ statement.pieces,
    piece.Inside script.source.length :=
  fun statement member piece found =>
    placed.inside piece (List.mem_flatMap.mpr ⟨statement, member, found⟩)

theorem span_forward {start stop : Int}
    (span : declarationSpan? script.statements = some (start, stop)) : start ≤ stop := by
  obtain ⟨first, last, head, final, rfl, rfl⟩ := declarationSpan?_eq_some_iff.mp span
  have declared : ((declarations script.statements).flatMap Statement.pieces).Sublist
      script.pieces := List.filter_sublist.flatMap _
  obtain ⟨others, shape⟩ := List.head?_eq_some_iff.mp head
  obtain ⟨opening, pieces, opens, starts⟩ := first.pieces_eq_cons
  obtain ⟨front, closing, closes, stops⟩ := last.pieces_eq_concat
  have closingMem : closing ∈ (declarations script.statements).flatMap Statement.pieces :=
    List.mem_flatMap.mpr ⟨last, List.mem_of_getLast? final, by simp [closes]⟩
  have apart := placed.apart.sublist declared
  have forward := fun piece member => (placed.inside piece (declared.subset member)).forward
  rw [shape, List.flatMap_cons, opens, List.cons_append] at apart forward closingMem
  have openingForward := forward opening List.mem_cons_self
  have closingForward := forward closing closingMem
  -- The span starts with the first of all pieces, and ends with it or with a later one.
  rcases List.mem_cons.mp closingMem with rfl | later
  · omega
  · have before := (List.pairwise_cons.mp apart).1 closing later
    omega

/-- A planned edit stays inside the document. -/
theorem edit_bounds {options : Options} {edit : Edit} (planned : edit ∈ (script.plan options).edits) :
    0 ≤ edit.start ∧ edit.start ≤ edit.stop ∧ edit.stop ≤ script.source.length := by
  have span := (edit?_eq_some_iff.mp (edit?_of_mem_plan planned)).1
  have forward := placed.span_forward span
  obtain ⟨first, last, head, final, starts, stops⟩ := declarationSpan?_eq_some_iff.mp span
  have start := Statement.inside_extentStart
    (placed.statement first (mem_declarations.mp (List.mem_of_mem_head? head)).1)
  have stop := Statement.inside_extentStop
    (placed.statement last (mem_declarations.mp (List.mem_of_getLast? final)).1)
  omega

/-- Carrying out the plan of an embedded script leaves what surrounds its document. -/
theorem fix_embed (options : Options) (before behind : Text) :
    (script.embed (before ++ (script.source ++ behind)) before.length).fix options =
      before ++ (script.fix options ++ behind) := by
  have stands : (before ++ (script.source ++ behind)).Stands before.length script.source :=
    ⟨before, behind, rfl, rfl⟩
  have moved := edit?_embed options stands placed.statement
  rw [fix, fix, edits_plan, edits_plan, moved]
  cases found : script.edit? options with
  | none =>
      rw [Option.map_none, Option.toList_none, applyEdits_nil, applyEdits_nil]
      rfl
  | some edit =>
      have planned : edit ∈ (script.plan options).edits := by simp [edits_plan, found]
      have bounds := placed.edit_bounds planned
      rw [Option.map_some, Option.toList_some, Option.toList_some, applyEdits_singleton,
        applyEdits_singleton]
      dsimp only [embed, Edit.shift]
      have start : (edit.start + before.length).toNat = before.length + edit.start.toNat := by omega
      have stop : (edit.stop + before.length).toNat = before.length + edit.stop.toNat := by omega
      have long : edit.stop + before.length ≤ (before ++ (script.source ++ behind)).length := by
        rw [List.length_append, List.length_append]
        omega
      rw [Text.upTo_of_nonneg _ (by omega), Text.upTo_of_nonneg _ (by omega),
        Text.onward_of_le _ (by omega) long, Text.onward_of_le _ (by omega) bounds.2.2, start, stop,
        List.take_length_add_append, List.drop_length_add_append,
        List.take_append_of_le_length (by omega), List.drop_append_of_le_length (by omega)]
      simp only [List.append_assoc]

end Placed

end Script

/-! ## Components -/

namespace Extract

/-- A text that is a script as a whole. -/
def ofText (text : Text) (language : String) : Extract :=
  ⟨⟨text, 0, text.length⟩, language⟩

theorem parse_of_hasError {parser : Parser} (path : String) {extract : Extract}
    (faulty : (parser extract.grammar extract.text).hasError = true) :
    extract.parse parser path =
      .error (extract.body.syntaxError path (parser extract.grammar extract.text)) := by
  rw [parse, ScriptBody.statements, if_pos faulty]
  rfl

theorem parse_of_sound {parser : Parser} (path : String) {extract : Extract}
    (sound : ¬(parser extract.grammar extract.text).hasError = true) :
    extract.parse parser path = .ok
      { path
        source := extract.body.document
        statements :=
          (extract.body.gather [] (parser extract.grammar extract.text).namedChildren).statements
        language := extract.language } := by
  rw [parse, ScriptBody.statements, if_neg sound]
  rfl

/-- An extract is parsed exactly when its text alone is, and then its script is the script of the
text, embedded where the text stands. -/
theorem parse_eq_embed {parser : Parser} (path : String) (extract : Extract)
    (within : extract.body.Within)
    (fits : (parser extract.grammar extract.text).Fits extract.text) :
    (∃ error textError, extract.parse parser path = .error error ∧
        (ofText extract.text extract.language).parse parser path = .error textError) ∨
      ∃ script : Script, script.source = extract.text ∧ script.Placed ∧
        (ofText extract.text extract.language).parse parser path = .ok script ∧
        extract.parse parser path =
          .ok (script.embed extract.body.document extract.body.start) := by
  have sameText : (ofText extract.text extract.language).text = extract.text :=
    extract.body.text_alone
  have sameTree : parser (ofText extract.text extract.language).grammar
      (ofText extract.text extract.language).text = parser extract.grammar extract.text := by
    rw [sameText]
    rfl
  have bounded : Node.AllBounded extract.text.byteCount
      (parser extract.grammar extract.text).namedChildren := by
    have all := fits.bounded
    rw [Node.preorder_eq] at all
    exact Node.AllBounded.filter (fun node member => all node (List.mem_cons_of_mem _ member)) _
  by_cases faulty : (parser extract.grammar extract.text).hasError = true
  · exact .inl ⟨_, _, parse_of_hasError path faulty, parse_of_hasError path (sameTree ▸ faulty)⟩
  · have alone := parse_of_sound path (sameTree ▸ faulty)
    rw [sameTree] at alone
    refine .inr ⟨_, ?_, ?_, alone, ?_⟩
    · rfl
    · constructor
      · exact fun piece member => ScriptBody.inside_of_mem_gather bounded member
      · exact ScriptBody.apart_gather fits.apart
    · have moved := ScriptBody.statements_gather_map_shift within [] bounded
      rw [parse_of_sound path faulty, Script.embed]
      dsimp only
      rw [← List.map_nil, moved]
      rfl

end Extract

/-- A component is planned like its script alone.  Its script can be parsed exactly when the body
can be parsed as a text of its own, and then the plan is the plan for the body, moved to where the
body stands.  So there is at most one edit, it lies in the body, and the fixed component is the fixed
body between the texts that surrounded it. -/
theorem Reading.ofKind_component_embeds (parser : Parser) (path : String)
    {document body : Text} {setup : Component.Setup}
    (found : Component.setup? document = some setup)
    (taken : document.slice setup.start setup.stop = body)
    (fits : (parser (Grammar.ofLanguage setup.language) body).Fits body) (options : Options) :
    (∃ error bodyError, ofKind parser .component path document = .broken error ∧
        (Extract.ofText body setup.language).parse parser path = .error bodyError) ∨
      ∃ script bodyScript, ofKind parser .component path document = .script script ∧
        (Extract.ofText body setup.language).parse parser path = .ok bodyScript ∧
        script.plan options = (bodyScript.plan options).embed document setup.start ∧
        (script.plan options).edits.length ≤ 1 ∧
        (∀ edit ∈ (script.plan options).edits,
          setup.start ≤ edit.start ∧ edit.start ≤ edit.stop ∧ edit.stop ≤ setup.stop) ∧
        script.fix options =
          document.take setup.start ++ (bodyScript.fix options ++ document.drop setup.stop) := by
  subst taken
  obtain ⟨forward, inside⟩ := Component.bounds_of_setup? found
  have within : (ScriptBody.mk document setup.start setup.stop).Within :=
    ⟨Int.natCast_nonneg _, Int.ofNat_le.mpr forward, Int.ofNat_le.mpr inside⟩
  have extracted : SourceKind.component.extract? (Path.ofString path) document =
      some ⟨⟨document, setup.start, setup.stop⟩, setup.language⟩ := by
    rw [SourceKind.extract?, found]
    rfl
  rcases Extract.parse_eq_embed path ⟨⟨document, setup.start, setup.stop⟩, setup.language⟩ within
      fits with
    ⟨error, bodyError, broken, bodyBroken⟩ | ⟨script, source, placed, bodyParsed, parsed⟩
  · refine .inl ⟨error, bodyError, ?_, bodyBroken⟩
    rw [ofKind, extracted]
    dsimp only
    rw [broken]
  · have stands : document.Stands setup.start script.source := by
      rw [source]
      exact ScriptBody.stands within
    have planned := Script.plan_embed options stands placed.statement
    refine .inr ⟨_, script, ?_, bodyParsed, planned, ?_, ?_, ?_⟩
    · rw [ofKind, extracted]
      dsimp only
      rw [parsed]
    · rw [Script.edits_plan]
      exact Option.length_toList_le
    · intro edit member
      rw [planned] at member
      obtain ⟨original, planned, rfl⟩ := List.mem_map.mp member
      have bounds := placed.edit_bounds planned
      have length : (script.source.length : Int) = setup.stop - setup.start := by
        rw [source]
        exact Text.length_slice _ within.nonneg within.forward within.inside
      dsimp only [Edit.shift]
      omega
    · have around : document.take setup.start ++
          (script.source ++ document.drop setup.stop) = document := by
        rw [source, ← List.append_assoc]
        exact Text.take_append_slice_append_drop document forward inside
      have fixed := placed.fix_embed options (document.take setup.start)
        (document.drop setup.stop)
      rw [around, List.length_take, Nat.min_eq_left (by omega)] at fixed
      exact fixed

/-- The body of a script with an accented letter in it. -/
def accentedBody : Text :=
  "\nrun(é)\nconst n = ref()\n".toList

/-- A component with that script, and an accented letter before it. -/
def accentedComponent : Text :=
  "<p>é</p><script setup>\nrun(é)\nconst n = ref()\n</script>\n".toList

/-- The tree of the body, whose bounds count bytes. -/
def accentedTree : Node :=
  let node := fun (kind : String) (start stop : Nat) (children : List Node) =>
    { kind, start := ⟨start, 0, start⟩, stop := ⟨stop, 0, stop⟩, children : Node }
  node "program" 0 25
    [node "expression_statement" 1 8 [node "call_expression" 1 8 []],
     node "lexical_declaration" 9 24
       [node "variable_declarator" 15 24
         [{ node "call_expression" 19 24
             [{ node "identifier" 19 22 [] with field := some "function" }] with
            field := some "value" }]]]

/-- The script of that component. -/
def accentedScript : Script where
  path := "a.vue"
  source := accentedComponent
  language := "js"
  statements :=
    [{ kind := .expression, start := 23, stop := 29, expression := some { kind := .call } },
     { kind := .variables, start := 30, stop := 45
       initializer := some { kind := .call, callee := some "ref" } }]

theorem ofKind_component_embeds_accented :
    Component.setup? accentedComponent = some ⟨22, 46, "js"⟩ ∧
      accentedTree.Fits accentedBody ∧
      (accentedScript.plan {}).edits =
        [⟨"a.vue", 23, 45, "const n = ref()\n\nrun(é)".toList⟩] ∧
      ∃ bodyScript, (Extract.ofText accentedBody "js").parse (fun _ _ => accentedTree) "a.vue" =
          .ok bodyScript ∧
        accentedScript.plan {} = (bodyScript.plan {}).embed accentedComponent 22 ∧
        accentedScript.fix {} = accentedComponent.take 22 ++
          (bodyScript.fix {} ++ accentedComponent.drop 46) := by
  have found : Component.setup? accentedComponent = some ⟨22, 46, "js"⟩ := by decide +kernel
  have taken : accentedComponent.slice 22 46 = accentedBody := by decide +kernel
  have fits : accentedTree.Fits accentedBody := ⟨by decide +kernel, by decide +kernel⟩
  have read : Reading.ofKind (fun _ _ => accentedTree) .component "a.vue" accentedComponent =
      .script accentedScript := by
    rw [Reading.ofKind, SourceKind.extract?, found]
    rfl
  refine ⟨found, fits, by cbv, ?_⟩
  rcases Reading.ofKind_component_embeds (fun _ _ => accentedTree) "a.vue" found taken fits {} with
    ⟨error, bodyError, broken, _⟩ | ⟨script, bodyScript, found, parsed, planned, _, _, fixed⟩
  · cases read.symm.trans broken
  · cases read.symm.trans found
    exact ⟨bodyScript, parsed, planned, fixed⟩

end DeclOrder

import DeclOrder.Plan
import DeclOrder.Proofs.LaidPieces
import Mathlib.Data.List.Pairwise

/-!
# Arranged scripts

The pieces of a statement are the comments before it, its body and the comment behind it.  A script
is arranged when the pieces of its statements stand in the document one behind the other, and
separated when only blanks stand between them where its declarations stand.  Then extents follow
each other like the statements, and an import is either among the declarations, with all its
comments, or outside of their span.
-/

namespace DeclOrder

/-- Where a comment stands. -/
def Comment.stretch (comment : Comment) : Stretch :=
  ⟨comment.start, comment.stop⟩

namespace Statement

/-- The comments before a statement and behind it. -/
def comments (statement : Statement) : List Comment :=
  statement.leading ++ statement.trailing.toList

/-- Where a statement stands without its comments. -/
def body (statement : Statement) : Stretch :=
  ⟨statement.start, statement.stop⟩

/-- Where a statement stands together with its comments. -/
def extent (statement : Statement) : Stretch :=
  ⟨statement.extentStart, statement.extentStop⟩

/-- The comments before a statement, its body, and the comment behind it. -/
def pieces (statement : Statement) : List Stretch :=
  statement.leading.map Comment.stretch ++
    statement.body :: statement.trailing.toList.map Comment.stretch

/-- What the text of a statement puts on lines of their own: each comment before the statement, and
the statement with the comment behind it. -/
def lines (statement : Statement) : List Stretch :=
  statement.leading.map Comment.stretch ++ [⟨statement.start, statement.extentStop⟩]

/-- The pieces of a statement stand one behind the other in a document of the given length. -/
structure Arranged (length : Nat) (statement : Statement) : Prop where
  inside : ∀ piece ∈ statement.pieces,
    0 ≤ piece.start ∧ piece.start < piece.stop ∧ piece.stop ≤ length
  apart : statement.pieces.Pairwise fun a b => a.stop ≤ b.start

end Statement

namespace Script

/-- The pieces of all statements, in the order of the statements. -/
def pieces (script : Script) : List Stretch :=
  script.statements.flatMap Statement.pieces

/-- The pieces of the statements are not empty and stand one behind the other in the document, and
the comments have the texts that stand there. -/
structure Arranged (script : Script) : Prop where
  inside : ∀ piece ∈ script.pieces,
    0 ≤ piece.start ∧ piece.start < piece.stop ∧ piece.stop ≤ script.source.length
  apart : script.pieces.Pairwise fun a b => a.stop ≤ b.start
  quoted : ∀ statement ∈ script.statements, ∀ comment ∈ statement.comments,
    comment.text = comment.stretch.text script.source

/-- In addition, only blanks stand between the pieces from the first declaration to the last. -/
structure Separated (script : Script) : Prop extends Arranged script where
  blank : ∀ span ∈ declarationSpan? script.statements,
    Stretch.BlankOutside script.source ⟨span.1, span.2⟩ script.pieces

instance (script : Script) : Decidable script.Arranged :=
  decidable_of_iff
    ((∀ piece ∈ script.pieces,
        0 ≤ piece.start ∧ piece.start < piece.stop ∧ piece.stop ≤ script.source.length) ∧
      script.pieces.Pairwise (fun a b => a.stop ≤ b.start) ∧
      ∀ statement ∈ script.statements, ∀ comment ∈ statement.comments,
        comment.text = comment.stretch.text script.source)
    ⟨fun ⟨inside, apart, quoted⟩ => ⟨inside, apart, quoted⟩,
      fun ⟨inside, apart, quoted⟩ => ⟨inside, apart, quoted⟩⟩

instance (script : Script) : Decidable script.Separated :=
  decidable_of_iff
    (script.Arranged ∧ ∀ span ∈ declarationSpan? script.statements,
      Stretch.BlankOutside script.source ⟨span.1, span.2⟩ script.pieces)
    ⟨fun ⟨arranged, blank⟩ => ⟨arranged, blank⟩, fun ⟨arranged, blank⟩ => ⟨arranged, blank⟩⟩

end Script

/-! ## The extent of one statement -/

namespace Stretch

theorem start_le_of_apart {first : Stretch} {rest : List Stretch}
    (apart : (first :: rest).Pairwise fun a b => a.stop ≤ b.start)
    (forward : ∀ part ∈ first :: rest, part.start ≤ part.stop) :
    ∀ part ∈ first :: rest, first.start ≤ part.start := by
  intro part member
  rcases List.mem_cons.mp member with rfl | later
  · exact Int.le_refl _
  · have behind := (List.pairwise_cons.mp apart).1 part later
    exact Int.le_trans (forward first List.mem_cons_self) behind

theorem le_stop_of_apart {front : List Stretch} {last : Stretch}
    (apart : (front ++ [last]).Pairwise fun a b => a.stop ≤ b.start)
    (forward : ∀ part ∈ front ++ [last], part.start ≤ part.stop) :
    ∀ part ∈ front ++ [last], part.stop ≤ last.stop := by
  intro part member
  rcases List.mem_append.mp member with earlier | final
  · have before := (List.pairwise_append.mp apart).2.2 part earlier last List.mem_cons_self
    exact Int.le_trans before (forward last (by simp))
  · exact Int.le_of_eq (congrArg Stretch.stop (List.mem_singleton.mp final))

end Stretch

namespace Statement

theorem pieces_eq_cons (statement : Statement) :
    ∃ first rest, statement.pieces = first :: rest ∧ first.start = statement.extentStart := by
  rw [pieces, extentStart]
  cases statement.leading with
  | nil => exact ⟨_, _, rfl, rfl⟩
  | cons comment others => exact ⟨_, _, rfl, rfl⟩

theorem pieces_eq_concat (statement : Statement) :
    ∃ front last, statement.pieces = front ++ [last] ∧ last.stop = statement.extentStop := by
  rw [pieces, extentStop]
  cases statement.trailing with
  | none => exact ⟨_, _, rfl, rfl⟩
  | some comment => exact ⟨_ ++ [_], _, (List.append_assoc _ [_] [_]).symm, rfl⟩

theorem body_mem_pieces (statement : Statement) : statement.body ∈ statement.pieces := by
  simp [pieces]

theorem stretch_mem_pieces {statement : Statement} {comment : Comment}
    (member : comment ∈ statement.comments) : comment.stretch ∈ statement.pieces := by
  rcases List.mem_append.mp member with before | behind
  · exact List.mem_append_left _ (List.mem_map_of_mem before)
  · exact List.mem_append_right _ (List.mem_cons_of_mem _ (List.mem_map_of_mem behind))

theorem extent_inside {start stop : Int} {statement : Statement}
    (inside : ∀ piece ∈ statement.pieces, start ≤ piece.start ∧ piece.stop ≤ stop) :
    start ≤ statement.extentStart ∧ statement.extentStop ≤ stop := by
  constructor
  · obtain ⟨first, rest, shape, starts⟩ := statement.pieces_eq_cons
    rw [← starts]
    exact (inside first (by simp [shape])).1
  · obtain ⟨front, last, shape, stops⟩ := statement.pieces_eq_concat
    rw [← stops]
    exact (inside last (by simp [shape])).2

/-- Statements whose pieces stand one behind the other have extents that do. -/
theorem pairwise_extents {statements : List Statement}
    (apart : (statements.flatMap pieces).Pairwise fun a b => a.stop ≤ b.start) :
    statements.Pairwise fun a b => a.extentStop ≤ b.extentStart := by
  apply (List.pairwise_flatMap.mp apart).2.imp
  intro a b across
  obtain ⟨front, last, lastShape, stops⟩ := a.pieces_eq_concat
  obtain ⟨first, rest, firstShape, starts⟩ := b.pieces_eq_cons
  rw [← stops, ← starts]
  exact across last (by simp [lastShape]) first (by simp [firstShape])

theorem extent_forward {statement : Statement}
    (apart : statement.pieces.Pairwise fun a b => a.stop ≤ b.start)
    (forward : ∀ piece ∈ statement.pieces, piece.start ≤ piece.stop) :
    statement.extentStart ≤ statement.extentStop := by
  obtain ⟨first, rest, firstShape, starts⟩ := statement.pieces_eq_cons
  obtain ⟨front, last, lastShape, stops⟩ := statement.pieces_eq_concat
  have lastMember : last ∈ statement.pieces := by simp [lastShape]
  have lastForward := forward last lastMember
  rw [firstShape] at apart forward lastMember
  have before := Stretch.start_le_of_apart apart forward last lastMember
  omega

namespace Arranged

variable {length : Nat} {statement : Statement}

theorem piece_inside (arranged : statement.Arranged length) {piece : Stretch}
    (member : piece ∈ statement.pieces) :
    statement.extentStart ≤ piece.start ∧ piece.stop ≤ statement.extentStop := by
  have forward : ∀ part ∈ statement.pieces, part.start ≤ part.stop := fun part found =>
    Int.le_of_lt (arranged.inside part found).2.1
  constructor
  · obtain ⟨first, rest, shape, starts⟩ := statement.pieces_eq_cons
    have apart := arranged.apart
    rw [shape] at apart forward member
    rw [← starts]
    exact Stretch.start_le_of_apart apart forward piece member
  · obtain ⟨front, last, shape, stops⟩ := statement.pieces_eq_concat
    have apart := arranged.apart
    rw [shape] at apart forward member
    rw [← stops]
    exact Stretch.le_stop_of_apart apart forward piece member

theorem stacked (arranged : statement.Arranged length) :
    Stretch.Stacked statement.extentStart statement.extentStop statement.pieces where
  inside := fun piece member => ⟨(arranged.piece_inside member).1,
    (arranged.inside piece member).2.1, (arranged.piece_inside member).2⟩
  apart := arranged.apart

/-- The places where an extent and the body in it start and stop. -/
theorem bounds (arranged : statement.Arranged length) :
    0 ≤ statement.extentStart ∧ statement.extentStart ≤ statement.start ∧
      statement.start < statement.stop ∧ statement.stop ≤ statement.extentStop ∧
        statement.extentStop ≤ length := by
  have body := statement.body_mem_pieces
  have bodyInside := arranged.inside _ body
  have bodyPlace := arranged.piece_inside body
  refine ⟨?_, bodyPlace.1, bodyInside.2.1, bodyPlace.2, ?_⟩
  · obtain ⟨first, rest, shape, starts⟩ := statement.pieces_eq_cons
    rw [← starts]
    exact (arranged.inside first (by simp [shape])).1
  · obtain ⟨front, last, shape, stops⟩ := statement.pieces_eq_concat
    rw [← stops]
    exact (arranged.inside last (by simp [shape])).2.2

theorem start_le_of_mem (arranged : statement.Arranged length) {piece : Stretch}
    (member : piece ∈ statement.body :: statement.trailing.toList.map Comment.stretch) :
    statement.start ≤ piece.start := by
  have apart := (List.pairwise_append.mp arranged.apart).2.1
  rcases List.mem_cons.mp member with rfl | later
  · exact Int.le_refl _
  · have behind := (List.pairwise_cons.mp apart).1 piece later
    exact Int.le_trans (Int.le_of_lt arranged.bounds.2.2.1) behind

theorem trailing_behind (arranged : statement.Arranged length) {comment : Comment}
    (behind : statement.trailing = some comment) :
    statement.stop ≤ comment.start ∧ comment.start < comment.stop := by
  have apart := (List.pairwise_append.mp arranged.apart).2.1
  have member : comment.stretch ∈ statement.trailing.toList.map Comment.stretch := by
    simp [behind]
  exact ⟨(List.pairwise_cons.mp apart).1 _ member,
    (arranged.inside _ (List.mem_append_right _ (List.mem_cons_of_mem _ member))).2.1⟩

theorem line_inside (arranged : statement.Arranged length) {line : Stretch}
    (member : line ∈ statement.lines) :
    statement.extentStart ≤ line.start ∧ line.start < line.stop ∧
      line.stop ≤ statement.extentStop := by
  rcases List.mem_append.mp member with comment | final
  · have piece : line ∈ statement.pieces := List.mem_append_left _ comment
    exact ⟨(arranged.piece_inside piece).1, (arranged.inside line piece).2.1,
      (arranged.piece_inside piece).2⟩
  · rw [List.mem_singleton.mp final]
    obtain ⟨_, before, inner, behind, _⟩ := arranged.bounds
    exact ⟨before, Int.lt_of_lt_of_le inner behind, Int.le_refl _⟩

theorem lines_apart (arranged : statement.Arranged length) :
    statement.lines.Pairwise fun a b => a.stop ≤ b.start := by
  obtain ⟨comments, _, across⟩ := List.pairwise_append.mp arranged.apart
  refine List.pairwise_append.mpr ⟨comments, List.pairwise_singleton .., ?_⟩
  intro comment member final isFinal
  rw [List.mem_singleton.mp isFinal]
  exact across comment member statement.body List.mem_cons_self

end Arranged

/-- A statement whose comments have the texts that stand in the document has the text of its
lines. -/
theorem text_eq_join {statement : Statement} {source : Text}
    (quoted : ∀ comment ∈ statement.leading, comment.text = comment.stretch.text source) :
    statement.text source = Text.join "\n" (statement.lines.map (Stretch.text source)) := by
  have comments : statement.leading.map Comment.text =
      (statement.leading.map Comment.stretch).map (Stretch.text source) := by
    rw [List.map_map]
    exact List.map_congr_left quoted
  rw [text, lines, List.map_append, comments]
  rfl

end Statement

/-! ## The span of the declarations -/

theorem mem_declarations {statements : List Statement} {statement : Statement} :
    statement ∈ declarations statements ↔
      statement ∈ statements ∧ statement.isImport = false := by
  simp [declarations]

theorem declarationSpan?_eq_some_iff {statements : List Statement} {start stop : Int} :
    declarationSpan? statements = some (start, stop) ↔
      ∃ first last, (declarations statements).head? = some first ∧
        (declarations statements).getLast? = some last ∧
          start = first.extentStart ∧ stop = last.extentStop := by
  rw [declarationSpan?]
  cases head : (declarations statements).head? with
  | none => simp
  | some first =>
      cases last : (declarations statements).getLast? with
      | none => simp
      | some final => simp [eq_comm]

theorem exists_declarationSpan? {statements : List Statement}
    (some : declarations statements ≠ []) :
    ∃ start stop, declarationSpan? statements = .some (start, stop) :=
  ⟨_, _, declarationSpan?_eq_some_iff.mpr ⟨_, _, List.head?_eq_some_head some,
    List.getLast?_eq_some_getLast some, rfl, rfl⟩⟩

theorem mem_interleavedImports {statements : List Statement} {start stop : Int}
    (span : declarationSpan? statements = some (start, stop)) {statement : Statement} :
    statement ∈ interleavedImports statements ↔
      statement ∈ statements ∧ statement.isImport = true ∧
        start ≤ statement.start ∧ statement.start < stop := by
  simp [interleavedImports, span, and_assoc]

namespace Script.Arranged

variable {script : Script} {start stop : Int}

theorem statement (arranged : script.Arranged) {statement : Statement}
    (member : statement ∈ script.statements) : statement.Arranged script.source.length where
  inside := fun piece found => arranged.inside piece (List.mem_flatMap_of_mem member found)
  apart := (List.pairwise_flatMap.mp arranged.apart).1 statement member

/-- The extents of the statements stand one behind the other. -/
theorem extents_apart (arranged : script.Arranged) :
    script.statements.Pairwise fun a b => a.extentStop ≤ b.extentStart :=
  Statement.pairwise_extents arranged.apart

theorem extents_disjoint (arranged : script.Arranged) {a b : Statement}
    (aMember : a ∈ script.statements) (bMember : b ∈ script.statements) (different : a ≠ b) :
    a.extentStop ≤ b.extentStart ∨ b.extentStop ≤ a.extentStart := by
  let Disjoint := fun a b : Statement =>
    a.extentStop ≤ b.extentStart ∨ b.extentStop ≤ a.extentStart
  have symmetric : Std.Symm Disjoint := ⟨fun _ _ => Or.symm⟩
  have disjoint : script.statements.Pairwise Disjoint := arranged.extents_apart.imp .inl
  exact disjoint.forall aMember bMember different

theorem declarations_apart (arranged : script.Arranged) :
    (declarations script.statements).Pairwise fun a b => a.extentStop ≤ b.extentStart :=
  arranged.extents_apart.filter _

/-- A declaration stands inside the span of the declarations. -/
theorem declaration_inside (arranged : script.Arranged)
    (span : declarationSpan? script.statements = some (start, stop)) {statement : Statement}
    (member : statement ∈ declarations script.statements) :
    start ≤ statement.extentStart ∧ statement.extentStop ≤ stop := by
  obtain ⟨first, last, head, final, rfl, rfl⟩ := declarationSpan?_eq_some_iff.mp span
  have forward : ∀ other ∈ declarations script.statements,
      other.extentStart ≤ other.extentStop := by
    intro other found
    have bounds := (arranged.statement (mem_declarations.mp found).1).bounds
    omega
  have apart := arranged.declarations_apart
  constructor
  · obtain ⟨rest, shape⟩ := List.head?_eq_some_iff.mp head
    rw [shape] at member forward apart
    rcases List.mem_cons.mp member with rfl | later
    · exact Int.le_refl _
    · have := (List.pairwise_cons.mp apart).1 statement later
      have := forward first List.mem_cons_self
      omega
  · obtain ⟨front, shape⟩ := List.getLast?_eq_some_iff.mp final
    rw [shape] at member forward apart
    rcases List.mem_append.mp member with earlier | isLast
    · have := (List.pairwise_append.mp apart).2.2 statement earlier last List.mem_cons_self
      have := forward last (by simp)
      omega
    · exact Int.le_of_eq (congrArg Statement.extentStop (List.mem_singleton.mp isLast))

theorem span_bounds (arranged : script.Arranged)
    (span : declarationSpan? script.statements = some (start, stop)) :
    0 ≤ start ∧ start < stop ∧ stop ≤ script.source.length := by
  obtain ⟨first, last, head, final, rfl, rfl⟩ := declarationSpan?_eq_some_iff.mp span
  have firstMember := List.mem_of_mem_head? head
  have lastMember := List.mem_of_getLast? final
  have firstInside := arranged.declaration_inside span firstMember
  have firstBounds := (arranged.statement (mem_declarations.mp firstMember).1).bounds
  have lastBounds := (arranged.statement (mem_declarations.mp lastMember).1).bounds
  omega

/-- An import stands outside the span of the declarations or, with its comments, inside of it. -/
theorem import_inside_or_outside (arranged : script.Arranged)
    (span : declarationSpan? script.statements = some (start, stop)) {statement : Statement}
    (member : statement ∈ script.statements) (imports : statement.isImport = true) :
    statement.extentStop ≤ start ∨ stop ≤ statement.extentStart ∨
      (start ≤ statement.extentStart ∧ statement.extentStop ≤ stop) := by
  obtain ⟨first, last, head, final, rfl, rfl⟩ := declarationSpan?_eq_some_iff.mp span
  obtain ⟨firstMember, firstDeclares⟩ := mem_declarations.mp (List.mem_of_mem_head? head)
  obtain ⟨lastMember, lastDeclares⟩ := mem_declarations.mp (List.mem_of_getLast? final)
  have notFirst : statement ≠ first := by
    rintro rfl
    exact Bool.noConfusion (imports.symm.trans firstDeclares)
  have notLast : statement ≠ last := by
    rintro rfl
    exact Bool.noConfusion (imports.symm.trans lastDeclares)
  have firstBounds := (arranged.statement firstMember).bounds
  have lastBounds := (arranged.statement lastMember).bounds
  rcases arranged.extents_disjoint member firstMember notFirst with before | behindFirst
  · exact .inl before
  · rcases arranged.extents_disjoint member lastMember notLast with beforeLast | behind
    · exact .inr (.inr ⟨by omega, by omega⟩)
    · exact .inr (.inl behind)

theorem import_inside (arranged : script.Arranged)
    (span : declarationSpan? script.statements = some (start, stop)) {statement : Statement}
    (member : statement ∈ interleavedImports script.statements) :
    start ≤ statement.extentStart ∧ statement.extentStop ≤ stop := by
  obtain ⟨found, imports, above, below⟩ := (mem_interleavedImports span).mp member
  have bounds := (arranged.statement found).bounds
  rcases arranged.import_inside_or_outside span found imports with before | behind | inside
  · omega
  · omega
  · exact inside

theorem quoted_leading (arranged : script.Arranged) {statement : Statement}
    (member : statement ∈ script.statements) :
    ∀ comment ∈ statement.leading, comment.text = comment.stretch.text script.source :=
  fun comment found => arranged.quoted statement member comment (List.mem_append_left _ found)

end Script.Arranged

end DeclOrder

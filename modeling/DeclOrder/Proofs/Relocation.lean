import DeclOrder.Proofs.Conservation

/-!
# Relocated scripts

Where the statements of a script stand after a fix.  A fix puts texts behind each other, so the
place of a text is where the texts before it end.  A statement that is written anew has its
comments on lines of their own, a run that is copied moves as a whole, and what stands outside the
span of the declarations stays or moves by the change in length.
-/

namespace DeclOrder

/-- Things put behind each other from a place on, neighbours at a distance from each other. -/
def placed {α : Type} (width : α → Nat) (distance : Nat) : Int → List α → List (Int × α)
  | _, [] => []
  | place, a :: rest => (place, a) :: placed width distance (place + width a + distance) rest

/-- The comment with the given text at the given place. -/
def Comment.put (place : Int) (text : Text) : Comment :=
  ⟨place, place + text.length, text⟩

/-- A comment that has been moved by a distance. -/
def Comment.shift (distance : Int) (comment : Comment) : Comment :=
  { comment with start := comment.start + distance, stop := comment.stop + distance }

namespace Statement

/-- A statement that has been moved by a distance, together with its comments. -/
def shift (distance : Int) (statement : Statement) : Statement :=
  { statement with
    start := statement.start + distance
    stop := statement.stop + distance
    leading := statement.leading.map (Comment.shift distance)
    trailing := statement.trailing.map (Comment.shift distance) }

/-- The comments before a statement in reformed words. -/
def reformedComments (reform : Text → Text) (statement : Statement) : List Text :=
  statement.leading.map fun comment => reform comment.text

/-- A statement that is written anew at a place: its comments on lines of their own, all its pieces
and the blanks before the comment behind it reformed, and that comment also reformed at its end. -/
def written (reform reformEnd : Text → Text) (source : Text) (place : Int)
    (statement : Statement) : Statement :=
  let comments := statement.reformedComments reform
  let start := place + (Text.join "\n" (comments ++ [[]])).length
  let stop := start + (reform (statement.body.text source)).length
  { statement with
    start, stop
    leading := (placed List.length 1 place comments).map fun spot => Comment.put spot.1 spot.2
    trailing := statement.trailing.map fun comment =>
      Comment.put (stop + (reform (source.slice statement.stop comment.start)).length)
        (reformEnd (reform comment.text)) }

end Statement

namespace Block

/-- The statements of a condensed block, written anew from a place on. -/
def settledItems (source : Text) : Int → List Item → List Statement
  | _, [] => []
  | place, [item] => [item.statement.written Text.collapse Text.trimEnd source place]
  | place, item :: next :: rest =>
    item.statement.written Text.collapse id source place ::
      settledItems source (place + item.text.collapse.length + 1) (next :: rest)

/-- The statements of a run, moved to a place. -/
def settledRun (place : Int) (run : List Item) : List Statement :=
  run.map fun item => item.statement.shift (place - (runStretch run).start)

/-- The statements of a block where its rendered text stands. -/
def settled (source : Text) (place : Int) (block : Block) : List Statement :=
  if block.group.isVerbatim then
    (placed (fun run => (runText source run).length) 1 place block.runs).flatMap
      fun spot => settledRun spot.1 spot.2
  else settledItems source place block.items

end Block

/-- The statements of several blocks where their rendered text stands. -/
def settledBlocks (source : Text) (place : Int) (list : List Block) : List Statement :=
  (placed (fun block => (block.render source).length) 2 place list).flatMap
    fun spot => spot.2.settled source spot.1

namespace Script

/-- The imports that stood among the declarations, as they are put in front of them. -/
def preamble (script : Script) : Text :=
  match interleavedImports script.statements with
  | [] => []
  | imports =>
    Text.join "\n" (imports.map fun statement => statement.text script.source) ++ "\n\n".toList

theorem render_eq_preamble (options : Options) (script : Script) :
    script.render options = script.preamble ++ renderBlocks script.source
      (blocks (sortedItems options script.source script.statements)) := by
  rw [render, preamble]
  cases interleavedImports script.statements with
  | nil => rfl
  | cons first rest => rfl

/-- The imports that stood among the declarations, written anew from a place on. -/
def hoisted (script : Script) (place : Int) : List Statement :=
  (placed (fun statement => (statement.text script.source).length) 1 place
    (interleavedImports script.statements)).map
      fun spot => spot.2.written id id script.source spot.1

/-- The declarations in their sorted order, settled from a place on. -/
def settled (options : Options) (script : Script) (place : Int) : List Statement :=
  settledBlocks script.source place
    (blocks (sortedItems options script.source script.statements))

/-- The script after a fix: the imports before the span of the declarations, the imports that stood
among them, the declarations in their sorted order, and the imports behind the span. -/
def relocated (options : Options) (script : Script) : Script :=
  match declarationSpan? script.statements with
  | none => script
  | some (start, stop) =>
    { script with
      source := script.fix options
      statements :=
        script.statements.filter (fun statement =>
          statement.isImport && statement.start < start) ++
        script.hoisted start ++
        script.settled options (start + script.preamble.length) ++
        (script.statements.filter fun statement =>
          statement.isImport && stop ≤ statement.start).map
            (Statement.shift ((script.render options).length - (stop - start))) }

end Script

/-! ## Places of joined texts -/

namespace Text

theorem join_concat (separator : String) (texts : List Text) (last : Text) :
    join separator (texts ++ [last]) = join separator (texts ++ [[]]) ++ last := by
  induction texts with
  | nil => simp
  | cons text rest ih =>
      have some : ∀ final : Text, rest ++ [final] ≠ [] := fun final =>
        List.append_ne_nil_of_right_ne_nil _ (List.cons_ne_nil final [])
      rw [List.cons_append, List.cons_append, join_cons (some last), join_cons (some []), ih]
      simp

/-- Each of several joined texts stands where it has been put. -/
theorem Stands.placed {α : Type} {text : α → Text} {separator : String} {distance : Nat}
    (apart : separator.toList.length = distance) {source : Text} {place : Int} {list : List α}
    (stands : Stands source place (join separator (list.map text))) :
    ∀ spot ∈ placed (fun a => (text a).length) distance place list,
      Stands source spot.1 (text spot.2) := by
  induction list generalizing place with
  | nil => exact fun spot member => absurd member List.not_mem_nil
  | cons a rest ih =>
      intro spot member
      cases rest with
      | nil =>
          rw [List.mem_singleton.mp member]
          simpa using stands
      | cons b others =>
          rw [join_map_cons_cons] at stands
          rcases List.mem_cons.mp member with rfl | later
          · exact stands.left
          · apply ih _ spot later
            rw [← apart]
            exact stands.right.right

end Text

/-- What has been put at a spot ends before the joined texts do. -/
theorem add_length_le_of_mem_placed {α : Type} {text : α → Text} {separator : String}
    {distance : Nat} (apart : separator.toList.length = distance) {place : Int} {list : List α} :
    ∀ spot ∈ placed (fun a => (text a).length) distance place list,
      spot.1 + (text spot.2).length ≤
        place + (Text.join separator (list.map text)).length := by
  induction list generalizing place with
  | nil => exact fun spot member => absurd member List.not_mem_nil
  | cons a rest ih =>
      intro spot member
      cases rest with
      | nil =>
          rw [List.mem_singleton.mp member]
          simp
      | cons b others =>
          rw [Text.join_map_cons_cons, List.length_append, List.length_append, apart]
          rcases List.mem_cons.mp member with rfl | later
          · dsimp only
            omega
          · have bound := ih spot later
            dsimp only at bound
            omega

namespace Statement

/-- Statements that, with their comments, reach from one place to another. -/
def Reach (start stop : Int) (statements : List Statement) : Prop :=
  statements.head?.map extentStart = some start ∧ statements.getLast?.map extentStop = some stop

theorem Reach.ne_nil {start stop : Int} {statements : List Statement}
    (reach : Reach start stop statements) : statements ≠ [] := by
  rintro rfl
  cases reach.1

theorem Reach.append {start middle next stop : Int} {first second : List Statement}
    (reachFirst : Reach start middle first) (reachSecond : Reach next stop second) :
    Reach start stop (first ++ second) := by
  rw [Reach, List.head?_append_of_ne_nil _ reachFirst.ne_nil,
    List.getLast?_append_of_ne_nil _ reachSecond.ne_nil]
  exact ⟨reachFirst.1, reachSecond.2⟩

/-- If the statements made from each of several texts reach over it, those made from all of them
reach over the joined texts. -/
theorem Reach.placed {α : Type} {text : α → Text} {separator : String} {distance : Nat}
    (apart : separator.toList.length = distance) {made : Int × α → List Statement} {list : List α}
    (some : list ≠ []) {place : Int}
    (each : ∀ spot ∈ placed (fun a => (text a).length) distance place list,
      Reach spot.1 (spot.1 + (text spot.2).length) (made spot)) :
    Reach place (place + (Text.join separator (list.map text)).length)
      ((placed (fun a => (text a).length) distance place list).flatMap made) := by
  induction list generalizing place with
  | nil => exact absurd rfl some
  | cons a rest ih =>
      have first := each (place, a) List.mem_cons_self
      cases rest with
      | nil => simpa [DeclOrder.placed] using first
      | cons b others =>
          have behind := ih (List.cons_ne_nil _ _) fun spot member =>
            each spot (List.mem_cons_of_mem _ member)
          have length : place + ((text a).length : Int) + distance +
              (Text.join separator ((b :: others).map text)).length =
                place + (Text.join separator ((a :: b :: others).map text)).length := by
            rw [Text.join_map_cons_cons, List.length_append, List.length_append, apart]
            omega
          rw [length] at behind
          exact first.append behind

end Statement

/-! ## Statements written anew -/

/-- Changes of a text that only concern the blanks at its end. -/
structure Text.ReformsEnd (reform : Text → Text) : Prop where
  fixes : ∀ {text : Text}, text.EndsVisible → reform text = text
  passes : ∀ {text : Text}, text.StartsVisible → ∀ front : Text,
    reform (front ++ text) = front ++ reform text

theorem Text.reformsEnd_id : ReformsEnd id :=
  ⟨fun _ => rfl, fun _ _ => rfl⟩

theorem Text.reformsEnd_trimEnd : ReformsEnd trimEnd :=
  ⟨fun ends => ends.trimEnd_eq, fun starts front => trimEnd_append starts front⟩

theorem map_snd_placed {α : Type} (width : α → Nat) (distance : Nat) (place : Int)
    (list : List α) : (placed width distance place list).map Prod.snd = list := by
  induction list generalizing place with
  | nil => rfl
  | cons a rest ih => exact congrArg (a :: ·) (ih _)

theorem snd_mem_of_mem_placed {α : Type} {width : α → Nat} {distance : Nat} {place : Int}
    {list : List α} {spot : Int × α} (member : spot ∈ placed width distance place list) :
    spot.2 ∈ list := by
  rw [← map_snd_placed width distance place list]
  exact List.mem_map_of_mem member

theorem flatMap_snd_placed {α β : Type} (parts : α → List β) (width : α → Nat) (distance : Nat)
    (place : Int) (list : List α) :
    ((placed width distance place list).flatMap fun spot => parts spot.2) = list.flatMap parts := by
  rw [← List.flatMap_map, map_snd_placed]

namespace Statement

/-- No piece starts with a blank, the body does not end with one, and no line feed stands among the
blanks at the end of a comment. -/
structure WellFormed (source : Text) (statement : Statement) : Prop
    extends Arranged source.length statement where
  quoted : ∀ comment ∈ statement.comments, comment.text = comment.stretch.text source
  starts : ∀ piece ∈ statement.pieces, (piece.text source).StartsVisible
  ends : (statement.body.text source).EndsVisible
  closed : ∀ comment ∈ statement.comments, comment.text.Closed

/-- The line of a statement that is written anew: the body and the comment behind it. -/
def writtenLine (reform reformEnd : Text → Text) (source : Text) (statement : Statement) : Text :=
  match statement.trailing with
  | none => reform (statement.body.text source)
  | some comment =>
    reform (statement.body.text source) ++
      (reform (source.slice statement.stop comment.start) ++ reformEnd (reform comment.text))

/-- The text of a statement that is written anew. -/
def writtenText (reform reformEnd : Text → Text) (source : Text) (statement : Statement) : Text :=
  Text.join "\n" (statement.reformedComments reform ++
    [statement.writtenLine reform reformEnd source])

section Written

variable {reform reformEnd : Text → Text} {source : Text} {place : Int} {statement : Statement}

theorem writtenText_eq : statement.writtenText reform reformEnd source =
    Text.join "\n" (statement.reformedComments reform ++ [[]]) ++
      statement.writtenLine reform reformEnd source :=
  Text.join_concat ..

theorem extentStart_written :
    (statement.written reform reformEnd source place).extentStart = place := by
  rw [extentStart, written, reformedComments]
  cases statement.leading with
  | nil => simp [placed]
  | cons comment others => rfl

theorem extentStop_written :
    (statement.written reform reformEnd source place).extentStop =
      place + (statement.writtenText reform reformEnd source).length := by
  rw [writtenText_eq, List.length_append, extentStop, written, writtenLine]
  cases statement.trailing with
  | none =>
      dsimp only [Option.map_none]
      omega
  | some comment =>
      dsimp only [Option.map_some, Comment.put]
      rw [List.length_append, List.length_append]
      omega

theorem map_text_leading_written :
    (statement.written reform reformEnd source place).leading.map Comment.text =
      statement.reformedComments reform := by
  rw [written, List.map_map]
  exact map_snd_placed ..

/-- A statement that is written anew has its new text, wherever that text stands. -/
theorem text_written {target : Text}
    (stands : target.Stands place (statement.writtenText reform reformEnd source)) :
    (statement.written reform reformEnd source place).text target =
      statement.writtenText reform reformEnd source := by
  have line : target.slice (statement.written reform reformEnd source place).start
      (statement.written reform reformEnd source place).extentStop =
        statement.writtenLine reform reformEnd source := by
    rw [extentStop_written, writtenText_eq, List.length_append, Int.natCast_add, ← Int.add_assoc]
    rw [writtenText_eq] at stands
    exact stands.right.slice_eq
  rw [text, map_text_leading_written, line, writtenText]

end Written

theorem Arranged.start_written_lt {source : Text} {statement : Statement}
    (arranged : statement.Arranged source.length) (place : Int) :
    (statement.written id id source place).start < place + (statement.text source).length := by
  have bounds := arranged.bounds
  have line := Text.length_slice source (by omega : 0 ≤ statement.start)
    (by omega : statement.start ≤ statement.extentStop) bounds.2.2.2.2
  have start : (statement.written id id source place).start =
      place + (Text.join "\n" (statement.leading.map Comment.text ++ [[]])).length := rfl
  have whole := Text.join_concat "\n" (statement.leading.map Comment.text)
    (source.slice statement.start statement.extentStop)
  rw [start, text, whole, List.length_append]
  omega

namespace WellFormed

variable {source : Text} {statement : Statement}

theorem comment_starts (formed : statement.WellFormed source) {comment : Comment}
    (member : comment ∈ statement.comments) : comment.text.StartsVisible := by
  rw [formed.quoted comment member]
  exact formed.starts _ (stretch_mem_pieces member)

theorem mem_comments_of_trailing {comment : Comment} (behind : statement.trailing = some comment) :
    comment ∈ statement.comments := by
  simp [comments, behind]

/-- The body with what follows it, up to the end of the comment behind it. -/
theorem line_eq (formed : statement.WellFormed source) {comment : Comment}
    (behind : statement.trailing = some comment) :
    source.slice statement.start comment.stop = statement.body.text source ++
      (source.slice statement.stop comment.start ++ comment.text) := by
  have bounds := formed.bounds
  obtain ⟨before, inner⟩ := formed.trailing_behind behind
  rw [formed.quoted comment (mem_comments_of_trailing behind)]
  show source.slice statement.start comment.stop = source.slice statement.start statement.stop ++
    (source.slice statement.stop comment.start ++ source.slice comment.start comment.stop)
  rw [Text.slice_append_slice source (by omega) before (by omega),
    Text.slice_append_slice source (by omega) (by omega) (by omega)]

theorem line_starts (formed : statement.WellFormed source) :
    (source.slice statement.start statement.extentStop).StartsVisible := by
  have bounds := formed.bounds
  rw [← Text.slice_append_slice source (by omega) (Int.le_of_lt bounds.2.2.1) bounds.2.2.2.1]
  exact (formed.starts _ statement.body_mem_pieces).append _

theorem line_closed (formed : statement.WellFormed source) :
    (source.slice statement.start statement.extentStop).Closed := by
  rw [extentStop]
  cases behind : statement.trailing with
  | none => exact formed.ends.closed
  | some comment =>
      have member := mem_comments_of_trailing behind
      have tail := (formed.closed comment member).append (formed.comment_starts member)
      rw [formed.line_eq behind, ← List.append_assoc]
      exact tail _

/-- Reforming the end of the collapsed line reforms the comment behind the statement. -/
theorem writtenLine_eq (formed : statement.WellFormed source) {reformEnd : Text → Text}
    (reforms : Text.ReformsEnd reformEnd) :
    statement.writtenLine Text.collapse reformEnd source =
      reformEnd (source.slice statement.start statement.extentStop).collapse := by
  rw [writtenLine, extentStop]
  cases behind : statement.trailing with
  | none => exact (reforms.fixes formed.ends.collapse).symm
  | some comment =>
      have starts := formed.comment_starts (mem_comments_of_trailing behind)
      dsimp only
      rw [formed.line_eq behind, Text.collapse_append (.inl formed.ends.closed),
        Text.collapse_append (.inr starts), ← List.append_assoc, ← List.append_assoc,
        reforms.passes starts.collapse]

/-- A statement that is written anew without blank lines has the collapsed text of the statement,
up to the blanks at its end. -/
theorem writtenText_eq (formed : statement.WellFormed source) {reformEnd : Text → Text}
    (reforms : Text.ReformsEnd reformEnd) :
    statement.writtenText Text.collapse reformEnd source =
      reformEnd (statement.text source).collapse := by
  have leading : ∀ comment ∈ statement.leading, comment ∈ statement.comments :=
    fun comment member => List.mem_append_left _ member
  have visible : ∀ text ∈ statement.leading.map Comment.text ++
      [source.slice statement.start statement.extentStop], text.StartsVisible ∧ text.Closed := by
    intro text member
    rcases List.mem_append.mp member with before | line
    · obtain ⟨comment, found, rfl⟩ := List.mem_map.mp before
      exact ⟨formed.comment_starts (leading comment found), formed.closed _ (leading comment found)⟩
    · rw [List.mem_singleton.mp line]
      exact ⟨formed.line_starts, formed.line_closed⟩
  have collapsed : (statement.text source).collapse =
      Text.join "\n" (statement.reformedComments Text.collapse ++ [[]]) ++
        (source.slice statement.start statement.extentStop).collapse := by
    rw [text, Text.collapse_join Text.collapse_break (fun text member => (visible text member).1)
      (fun text member => (visible text member).2), List.map_append, List.map_map,
      ← Text.join_concat]
    rfl
  rw [collapsed, reforms.passes formed.line_starts.collapse, Statement.writtenText_eq,
    formed.writtenLine_eq reforms]

/-- A statement that is written anew without blank lines reaches over the text it has there. -/
theorem written_spec (formed : statement.WellFormed source) {reformEnd : Text → Text}
    (reforms : Text.ReformsEnd reformEnd) {target : Text} {place : Int}
    (stands : target.Stands place (reformEnd (statement.text source).collapse)) :
    Reach place (place + (reformEnd (statement.text source).collapse).length)
        [statement.written Text.collapse reformEnd source place] ∧
      (statement.written Text.collapse reformEnd source place).text target =
        reformEnd (statement.text source).collapse := by
  rw [← formed.writtenText_eq reforms] at stands ⊢
  refine ⟨⟨?_, ?_⟩, text_written stands⟩
  · exact congrArg some extentStart_written
  · exact congrArg some extentStop_written

theorem text_starts (formed : statement.WellFormed source) :
    (statement.text source).StartsVisible := by
  rw [text]
  cases leading : statement.leading with
  | nil => simpa using formed.line_starts
  | cons comment others =>
      apply Text.startsVisible_join
      apply formed.comment_starts
      simp [comments, leading]

theorem text_closed (formed : statement.WellFormed source) : (statement.text source).Closed := by
  rw [text, Text.join_concat]
  exact formed.line_closed.append formed.line_starts _

end WellFormed

end Statement

end DeclOrder

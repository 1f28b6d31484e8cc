import DeclOrder.Proofs.Idempotence

/-!
# Preservation of form

A fix keeps a script well-formed.  The pieces of the relocated statements stand in the fixed source
one behind the other: comments and bodies that are written anew keep visible ends, a run that is
copied keeps its pieces, and between two declarations the fix puts line feeds only.
-/

namespace DeclOrder

namespace Text

/-- Changes of a text that keep its visible ends and the line feeds out of the blanks at its end. -/
structure Reforms (reform : Text → Text) : Prop where
  starts : ∀ {text : Text}, text.StartsVisible → (reform text).StartsVisible
  ends : ∀ {text : Text}, text.EndsVisible → (reform text).EndsVisible
  closed : ∀ {text : Text}, text.StartsVisible → text.Closed → (reform text).Closed
  blank : ∀ {text : Text}, text.Blank → (reform text).Blank

theorem reforms_id : Reforms id :=
  ⟨fun starts => starts, fun ends => ends, fun _ closed => closed, fun blank => blank⟩

theorem reforms_trimEnd : Reforms trimEnd where
  starts := fun starts => starts.trimEnd
  ends := fun ends => by rwa [ends.trimEnd_eq]
  closed := fun starts _ => (endsVisible_trimEnd starts.not_blank).closed
  blank := fun blank => by rw [← visible_eq_nil_iff, visible_trimEnd, blank.visible_eq]

theorem reforms_collapse : Reforms collapse where
  starts := fun starts => starts.collapse
  ends := fun ends => ends.collapse
  closed := fun starts closed => closed.collapse starts
  blank := fun blank => by rw [← visible_eq_nil_iff, visible_collapse, blank.visible_eq]

end Text

namespace Statement

/-- Well-formed statements whose pieces stand one behind the other from one place to another, with
only blanks between them. -/
structure Ranged (source : Text) (start stop : Int) (statements : List Statement) : Prop where
  laid : ∃ texts, Stretch.Laid source start stop (statements.flatMap pieces) texts
  formed : ∀ statement ∈ statements, statement.WellFormed source

theorem Ranged.append {source : Text} {start middle stop : Int} {gap : Text}
    {first second : List Statement} (rangedFirst : Ranged source start middle first)
    (stands : source.Stands middle gap) (blank : gap.Blank)
    (rangedSecond : Ranged source (middle + gap.length) stop second) :
    Ranged source start stop (first ++ second) := by
  obtain ⟨firstTexts, laidFirst⟩ := rangedFirst.laid
  obtain ⟨secondTexts, laidSecond⟩ := rangedSecond.laid
  refine ⟨⟨firstTexts ++ secondTexts, ?_⟩, ?_⟩
  · rw [List.flatMap_append]
    exact laidFirst.append (.blank stands blank laidSecond)
  · intro statement member
    rcases List.mem_append.mp member with earlier | later
    · exact rangedFirst.formed statement earlier
    · exact rangedSecond.formed statement later

/-- If the statements made from each of several texts are ranged over it, those made from all of
them are ranged over the joined texts. -/
theorem Ranged.placed {α : Type} {text : α → Text} {separator : String} {distance : Nat}
    (blank : Text.Blank separator.toList) (apart : separator.toList.length = distance)
    {target : Text} {made : Int × α → List Statement} {list : List α} (some : list ≠ [])
    {place : Int} (stands : target.Stands place (Text.join separator (list.map text)))
    (each : ∀ spot ∈ placed (fun a => (text a).length) distance place list,
      Ranged target spot.1 (spot.1 + (text spot.2).length) (made spot)) :
    Ranged target place (place + (Text.join separator (list.map text)).length)
      ((placed (fun a => (text a).length) distance place list).flatMap made) := by
  induction list generalizing place with
  | nil => exact absurd rfl some
  | cons a rest ih =>
      have first := each (place, a) List.mem_cons_self
      cases rest with
      | nil => simpa [DeclOrder.placed] using first
      | cons b others =>
          rw [Text.join_map_cons_cons] at stands ⊢
          have standsRest := stands.right.right
          rw [apart] at standsRest
          have behind := ih (List.cons_ne_nil _ _) standsRest fun spot member =>
            each spot (List.mem_cons_of_mem _ member)
          rw [← apart] at behind
          have length : place + ((text a) ++ (separator.toList ++
              Text.join separator ((b :: others).map text))).length =
                place + ((text a).length : Int) + separator.toList.length +
                  (Text.join separator ((b :: others).map text)).length := by
            rw [List.length_append, List.length_append]
            omega
          rw [length]
          have whole := first.append stands.right.left blank behind
          rw [apart] at whole ⊢
          exact whole

/-- A statement is well-formed where its pieces are laid with the right texts. -/
theorem wellFormed_of_laid {source : Text} {start stop : Int} {statement : Statement} {own : Text}
    (laid : Stretch.Laid source start stop statement.pieces
      (statement.leading.map Comment.text ++
        own :: statement.trailing.toList.map Comment.text))
    (nonneg : 0 ≤ start) (within : stop ≤ source.length)
    (ownStarts : own.StartsVisible) (ownEnds : own.EndsVisible)
    (starts : ∀ comment ∈ statement.comments, comment.text.StartsVisible)
    (closed : ∀ comment ∈ statement.comments, comment.text.Closed) :
    statement.WellFormed source := by
  have stacked := laid.stacked
  have texts := laid.map_text
  rw [pieces, List.map_append, List.map_cons] at texts
  obtain ⟨leading, tail⟩ := List.append_inj texts (by simp)
  obtain ⟨body, trailing⟩ := List.cons.inj tail
  rw [List.map_map, List.map_inj_left] at leading trailing
  have quoted : ∀ comment ∈ statement.comments,
      comment.text = comment.stretch.text source := by
    intro comment member
    rcases List.mem_append.mp member with before | behind
    · exact (leading comment before).symm
    · exact (trailing comment behind).symm
  have inside : ∀ piece ∈ statement.pieces,
      0 ≤ piece.start ∧ piece.start < piece.stop ∧ piece.stop ≤ source.length := by
    intro piece member
    have bounds := stacked.inside piece member
    omega
  refine ⟨⟨inside, stacked.apart⟩, quoted, ?_, body ▸ ownEnds, closed⟩
  intro piece member
  rcases List.mem_append.mp member with before | behind
  · obtain ⟨comment, found, rfl⟩ := List.mem_map.mp before
    rw [← quoted comment (List.mem_append_left _ found)]
    exact starts comment (List.mem_append_left _ found)
  · rcases List.mem_cons.mp behind with rfl | later
    · exact body ▸ ownStarts
    · obtain ⟨comment, found, rfl⟩ := List.mem_map.mp later
      rw [← quoted comment (List.mem_append_right _ found)]
      exact starts comment (List.mem_append_right _ found)

/-! ## Statements written anew -/

theorem laid_comments {target : Text} {place : Int} {comments : List Text}
    (some : ∀ text ∈ comments, text ≠ [])
    (stands : target.Stands place (Text.join "\n" (comments ++ [[]]))) :
    Stretch.Laid target place (place + (Text.join "\n" (comments ++ [[]])).length)
      (((placed List.length 1 place comments).map fun spot => Comment.put spot.1 spot.2).map
        Comment.stretch) comments := by
  induction comments generalizing place with
  | nil => simpa [placed] using Stretch.Laid.done place
  | cons text rest ih =>
      have cut : Text.join "\n" ((text :: rest) ++ [[]]) =
          text ++ ("\n".toList ++ Text.join "\n" (rest ++ [[]])) :=
        Text.join_cons (by simp) text
      rw [cut] at stands ⊢
      have behind := ih (fun other member => some other (List.mem_cons_of_mem _ member))
        stands.right.right
      have length : place + (text ++ ("\n".toList ++ Text.join "\n" (rest ++ [[]]))).length =
          place + text.length + "\n".toList.length + (Text.join "\n" (rest ++ [[]])).length := by
        rw [List.length_append, List.length_append]
        omega
      rw [length]
      exact .piece stands.left (some text List.mem_cons_self)
        (.blank stands.right.left Text.blank_break behind)

section Written

variable {reform reformEnd : Text → Text} {source target : Text} {place : Int}
  {statement : Statement}

theorem WellFormed.laid_line (formed : statement.WellFormed source)
    (reforms : Text.Reforms reform) (reformsEnd : Text.Reforms reformEnd)
    (gap : ∀ comment ∈ statement.trailing,
      (source.slice statement.stop comment.start).Blank)
    (stands : target.Stands (statement.written reform reformEnd source place).start
      (statement.writtenLine reform reformEnd source)) :
    Stretch.Laid target (statement.written reform reformEnd source place).start
      ((statement.written reform reformEnd source place).start +
        (statement.writtenLine reform reformEnd source).length)
      ((statement.written reform reformEnd source place).body ::
        (statement.written reform reformEnd source place).trailing.toList.map Comment.stretch)
      (reform (statement.body.text source) ::
        (statement.written reform reformEnd source place).trailing.toList.map Comment.text) := by
  have body := (reforms.starts (formed.starts _ statement.body_mem_pieces)).ne_nil
  rw [writtenLine] at stands ⊢
  cases behind : statement.trailing with
  | none =>
      have trailing : (statement.written reform reformEnd source place).trailing = none := by
        simp [written, behind]
      rw [trailing]
      simp only [behind] at stands ⊢
      exact .piece stands body (.done _)
  | some comment =>
      have trailing : (statement.written reform reformEnd source place).trailing =
          some (Comment.put ((statement.written reform reformEnd source place).start +
            (reform (statement.body.text source)).length +
              (reform (source.slice statement.stop comment.start)).length)
            (reformEnd (reform comment.text))) := by
        simp [written, behind]
      have starts := formed.comment_starts (mem_comments_of_trailing behind)
      rw [trailing]
      simp only [behind] at stands ⊢
      rw [List.length_append, List.length_append, Int.natCast_add, Int.natCast_add,
        ← Int.add_assoc, ← Int.add_assoc]
      exact .piece stands.left body (.blank stands.right.left (reforms.blank (gap comment behind))
        (.piece stands.right.right (reformsEnd.starts (reforms.starts starts)).ne_nil (.done _)))

/-- The comments of a statement that is written anew are its reformed comments. -/
theorem exists_of_mem_comments_written {comment : Comment}
    (member : comment ∈ (statement.written reform reformEnd source place).comments) :
    ∃ old ∈ statement.comments,
      comment.text = reform old.text ∨ comment.text = reformEnd (reform old.text) := by
  rcases List.mem_append.mp member with before | behind
  · have text : comment.text ∈ statement.reformedComments reform := by
      rw [← map_text_leading_written]
      exact List.mem_map_of_mem before
    obtain ⟨old, found, same⟩ := List.mem_map.mp text
    exact ⟨old, List.mem_append_left _ found, .inl same.symm⟩
  · obtain ⟨old, found, rfl⟩ := Option.map_eq_some_iff.mp (Option.mem_toList.mp behind)
    exact ⟨old, List.mem_append_right _ (Option.mem_toList.mpr found), .inr rfl⟩

/-- A statement that is written anew is well-formed, and its pieces fill its new text. -/
theorem WellFormed.ranged_written (formed : statement.WellFormed source)
    (reforms : Text.Reforms reform) (reformsEnd : Text.Reforms reformEnd)
    (gap : ∀ comment ∈ statement.trailing,
      (source.slice statement.stop comment.start).Blank)
    (stands : target.Stands place (statement.writtenText reform reformEnd source)) :
    Ranged target place (place + (statement.writtenText reform reformEnd source).length)
      [statement.written reform reformEnd source place] := by
  have bounds := stands.bounds
  have present : ∀ text ∈ statement.reformedComments reform, text ≠ [] := by
    intro text member
    obtain ⟨comment, found, rfl⟩ := List.mem_map.mp member
    exact (reforms.starts (formed.comment_starts (List.mem_append_left _ found))).ne_nil
  have laid : Stretch.Laid target place
      (place + (statement.writtenText reform reformEnd source).length)
      (statement.written reform reformEnd source place).pieces
      ((statement.written reform reformEnd source place).leading.map Comment.text ++
        reform (statement.body.text source) ::
          (statement.written reform reformEnd source place).trailing.toList.map
            Comment.text) := by
    rw [Statement.writtenText_eq] at stands
    have line := formed.laid_line reforms reformsEnd gap stands.right
    rw [map_text_leading_written, Statement.writtenText_eq, List.length_append, Int.natCast_add,
      ← Int.add_assoc]
    exact (laid_comments present stands.left).append line
  refine ⟨⟨_, by rwa [List.flatMap_singleton]⟩, ?_⟩
  intro other member
  rw [List.mem_singleton.mp member]
  refine wellFormed_of_laid laid bounds.1 bounds.2
    (reforms.starts (formed.starts _ statement.body_mem_pieces)) (reforms.ends formed.ends) ?_ ?_
  · intro comment found
    obtain ⟨old, before, same | same⟩ := exists_of_mem_comments_written found
    · rw [same]
      exact reforms.starts (formed.comment_starts before)
    · rw [same]
      exact reformsEnd.starts (reforms.starts (formed.comment_starts before))
  · intro comment found
    obtain ⟨old, before, same | same⟩ := exists_of_mem_comments_written found
    · rw [same]
      exact reforms.closed (formed.comment_starts before) (formed.closed old before)
    · rw [same]
      exact reformsEnd.closed (reforms.starts (formed.comment_starts before))
        (reforms.closed (formed.comment_starts before) (formed.closed old before))

/-- A statement that is written anew without any change has its text. -/
theorem WellFormed.writtenText_id (formed : statement.WellFormed source) :
    statement.writtenText id id source = statement.text source := by
  have line : statement.writtenLine id id source =
      source.slice statement.start statement.extentStop := by
    rw [writtenLine, extentStop]
    cases behind : statement.trailing with
    | none => rfl
    | some comment => exact (formed.line_eq behind).symm
  rw [writtenText, line, text]
  rfl

end Written

/-! ## Statements that have been moved -/

theorem pieces_shift (distance : Int) (statement : Statement) :
    (statement.shift distance).pieces = statement.pieces.map (Stretch.shift distance) := by
  rw [pieces, pieces, shift, List.map_append, List.map_cons, List.map_map, List.map_map]
  cases statement.trailing with
  | none => rfl
  | some comment => rfl

theorem flatMap_pieces_shift (distance : Int) (statements : List Statement) :
    (statements.map (Statement.shift distance)).flatMap pieces =
      (statements.flatMap pieces).map (Stretch.shift distance) := by
  rw [List.flatMap_map, List.map_flatMap]
  exact List.flatMap_congr fun statement _ => pieces_shift distance statement

theorem comments_shift (distance : Int) (statement : Statement) :
    (statement.shift distance).comments = statement.comments.map (Comment.shift distance) := by
  rw [comments, comments, shift, List.map_append]
  cases statement.trailing with
  | none => rfl
  | some comment => rfl

theorem shift_zero (statement : Statement) : statement.shift 0 = statement := by
  have comment : Comment.shift 0 = id := by
    funext comment
    simp [Comment.shift]
  simp [shift, comment]

section Shift

variable {source target : Text} {start stop distance : Int} {statement : Statement}

/-- A statement is well-formed where the text around it stands again. -/
theorem WellFormed.shift (formed : statement.WellFormed source) (nonneg : 0 ≤ start)
    (within : stop ≤ source.length)
    (inside : start ≤ statement.extentStart ∧ statement.extentStop ≤ stop)
    (stands : target.Stands (start + distance) (source.slice start stop)) :
    (statement.shift distance).WellFormed target := by
  have extent := formed.bounds
  have bounds := stands.bounds
  rw [Text.length_slice source nonneg (by omega) within] at bounds
  have moved := formed.stacked.shift distance
  rw [← pieces_shift] at moved
  have reads : ∀ piece ∈ statement.pieces,
      (piece.shift distance).text target = piece.text source := by
    intro piece member
    have place := formed.stacked.inside piece member
    exact stands.slice_shift nonneg (by omega) (Int.le_of_lt place.2.1) (by omega) within
  refine ⟨⟨?_, moved.apart⟩, ?_, ?_, ?_, ?_⟩
  · intro piece member
    have place := moved.inside piece member
    omega
  · rw [comments_shift]
    intro moved member
    obtain ⟨comment, found, rfl⟩ := List.mem_map.mp member
    have same : comment.stretch.text source = (comment.stretch.shift distance).text target :=
      (reads _ (stretch_mem_pieces found)).symm
    exact (formed.quoted comment found).trans same
  · rw [pieces_shift]
    intro moved member
    obtain ⟨piece, found, rfl⟩ := List.mem_map.mp member
    rw [reads piece found]
    exact formed.starts piece found
  · have same := reads _ statement.body_mem_pieces
    have ends := formed.ends
    rw [← same] at ends
    exact ends
  · rw [comments_shift]
    intro moved member
    obtain ⟨comment, found, rfl⟩ := List.mem_map.mp member
    exact formed.closed comment found

/-- Statements that have been moved are ranged where the text around them stands again. -/
theorem Ranged.shift {statements : List Statement} (ranged : Ranged source start stop statements)
    (nonneg : 0 ≤ start) (within : stop ≤ source.length)
    (stands : target.Stands (start + distance) (source.slice start stop)) :
    Ranged target (start + distance) (stop + distance)
      (statements.map (Statement.shift distance)) := by
  obtain ⟨texts, laid⟩ := ranged.laid
  refine ⟨⟨texts, ?_⟩, ?_⟩
  · rw [flatMap_pieces_shift]
    exact laid.shift nonneg stands
  · intro moved member
    obtain ⟨statement, found, rfl⟩ := List.mem_map.mp member
    refine (ranged.formed statement found).shift nonneg within (extent_inside ?_) stands
    intro piece inStatement
    have bounds := laid.stacked.inside piece (List.mem_flatMap_of_mem found inStatement)
    exact ⟨bounds.1, bounds.2.2⟩

end Shift

end Statement

/-! ## Settled blocks -/

namespace Block

variable {options : Options} {source target : Text}

/-- The statements of a condensed block, written anew, are ranged over its text. -/
theorem ranged_settledItems {items : List Item} (present : items ≠ [])
    (texts : ∀ item ∈ items, item.text = item.statement.text source)
    (formed : ∀ item ∈ items, item.statement.WellFormed source)
    (gaps : ∀ item ∈ items, ∀ comment ∈ item.statement.trailing,
      (source.slice item.statement.stop comment.start).Blank) {place : Int}
    (stands : target.Stands place (condensedText items)) :
    Statement.Ranged target place (place + (condensedText items).length)
      (settledItems source place items) := by
  induction items generalizing place with
  | nil => exact absurd rfl present
  | cons item rest ih =>
      have itemFormed := formed item List.mem_cons_self
      have text := texts item List.mem_cons_self
      have gap := gaps item List.mem_cons_self
      cases rest with
      | nil =>
          have only : condensedText [item] =
              item.statement.writtenText Text.collapse Text.trimEnd source := by
            rw [itemFormed.writtenText_eq Text.reformsEnd_trimEnd, ← text]
            simp [condensedText]
          rw [only] at stands ⊢
          exact itemFormed.ranged_written Text.reforms_collapse Text.reforms_trimEnd gap stands
      | cons next others =>
          have nextStarts : next.text.collapse.StartsVisible := by
            rw [texts next (by simp)]
            exact (formed next (by simp)).text_starts.collapse
          have own : item.text.collapse =
              item.statement.writtenText Text.collapse id source := by
            rw [itemFormed.writtenText_eq Text.reformsEnd_id, ← text]
            rfl
          rw [condensedText_cons_cons item next others nextStarts] at stands ⊢
          have standsItem := stands.left
          rw [own] at standsItem
          have first := itemFormed.ranged_written Text.reforms_collapse Text.reforms_id gap
            standsItem
          rw [← own] at first
          have behind := ih (List.cons_ne_nil _ _)
            (fun item member => texts item (List.mem_cons_of_mem _ member))
            (fun item member => formed item (List.mem_cons_of_mem _ member))
            (fun item member => gaps item (List.mem_cons_of_mem _ member)) stands.right.right
          have length : place + (item.text.collapse ++
              ("\n".toList ++ condensedText (next :: others))).length =
                place + item.text.collapse.length + "\n".toList.length +
                  (condensedText (next :: others)).length := by
            rw [List.length_append, List.length_append]
            omega
          rw [length]
          exact first.append stands.right.left Text.blank_break behind

theorem ranged_settledRun {run : List Item}
    (ranged : Statement.Ranged source (runStretch run).start (runStretch run).stop
      (run.map Item.statement))
    (bounds : 0 ≤ (runStretch run).start ∧ (runStretch run).start ≤ (runStretch run).stop ∧
      (runStretch run).stop ≤ source.length) {place : Int}
    (stands : target.Stands place (runText source run)) :
    Statement.Ranged target place (place + (runText source run).length)
      (settledRun place run) := by
  have length : ((runText source run).length : Int) =
      (runStretch run).stop - (runStretch run).start := by
    rw [runText_eq]
    exact Text.length_slice source bounds.1 bounds.2.1 bounds.2.2
  have starts : (runStretch run).start + (place - (runStretch run).start) = place := by omega
  have stops : (runStretch run).stop + (place - (runStretch run).start) =
      place + (runText source run).length := by omega
  rw [runText_eq, Stretch.text, ← starts] at stands
  have moved := ranged.shift bounds.1 bounds.2.2 stands
  rw [starts, stops, List.map_map] at moved
  exact moved

/-- A settled block is ranged over its rendered text. -/
theorem Grounded.ranged_settled {block : Block} (grounded : block.Grounded options source)
    (gaps : ∀ item ∈ block.items, ∀ comment ∈ item.statement.trailing,
      (source.slice item.statement.stop comment.start).Blank)
    (runs : ∀ run ∈ block.runs, Statement.Ranged source (runStretch run).start
      (runStretch run).stop (run.map Item.statement)) {place : Int}
    (stands : target.Stands place (block.render source)) :
    Statement.Ranged target place (place + (block.render source).length)
      (block.settled source place) := by
  cases verbatim : block.group.isVerbatim with
  | true =>
      rw [render, if_pos verbatim] at stands ⊢
      rw [settled, if_pos verbatim]
      apply Statement.Ranged.placed Text.blank_break rfl (runs_ne_nil grounded.present) stands
      intro spot member
      have found : spot.2 ∈ block.runs := snd_mem_of_mem_placed member
      exact ranged_settledRun (runs _ found) (grounded.runs _ found)
        (stands.placed rfl spot member)
  | false =>
      rw [grounded.render_eq_condensedText verbatim] at stands ⊢
      rw [settled, if_neg (by simp [verbatim])]
      exact ranged_settledItems grounded.present grounded.text grounded.formed gaps stands

end Block

/-! ## Relocated scripts -/

namespace Script

/-- A script is well-formed if its statements are and stand apart, with only blanks between the
pieces where its declarations stand. -/
theorem wellFormed_of_statements {script : Script}
    (formed : ∀ statement ∈ script.statements, statement.WellFormed script.source)
    (apart : script.pieces.Pairwise fun a b => a.stop ≤ b.start)
    (blank : ∀ span ∈ declarationSpan? script.statements,
      Stretch.BlankOutside script.source ⟨span.1, span.2⟩ script.pieces) :
    script.WellFormed where
  inside := fun piece member => by
    obtain ⟨statement, found, inStatement⟩ := List.mem_flatMap.mp member
    exact (formed statement found).inside piece inStatement
  apart := apart
  quoted := fun statement member => (formed statement member).quoted
  blank := blank
  starts := fun piece member => by
    obtain ⟨statement, found, inStatement⟩ := List.mem_flatMap.mp member
    exact (formed statement found).starts piece inStatement
  ends := fun statement member => (formed statement member).ends
  closed := fun statement member => (formed statement member).closed

namespace WellFormed

variable {options : Options} {script : Script} {start stop : Int}

theorem ranged_statement (formed : script.WellFormed)
    (span : declarationSpan? script.statements = some (start, stop)) {statement : Statement}
    (member : statement ∈ script.statements)
    (inside : start ≤ statement.extentStart ∧ statement.extentStop ≤ stop) :
    Statement.Ranged script.source statement.extentStart statement.extentStop [statement] := by
  have own := formed.statement member
  have bounds := own.bounds
  have laid := Stretch.laid_of_blankOutside bounds.1 (by omega) bounds.2.2.2.2 own.stacked
    (formed.blank_statement span member inside)
  refine ⟨⟨_, by rwa [List.flatMap_singleton]⟩, ?_⟩
  intro other isOwn
  rwa [List.mem_singleton.mp isOwn]

/-- Only blanks stand between a body and the comment behind it. -/
theorem blank_gap (formed : script.WellFormed)
    (span : declarationSpan? script.statements = some (start, stop)) {statement : Statement}
    (member : statement ∈ script.statements)
    (inside : start ≤ statement.extentStart ∧ statement.extentStop ≤ stop) :
    ∀ comment ∈ statement.trailing,
      (script.source.slice statement.stop comment.start).Blank := by
  intro comment behind
  have own := formed.statement member
  have bounds := own.bounds
  obtain ⟨before, inner⟩ := own.trailing_behind behind
  have final : comment.stop ≤ statement.extentStop :=
    (own.piece_inside (Statement.stretch_mem_pieces
      (Statement.WellFormed.mem_comments_of_trailing behind))).2
  apply Text.blank_slice (by omega) before
  intro place above below
  apply formed.blank_statement span member inside place
  · show statement.extentStart ≤ place
    omega
  · show place < statement.extentStop
    omega
  intro piece found
  rcases List.mem_append.mp found with leading | line
  · have apart := (List.pairwise_append.mp own.apart).2.2 piece leading _ List.mem_cons_self
    have apart : piece.stop ≤ statement.start := apart
    omega
  · rcases List.mem_cons.mp line with rfl | trailing
    · exact .inr above
    · rw [Option.mem_def.mp behind] at trailing
      rw [List.mem_singleton.mp trailing]
      exact .inl below

/-- The statements of a run are ranged over it. -/
theorem ranged_run (formed : script.WellFormed)
    (span : declarationSpan? script.statements = some (start, stop)) {run : List Item}
    (some : run ≠ []) (located : ∀ item ∈ run, script.Locates start stop item)
    (chain : run.IsChain fun a b => a.index + 1 = b.index) :
    Statement.Ranged script.source (Block.runStretch run).start (Block.runStretch run).stop
      (run.map Item.statement) := by
  induction run with
  | nil => exact absurd rfl some
  | cons a rest ih =>
      have aLocated := located a List.mem_cons_self
      obtain ⟨place, found, _⟩ := aLocated.place
      have aMember := List.mem_of_getElem? found
      have first := formed.ranged_statement span aMember aLocated.inside
      cases rest with
      | nil => exact first
      | cons b others =>
          obtain ⟨next, chainRest⟩ := List.isChain_cons_cons.mp chain
          have bLocated := located b (by simp)
          obtain ⟨forward, blank⟩ := formed.blank_between_items span aLocated bLocated next
          have behind := ih (List.cons_ne_nil _ _)
            (fun item member => located item (List.mem_cons_of_mem _ member)) chainRest
          have nonneg : 0 ≤ a.stop := by
            have bounds := (formed.statement aMember).bounds
            show 0 ≤ a.statement.extentStop
            omega
          have within : b.start ≤ script.source.length := by
            obtain ⟨_, bFound, _⟩ := bLocated.place
            have bounds := (formed.statement (List.mem_of_getElem? bFound)).bounds
            show b.statement.extentStart ≤ _
            omega
          have length : a.stop + (script.source.slice a.stop b.start).length = b.start := by
            rw [Text.length_slice script.source nonneg forward within]
            omega
          have starts : (Block.runStretch (b :: others)).start = b.start := rfl
          rw [starts, ← length] at behind
          exact first.append (Text.stands_slice script.source nonneg forward within) blank behind

/-- The declarations of a fixed script are ranged over the text to which they have been rendered. -/
theorem ranged_settled (formed : script.WellFormed) {edit : Edit}
    (planned : edit ∈ (script.plan options).edits) :
    Statement.Ranged (script.fix options) (edit.start + script.preamble.length)
      (edit.start + script.preamble.length + (renderBlocks script.source
        (blocks (sortedItems options script.source script.statements))).length)
      (script.settled options (edit.start + script.preamble.length)) := by
  have span := (edit?_eq_some_iff.mp (edit?_of_mem_plan planned)).1
  have stands := formed.stands planned
  apply Statement.Ranged.placed Text.blank_blankLine rfl
    (blocks_ne_nil (sortedItems_ne_nil span)) stands
  intro spot member
  have found := snd_mem_of_mem_placed member
  have located : ∀ item ∈ spot.2.items, script.Locates edit.start edit.stop item :=
    fun item inBlock => formed.locates span ((mem_blocks found).2 item inBlock).1
  refine (formed.grounded span found).ranged_settled ?_ ?_ (stands.placed rfl spot member)
  · intro item inBlock
    obtain ⟨_, here, _⟩ := (located item inBlock).place
    exact formed.blank_gap span (List.mem_of_getElem? here) (located item inBlock).inside
  · intro run inRuns
    exact formed.ranged_run span (Block.ne_nil_of_mem_runs inRuns)
      (fun item inRun => located item (Block.mem_items_of_mem_runs inRuns inRun))
      (Block.isChain_of_mem_runs inRuns)

/-- The imports put in front of the declarations are ranged over their joined texts. -/
theorem ranged_hoisted (formed : script.WellFormed)
    (span : declarationSpan? script.statements = some (start, stop)) {target : Text} {place : Int}
    (some : interleavedImports script.statements ≠ [])
    (stands : target.Stands place (Text.join "\n"
      ((interleavedImports script.statements).map fun statement =>
        statement.text script.source))) :
    Statement.Ranged target place
      (place + (Text.join "\n" ((interleavedImports script.statements).map fun statement =>
        statement.text script.source)).length) (script.hoisted place) := by
  have each : script.hoisted place =
      (placed (fun statement => (statement.text script.source).length) 1 place
        (interleavedImports script.statements)).flatMap
          fun spot => [spot.2.written id id script.source spot.1] :=
    List.map_eq_flatMap
  rw [each]
  apply Statement.Ranged.placed Text.blank_break rfl some stands
  intro spot found
  have member := snd_mem_of_mem_placed found
  have inScript := ((mem_interleavedImports span).mp member).1
  have own := formed.statement inScript
  have here := stands.placed rfl spot found
  rw [← own.writtenText_id] at here ⊢
  exact own.ranged_written Text.reforms_id Text.reforms_id
    (formed.blank_gap span inScript (formed.import_inside span member)) here

/-- What a fix has written is ranged: the imports put in front of the declarations, and these. -/
theorem ranged_render (formed : script.WellFormed) {edit : Edit}
    (planned : edit ∈ (script.plan options).edits) :
    Statement.Ranged (script.fix options) edit.start
      (edit.start + (script.render options).length)
      (script.hoisted edit.start ++
        script.settled options (edit.start + script.preamble.length)) := by
  have span := (edit?_eq_some_iff.mp (edit?_of_mem_plan planned)).1
  have settled := formed.ranged_settled planned
  have stands := formed.stands_render planned
  rw [render_eq_preamble] at stands ⊢
  rw [List.length_append, Int.natCast_add, ← Int.add_assoc]
  by_cases none : interleavedImports script.statements = []
  · have empty : script.preamble = [] := by rw [preamble, none]
    have absent : script.hoisted edit.start = [] := by
      rw [hoisted, none]
      rfl
    rw [absent, List.nil_append]
    simpa [empty] using settled
  · have parted : script.preamble = Text.join "\n"
        ((interleavedImports script.statements).map fun statement =>
          statement.text script.source) ++ "\n\n".toList := by
      rw [preamble]
      split
      · exact absurd ‹_› none
      · rfl
    rw [parted] at stands settled ⊢
    rw [List.length_append, Int.natCast_add, ← Int.add_assoc] at settled ⊢
    exact (formed.ranged_hoisted span none stands.left.left).append stands.left.right
      Text.blank_blankLine settled

/-! ## What stands outside the span -/

theorem stacked_filter (formed : script.WellFormed) {chosen : Statement → Bool}
    (inside : ∀ statement ∈ script.statements.filter chosen,
      start ≤ statement.extentStart ∧ statement.extentStop ≤ stop) :
    Stretch.Stacked start stop ((script.statements.filter chosen).flatMap Statement.pieces) := by
  constructor
  · intro piece member
    obtain ⟨statement, found, inStatement⟩ := List.mem_flatMap.mp member
    have own := (formed.statement (List.mem_of_mem_filter found)).stacked
    have bounds := own.inside piece inStatement
    have extent := inside statement found
    omega
  · obtain ⟨each, across⟩ := List.pairwise_flatMap.mp formed.apart
    exact List.pairwise_flatMap.mpr
      ⟨fun statement found => each statement (List.mem_of_mem_filter found), across.filter _⟩

theorem inside_of_before (formed : script.WellFormed)
    (span : declarationSpan? script.statements = some (start, stop)) :
    ∀ statement ∈ script.statements.filter (fun statement =>
        statement.isImport && statement.start < start),
      0 ≤ statement.extentStart ∧ statement.extentStop ≤ start := by
  intro statement member
  obtain ⟨found, chosen⟩ := List.mem_filter.mp member
  rw [Bool.and_eq_true, decide_eq_true_eq] at chosen
  have bounds := (formed.statement found).bounds
  have forward := formed.span_bounds span
  rcases formed.import_inside_or_outside span found chosen.1 with before | behind | inside
  all_goals omega

theorem inside_of_behind (formed : script.WellFormed)
    (span : declarationSpan? script.statements = some (start, stop)) :
    ∀ statement ∈ script.statements.filter (fun statement =>
        statement.isImport && stop ≤ statement.start),
      stop ≤ statement.extentStart ∧ statement.extentStop ≤ script.source.length := by
  intro statement member
  obtain ⟨found, chosen⟩ := List.mem_filter.mp member
  rw [Bool.and_eq_true, decide_eq_true_eq] at chosen
  have bounds := (formed.statement found).bounds
  have forward := formed.span_bounds span
  rcases formed.import_inside_or_outside span found chosen.1 with before | behind | inside
  all_goals omega

/-- What stands before the declarations stays where it is. -/
theorem stands_before (formed : script.WellFormed) {edit : Edit}
    (planned : edit ∈ (script.plan options).edits) :
    (script.fix options).Stands 0 (script.source.slice 0 edit.start) := by
  have bounds := formed.span_bounds (edit?_eq_some_iff.mp (edit?_of_mem_plan planned)).1
  refine ⟨[], script.render options ++ script.source.onward edit.stop, ?_, rfl⟩
  rw [fix_of_mem_plan planned, Text.upTo_eq_slice _ bounds.1, List.append_assoc, List.nil_append]

/-- What stands behind the declarations stands behind the rendered text. -/
theorem stands_behind (formed : script.WellFormed) {edit : Edit}
    (planned : edit ∈ (script.plan options).edits) :
    (script.fix options).Stands (edit.start + (script.render options).length)
      (script.source.slice edit.stop script.source.length) := by
  have bounds := formed.span_bounds (edit?_eq_some_iff.mp (edit?_of_mem_plan planned)).1
  refine ⟨script.source.upTo edit.start ++ script.render options, [], ?_, ?_⟩
  · rw [fix_of_mem_plan planned, Text.onward_eq_slice _ (by omega) bounds.2.2, List.append_nil]
  · rw [List.length_append, Text.upTo_of_nonneg _ bounds.1, List.length_take]
    omega

theorem statement_relocated (formed : script.WellFormed) {edit : Edit}
    (planned : edit ∈ (script.plan options).edits) :
    ∀ statement ∈ (script.relocated options).statements,
      statement.WellFormed (script.fix options) := by
  have span := (edit?_eq_some_iff.mp (edit?_of_mem_plan planned)).1
  have bounds := formed.span_bounds span
  have written := formed.ranged_render planned
  rw [statements_relocated span]
  intro statement member
  rcases List.mem_append.mp member with front | behind
  · rw [List.append_assoc] at front
    rcases List.mem_append.mp front with before | rendered
    · have inside := formed.inside_of_before span statement before
      have own := formed.statement (List.mem_of_mem_filter before)
      rw [← statement.shift_zero]
      exact own.shift (Int.le_refl 0) (by omega) inside (formed.stands_before planned)
    · exact written.formed statement rendered
  · obtain ⟨original, found, rfl⟩ := List.mem_map.mp behind
    have inside := formed.inside_of_behind span original found
    have own := formed.statement (List.mem_of_mem_filter found)
    have place : edit.start + ((script.render options).length : Int) =
        edit.stop + ((script.render options).length - (edit.stop - edit.start)) := by omega
    have stands := formed.stands_behind planned
    rw [place] at stands
    exact own.shift (by omega) (Int.le_refl _) inside stands

/-- The pieces of a relocated script: those before the rendered text, in it and behind it. -/
theorem pieces_relocated
    (span : declarationSpan? script.statements = some (start, stop)) :
    (script.relocated options).pieces =
      (script.statements.filter fun statement =>
          statement.isImport && statement.start < start).flatMap Statement.pieces ++
        (script.hoisted start ++
          script.settled options (start + script.preamble.length)).flatMap Statement.pieces ++
        ((script.statements.filter fun statement =>
          statement.isImport && stop ≤ statement.start).flatMap Statement.pieces).map
            (Stretch.shift ((script.render options).length - (stop - start))) := by
  rw [pieces, statements_relocated span, List.append_assoc _ (script.hoisted _),
    List.flatMap_append, List.flatMap_append, Statement.flatMap_pieces_shift]

/-- After a fix the pieces stand one behind the other. -/
theorem stacked_relocated (formed : script.WellFormed) {edit : Edit}
    (planned : edit ∈ (script.plan options).edits) :
    Stretch.Stacked 0 (script.source.length +
        ((script.render options).length - (edit.stop - edit.start)))
      (script.relocated options).pieces := by
  have span := (edit?_eq_some_iff.mp (edit?_of_mem_plan planned)).1
  have bounds := formed.span_bounds span
  obtain ⟨texts, laid⟩ := (formed.ranged_render planned).laid
  have before := formed.stacked_filter (formed.inside_of_before span)
  have behind := (formed.stacked_filter (formed.inside_of_behind span)).shift
    ((script.render options).length - (edit.stop - edit.start))
  rw [pieces_relocated span]
  have front := before.append (Int.le_refl _) laid.stacked bounds.1 laid.le
  exact front.append (by omega) behind (by omega) (by omega)

/-- A fix keeps a script well-formed. -/
theorem relocated (formed : script.WellFormed) (edited : (script.plan options).edits ≠ []) :
    (script.relocated options).WellFormed := by
  obtain ⟨edit, planned⟩ := List.exists_mem_of_ne_nil _ edited
  have span := (edit?_eq_some_iff.mp (edit?_of_mem_plan planned)).1
  have source : (script.relocated options).source = script.fix options := by
    rw [Script.relocated, span]
  apply wellFormed_of_statements
  · rw [source]
    exact formed.statement_relocated planned
  · exact (formed.stacked_relocated planned).apart
  · intro newSpan found
    rw [declarationSpan?_relocated formed planned] at found
    obtain rfl := Option.mem_some_iff.mp found
    obtain ⟨texts, laid⟩ := (formed.ranged_render planned).laid
    rw [source]
    intro place above below outside
    dsimp only at above below
    apply laid.blankOutside place (by dsimp only; omega) below
    intro piece member
    apply outside piece
    rw [pieces_relocated span]
    exact List.mem_append_left _ (List.mem_append_right _ member)

end WellFormed

end Script

end DeclOrder

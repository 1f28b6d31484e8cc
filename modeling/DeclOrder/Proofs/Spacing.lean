import DeclOrder.Proofs.BlockLines
import DeclOrder.Proofs.PlannedEdit
import Mathlib

/-!
# Spacing

What the blanks between declarations in order decide.  The lines of the rendered text stand one
behind the other in the source, and both texts collapse line by line; so they have the same
condensed form exactly when the blanks between two lines of the source collapse to a line feed,
that is, when they start and end with one.
-/

namespace DeclOrder

/-- Blanks can be told from the visible text behind them. -/
theorem Text.Blank.append_eq_append_iff {a b c d : Text} (aBlank : a.Blank) (cBlank : c.Blank)
    (bStarts : b.StartsVisible) (dStarts : d.StartsVisible) :
    a ++ b = c ++ d ↔ a = c ∧ b = d := by
  have front : ∀ {gap rest : Text}, gap.Blank → rest.StartsVisible →
      (gap ++ rest).takeWhile isBlank = gap := by
    intro gap rest blank starts
    obtain ⟨first, others, rfl⟩ := List.exists_cons_of_ne_nil starts.ne_nil
    rw [List.takeWhile_append_of_pos blank, List.takeWhile_cons, startsVisible_cons.mp starts]
    exact List.append_nil gap
  constructor
  · intro same
    have gaps := congrArg (List.takeWhile isBlank) same
    rw [front aBlank bStarts, front cBlank dStarts] at gaps
    subst gaps
    exact ⟨rfl, List.append_cancel_left same⟩
  · rintro ⟨rfl, rfl⟩
    rfl

namespace Stretch

/-- What stands between two stretches. -/
def gap (source : Text) (a b : Stretch) : Text :=
  source.slice a.stop b.start

/-- The second stretch stands behind the first, and only blanks stand between them. -/
def Links (source : Text) (a b : Stretch) : Prop :=
  a.stop ≤ b.start ∧ (gap source a b).Blank

/-- Blanks with a line feed among them stand between two stretches. -/
def Breaks (source : Text) (a b : Stretch) : Prop :=
  (gap source a b).Blank ∧ '\n' ∈ gap source a b

/-- What stands between two stretches starts and ends with a line feed. -/
def BreaksPlainly (source : Text) (a b : Stretch) : Prop :=
  (gap source a b).head? = some '\n' ∧ (gap source a b).getLast? = some '\n'

instance (source : Text) : DecidableRel (Breaks source) := fun a b =>
  inferInstanceAs (Decidable ((gap source a b).Blank ∧ '\n' ∈ gap source a b))

instance (source : Text) : DecidableRel (BreaksPlainly source) := fun a b =>
  inferInstanceAs (Decidable
    ((gap source a b).head? = some '\n' ∧ (gap source a b).getLast? = some '\n'))

/-- A stretch starts and ends with a visible character. -/
structure Solid (source : Text) (stretch : Stretch) : Prop where
  nonneg : 0 ≤ stretch.start
  forward : stretch.start ≤ stretch.stop
  starts : (stretch.text source).StartsVisible
  ends : (stretch.text source).EndsVisible

/-- A stretch consists of lines, each linked to the next. -/
inductive Lined (source : Text) : Stretch → List Stretch → Prop where
  | last {line : Stretch} (solid : line.Solid source) : Lined source line [line]
  | more {line inner : Stretch} {lines : List Stretch} (solid : line.Solid source)
      (links : line.Links source inner) (rest : Lined source inner lines) :
      Lined source ⟨line.start, inner.stop⟩ (line :: lines)

/-- Two linked stretches and the blanks between them make up the stretch over both. -/
theorem Links.text_eq {source : Text} {a b : Stretch} (links : a.Links source b)
    (nonneg : 0 ≤ a.start) (aForward : a.start ≤ a.stop) (bForward : b.start ≤ b.stop) :
    text source ⟨a.start, b.stop⟩ = a.text source ++ (gap source a b ++ b.text source) := by
  have apart := links.1
  rw [text, text, text, gap, Text.slice_append_slice source (by omega) apart bForward,
    Text.slice_append_slice source nonneg aForward (by omega)]

namespace Lined

variable {source : Text} {whole : Stretch} {lines : List Stretch}

theorem solid (lined : Lined source whole lines) : whole.Solid source := by
  induction lined with
  | last solid => exact solid
  | more solid links rest ih =>
      have apart := links.1
      have cut := links.text_eq solid.nonneg solid.forward ih.forward
      refine ⟨solid.nonneg, ?_, ?_, ?_⟩
      · exact Int.le_trans solid.forward (Int.le_trans apart ih.forward)
      · rw [cut]
        exact solid.starts.append _
      · rw [cut]
        exact (ih.ends.append _).append _

theorem eq_cons (lined : Lined source whole lines) :
    ∃ first rest, lines = first :: rest ∧ first.start = whole.start := by
  cases lined with
  | last => exact ⟨_, _, rfl, rfl⟩
  | more => exact ⟨_, _, rfl, rfl⟩

theorem ne_nil (lined : Lined source whole lines) : lines ≠ [] := by
  obtain ⟨first, rest, rfl, _⟩ := lined.eq_cons
  exact List.cons_ne_nil _ _

theorem solid_of_mem (lined : Lined source whole lines) :
    ∀ line ∈ lines, line.Solid source := by
  induction lined with
  | last solid =>
      intro line member
      rwa [List.mem_singleton.mp member]
  | more solid links rest ih =>
      intro line member
      rcases List.mem_cons.mp member with rfl | later
      · exact solid
      · exact ih line later

theorem append {other : Stretch} {others : List Stretch} (lined : Lined source whole lines)
    (links : whole.Links source other) (behind : Lined source other others) :
    Lined source ⟨whole.start, other.stop⟩ (lines ++ others) := by
  induction lined with
  | last solid => exact .more solid links behind
  | @more line inner lines solid linksRest rest ih =>
      have linksLonger : line.Links source ⟨inner.start, other.stop⟩ := linksRest
      have longer := Lined.more solid linksLonger (ih links)
      exact longer

/-- A stretch collapses like its lines put under each other exactly when the blanks between two of
them start and end with a line feed. -/
theorem collapse_text_eq_join_iff (lined : Lined source whole lines) :
    (whole.text source).collapse =
        Text.join "\n" (lines.map fun line => (line.text source).collapse) ↔
      lines.IsChain (BreaksPlainly source) := by
  induction lined with
  | last solid => simp
  | @more line inner lines solid links rest ih =>
      obtain ⟨first, others, rfl, starts⟩ := rest.eq_cons
      have innerSolid := rest.solid
      have sameGap : gap source line first = gap source line inner := by rw [gap, gap, starts]
      have blank : (gap source line inner).collapse.Blank := by
        rw [← Text.visible_eq_nil_iff, Text.visible_collapse, links.2.visible_eq]
      have present : (first :: others).map (fun line => (line.text source).collapse) ≠ [] :=
        List.cons_ne_nil _ _
      have joined : (Text.join "\n" ((first :: others).map fun line =>
          (line.text source).collapse)).StartsVisible :=
        Text.startsVisible_join (rest.solid_of_mem first List.mem_cons_self).starts.collapse
      rw [links.text_eq solid.nonneg solid.forward innerSolid.forward,
        Text.collapse_append (.inl solid.ends.closed),
        Text.collapse_append (.inr innerSolid.starts), List.map_cons, Text.join_cons present,
        List.append_cancel_left_eq,
        blank.append_eq_append_iff Text.blank_break innerSolid.starts.collapse joined, ih,
        List.isChain_cons_cons, BreaksPlainly, sameGap, ← links.2.collapse_eq_lineFeed_iff]
      rfl

end Lined

theorem isChain_links {source : Text} {list : List Stretch}
    (apart : list.Pairwise fun a b => a.stop ≤ b.start) (breaks : list.IsChain (Breaks source)) :
    list.IsChain (Links source) := by
  induction breaks with
  | nil => exact .nil
  | singleton => exact .singleton _
  | @cons_cons a b rest breaks later ih =>
      obtain ⟨behind, apartRest⟩ := List.pairwise_cons.mp apart
      exact .cons_cons ⟨behind b List.mem_cons_self, breaks.1⟩ (ih apartRest)

theorem lined_of_isChain {source : Text} {lines : List Stretch}
    (solid : ∀ line ∈ lines, line.Solid source) (links : lines.IsChain (Links source))
    {first last : Stretch} (head : lines.head? = some first)
    (final : lines.getLast? = some last) : Lined source ⟨first.start, last.stop⟩ lines := by
  induction lines generalizing first with
  | nil => cases head
  | cons line rest ih =>
      obtain rfl : line = first := Option.some.inj head
      cases rest with
      | nil =>
          obtain rfl : line = last := Option.some.inj final
          exact .last (solid line List.mem_cons_self)
      | cons next others =>
          obtain ⟨link, linksRest⟩ := List.isChain_cons_cons.mp links
          have inner := ih (fun line member => solid line (List.mem_cons_of_mem _ member)) linksRest
            rfl (by rwa [List.getLast?_cons_cons] at final)
          have linksLonger : line.Links source ⟨next.start, last.stop⟩ := link
          have lined := Lined.more (solid line List.mem_cons_self) linksLonger inner
          exact lined

/-- Parts whose items are linked are lined if each of them is. -/
theorem Lined.flatMap {α : Type} {source : Text} {items : α → List Item}
    {lines : α → List Stretch} {list : List α} (some : list ≠ [])
    (present : ∀ a ∈ list, items a ≠ [])
    (linked : (list.flatMap items).IsChain fun a b =>
      a.statement.extent.Links source b.statement.extent)
    (each : ∀ a ∈ list, Lined source (Block.runStretch (items a)) (lines a)) :
    Lined source (Block.runStretch (list.flatMap items)) (list.flatMap lines) := by
  induction list with
  | nil => exact absurd rfl some
  | cons a rest ih =>
      have lined := each a List.mem_cons_self
      cases rest with
      | nil => simpa using lined
      | cons b others =>
          rw [List.flatMap_cons, List.isChain_append] at linked
          obtain ⟨_, linkedRest, across⟩ := linked
          have aSome := present a List.mem_cons_self
          have restSome : (b :: others).flatMap items ≠ [] := by
            rw [List.flatMap_cons]
            exact List.append_ne_nil_of_left_ne_nil (present b (by simp)) _
          have inner := ih (List.cons_ne_nil _ _)
            (fun c member => present c (List.mem_cons_of_mem _ member)) linkedRest
            (fun c member => each c (List.mem_cons_of_mem _ member))
          have last := List.getLast?_eq_some_getLast aSome
          have next := List.head?_eq_some_head restSome
          have links : (Block.runStretch (items a)).Links source
              (Block.runStretch ((b :: others).flatMap items)) := by
            have link := across _ last _ next
            rw [Block.runStretch, Block.runStretch, last, next]
            exact link
          have whole := lined.append links inner
          rwa [← Block.runStretch_append aSome restSome] at whole

end Stretch

theorem Stretch.Solid.over {source : Text} {first last : Stretch} (firstSolid : first.Solid source)
    (lastSolid : last.Solid source) (starts : first.start ≤ last.start)
    (stops : first.stop ≤ last.stop) : Solid source ⟨first.start, last.stop⟩ := by
  have firstForward := firstSolid.forward
  have lastForward := lastSolid.forward
  have nonneg := firstSolid.nonneg
  refine ⟨nonneg, Int.le_trans firstForward stops, ?_, ?_⟩
  · rw [text, ← Text.slice_append_slice source nonneg firstForward stops]
    exact firstSolid.starts.append _
  · rw [text, ← Text.slice_append_slice source nonneg starts lastForward]
    exact lastSolid.ends.append _

theorem Statement.Arranged.solid_lines {source : Text} {statement : Statement}
    (arranged : statement.Arranged source.length)
    (visible : ∀ piece ∈ statement.pieces,
      (piece.text source).StartsVisible ∧ (piece.text source).EndsVisible) :
    ∀ line ∈ statement.lines, line.Solid source := by
  have solid : ∀ piece ∈ statement.pieces, piece.Solid source := by
    intro piece member
    have inside := arranged.inside piece member
    exact ⟨inside.1, Int.le_of_lt inside.2.1, (visible piece member).1, (visible piece member).2⟩
  intro line member
  rcases List.mem_append.mp member with comment | final
  · exact solid line (List.mem_append_left _ comment)
  · have body := solid _ statement.body_mem_pieces
    rw [List.mem_singleton.mp final, extentStop]
    cases behind : statement.trailing with
    | none => exact body
    | some comment =>
        have inTail : comment.stretch ∈
            statement.body :: statement.trailing.toList.map Comment.stretch := by simp [behind]
        have stops := (arranged.piece_inside statement.body_mem_pieces).2
        rw [extentStop, behind] at stops
        exact body.over (solid _ (List.mem_append_right _ inTail))
          (arranged.start_le_of_mem inTail) stops

theorem Statement.lined {source : Text} {statement : Statement}
    (arranged : statement.Arranged source.length)
    (visible : ∀ piece ∈ statement.pieces,
      (piece.text source).StartsVisible ∧ (piece.text source).EndsVisible)
    (breaks : statement.lines.IsChain (Stretch.Breaks source)) :
    statement.extent.Lined source statement.lines := by
  have solid := arranged.solid_lines visible
  have links := Stretch.isChain_links arranged.lines_apart breaks
  have head : ∃ first, statement.lines.head? = some first ∧
      first.start = statement.extentStart := by
    rw [lines, extentStart]
    cases statement.leading with
    | nil => exact ⟨_, rfl, rfl⟩
    | cons comment others => exact ⟨_, rfl, rfl⟩
  obtain ⟨first, isHead, starts⟩ := head
  have lined := Stretch.lined_of_isChain solid links isHead (List.getLast?_concat ..)
  rwa [starts] at lined

theorem Block.lined_items {source : Text} {items : List Item} (some : items ≠ [])
    (linked : items.IsChain fun a b => a.statement.extent.Links source b.statement.extent)
    (each : ∀ item ∈ items, item.statement.extent.Lined source item.statement.lines) :
    (runStretch items).Lined source (items.flatMap fun item => item.statement.lines) := by
  have single : items.flatMap (fun item => [item]) = items := List.flatMap_singleton' items
  have lined : (runStretch (items.flatMap fun item => [item])).Lined source
      (items.flatMap fun item => item.statement.lines) := by
    apply Stretch.Lined.flatMap some
    · exact fun item _ => List.cons_ne_nil _ _
    · rwa [single]
    · exact each
  rwa [single] at lined

/-- A block of linked items is lined with what it puts on lines of their own. -/
theorem Block.lined {source : Text} {block : Block} (some : block.items ≠ [])
    (linked : block.items.IsChain fun a b => a.statement.extent.Links source b.statement.extent)
    (each : ∀ item ∈ block.items, item.statement.extent.Lined source item.statement.lines) :
    (runStretch block.items).Lined source block.lines := by
  rw [lines]
  split
  · have flat : block.runs.flatMap id = block.items := by
      rw [List.flatMap_id, block.flatten_runs]
    have noneEmpty : [] ∉ block.runs := List.nil_notMem_splitBy _ _
    have inRuns := linked
    rw [← block.flatten_runs, List.isChain_flatten noneEmpty] at inRuns
    have lined : (runStretch (block.runs.flatMap id)).Lined source
        (block.runs.flatMap fun run => [runStretch run]) := by
      apply Stretch.Lined.flatMap (runs_ne_nil some)
      · exact fun run member => ne_nil_of_mem_runs member
      · rwa [flat]
      · intro run member
        have items := lined_items (ne_nil_of_mem_runs member) (inRuns.1 run member)
          fun item inRun => each item (mem_items_of_mem_runs member inRun)
        exact .last items.solid
    rwa [flat, ← List.map_eq_flatMap] at lined
  · exact lined_items some linked each

/-! ## Rendered lines -/

section Rendered

variable {source : Text}

/-- Texts with visible ends that are put under each other have visible ends and collapse one by
one. -/
theorem Text.collapse_join_of_visible {separator : String}
    (feed : collapse separator.toList = ['\n']) {texts : List Text} (some : texts ≠ [])
    (visible : ∀ text ∈ texts, text.StartsVisible ∧ text.EndsVisible) :
    (join separator texts).StartsVisible ∧ (join separator texts).EndsVisible ∧
      (join separator texts).collapse = join "\n" (texts.map collapse) := by
  refine ⟨?_, endsVisible_join some fun text member => (visible text member).2,
    collapse_join feed (fun text member => (visible text member).1)
      fun text member => (visible text member).2.closed⟩
  obtain ⟨first, rest, rfl⟩ := List.exists_cons_of_ne_nil some
  exact startsVisible_join (visible first List.mem_cons_self).1

/-- A rendered block collapses to its collapsed lines. -/
theorem Block.collapse_render {block : Block} (quotes : block.Quotes source)
    (some : block.lines ≠ []) (solid : ∀ line ∈ block.lines, line.Solid source) :
    (block.render source).StartsVisible ∧ (block.render source).EndsVisible ∧
      (block.render source).collapse =
        Text.join "\n" (block.lines.map fun line => (line.text source).collapse) := by
  have visible : ∀ text ∈ block.lines.map (Stretch.text source),
      text.StartsVisible ∧ text.EndsVisible := by
    intro text member
    obtain ⟨line, inLines, rfl⟩ := List.mem_map.mp member
    exact ⟨(solid line inLines).starts, (solid line inLines).ends⟩
  have present : block.lines.map (Stretch.text source) ≠ [] := by simpa using some
  obtain ⟨starts, ends, collapsed⟩ :=
    Text.collapse_join_of_visible Text.collapse_break present visible
  rw [List.map_map] at collapsed
  rw [render_eq quotes]
  split
  · exact ⟨starts, ends, collapsed⟩
  · rw [Text.condense_of_visible_ends starts ends, Text.collapse_collapse]
    exact ⟨starts.collapse, ends.collapse, collapsed⟩

/-- Rendered blocks collapse to their collapsed lines. -/
theorem collapse_renderBlocks {list : List Block} (some : list ≠ [])
    (quotes : ∀ block ∈ list, block.Quotes source)
    (present : ∀ block ∈ list, block.lines ≠ [])
    (solid : ∀ block ∈ list, ∀ line ∈ block.lines, line.Solid source) :
    (renderBlocks source list).StartsVisible ∧ (renderBlocks source list).EndsVisible ∧
      (renderBlocks source list).collapse =
        Text.join "\n" ((list.flatMap Block.lines).map fun line =>
          (line.text source).collapse) := by
  have each := fun block member =>
    Block.collapse_render (quotes block member) (present block member) (solid block member)
  have visible : ∀ text ∈ list.map (Block.render source),
      text.StartsVisible ∧ text.EndsVisible := by
    intro text member
    obtain ⟨block, inList, rfl⟩ := List.mem_map.mp member
    exact ⟨(each block inList).1, (each block inList).2.1⟩
  have rendered : list.map (Block.render source) ≠ [] := by simpa using some
  obtain ⟨starts, ends, collapsed⟩ :=
    Text.collapse_join_of_visible Text.collapse_blankLine rendered visible
  refine ⟨starts, ends, collapsed.trans ?_⟩
  rw [List.map_map, List.map_flatMap,
    Text.join_flatMap fun block member => by simpa using present block member]
  exact congrArg _ (List.map_congr_left fun block member => (each block member).2.2)

end Rendered

namespace Script

/-- The stretches of the source that a script's rendered text puts on lines of their own. -/
def lines (options : Options) (script : Script) : List Stretch :=
  (blocks (sortedItems options script.source script.statements)).flatMap Block.lines

/-- No import stands among the declarations, no piece of a declaration has blanks at its ends, and
blanks with a line feed among them stand behind each comment before a declaration and between two
declarations. -/
structure Spaced (script : Script) : Prop extends Arranged script where
  imports : interleavedImports script.statements = []
  visible : ∀ statement ∈ declarations script.statements, ∀ piece ∈ statement.pieces,
    (piece.text script.source).StartsVisible ∧ (piece.text script.source).EndsVisible
  comments : ∀ statement ∈ declarations script.statements,
    statement.lines.IsChain (Stretch.Breaks script.source)
  breaks : ((declarations script.statements).map Statement.extent).IsChain
    (Stretch.Breaks script.source)

instance (script : Script) : Decidable script.Spaced :=
  decidable_of_iff
    (script.Arranged ∧ (interleavedImports script.statements).isEmpty = true ∧
      (∀ statement ∈ declarations script.statements, ∀ piece ∈ statement.pieces,
        (piece.text script.source).StartsVisible ∧ (piece.text script.source).EndsVisible) ∧
      (∀ statement ∈ declarations script.statements,
        statement.lines.IsChain (Stretch.Breaks script.source)) ∧
      ((declarations script.statements).map Statement.extent).IsChain
        (Stretch.Breaks script.source))
    ⟨fun ⟨arranged, imports, visible, comments, breaks⟩ =>
        ⟨arranged, List.isEmpty_iff.mp imports, visible, comments, breaks⟩,
      fun ⟨arranged, imports, visible, comments, breaks⟩ =>
        ⟨arranged, List.isEmpty_iff.mpr imports, visible, comments, breaks⟩⟩

section InOrder

variable {options : Options} {script : Script}

namespace Spaced

theorem linked_items (spaced : script.Spaced)
    (inOrder : (sortedItems options script.source script.statements).map Item.statement =
      declarations script.statements) :
    (sortedItems options script.source script.statements).IsChain fun a b =>
      a.statement.extent.Links script.source b.statement.extent := by
  have links := Stretch.isChain_links (List.pairwise_map.mpr spaced.declarations_apart)
    spaced.breaks
  rw [← inOrder, List.map_map, List.isChain_map] at links
  exact links

theorem lined_block (spaced : script.Spaced)
    (inOrder : (sortedItems options script.source script.statements).map Item.statement =
      declarations script.statements) {block : Block}
    (member : block ∈ blocks (sortedItems options script.source script.statements)) :
    (Block.runStretch block.items).Lined script.source block.lines := by
  have linked := spaced.linked_items inOrder
  rw [← List.flatten_splitBy (fun a b : Item => a.tag.group = b.tag.group)
    (sortedItems options script.source script.statements),
    List.isChain_flatten (List.nil_notMem_splitBy _ _)] at linked
  apply Block.lined (Block.items_ne_nil_of_mem member) (linked.1 _ (mem_blocks member).1)
  intro item inBlock
  have declared : item.statement ∈ declarations script.statements := by
    rw [← inOrder]
    exact List.mem_map_of_mem ((mem_blocks member).2 item inBlock).1
  exact Statement.lined (spaced.statement (mem_declarations.mp declared).1)
    (spaced.visible _ declared) (spaced.comments _ declared)

/-- The span of declarations in order is lined with the lines of the rendered text. -/
theorem lined (spaced : script.Spaced)
    (inOrder : (sortedItems options script.source script.statements).map Item.statement =
      declarations script.statements) {start stop : Int}
    (span : declarationSpan? script.statements = some (start, stop)) :
    Stretch.Lined script.source ⟨start, stop⟩ (script.lines options) := by
  obtain ⟨first, last, head, final, rfl, rfl⟩ := declarationSpan?_eq_some_iff.mp span
  have whole : Block.runStretch (sortedItems options script.source script.statements) =
      ⟨first.extentStart, last.extentStop⟩ := by
    rw [← inOrder, List.head?_map] at head
    rw [← inOrder, List.getLast?_map] at final
    obtain ⟨firstItem, isFirst, rfl⟩ := Option.map_eq_some_iff.mp head
    obtain ⟨lastItem, isLast, rfl⟩ := Option.map_eq_some_iff.mp final
    rw [Block.runStretch, isFirst, isLast]
    rfl
  have items := flatMap_items_blocks (sortedItems options script.source script.statements)
  rw [← whole, ← items]
  apply Stretch.Lined.flatMap (blocks_ne_nil (sortedItems_ne_nil span))
  · exact fun block member => Block.items_ne_nil_of_mem member
  · rw [items]
    exact spaced.linked_items inOrder
  · exact fun block member => spaced.lined_block inOrder member

end Spaced

/-- The blanks between declarations that are in order are reported exactly when they do more than
break lines: no edit and no finding is planned if and only if what stands between two lines of the
rendered text starts and ends, in the source, with a line feed. -/
theorem plan_inOrder_eq_empty_iff (spaced : script.Spaced)
    (inOrder : (sortedItems options script.source script.statements).map Item.statement =
      declarations script.statements) :
    script.plan options = {} ↔
      (script.lines options).IsChain (Stretch.BreaksPlainly script.source) := by
  rw [plan_eq_empty_iff]
  by_cases none : declarations script.statements = []
  · have items : sortedItems options script.source script.statements = [] := by
      rw [← inOrder] at none
      exact List.map_eq_nil_iff.mp none
    have silent : script.edit? options = Option.none := by
      simp [edit?, decideEdit, declarationSpan?, none]
    rw [silent, lines, items]
    simp [blocks]
  · obtain ⟨start, stop, span⟩ := exists_declarationSpan? none
    have lined := spaced.lined inOrder span
    have render : script.render options = renderBlocks script.source
        (blocks (sortedItems options script.source script.statements)) := by
      rw [Script.render, spaced.imports]
    obtain ⟨starts, ends, collapsed⟩ := collapse_renderBlocks
      (blocks_ne_nil (sortedItems_ne_nil span)) (fun block member => spaced.quotes member)
      (fun block member => (spaced.lined_block inOrder member).ne_nil)
      fun block member => (spaced.lined_block inOrder member).solid_of_mem
    have condensed : (script.source.slice start stop).condense =
        (script.source.slice start stop).collapse :=
      Text.condense_of_visible_ends lined.solid.starts lined.solid.ends
    rw [edit?_eq_none_iff span, condensed, render, Text.condense_of_visible_ends starts ends,
      collapsed]
    exact lined.collapse_text_eq_join_iff

end InOrder

/-- Two plain variables with the given blanks between them. -/
def twoVariables (gap : Text) : Script where
  path := "Pair.vue"
  source := "const a = 1".toList ++ gap ++ "const b = 2".toList
  statements :=
    [{ kind := .variables, start := 0, stop := 11, initializer := some { kind := .other } },
     { kind := .variables, start := 11 + gap.length, stop := 22 + gap.length
       initializer := some { kind := .other } }]

theorem plan_twoVariables_blankLines :
    (twoVariables "\n \n\n".toList).Spaced ∧ (twoVariables "\n \n\n".toList).plan {} = {} := by
  have spaced : (twoVariables "\n \n\n".toList).Spaced := by decide +kernel
  have plainly : ((twoVariables "\n \n\n".toList).lines {}).IsChain
      (Stretch.BreaksPlainly (twoVariables "\n \n\n".toList).source) := by
    cbv
    decide
  exact ⟨spaced, (plan_inOrder_eq_empty_iff spaced (by cbv)).mpr plainly⟩

/-- An indented declaration is reported although the declarations are in order. -/
theorem indentation_is_reported :
    ¬ ∀ (options : Options) (script : Script), script.Spaced →
      (sortedItems options script.source script.statements).map Item.statement =
        declarations script.statements → script.plan options = {} := by
  intro silent
  have spaced : (twoVariables "\n  ".toList).Spaced := by decide +kernel
  have planned := congrArg (fun plan => plan.edits.length) (silent {} _ spaced (by cbv))
  have edited : ((twoVariables "\n  ".toList).plan {}).edits.length = 1 := by cbv
  exact absurd (edited.symm.trans planned) (by decide)

end Script

end DeclOrder

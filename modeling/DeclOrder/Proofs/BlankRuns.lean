import DeclOrder.Text.BlankLines
import Mathlib.Data.List.DropRight
import Mathlib.Data.List.SplitBy

/-!
# Runs of blanks

How the condensed form of a text depends on its parts.  Collapsing works on one run of blanks at a
time, so it commutes with cutting a text wherever no run with a line feed is cut; neither
collapsing nor trimming touches a visible character.
-/

namespace DeclOrder

/-- All members of a run of equal keys have the same key. -/
theorem eq_of_mem_splitBy {α β : Type} [DecidableEq β] {key : α → β} {list run : List α}
    (member : run ∈ list.splitBy fun a b => key a = key b) :
    ∀ a ∈ run, ∀ b ∈ run, key a = key b := by
  have chain : run.IsChain fun a b => key a = key b :=
    (List.isChain_of_mem_splitBy member).imp fun a b same => of_decide_eq_true same
  have transitive : IsTrans α fun a b => key a = key b := ⟨fun _ _ _ => Eq.trans⟩
  have symmetric : Std.Symm fun a b : α => key a = key b := ⟨fun _ _ => Eq.symm⟩
  intro a aMember b bMember
  exact List.Pairwise.forall_of_forall (R := fun a b : α => key a = key b)
    (fun _ _ => rfl) chain.pairwise aMember bMember

namespace Text

/-- The characters of a text that are not blank. -/
def visible (text : Text) : Text :=
  text.filter fun c => !isBlank c

/-- All characters of the text are blank. -/
def Blank (text : Text) : Prop :=
  ∀ c ∈ text, isBlank c = true

/-- The text has a first character, and it is visible. -/
def StartsVisible (text : Text) : Prop :=
  ∃ c ∈ text.head?, isBlank c = false

/-- The text has a last character, and it is visible. -/
def EndsVisible (text : Text) : Prop :=
  ∃ c ∈ text.getLast?, isBlank c = false

/-- No line feed stands among the blanks at the end of the text. -/
def Closed (text : Text) : Prop :=
  '\n' ∉ text.rtakeWhile isBlank

instance (text : Text) : Decidable text.Blank :=
  decidable_of_iff (text.all isBlank = true) List.all_eq_true

instance (text : Text) : Decidable text.StartsVisible :=
  decidable_of_iff (text.head?.any (fun c => !isBlank c) = true)
    (by simp [StartsVisible, Option.any_eq_true])

instance (text : Text) : Decidable text.EndsVisible :=
  decidable_of_iff (text.getLast?.any (fun c => !isBlank c) = true)
    (by simp [EndsVisible, Option.any_eq_true])

instance (text : Text) : Decidable text.Closed :=
  inferInstanceAs (Decidable ('\n' ∉ text.rtakeWhile isBlank))

theorem isBlank_lineFeed : isBlank '\n' = true := by
  decide

theorem blank_break : Blank "\n".toList := by
  decide

theorem blank_blankLine : Blank "\n\n".toList := by
  decide

/-! ## Visible characters -/

@[simp] theorem visible_append (a b : Text) : visible (a ++ b) = a.visible ++ b.visible :=
  List.filter_append ..

theorem visible_cons_of_blank {c : Char} (blank : isBlank c = true) (rest : Text) :
    visible (c :: rest) = rest.visible := by
  simp [visible, blank]

theorem visible_eq_nil_iff {text : Text} : text.visible = [] ↔ text.Blank := by
  simp [visible, Blank, List.filter_eq_nil_iff]

theorem Blank.visible_eq {text : Text} (blank : text.Blank) : text.visible = [] :=
  visible_eq_nil_iff.mpr blank

theorem blank_takeWhile (text : Text) : Blank (text.takeWhile isBlank) := by
  intro c member
  exact List.mem_takeWhile_imp member

theorem visible_dropWhile (text : Text) : visible (text.dropWhile isBlank) = text.visible := by
  have parts := congrArg visible (List.takeWhile_append_dropWhile (p := isBlank) (l := text))
  rwa [visible_append, (blank_takeWhile text).visible_eq, List.nil_append] at parts

/-- A cut among the visible characters lifts to a cut of the text. -/
theorem exists_of_visible_eq_append {text a b : Text} (parts : text.visible = a ++ b) :
    ∃ first second, text = first ++ second ∧ first.visible = a ∧ second.visible = b :=
  List.filter_eq_append_iff.mp parts

/-! ## The two ends of a text -/

theorem startsVisible_cons {c : Char} {rest : Text} :
    StartsVisible (c :: rest) ↔ isBlank c = false := by
  simp [StartsVisible]

theorem endsVisible_concat {c : Char} {rest : Text} :
    EndsVisible (rest ++ [c]) ↔ isBlank c = false := by
  simp [EndsVisible]

theorem StartsVisible.ne_nil {text : Text} (starts : text.StartsVisible) : text ≠ [] := by
  rintro rfl
  simp [StartsVisible] at starts

theorem EndsVisible.ne_nil {text : Text} (ends : text.EndsVisible) : text ≠ [] := by
  rintro rfl
  simp [EndsVisible] at ends

theorem StartsVisible.append {a : Text} (starts : a.StartsVisible) (b : Text) :
    StartsVisible (a ++ b) := by
  cases a with
  | nil => exact absurd rfl starts.ne_nil
  | cons c rest => exact startsVisible_cons.mpr (startsVisible_cons.mp starts)

theorem EndsVisible.append {b : Text} (ends : b.EndsVisible) (a : Text) :
    EndsVisible (a ++ b) := by
  obtain ⟨c, last, visible⟩ := ends
  exact ⟨c, by simp [Option.mem_def.mp last], visible⟩

theorem Closed.tail {c : Char} {rest : Text} (closed : Closed (c :: rest)) : Closed rest := by
  intro member
  apply closed
  rw [List.rtakeWhile, List.mem_reverse] at member ⊢
  rw [List.reverse_cons, List.takeWhile_append]
  split
  · exact List.mem_append_left _ (List.takeWhile_subset _ member)
  · exact member

theorem Closed.dropWhile {text : Text} (closed : text.Closed) :
    Closed (text.dropWhile isBlank) := by
  induction text with
  | nil => exact closed
  | cons c rest ih =>
      rw [List.dropWhile_cons]
      split
      · exact ih closed.tail
      · exact closed

/-- A line feed at the start of a closed text is followed by something visible. -/
theorem Closed.not_blank {rest : Text} (closed : Closed ('\n' :: rest)) : ¬ Blank rest := by
  intro blank
  have whole : ∀ c ∈ '\n' :: rest, isBlank c = true := by
    intro c member
    rcases List.mem_cons.mp member with rfl | later
    · exact isBlank_lineFeed
    · exact blank c later
  apply closed
  rw [List.rtakeWhile_eq_self_iff.mpr whole]
  exact List.mem_cons_self

theorem EndsVisible.closed {text : Text} (ends : text.EndsVisible) : text.Closed := by
  obtain ⟨c, last, visible⟩ := ends
  obtain ⟨front, rfl⟩ := List.getLast?_eq_some_iff.mp last
  simp [Closed, visible]

theorem Closed.append {b : Text} (closed : b.Closed) (starts : b.StartsVisible) (a : Text) :
    Closed (a ++ b) := by
  obtain ⟨c, first, visible⟩ := starts
  have stops : ¬ ∀ d ∈ b.reverse, isBlank d = true := by
    intro blank
    have := blank c (List.mem_reverse.mpr (List.mem_of_mem_head? first))
    exact Bool.noConfusion (visible.symm.trans this)
  have shorter : (b.reverse.takeWhile isBlank).length ≠ b.reverse.length := fun same =>
    stops (List.takeWhile_eq_self_iff.mp ((List.takeWhile_prefix _).eq_of_length same))
  rw [Closed, List.rtakeWhile, List.reverse_append, List.takeWhile_append, if_neg shorter]
  exact closed

theorem EndsVisible.closed_append {a : Text} (ends : a.EndsVisible) {b : Text}
    (absent : '\n' ∉ b) : Closed (a ++ b) := by
  obtain ⟨c, last, visible⟩ := ends
  obtain ⟨front, rfl⟩ := List.getLast?_eq_some_iff.mp last
  intro member
  rw [List.rtakeWhile, List.mem_reverse, List.reverse_append, List.takeWhile_append] at member
  split at member
  · simp [visible] at member
    exact absent member
  · exact absent (List.mem_reverse.mp (List.takeWhile_subset _ member))

/-! ## Collapsing -/

theorem lastLine_of_not_mem {text : Text} (absent : '\n' ∉ text) : text.lastLine = text := by
  have whole : text.reverse.takeWhile (· ≠ '\n') = text.reverse := by
    rw [List.takeWhile_eq_self_iff]
    intro c member
    have different : c ≠ '\n' := fun same => absent (same ▸ List.mem_reverse.mp member)
    simp [different]
  rw [lastLine, whole, List.reverse_reverse]

theorem not_mem_lastLine (text : Text) : '\n' ∉ text.lastLine := by
  intro member
  have := List.mem_takeWhile_imp (List.mem_reverse.mp member)
  simp at this

theorem lastLine_subset (text : Text) : text.lastLine ⊆ text := by
  intro c member
  exact List.mem_reverse.mp (List.takeWhile_subset _ (List.mem_reverse.mp member))

@[simp] theorem collapse_nil : collapse [] = [] := by
  rw [collapse]

theorem collapse_cons_of_ne {c : Char} (other : c ≠ '\n') (rest : Text) :
    collapse (c :: rest) = c :: collapse rest := by
  rw [collapse, if_neg other]

/-- A text without line feeds keeps its form. -/
theorem collapse_of_not_mem {text : Text} (absent : '\n' ∉ text) : text.collapse = text := by
  induction text with
  | nil => exact collapse_nil
  | cons c rest ih =>
      rw [List.mem_cons, not_or] at absent
      rw [collapse_cons_of_ne (Ne.symm absent.1), ih absent.2]

theorem collapse_append_of_not_mem {a : Text} (absent : '\n' ∉ a) (b : Text) :
    collapse (a ++ b) = a ++ collapse b := by
  induction a with
  | nil => rfl
  | cons c rest ih =>
      rw [List.mem_cons, not_or] at absent
      rw [List.cons_append, collapse_cons_of_ne (Ne.symm absent.1), ih absent.2, List.cons_append]

/-- A line feed leaves, of the blanks behind it, those on the last line of the run. -/
theorem collapse_lineFeed (rest : Text) :
    collapse ('\n' :: rest) =
      '\n' :: (lastLine (rest.takeWhile isBlank) ++ collapse (rest.dropWhile isBlank)) := by
  rw [collapse, if_pos rfl, afterLastLineFeed?]
  by_cases present : '\n' ∈ rest.takeWhile isBlank
  · rw [if_pos present]
    rfl
  · rw [if_neg present, lastLine_of_not_mem present, ← collapse_append_of_not_mem present,
      List.takeWhile_append_dropWhile]

/-- Induction along the runs of blanks that collapsing visits. -/
theorem collapse_induction {motive : Text → Prop} (nil : motive [])
    (other : ∀ c rest, c ≠ '\n' → motive rest → motive (c :: rest))
    (lineFeed : ∀ rest, motive (rest.dropWhile isBlank) → motive ('\n' :: rest)) (text : Text) :
    motive text := by
  induction text using WellFounded.induction (measure List.length).wf with
  | h text ih =>
      cases text with
      | nil => exact nil
      | cons c rest =>
          by_cases feed : c = '\n'
          · subst feed
            exact lineFeed rest (ih _ (Nat.lt_succ_of_le (length_dropWhile_le isBlank rest)))
          · exact other c rest feed (ih rest (Nat.lt_succ_self _))

theorem visible_collapse (text : Text) : text.collapse.visible = text.visible := by
  induction text using collapse_induction with
  | nil => rw [collapse_nil]
  | other c rest feed ih =>
      rw [collapse_cons_of_ne feed]
      simp only [visible, List.filter_cons] at ih ⊢
      rw [ih]
  | lineFeed rest ih =>
      have blank : Blank (lastLine (rest.takeWhile isBlank)) := fun c member =>
        blank_takeWhile rest c (lastLine_subset _ member)
      rw [collapse_lineFeed, visible_cons_of_blank isBlank_lineFeed, visible_append,
        blank.visible_eq, ih, visible_dropWhile, List.nil_append,
        visible_cons_of_blank isBlank_lineFeed]

theorem length_collapse_le (text : Text) : text.collapse.length ≤ text.length := by
  induction text using collapse_induction with
  | nil => simp
  | other c rest feed ih =>
      rw [collapse_cons_of_ne feed]
      exact Nat.succ_le_succ ih
  | lineFeed rest ih =>
      have kept : (lastLine (rest.takeWhile isBlank)).length ≤ (rest.takeWhile isBlank).length := by
        rw [lastLine, List.length_reverse]
        exact Nat.le_trans (List.takeWhile_prefix _).length_le (Nat.le_of_eq List.length_reverse)
      have parts := congrArg List.length
        (List.takeWhile_append_dropWhile (p := isBlank) (l := rest))
      rw [List.length_append] at parts
      rw [collapse_lineFeed, List.length_cons, List.length_append, List.length_cons]
      omega

/-- Collapsing commutes with a cut that does not divide a run of blanks behind a line feed. -/
theorem collapse_append {a b : Text} (apart : a.Closed ∨ b.StartsVisible) :
    collapse (a ++ b) = a.collapse ++ b.collapse := by
  induction a using collapse_induction with
  | nil => simp
  | other c rest feed ih =>
      rw [List.cons_append, collapse_cons_of_ne feed, collapse_cons_of_ne feed,
        ih (apart.imp_left Closed.tail), List.cons_append]
  | lineFeed rest ih =>
      rw [List.cons_append, collapse_lineFeed, collapse_lineFeed]
      by_cases blank : Blank rest
      · have starts : b.StartsVisible := apart.resolve_left fun closed => closed.not_blank blank
        have none : b.takeWhile isBlank = [] ∧ b.dropWhile isBlank = b := by
          cases b with
          | nil => exact ⟨rfl, rfl⟩
          | cons c others => simp [startsVisible_cons.mp starts]
        rw [List.takeWhile_append_of_pos blank, List.dropWhile_append_of_pos blank, none.1, none.2,
          List.append_nil, List.takeWhile_eq_self_iff.mpr blank,
          List.dropWhile_eq_nil_iff.mpr blank, collapse_nil, List.append_nil]
        rfl
      · have shorter : (rest.takeWhile isBlank).length ≠ rest.length := fun same =>
          blank (List.takeWhile_eq_self_iff.mp ((List.takeWhile_prefix _).eq_of_length same))
        have remains : (rest.dropWhile isBlank).isEmpty = false := by
          rw [List.isEmpty_eq_false_iff, ne_eq, List.dropWhile_eq_nil_iff]
          exact blank
        rw [List.takeWhile_append, if_neg shorter, List.dropWhile_append, remains,
          if_neg Bool.false_ne_true, ih (apart.imp_left fun closed => closed.tail.dropWhile)]
        simp

theorem StartsVisible.collapse {text : Text} (starts : text.StartsVisible) :
    text.collapse.StartsVisible := by
  cases text with
  | nil => exact absurd rfl starts.ne_nil
  | cons c rest =>
      have visible := startsVisible_cons.mp starts
      have other : c ≠ '\n' := by
        rintro rfl
        exact Bool.noConfusion (visible.symm.trans isBlank_lineFeed)
      rw [collapse_cons_of_ne other]
      exact startsVisible_cons.mpr visible

theorem EndsVisible.collapse {text : Text} (ends : text.EndsVisible) :
    text.collapse.EndsVisible := by
  obtain ⟨c, last, visible⟩ := ends
  obtain ⟨front, rfl⟩ := List.getLast?_eq_some_iff.mp last
  have starts : StartsVisible [c] := startsVisible_cons.mpr visible
  have other : '\n' ∉ [c] := by
    rw [List.mem_singleton]
    rintro rfl
    exact Bool.noConfusion (visible.symm.trans isBlank_lineFeed)
  rw [collapse_append (.inr starts), collapse_of_not_mem other]
  exact endsVisible_concat.mpr visible

theorem startsVisible_dropWhile {text : Text} (some : ¬ text.Blank) :
    StartsVisible (text.dropWhile isBlank) := by
  cases shape : text.dropWhile isBlank with
  | nil => exact absurd (List.dropWhile_eq_nil_iff.mp shape) some
  | cons c rest =>
      have stopped := List.dropWhile_get_zero_not isBlank text (by simp [shape])
      exact startsVisible_cons.mpr (by simpa [shape] using stopped)

/-- What a line feed leaves of a run of blanks is already collapsed. -/
theorem collapse_lineFeed_lastLine {run : Text} (blank : Blank run) :
    collapse ('\n' :: run.lastLine) = '\n' :: run.lastLine := by
  have still : Blank run.lastLine := fun c member => blank c (lastLine_subset run member)
  rw [collapse_lineFeed, List.takeWhile_eq_self_iff.mpr still,
    List.dropWhile_eq_nil_iff.mpr still, collapse_nil, List.append_nil,
    lastLine_of_not_mem (not_mem_lastLine run)]

/-- Collapsing twice is collapsing once. -/
@[simp] theorem collapse_collapse (text : Text) : text.collapse.collapse = text.collapse := by
  induction text using collapse_induction with
  | nil => simp
  | other c rest feed ih =>
      rw [collapse_cons_of_ne feed, collapse_cons_of_ne feed, ih]
  | lineFeed rest ih =>
      have run := collapse_lineFeed_lastLine (blank_takeWhile rest)
      rw [collapse_lineFeed]
      by_cases empty : Blank rest
      · rw [List.dropWhile_eq_nil_iff.mpr empty, collapse_nil, List.append_nil, run]
      · have starts := (startsVisible_dropWhile empty).collapse
        rw [← List.cons_append, collapse_append (.inr starts), ih, run]

/-- A run of blanks collapses to a bare line feed exactly when it starts and ends with one. -/
theorem Blank.collapse_eq_lineFeed_iff {gap : Text} (blank : gap.Blank) :
    gap.collapse = ['\n'] ↔ gap.head? = some '\n' ∧ gap.getLast? = some '\n' := by
  cases gap with
  | nil => simp
  | cons c rest =>
      by_cases feed : c = '\n'
      · subst feed
        have others : Blank rest := fun c member => blank c (List.mem_cons_of_mem _ member)
        rw [collapse_lineFeed, List.takeWhile_eq_self_iff.mpr others,
          List.dropWhile_eq_nil_iff.mpr others, collapse_nil, List.append_nil]
        rcases List.eq_nil_or_concat rest with rfl | ⟨front, last, rfl⟩
        · simp [lastLine]
        · have behind : ('\n' :: (front ++ [last])).getLast? = some last :=
            List.getLast?_concat (l := '\n' :: front)
          by_cases final : last = '\n'
          · subst final
            simp [lastLine, behind]
          · simp [lastLine, final, behind]
      · rw [collapse_cons_of_ne feed]
        simp [feed]

theorem collapse_break : collapse "\n".toList = ['\n'] :=
  blank_break.collapse_eq_lineFeed_iff.mpr ⟨rfl, rfl⟩

theorem collapse_blankLine : collapse "\n\n".toList = ['\n'] :=
  blank_blankLine.collapse_eq_lineFeed_iff.mpr ⟨rfl, rfl⟩

/-! ## Trimming -/

theorem blank_rtakeWhile (text : Text) : Blank (text.rtakeWhile isBlank) := by
  intro c member
  exact List.mem_rtakeWhile_imp member

theorem trimEnd_append_rtakeWhile (text : Text) :
    text.trimEnd ++ text.rtakeWhile isBlank = text :=
  List.rdropWhile_append_rtakeWhile

theorem visible_trimEnd (text : Text) : text.trimEnd.visible = text.visible := by
  have parts := congrArg visible (trimEnd_append_rtakeWhile text)
  rwa [visible_append, (blank_rtakeWhile text).visible_eq, List.append_nil] at parts

theorem EndsVisible.trimEnd_eq {text : Text} (ends : text.EndsVisible) : text.trimEnd = text := by
  obtain ⟨c, last, visible⟩ := ends
  obtain ⟨front, rfl⟩ := List.getLast?_eq_some_iff.mp last
  exact List.rdropWhile_concat_neg isBlank front c (by simp [visible])

theorem endsVisible_trimEnd {text : Text} (some : ¬ text.Blank) : text.trimEnd.EndsVisible := by
  have present : text.rdropWhile isBlank ≠ [] := by
    rw [ne_eq, List.rdropWhile_eq_nil_iff]
    exact some
  refine ⟨_, List.getLast?_eq_some_getLast present, ?_⟩
  exact Bool.eq_false_iff.mpr (List.rdropWhile_last_not isBlank text present)

theorem StartsVisible.not_blank {text : Text} (starts : text.StartsVisible) : ¬ text.Blank := by
  intro blank
  obtain ⟨c, first, visible⟩ := starts
  exact Bool.noConfusion (visible.symm.trans (blank c (List.mem_of_mem_head? first)))

theorem StartsVisible.trimEnd {text : Text} (starts : text.StartsVisible) :
    text.trimEnd.StartsVisible := by
  have parts := trimEnd_append_rtakeWhile text
  have present := (endsVisible_trimEnd starts.not_blank).ne_nil
  cases front : text.trimEnd with
  | nil => exact absurd front present
  | cons c rest =>
      rw [front, List.cons_append] at parts
      rw [← parts] at starts
      exact startsVisible_cons.mpr (startsVisible_cons.mp starts)

theorem StartsVisible.trimStart_eq {text : Text} (starts : text.StartsVisible) :
    text.trimStart = text := by
  cases text with
  | nil => rfl
  | cons c rest => simp [trimStart, startsVisible_cons.mp starts]

theorem trimEnd_append {b : Text} (starts : b.StartsVisible) (a : Text) :
    (a ++ b).trimEnd = a ++ b.trimEnd := by
  have remains : (b.reverse.dropWhile isBlank).isEmpty = false := by
    rw [List.isEmpty_eq_false_iff, ne_eq, List.dropWhile_eq_nil_iff]
    intro blank
    exact starts.not_blank fun c member => blank c (List.mem_reverse.mpr member)
  rw [Text.trimEnd, Text.trimEnd, List.reverse_append, List.dropWhile_append, remains,
    if_neg Bool.false_ne_true, List.reverse_append, List.reverse_reverse]

theorem Closed.collapse {text : Text} (closed : text.Closed) (starts : text.StartsVisible) :
    text.collapse.Closed := by
  have ends := endsVisible_trimEnd starts.not_blank
  rw [← trimEnd_append_rtakeWhile text, collapse_append (.inl ends.closed),
    collapse_of_not_mem closed]
  exact ends.collapse.closed_append closed

/-! ## Condensing -/

/-- The condensed form has the visible characters of the text. -/
theorem visible_condense (text : Text) : text.condense.visible = text.visible := by
  rw [condense, trim, visible_trimEnd, trimStart, visible_dropWhile, visible_collapse]

theorem StartsVisible.condense_eq {text : Text} (starts : text.StartsVisible) :
    text.condense = text.collapse.trimEnd := by
  rw [condense, trim, starts.collapse.trimStart_eq]

theorem condense_of_visible_ends {text : Text} (starts : text.StartsVisible)
    (ends : text.EndsVisible) : text.condense = text.collapse := by
  rw [starts.condense_eq, ends.collapse.trimEnd_eq]

/-- Condensing a text that starts visibly does not change its condensed form. -/
theorem StartsVisible.condense_condense {text : Text} (starts : text.StartsVisible) :
    text.condense.condense = text.condense := by
  have startsAgain := starts.collapse.trimEnd
  have ends := endsVisible_trimEnd starts.collapse.not_blank
  have parts := trimEnd_append_rtakeWhile text.collapse
  -- Neither part of the collapsed text can get shorter, so collapsing keeps both.
  have fixed : text.collapse.trimEnd.collapse ++ Text.collapse (text.collapse.rtakeWhile isBlank) =
      text.collapse.trimEnd ++ text.collapse.rtakeWhile isBlank := by
    rw [← collapse_append (.inl ends.closed), parts, collapse_collapse]
  have same : text.collapse.trimEnd.collapse.length = text.collapse.trimEnd.length := by
    have lengths := congrArg List.length fixed
    have front := length_collapse_le text.collapse.trimEnd
    have back := length_collapse_le (text.collapse.rtakeWhile isBlank)
    rw [List.length_append, List.length_append] at lengths
    omega
  rw [starts.condense_eq, condense_of_visible_ends startsAgain ends]
  exact (List.append_inj fixed same).1

end Text

end DeclOrder

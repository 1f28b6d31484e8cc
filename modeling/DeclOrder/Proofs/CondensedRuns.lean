import DeclOrder.Proofs.BlankRuns

/-!
# The condensed form, run by run

A text is blank and visible in turn.  Condensing works on the blank stretches one by one: of a
stretch with two line feeds or more there remain what stands before the first one, one line feed,
and what stands behind the last one.  Then the blanks at both ends of the text are dropped.
-/

namespace DeclOrder.Text

/-- The longest stretches of a text that are blank throughout or visible throughout. -/
def runs (text : Text) : List Text :=
  text.splitBy fun a b => isBlank a = isBlank b

/-- A text is cut into stretches that are blank and visible in turn. -/
structure CutIntoRuns (text : Text) (list : List Text) : Prop where
  present : ∀ run ∈ list, run ≠ []
  whole : list.flatten = text
  even : ∀ run ∈ list, ∀ a ∈ run, ∀ b ∈ run, isBlank a = isBlank b
  inTurn : list.IsChain fun run next => ¬(run.Blank ↔ next.Blank)

/-- A run of blanks with two line feeds or more, without what stands between the first and the last
of them; any other run stays as it is. -/
def squeeze (run : Text) : Text :=
  if run.Blank ∧ 2 ≤ run.lineFeeds then run.takeWhile (· ≠ '\n') ++ '\n' :: run.lastLine else run

/-! ## The runs of a text -/

section Even

variable {run : Text} (even : ∀ a ∈ run, ∀ b ∈ run, isBlank a = isBlank b)

include even

theorem blank_iff_of_even {c : Char} (member : c ∈ run) : run.Blank ↔ isBlank c = true :=
  ⟨fun blank => blank c member, fun blank a found => (even a found c member).trans blank⟩

/-- A run that is not blank starts and ends visibly, and it has no line feed. -/
theorem visible_of_even (present : run ≠ []) (some : ¬run.Blank) :
    run.StartsVisible ∧ run.EndsVisible ∧ '\n' ∉ run := by
  have visible : ∀ c ∈ run, isBlank c = false := fun c member =>
    Bool.eq_false_iff.mpr (mt (blank_iff_of_even even member).mpr some)
  refine ⟨⟨_, List.head_mem_head? present, visible _ (List.head_mem present)⟩,
    ⟨_, List.getLast?_eq_some_getLast present, visible _ (List.getLast_mem present)⟩, ?_⟩
  intro feed
  exact Bool.noConfusion ((visible _ feed).symm.trans isBlank_lineFeed)

end Even

theorem cutIntoRuns_runs (text : Text) : CutIntoRuns text text.runs where
  present _ := List.ne_nil_of_mem_splitBy
  whole := List.flatten_splitBy ..
  even _ := eq_of_mem_splitBy
  inTurn := by
    have changes := List.isChain_getLast_head_splitBy
      (fun a b : Char => isBlank a = isBlank b) text
    apply changes.imp_of_mem_imp
    rintro run next runMember nextMember ⟨runSome, nextSome, different⟩
    rw [blank_iff_of_even (eq_of_mem_splitBy runMember) (List.getLast_mem runSome),
      blank_iff_of_even (eq_of_mem_splitBy nextMember) (List.head_mem nextSome),
      ← Bool.eq_iff_iff]
    exact of_decide_eq_false different

/-! ## Collapsing run by run -/

theorem takeWhile_append_lineFeed {front : Text} (absent : '\n' ∉ front) (rest : Text) :
    (front ++ '\n' :: rest).takeWhile (· ≠ '\n') = front := by
  have pass : ∀ c ∈ front, decide (c ≠ '\n') = true := fun c member =>
    decide_eq_true fun same => absent (same ▸ member)
  rw [List.takeWhile_append_of_pos pass, List.takeWhile_cons_of_neg (by simp), List.append_nil]

theorem lastLine_append_lineFeed (front rest : Text) :
    lastLine (front ++ '\n' :: rest) = rest.lastLine := by
  rw [lastLine, lastLine, List.reverse_append, List.reverse_cons, List.append_assoc,
    List.takeWhile_append]
  split
  · rename_i same
    rw [(List.takeWhile_prefix _).eq_of_length same, List.singleton_append,
      List.takeWhile_cons_of_neg (by simp), List.append_nil]
  · rfl

/-- A run of blanks collapses by being squeezed. -/
theorem Blank.collapse_eq_squeeze {run : Text} (blank : run.Blank) :
    run.collapse = squeeze run := by
  by_cases feed : '\n' ∈ run
  · obtain ⟨front, rest, rfl, absent⟩ := List.eq_append_cons_of_mem feed
    have behind : Blank rest := fun c member => blank c (by simp [member])
    have feeds : lineFeeds (front ++ '\n' :: rest) = lineFeeds rest + 1 := by
      rw [lineFeeds, List.count_append, List.count_eq_zero.mpr absent, List.count_cons_self,
        Nat.zero_add, lineFeeds]
    rw [collapse_append_of_not_mem absent, collapse_lineFeed, List.takeWhile_eq_self_iff.mpr behind,
      List.dropWhile_eq_nil_iff.mpr behind, collapse_nil, List.append_nil, squeeze, feeds]
    split
    · rw [takeWhile_append_lineFeed absent, lastLine_append_lineFeed]
    · rename_i fewer
      have none : '\n' ∉ rest := by
        rw [← List.count_eq_zero]
        show lineFeeds rest = 0
        have := not_and.mp fewer blank
        omega
      rw [lastLine_of_not_mem none]
  · have none : run.lineFeeds = 0 := List.count_eq_zero.mpr feed
    rw [collapse_of_not_mem feed, squeeze, if_neg (by omega)]

namespace CutIntoRuns

variable {text run : Text} {rest : List Text}

theorem tail (cut : CutIntoRuns text (run :: rest)) : CutIntoRuns rest.flatten rest where
  present other member := cut.present other (List.mem_cons_of_mem _ member)
  whole := rfl
  even other member := cut.even other (List.mem_cons_of_mem _ member)
  inTurn := cut.inTurn.tail

/-- No run of blanks is continued behind the cut at its end. -/
theorem closed_or_startsVisible (cut : CutIntoRuns text (run :: rest)) (more : rest ≠ []) :
    run.Closed ∨ StartsVisible rest.flatten := by
  by_cases blank : run.Blank
  · right
    obtain ⟨next, others, rfl⟩ := List.exists_cons_of_ne_nil more
    have nextSome : ¬next.Blank := fun nextBlank =>
      (List.isChain_cons_cons.mp cut.inTurn).1 (iff_of_true blank nextBlank)
    have visible := visible_of_even (cut.even next (by simp)) (cut.present next (by simp)) nextSome
    rw [List.flatten_cons]
    exact visible.1.append _
  · left
    exact (visible_of_even (cut.even run List.mem_cons_self) (cut.present run List.mem_cons_self)
      blank).2.1.closed

/-- A run collapses by being squeezed, whichever kind it is of. -/
theorem collapse_run (cut : CutIntoRuns text (run :: rest)) : run.collapse = squeeze run := by
  by_cases blank : run.Blank
  · exact blank.collapse_eq_squeeze
  · have visible := visible_of_even (cut.even run List.mem_cons_self)
      (cut.present run List.mem_cons_self) blank
    rw [collapse_of_not_mem visible.2.2, squeeze, if_neg fun both => blank both.1]

/-- A text collapses run by run. -/
theorem collapse_eq_flatMap {list : List Text} (cut : CutIntoRuns text list) :
    text.collapse = list.flatMap squeeze := by
  induction list generalizing text with
  | nil =>
      rw [← cut.whole]
      exact collapse_nil
  | cons run rest ih =>
      rw [← cut.whole, List.flatten_cons, List.flatMap_cons, ← cut.collapse_run, ← ih cut.tail]
      by_cases more : rest = []
      · rw [more, List.flatten_nil, collapse_nil, List.append_nil, List.append_nil]
      · exact collapse_append (cut.closed_or_startsVisible more)

end CutIntoRuns

/-! ## The condensed form of any text -/

theorem condense_of_blank {text : Text} (blank : text.Blank) : text.condense = [] := by
  have collapsed : text.collapse.Blank := by
    rw [← visible_eq_nil_iff, visible_collapse, blank.visible_eq]
  rw [condense, trim, trimStart, List.dropWhile_eq_nil_iff.mpr collapsed]
  rfl

/-- Blanks at the start of a text do not show in its condensed form. -/
theorem condense_trimStart {text : Text} (some : ¬text.Blank) :
    text.trimStart.condense = text.condense := by
  have starts := startsVisible_dropWhile some
  have front : (collapse (text.takeWhile isBlank)).Blank := by
    rw [← visible_eq_nil_iff, visible_collapse, (blank_takeWhile text).visible_eq]
  have cut : text.collapse = collapse (text.takeWhile isBlank) ++ text.trimStart.collapse := by
    conv_lhs => rw [← List.takeWhile_append_dropWhile (p := isBlank) (l := text)]
    exact collapse_append (.inr starts)
  rw [condense, condense, trim, trim, cut]
  congr 1
  exact (List.dropWhile_append_of_pos front).symm

/-- Condensing a text twice is condensing it once. -/
theorem condense_condense (text : Text) : text.condense.condense = text.condense := by
  by_cases blank : text.Blank
  · rw [condense_of_blank blank, condense_of_blank (by simp [Blank])]
  · rw [← condense_trimStart blank]
    exact (startsVisible_dropWhile blank).condense_condense

/-- Texts that meet in a line feed are condensed one by one. -/
theorem condense_append_lineFeed {first second : Text} (firstStarts : first.StartsVisible)
    (firstEnds : first.EndsVisible) (secondStarts : second.StartsVisible)
    (secondEnds : second.EndsVisible) :
    (first ++ '\n' :: second).condense = first.condense ++ '\n' :: second.condense := by
  have feed : collapse ('\n' :: second) = '\n' :: second.collapse := by
    have cut := collapse_append (a := "\n".toList) (.inr secondStarts)
    rwa [collapse_break] at cut
  have ends : (first ++ '\n' :: second).EndsVisible :=
    (secondEnds.append ['\n']).append first
  rw [condense_of_visible_ends (firstStarts.append _) ends,
    condense_of_visible_ends firstStarts firstEnds, condense_of_visible_ends secondStarts secondEnds,
    collapse_append (.inl firstEnds.closed), feed]

/-- Condensing takes out blank lines and nothing else.  However a text is cut into stretches that
are blank and visible in turn, its condensed form is made of these stretches, the blank ones with
two line feeds or more being squeezed, without the blanks at both ends.  So condensing twice is
condensing once, the visible characters stay in their order, and texts that meet in a line feed are
condensed one by one. -/
theorem condense_squeezes_runs (text : Text) :
    CutIntoRuns text text.runs ∧
      (∀ list, CutIntoRuns text list → text.condense = trim (list.flatMap squeeze)) ∧
      text.condense.condense = text.condense ∧
      text.condense.visible = text.visible ∧
      ∀ first second : Text, first.StartsVisible → first.EndsVisible → second.StartsVisible →
        second.EndsVisible →
        (first ++ '\n' :: second).condense = first.condense ++ '\n' :: second.condense := by
  refine ⟨cutIntoRuns_runs text, fun list cut => ?_, condense_condense text, visible_condense text,
    fun first second => condense_append_lineFeed⟩
  rw [condense, cut.collapse_eq_flatMap]

/-- A blank line between blanks and an indented line, and a line feed before another one. -/
theorem condense_squeezes_runs_indented :
    CutIntoRuns "\n a \t\n \n  b\n c \n".toList
        ["\n ".toList, ['a'], " \t\n \n  ".toList, ['b'], "\n ".toList, ['c'], " \n".toList] ∧
      condense "\n a \t\n \n  b\n c \n".toList = "a \t\n  b\n c".toList ∧
      condense "a\n\nb\nc".toList = condense "a\n\nb".toList ++ '\n' :: condense ['c'] := by
  have runs : Text.runs "\n a \t\n \n  b\n c \n".toList =
      ["\n ".toList, ['a'], " \t\n \n  ".toList, ['b'], "\n ".toList, ['c'], " \n".toList] := by
    decide
  have cut := cutIntoRuns_runs "\n a \t\n \n  b\n c \n".toList
  rw [runs] at cut
  obtain ⟨_, squeezed, _, _, joined⟩ := condense_squeezes_runs "\n a \t\n \n  b\n c \n".toList
  refine ⟨cut, (squeezed _ cut).trans (by decide), ?_⟩
  exact joined "a\n\nb".toList ['c'] (by decide) (by decide) (by decide) (by decide)

end DeclOrder.Text

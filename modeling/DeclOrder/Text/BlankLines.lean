import DeclOrder.Text.Blank

/-!
# Blank lines

Two texts that differ only in blank lines have the same condensed form: every stretch from one
line feed to the last line feed of the same run of blanks becomes a single line feed, and blanks
at the two ends are dropped.
-/

namespace DeclOrder.Text

/-- The part of a text after its last line feed, provided it has a line feed. -/
def afterLastLineFeed? (text : Text) : Option Text :=
  if '\n' ∈ text then some text.lastLine else none

/-- Every line feed swallows the blanks up to the last line feed of its run. -/
def collapse : Text → Text
  | [] => []
  | c :: rest =>
    if c = '\n' then
      match afterLastLineFeed? (rest.takeWhile isBlank) with
      | some indent => '\n' :: indent ++ collapse (rest.dropWhile isBlank)
      | none => '\n' :: collapse rest
    else c :: collapse rest
  termination_by text => text.length
  decreasing_by
    all_goals simp only [List.length_cons]
    · have := length_dropWhile_le isBlank rest; omega
    · omega
    · omega

/-- The condensed form by which texts are compared: no blank lines, no blanks at the ends. -/
def condense (text : Text) : Text :=
  text.collapse.trim

end DeclOrder.Text

import DeclOrder.Text.Basic

/-!
# Lines for a terminal

A line that is printed for a reader holds no control sequences, by which a terminal sets colours and
moves its cursor.  What counts as such a sequence follows the library that prints the lines.
-/

namespace DeclOrder.Text

/-- What follows a control sequence behind its escape character: an opening bracket, digits with
semicolons and question marks, and a letter. -/
def afterSequence? : Text → Option Text
  | '[' :: rest =>
    match rest.dropWhile fun c => c.isDigit || c = ';' || c = '?' with
    | [] => none
    | c :: behind => if c.isAlpha then some behind else none
  | _ => none

theorem length_of_afterSequence? {text rest : Text} (found : afterSequence? text = some rest) :
    rest.length < text.length := by
  unfold afterSequence? at found
  split at found
  · rename_i behind
    have shorter := length_dropWhile_le (fun c => c.isDigit || c = ';' || c = '?') behind
    split at found <;> rename_i same
    · simp at found
    · rw [same, List.length_cons] at shorter
      split at found
      · simp only [Option.some.injEq] at found
        simp only [List.length_cons, ← found]
        omega
      · simp at found
  · simp at found

/-- A text without its control sequences. -/
def dropSequences : Text → Text
  | [] => []
  | c :: rest =>
    if c = '\x1B' then
      match found : afterSequence? rest with
      | some behind =>
        have := length_of_afterSequence? found
        dropSequences behind
      | none => c :: dropSequences rest
    else c :: dropSequences rest
  termination_by text => text.length
  decreasing_by
    all_goals simp only [List.length_cons]
    all_goals omega

end DeclOrder.Text

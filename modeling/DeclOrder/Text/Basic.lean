/-!
# Texts and signed bounds

A document is the list of its characters.  A bound counts characters from the start of a text or,
when it is negative, back from its end; a bound outside the text stands for the nearer end.
-/

namespace DeclOrder

/-- A document, or a piece of one, as the list of its characters. -/
abbrev Text := List Char

namespace Text

/-- The place that a signed bound denotes in a text of the given length. -/
def place (length : Nat) (bound : Int) : Nat :=
  if bound < 0 then (bound + length).toNat else min bound.toNat length

theorem place_of_le {length bound : Nat} (inside : bound ≤ length) :
    place length bound = bound := by
  unfold place
  split <;> omega

def upTo (text : Text) (bound : Int) : Text :=
  text.take (place text.length bound)

def onward (text : Text) (bound : Int) : Text :=
  text.drop (place text.length bound)

/-- The part of a text between two bounds; it is empty when they cross. -/
def slice (text : Text) (start stop : Int) : Text :=
  (text.upTo stop).drop (place text.length start)

@[simp] theorem upTo_append_onward (text : Text) (bound : Int) :
    text.upTo bound ++ text.onward bound = text :=
  List.take_append_drop ..

theorem slice_of_le {text : Text} {start stop : Nat}
    (startInside : start ≤ text.length) (stopInside : stop ≤ text.length) :
    text.slice start stop = (text.take stop).drop start := by
  simp [slice, upTo, place_of_le startInside, place_of_le stopInside]

/-- The characters after the last line feed of a text. -/
def lastLine (text : Text) : Text :=
  (text.reverse.takeWhile (· ≠ '\n')).reverse

def lineFeeds (text : Text) : Nat :=
  text.count '\n'

def join (separator : String) (pieces : List Text) : Text :=
  List.intercalate separator.toList pieces

/-- The fields of a text between the places where a separator stands. -/
def fields (separator : Char) : Text → List Text
  | [] => [[]]
  | c :: rest =>
    if c = separator then [] :: fields separator rest
    else
      match fields separator rest with
      | [] => [[c]]
      | field :: others => (c :: field) :: others

/-- What follows a given beginning, if the text begins that way. -/
def after? (beginning : Text) (text : Text) : Option Text :=
  if beginning.isPrefixOf text then some (text.drop beginning.length) else none

theorem length_of_after? {beginning text rest : Text}
    (found : after? beginning text = some rest) :
    beginning.length + rest.length = text.length := by
  unfold after? at found
  split at found <;> rename_i starts
  · obtain ⟨_, rfl⟩ := List.isPrefixOf_iff_prefix.mp starts
    simp at found
    simp [found]
  · simp at found

theorem length_dropWhile_le (p : Char → Bool) (text : Text) :
    (text.dropWhile p).length ≤ text.length :=
  (List.dropWhile_suffix p).length_le

end Text

end DeclOrder

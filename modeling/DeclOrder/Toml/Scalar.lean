import DeclOrder.Numeral
import DeclOrder.Toml.Fault

/-!
# Scalars of configuration files

Strings, numbers, dates and times of the TOML language, version 1.0.  Every reader takes the text at
the start of which it expects its scalar, and returns the scalar with what follows it.
-/

namespace DeclOrder.Toml

def skipBlanks (text : Text) : Text :=
  text.dropWhile fun c => c = ' ' || c = '\t'

def skipLines (text : Text) : Text :=
  text.dropWhile fun c => c = ' ' || c = '\t' || c = '\n'

/-- Whether a character may not stand in a comment or a string of one line. -/
def isControl (c : Char) : Bool :=
  (c.toNat < 0x20 && c ≠ '\t') || c.toNat = 0x7F

/-- Whether a character may not stand in a string, of several lines or of one. -/
def isIllegal (multiline : Bool) (c : Char) : Bool :=
  isControl c && !(multiline && c = '\n')

def codePoint? (digits : Text) : Option Char := do
  let value := Numeral.number 16 (← digits.mapM (Numeral.digit? 16))
  if value < 0xD800 || (0xDFFF < value && value < 0x110000) then some (Char.ofNat value) else none

/-- What a line that ends in a backslash continues with: blanks up to the next visible character
are dropped. -/
def afterLineEnd? (text : Text) : Option Text :=
  match skipBlanks text with
  | [] => some []
  | c :: rest => if c = '\n' then some (skipLines rest) else none

def escape? (multiline : Bool) : Text → Option (Text × Text)
  | [] => none
  | c :: rest =>
    if multiline && (c = ' ' || c = '\t' || c = '\n') then
      (afterLineEnd? (c :: rest)).map fun behind => ([], behind)
    else if c = 'u' then
      if rest.length < 4 then none
      else (codePoint? (rest.take 4)).map fun char => ([char], rest.drop 4)
    else if c = 'U' then
      if rest.length < 8 then none
      else (codePoint? (rest.take 8)).map fun char => ([char], rest.drop 8)
    else
      match [('b', '\x08'), ('t', '\t'), ('n', '\n'), ('f', '\x0C'), ('r', '\r'), ('"', '"'),
        ('\\', '\\')].lookup c with
      | some char => some ([char], rest)
      | none => none

theorem length_of_afterLineEnd? {text rest : Text} (found : afterLineEnd? text = some rest) :
    rest.length ≤ text.length := by
  have skipped : (skipBlanks text).length ≤ text.length := Text.length_dropWhile_le _ _
  unfold afterLineEnd? at found
  split at found
  · simp only [Option.some.injEq] at found
    simp [← found]
  · rename_i c behind same
    split at found
    · simp only [Option.some.injEq] at found
      have : (skipLines behind).length ≤ behind.length := Text.length_dropWhile_le _ _
      rw [same, List.length_cons] at skipped
      rw [← found]
      omega
    · simp at found

theorem length_of_escape? {multiline : Bool} {text chars rest : Text}
    (found : escape? multiline text = some (chars, rest)) : rest.length ≤ text.length := by
  unfold escape? at found
  split at found
  · simp at found
  · rename_i c behind
    simp only [List.length_cons]
    repeat' split at found
    · obtain ⟨after, reached, same⟩ := Option.map_eq_some_iff.mp found
      simp only [Prod.mk.injEq] at same
      have := length_of_afterLineEnd? reached
      rw [← same.2]
      simpa using this
    all_goals simp_all
    all_goals
      obtain ⟨_, _, _, rfl⟩ := found
      simp only [List.length_drop]
      omega

/-- The rest of a quoted string and what follows it.  A string of one line ends at the first quotation
mark, a string of several lines at the first three of them. -/
def quoted (multiline : Bool) : Text → Option (Text × Text)
  | [] => none
  | c :: rest =>
    if c = '"' then
      if multiline then
        match Text.after? "\"\"".toList rest with
        | some behind => some ([], behind)
        | none => (quoted multiline rest).map fun (chars, behind) => (c :: chars, behind)
      else some ([], rest)
    else if c = '\\' then
      match found : escape? multiline rest with
      | none => none
      | some (escaped, behind) =>
        have := length_of_escape? found
        (quoted multiline behind).map fun (chars, after) => (escaped ++ chars, after)
    else if isIllegal multiline c then none
    else (quoted multiline rest).map fun (chars, behind) => (c :: chars, behind)
  termination_by text => text.length
  decreasing_by
    all_goals simp only [List.length_cons]
    all_goals omega

def literal (multiline : Bool) : Text → Option (Text × Text)
  | [] => none
  | c :: rest =>
    if c = '\x27' && (!multiline || "\x27\x27".toList.isPrefixOf rest) then
      some ([], if multiline then rest.drop 2 else rest)
    else if isIllegal multiline c then none
    else (literal multiline rest).map fun (chars, behind) => (c :: chars, behind)

/-- Up to two marks behind a string of several lines belong to the string. -/
def extraMarks (mark : Char) (result : Text × Text) : Text × Text :=
  let extra := (result.2.takeWhile (· = mark)).take 2
  (result.1 ++ extra, result.2.drop extra.length)

/-- A string of several lines without the line feed at its start. -/
def dropFirstLineFeed : Text → Text
  | [] => []
  | c :: rest => if c = '\n' then rest else c :: rest

def string? : Text → Option (Text × Text)
  | [] => none
  | c :: rest =>
    if c = '"' then quoted false rest
    else if c = '\x27' then literal false rest
    else none

def anyString? (text : Text) : Option (Text × Text) :=
  match Text.after? "\"\"\"".toList text with
  | some rest => (quoted true (dropFirstLineFeed rest)).map (extraMarks '"')
  | none =>
    match Text.after? "\x27\x27\x27".toList text with
    | some rest => (literal true (dropFirstLineFeed rest)).map (extraMarks '\x27')
    | none => string? text

/-- Reads an integer in a base that its start announces. -/
def basedInteger? (text : Text) : Option (Value × Text) :=
  match text with
  | '0' :: mark :: rest =>
    match [('x', 16), ('o', 8), ('b', 2)].lookup mark with
    | some base => (Numeral.digits? base rest).map fun (digits, behind) =>
        (.int (Numeral.number base digits), behind)
    | none => none
  | _ => none

/-- Reads an infinity or a float that is no number. -/
def special? (text : Text) : Option (Value × Text) :=
  ["inf", "nan", "+inf", "-inf", "+nan", "-nan"].findSome? fun word =>
    (Text.after? word.toList text).map fun rest => (.float none, rest)

def twoDigits? (low high : Nat) : Text → Option (Nat × Text)
  | a :: b :: rest =>
    match Numeral.digit? 10 a, Numeral.digit? 10 b with
    | some tens, some ones =>
      let value := 10 * tens + ones
      if low ≤ value && value ≤ high then some (value, rest) else none
    | _, _ => none
  | _ => none

def daysIn (year month : Nat) : Nat :=
  if month = 2 then
    if year % 4 = 0 && (year % 100 ≠ 0 || year % 400 = 0) then 29 else 28
  else if month ∈ [4, 6, 9, 11] then 30
  else 31

def dateParts? (text : Text) : Option ((Nat × Nat × Nat) × Text) := do
  let (century, rest) ← twoDigits? 0 99 text
  let (years, rest) ← twoDigits? 0 99 rest
  let (month, rest) ← twoDigits? 1 12 (← Text.after? ['-'] rest)
  let (day, rest) ← twoDigits? 1 31 (← Text.after? ['-'] rest)
  return ((100 * century + years, month, day), rest)

def afterTime? (text : Text) : Option Text := do
  let (_, rest) ← twoDigits? 0 23 text
  let (_, rest) ← twoDigits? 0 59 (← Text.after? [':'] rest)
  let (_, rest) ← twoDigits? 0 59 (← Text.after? [':'] rest)
  match rest with
  | '.' :: c :: behind => return if c.isDigit then behind.dropWhile Char.isDigit else rest
  | _ => return rest

/-- What follows an offset from universal time: hours and minutes behind a sign. -/
def afterSignedOffset? (text : Text) : Option Text := do
  let (_, rest) ← twoDigits? 0 23 text
  let (_, rest) ← twoDigits? 0 59 (← Text.after? [':'] rest)
  return rest

def skipOffset (text : Text) : Text :=
  match text with
  | [] => []
  | c :: rest =>
    if c = 'Z' || c = 'z' then rest
    else if c = '+' || c = '-' then (afterSignedOffset? rest).getD text
    else text

def afterDayTime? (text : Text) : Option Text :=
  match text with
  | [] => none
  | c :: rest =>
    if c = 'T' || c = 't' || c = ' ' then (afterTime? rest).map skipOffset else none

/-- Reads a date, alone or with a time of day.  A day that the calendar does not have is read as
none. -/
def date? (text : Text) : Option (Option Value × Text) := do
  let ((year, month, day), rest) ← dateParts? text
  let inCalendar := 1 ≤ year && day ≤ daysIn year month
  match afterDayTime? rest with
  | some behind => return (if inCalendar then some .datetime else none, behind)
  | none => return (if inCalendar then some .date else none, rest)

def boolean? (text : Text) : Option (Value × Text) :=
  match Text.after? "true".toList text with
  | some rest => some (.bool true, rest)
  | none => (Text.after? "false".toList text).map fun rest => (.bool false, rest)

/-- Whether a number is an integer of more than 4300 decimal digits. -/
def isHuge : Value → Bool
  | .int value => Nat.pow 10 4300 ≤ value.natAbs
  | _ => false

/-- Reads a number in decimal, an infinity or a float that is no number.  A huge integer is a
failure. -/
def number (text : Text) : Except Fault (Value × Text) :=
  match Numeral.decimal? text with
  | some (value, rest) =>
    if isHuge value then .error (.failed .hugeInteger) else .ok (value, rest)
  | none => expect (special? text)

def plainScalar (text : Text) : Except Fault (Value × Text) :=
  match boolean? text with
  | some found => .ok found
  | none =>
    match date? text with
    | some (value, rest) => expect (value.map fun value => (value, rest))
    | none =>
      match afterTime? text with
      | some rest => .ok (.time, rest)
      | none =>
        match basedInteger? text with
        | some found => .ok found
        | none => number text

end DeclOrder.Toml

import DeclOrder.Text.Basic
import DeclOrder.Value

/-!
# Numerals

Numbers as they are written: digits in some base, with single underscores between them, and decimal
numbers with a sign, a fraction and an exponent.  Every reader returns what follows the numeral.
-/

namespace DeclOrder.Numeral

/-- The value of a digit in a base of at most sixteen. -/
def digit? (base : Nat) (c : Char) : Option Nat :=
  let value :=
    if c.isDigit then c.toNat - '0'.toNat
    else if 'a' ≤ c ∧ c ≤ 'f' then c.toNat - 'a'.toNat + 10
    else if 'A' ≤ c ∧ c ≤ 'F' then c.toNat - 'A'.toNat + 10
    else 16
  if value < base then some value else none

def number (base : Nat) (digits : List Nat) : Nat :=
  digits.foldl (fun value digit => value * base + digit) 0

/-- The digits at the start of a text, single underscores between digits being skipped. -/
def moreDigits (base : Nat) : Text → List Nat × Text
  | [] => ([], [])
  | [c] =>
    match digit? base c with
    | some value => ([value], [])
    | none => ([], [c])
  | c :: next :: rest =>
    match digit? base c with
    | some value =>
      let (digits, behind) := moreDigits base (next :: rest)
      (value :: digits, behind)
    | none =>
      match digit? base next with
      | some value =>
        if c = '_' then
          let (digits, behind) := moreDigits base rest
          (value :: digits, behind)
        else ([], c :: next :: rest)
      | none => ([], c :: next :: rest)

def digits? (base : Nat) : Text → Option (List Nat × Text)
  | [] => none
  | c :: rest =>
    match digit? base c with
    | some _ => some (moreDigits base (c :: rest))
    | none => none

def sign : Text → Int × Text
  | '+' :: rest => (1, rest)
  | '-' :: rest => (-1, rest)
  | rest => (1, rest)

/-- Reads the integer part of a decimal number: a zero, or digits that start with another one. -/
def integerPart? : Text → Option (List Nat × Text)
  | [] => none
  | c :: rest => if c = '0' then some ([0], rest) else digits? 10 (c :: rest)

def fraction (text : Text) : List Nat × Text :=
  match text with
  | '.' :: rest => (digits? 10 rest).getD ([], text)
  | _ => ([], text)

def exponent? (text : Text) : Option (Int × Text) :=
  match text with
  | mark :: rest =>
    if mark = 'e' || mark = 'E' then
      let (sign, behind) := sign rest
      (digits? 10 behind).map fun (digits, behind) => (sign * number 10 digits, behind)
    else none
  | [] => none

/-- Reads a decimal number: an integer unless it has a fraction or an exponent. -/
def decimal? (text : Text) : Option (Value × Text) := do
  let (sign, unsigned) := sign text
  let (whole, rest) ← integerPart? unsigned
  let (part, rest) := fraction rest
  match exponent? rest, part with
  | none, [] => return (.int (sign * number 10 whole), rest)
  | none, part =>
    return (.float (some ⟨sign * number 10 (whole ++ part), -part.length⟩), rest)
  | some (exponent, rest), part =>
    return (.float (some ⟨sign * number 10 (whole ++ part), exponent - part.length⟩), rest)

end DeclOrder.Numeral

import DeclOrder.Text.Basic
import DeclOrder.Text.UnprintableRanges

/-!
# Quoted names

A name in a message stands between apostrophes, or between quotation marks when it holds an
apostrophe and no quotation mark.  The backslash, the mark in use and every unprintable character
are written as escapes.
-/

namespace DeclOrder.Quoted

/-- A number in hexadecimal, padded with zeros to a width. -/
def hex (width value : Nat) : Text :=
  let digits := Nat.toDigits 16 value
  List.replicate (width - digits.length) '0' ++ digits

/-- The mark that encloses a name. -/
def mark (name : Text) : Char :=
  if '\x27' ∈ name ∧ '"' ∉ name then '"' else '\x27'

def escape (mark c : Char) : Text :=
  if c = mark ∨ c = '\\' then ['\\', c]
  else if c = '\t' then ['\\', 't']
  else if c = '\n' then ['\\', 'n']
  else if c = '\r' then ['\\', 'r']
  else if CodeRanges.unprintable.has c then
    if c.toNat < 0x100 then '\\' :: 'x' :: hex 2 c.toNat
    else if c.toNat < 0x10000 then '\\' :: 'u' :: hex 4 c.toNat
    else '\\' :: 'U' :: hex 8 c.toNat
  else [c]

def quote (name : String) : String :=
  let m := mark name.toList
  String.ofList (m :: name.toList.flatMap (escape m) ++ [m])

end DeclOrder.Quoted

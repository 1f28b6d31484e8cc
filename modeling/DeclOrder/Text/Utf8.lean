import DeclOrder.Text.Basic

/-!
# UTF-8

Syntax trees and files count bytes.  Offsets in bytes become offsets in characters by walking the
text; an offset inside a character counts that character in full.  Decoding reads the longest
valid beginning of a sequence and tells where the bytes stop making sense.
-/

namespace DeclOrder

abbrev Bytes := List UInt8

namespace Text

def byteCount (text : Text) : Nat :=
  text.foldr (fun c count => c.utf8Size + count) 0

/-- The number of characters that have a byte among the first `bytes` bytes. -/
def charsIn : Text → Nat → Nat
  | [], _ => 0
  | _ :: _, 0 => 0
  | c :: rest, bytes + 1 => charsIn rest (bytes + 1 - c.utf8Size) + 1

def isAscii (text : Text) : Bool :=
  text.all fun c => c.toNat < 0x80

def encode (text : Text) : Bytes :=
  text.flatMap String.utf8EncodeChar

end Text

namespace Utf8

/-- The number of continuation bytes after a first byte, the bits that the first byte contributes,
and the range allowed for the byte behind it. -/
def lead? (first : UInt8) : Option (Nat × Nat × UInt8 × UInt8) :=
  if first < 0x80 then some (0, first.toNat, 0x80, 0xBF)
  else if first < 0xC2 then none
  else if first < 0xE0 then some (1, first.toNat - 0xC0, 0x80, 0xBF)
  else if first = 0xE0 then some (2, 0, 0xA0, 0xBF)
  else if first = 0xED then some (2, 0xD, 0x80, 0x9F)
  else if first < 0xF0 then some (2, first.toNat - 0xE0, 0x80, 0xBF)
  else if first = 0xF0 then some (3, 0, 0x90, 0xBF)
  else if first < 0xF4 then some (3, first.toNat - 0xF0, 0x80, 0xBF)
  else if first = 0xF4 then some (3, 4, 0x80, 0x8F)
  else none

/-- Reads continuation bytes, the first of them in the given range.  The code point is missing
when the sequence breaks off; the rest then starts at the byte that broke it. -/
def continuation (count : Nat) (value : Nat) (low high : UInt8) (bytes : Bytes) :
    Option Nat × Bytes :=
  match count, bytes with
  | 0, rest => (some value, rest)
  | _ + 1, [] => (none, [])
  | count + 1, b :: rest =>
    if low ≤ b ∧ b ≤ high then
      continuation count (value * 64 + (b.toNat - 0x80)) 0x80 0xBF rest
    else (none, b :: rest)

theorem length_continuation_le (count value : Nat) (low high : UInt8) (bytes : Bytes) :
    (continuation count value low high bytes).2.length ≤ bytes.length := by
  induction count generalizing value low high bytes with
  | zero => simp [continuation]
  | succ count ih =>
    cases bytes with
    | nil => simp [continuation]
    | cons b rest =>
      simp only [continuation]
      split
      · exact Nat.le_succ_of_le (ih _ _ _ _)
      · simp

/-- Decodes bytes character by character; every malformed sequence is one missing character. -/
def decodeEach : Bytes → List (Option Char)
  | [] => []
  | first :: rest =>
    match lead? first with
    | none => none :: decodeEach rest
    | some (count, bits, low, high) =>
      (continuation count bits low high rest).1.map Char.ofNat ::
        decodeEach (continuation count bits low high rest).2
  termination_by bytes => bytes.length
  decreasing_by
    · simp
    · have := length_continuation_le count bits low high rest
      simp only [List.length_cons]
      omega

/-- The text of the bytes, provided that all of them are well-formed. -/
def decode? (bytes : Bytes) : Option Text :=
  (decodeEach bytes).mapM id

/-- The text of the bytes, with a replacement character for every malformed sequence. -/
def decodeLossy (bytes : Bytes) : Text :=
  (decodeEach bytes).map fun c => c.getD '\uFFFD'

end Utf8

end DeclOrder

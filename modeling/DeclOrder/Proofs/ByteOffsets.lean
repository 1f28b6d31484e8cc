import DeclOrder.Proofs.EmbeddedBodies
import DeclOrder.Proofs.FileTexts

/-!
# Offsets in bytes and in characters

A syntax tree counts bytes, a document counts characters.  The number of characters that have a
byte among the first ones is what decoding these bytes gives, a character that breaks off counting
as one.  So offsets between characters are converted exactly, an offset inside a character counts
that character in full, and a text without multi-byte characters needs no conversion.  The text of a
node has the bytes that the node covers.
-/

namespace DeclOrder

/-! ## Characters that break off -/

namespace Utf8

theorem length_of_continuation {count value code : Nat} {low high : UInt8} {bytes rest : Bytes}
    (read : continuation count value low high bytes = (some code, rest)) :
    bytes.length = count + rest.length := by
  induction count generalizing value low high bytes with
  | zero =>
      obtain ⟨_, rfl⟩ := continuation_zero_eq_some_iff.mp read
      exact (Nat.zero_add _).symm
  | succ count ih =>
      obtain ⟨byte, more, rfl, _, _, inner⟩ := continuation_succ_eq_some_iff.mp read
      have length := ih inner
      rw [List.length_cons]
      omega

/-- Continuation bytes that break off give no character and leave no byte. -/
theorem continuation_take {count value code : Nat} {low high : UInt8} {bytes rest : Bytes}
    (read : continuation count value low high bytes = (some code, rest)) {cut : Nat}
    (short : cut < count) :
    continuation count value low high (bytes.take cut) = (none, []) := by
  induction count generalizing value low high bytes cut with
  | zero => cases short
  | succ count ih =>
      obtain ⟨byte, more, rfl, least, most, inner⟩ := continuation_succ_eq_some_iff.mp read
      cases cut with
      | zero => rfl
      | succ cut =>
          have fits : low ≤ byte ∧ byte ≤ high :=
            ⟨UInt8.le_iff_toNat_le.mpr least, UInt8.le_iff_toNat_le.mpr most⟩
          rw [List.take_succ_cons, continuation, if_pos fits]
          exact ih inner (Nat.lt_of_succ_lt_succ short)

/-- The first bytes of a character, but not all of them, are read as one missing character. -/
theorem decodeEach_take_utf8EncodeChar {c : Char} {cut : Nat} (some : 0 < cut)
    (short : cut < c.utf8Size) :
    decodeEach ((String.utf8EncodeChar c).take cut) = [none] := by
  obtain ⟨first, more, count, bits, low, high, shape, lead, read⟩ :=
    exists_lead?_utf8EncodeChar c []
  have size : c.utf8Size = count + 1 := by
    have length := congrArg List.length shape
    rw [List.append_nil, String.length_utf8EncodeChar, List.length_cons,
      length_of_continuation read] at length
    exact length
  obtain ⟨cut, rfl⟩ := Nat.exists_eq_succ_of_ne_zero (Nat.ne_of_gt some)
  have broken := continuation_take read (show cut < count by omega)
  rw [List.append_nil] at shape
  rw [shape, List.take_succ_cons, decodeEach, lead]
  dsimp only
  rw [broken, decodeEach]
  rfl

end Utf8

/-! ## Counting characters by bytes -/

namespace Text

theorem encode_cons (c : Char) (text : Text) :
    encode (c :: text) = String.utf8EncodeChar c ++ encode text :=
  List.flatMap_cons

theorem byteCount_cons (c : Char) (text : Text) :
    byteCount (c :: text) = c.utf8Size + text.byteCount := rfl

theorem length_encode (text : Text) : text.encode.length = text.byteCount := by
  induction text with
  | nil => rfl
  | cons c text ih =>
      rw [encode_cons, List.length_append, String.length_utf8EncodeChar, ih, byteCount_cons]

theorem charsIn_zero (text : Text) : text.charsIn 0 = 0 := by
  cases text <;> rfl

theorem charsIn_cons {bytes : Nat} (some : 0 < bytes) (c : Char) (text : Text) :
    charsIn (c :: text) bytes = text.charsIn (bytes - c.utf8Size) + 1 := by
  obtain ⟨bytes, rfl⟩ := Nat.exists_eq_succ_of_ne_zero (Nat.ne_of_gt some)
  rfl

/-- The characters in the bytes of a text and some more bytes. -/
theorem charsIn_append (first second : Text) (bytes : Nat) :
    charsIn (first ++ second) (first.byteCount + bytes) =
      first.length + second.charsIn bytes := by
  induction first with
  | nil =>
      show charsIn second (0 + bytes) = 0 + _
      rw [Nat.zero_add, Nat.zero_add]
  | cons c first ih =>
      have size := c.utf8Size_pos
      have behind : c.utf8Size + byteCount first + bytes - c.utf8Size =
          byteCount first + bytes := by omega
      rw [List.cons_append, byteCount_cons, charsIn_cons (by omega), behind, ih, List.length_cons]
      omega

/-- The bytes of the first characters hold these characters. -/
theorem charsIn_byteCount_take {text : Text} {count : Nat} (inside : count ≤ text.length) :
    text.charsIn (byteCount (text.take count)) = count := by
  have cut := charsIn_append (text.take count) (text.drop count) 0
  rw [List.take_append_drop, charsIn_zero, List.length_take, Nat.min_eq_left inside] at cut
  exact cut

theorem byteCount_append (first second : Text) :
    byteCount (first ++ second) = first.byteCount + second.byteCount := by
  rw [← length_encode, encode_append, List.length_append, length_encode, length_encode]

theorem byteCount_take_le (text : Text) (count : Nat) :
    byteCount (text.take count) ≤ text.byteCount := by
  have cut := byteCount_append (text.take count) (text.drop count)
  rw [List.take_append_drop] at cut
  omega

/-- An offset inside a character counts that character in full. -/
theorem charsIn_of_inside {text : Text} {count bytes : Nat} (inside : count < text.length)
    (above : byteCount (text.take count) < bytes)
    (below : bytes ≤ byteCount (text.take (count + 1))) : text.charsIn bytes = count + 1 := by
  have cut := charsIn_append (text.take count) (text.drop count)
    (bytes - byteCount (text.take count))
  rw [List.take_append_drop, List.length_take, Nat.min_eq_left (Nat.le_of_lt inside),
    Nat.add_sub_cancel' (Nat.le_of_lt above), List.drop_eq_getElem_cons inside,
    charsIn_cons (by omega)] at cut
  rw [List.take_succ_eq_append_getElem inside, byteCount_append] at below
  have size : byteCount [text[count]] = text[count].utf8Size := rfl
  have none : bytes - byteCount (text.take count) - text[count].utf8Size = 0 := by omega
  rw [cut, none, charsIn_zero]

/-- Decoding the first bytes of a text, with a replacement for a character that breaks off, gives
the characters that have a byte among them. -/
theorem length_decodeLossy_take (text : Text) (bytes : Nat) :
    (Utf8.decodeLossy (text.encode.take bytes)).length = text.charsIn bytes := by
  rw [Utf8.decodeLossy, List.length_map]
  induction text generalizing bytes with
  | nil =>
      rw [show encode [] = [] from rfl, List.take_nil, Utf8.decodeEach]
      rfl
  | cons c text ih =>
      have length : (String.utf8EncodeChar c).length = c.utf8Size := String.length_utf8EncodeChar c
      rcases Nat.eq_zero_or_pos bytes with rfl | some
      · rw [List.take_zero, Utf8.decodeEach]
        rfl
      · rw [encode_cons, charsIn_cons some]
        -- The bytes hold the first character, or they break off inside of it.
        by_cases whole : c.utf8Size ≤ bytes
        · have one := Utf8.decodeEach_encode_append [c] ((encode text).take (bytes - c.utf8Size))
          rw [encode_cons, show encode [] = [] from rfl, List.append_nil] at one
          rw [List.take_append, List.take_of_length_le (by omega), length, one, List.length_append,
            ih, List.length_map, List.length_singleton, Nat.add_comm]
        · have none : bytes - c.utf8Size = 0 := by omega
          rw [List.take_append_of_le_length (by omega),
            Utf8.decodeEach_take_utf8EncodeChar some (by omega), none, charsIn_zero]
          rfl

theorem length_le_byteCount (text : Text) : text.length ≤ text.byteCount := by
  induction text with
  | nil => exact Nat.le_refl _
  | cons c text ih =>
      have size := c.utf8Size_pos
      rw [List.length_cons, byteCount_cons]
      omega

/-- The texts with as many bytes as characters are those whose characters take a single byte. -/
theorem isAscii_iff {text : Text} : text.isAscii = true ↔ text.byteCount = text.length := by
  constructor
  · exact byteCount_of_isAscii
  · intro equal
    induction text with
    | nil => rfl
    | cons c text ih =>
        have size := c.utf8Size_pos
        have rest := length_le_byteCount text
        rw [byteCount_cons, List.length_cons] at equal
        have single : c.val ≤ 127 := Char.utf8Size_eq_one_iff.mp (by omega)
        rw [isAscii, List.all_cons, Bool.and_eq_true, decide_eq_true_eq]
        exact ⟨Nat.lt_succ_of_le single, ih (by omega)⟩

/-- Where every character takes a single byte, bytes count characters. -/
theorem charsIn_of_isAscii {text : Text} (ascii : text.isAscii = true) {bytes : Nat}
    (inside : bytes ≤ text.byteCount) : text.charsIn bytes = bytes := by
  have length := byteCount_of_isAscii ascii
  have taken : isAscii (text.take bytes) = true := by
    rw [isAscii, List.all_eq_true] at ascii ⊢
    exact fun c member => ascii c (List.mem_of_mem_take member)
  have within : bytes ≤ text.length := by omega
  have counted := charsIn_byteCount_take within
  rwa [byteCount_of_isAscii taken, List.length_take, Nat.min_eq_left within] at counted

/-- An offset in bytes lies between two characters of a text, or at one of its ends. -/
def IsBoundary (text : Text) (byte : Nat) : Prop :=
  ∃ count ≤ text.length, byte = (encode (text.take count)).length

/-- The bytes between two boundaries are the bytes of the characters between them. -/
theorem encode_drop_take (text : Text) {first second : Nat} (ascending : first ≤ second) :
    encode ((text.take second).drop first) =
      (text.encode.take (encode (text.take second)).length).drop
        (encode (text.take first)).length := by
  have whole : text.encode = encode (text.take second) ++ encode (text.drop second) := by
    rw [← encode_append, List.take_append_drop]
  have front : encode (text.take second) =
      encode (text.take first) ++ encode ((text.take second).drop first) := by
    have cut := List.take_append_drop first (text.take second)
    rw [List.take_take, Nat.min_eq_left ascending] at cut
    rw [← encode_append, cut]
  rw [whole, List.take_left, front, List.drop_left]

end Text

/-! ## Offsets of a body -/

namespace ScriptBody

/-- Up to the last byte of a body, its bytes are counted in characters. -/
theorem offsetOf_eq_charsIn (body : ScriptBody) {byte : Nat}
    (inside : byte ≤ body.text.byteCount) :
    body.offsetOf byte = body.start + body.text.charsIn byte := by
  unfold offsetOf
  split
  · rename_i ascii
    rw [Text.charsIn_of_isAscii ascii inside]
  · rfl

/-- An offset between characters is converted exactly. -/
theorem offsetOf_take (body : ScriptBody) {count : Nat} (inside : count ≤ body.text.length) :
    body.offsetOf (Text.encode (body.text.take count)).length = body.start + count := by
  rw [Text.length_encode, offsetOf_eq_charsIn body (Text.byteCount_take_le _ _),
    Text.charsIn_byteCount_take inside]

/-- In a body by itself, an offset between characters counts the characters before it. -/
theorem offsetOf_alone_take (body : ScriptBody) {count : Nat} (inside : count ≤ body.text.length) :
    body.alone.offsetOf (Text.encode (body.text.take count)).length = count := by
  rw [← text_alone] at inside
  have place := body.alone.offsetOf_take inside
  rw [text_alone] at place
  exact place.trans (Int.zero_add _)

theorem offsetOf_inside (body : ScriptBody) {count byte : Nat} (inside : count < body.text.length)
    (above : (Text.encode (body.text.take count)).length < byte)
    (below : byte < (Text.encode (body.text.take (count + 1))).length) :
    body.offsetOf byte = body.start + count + 1 := by
  rw [Text.length_encode] at above below
  have whole := Text.byteCount_take_le body.text (count + 1)
  rw [offsetOf_eq_charsIn body (by omega),
    Text.charsIn_of_inside inside above (Nat.le_of_lt below)]
  omega

/-- Converting an offset is decoding the bytes before it. -/
theorem offsetOf_eq_decodeLossy (body : ScriptBody) {byte : Nat}
    (inside : byte ≤ body.text.encode.length) :
    body.offsetOf byte =
      body.start + (Utf8.decodeLossy (body.text.encode.take byte)).length := by
  rw [Text.length_encode] at inside
  rw [offsetOf_eq_charsIn body inside, Text.length_decodeLossy_take]

theorem encode_textOf {body : ScriptBody} (within : body.Within) {node : Node}
    (starts : body.text.IsBoundary node.start.byte) (stops : body.text.IsBoundary node.stop.byte)
    (forward : node.start.byte ≤ node.stop.byte) :
    (body.textOf node).encode =
      (body.text.encode.take node.stop.byte).drop node.start.byte := by
  obtain ⟨first, firstInside, start⟩ := starts
  obtain ⟨second, secondInside, stop⟩ := stops
  have firstOffset := body.offsetOf_alone_take firstInside
  have secondOffset := body.offsetOf_alone_take secondInside
  rw [← start] at firstOffset
  rw [← stop] at secondOffset
  have ascending : body.alone.offsetOf node.start.byte ≤ body.alone.offsetOf node.stop.byte :=
    offsetOf_alone_mono forward
  rw [firstOffset, secondOffset] at ascending
  have bounded : node.Bounded body.text.byteCount := by
    refine ⟨forward, ?_⟩
    rw [stop, Text.length_encode]
    exact Text.byteCount_take_le _ _
  have text : body.textOf node = (body.text.take second).drop first := by
    rw [textOf_alone within bounded, textOf, firstOffset, secondOffset]
    exact Text.slice_of_le firstInside secondInside
  rw [text, Text.encode_drop_take body.text (by omega), ← start, ← stop]

/-- Offsets in bytes are converted exactly.  The offset behind the first characters of a body is the
place behind as many characters of the document, offsets keep their order, and an offset inside a
character counts it in full.  The quick conversion is taken exactly when the body has as many bytes
as characters, and up to the end of the body it is what decoding the bytes before the offset gives.
So the text of a node that starts and stops between characters has the bytes that the node
covers. -/
theorem offsetOf_exact {body : ScriptBody} (within : body.Within) :
    (∀ count ≤ body.text.length,
        body.offsetOf (Text.encode (body.text.take count)).length = body.start + count) ∧
      (∀ first second, first ≤ second → body.offsetOf first ≤ body.offsetOf second) ∧
      (∀ count byte, count < body.text.length →
        (Text.encode (body.text.take count)).length < byte →
        byte < (Text.encode (body.text.take (count + 1))).length →
          body.offsetOf byte = body.start + count + 1) ∧
      (body.text.isAscii = true ↔ body.text.encode.length = body.text.length) ∧
      (∀ byte ≤ body.text.encode.length,
        body.offsetOf byte =
            body.start + (Utf8.decodeLossy (body.text.encode.take byte)).length ∧
          (body.text.isAscii = true →
            (Utf8.decodeLossy (body.text.encode.take byte)).length = byte)) ∧
      (∀ node : Node, body.text.IsBoundary node.start.byte → body.text.IsBoundary node.stop.byte →
        node.start.byte ≤ node.stop.byte →
          (body.textOf node).encode =
            (body.text.encode.take node.stop.byte).drop node.start.byte) := by
  refine ⟨fun count inside => body.offsetOf_take inside,
    fun first second ascending => body.offsetOf_mono ascending,
    fun count byte inside above below => body.offsetOf_inside inside above below, ?_, ?_,
    fun node starts stops forward => encode_textOf within starts stops forward⟩
  · rw [Text.length_encode]
    exact Text.isAscii_iff
  · intro byte inside
    refine ⟨body.offsetOf_eq_decodeLossy inside, fun ascii => ?_⟩
    rw [Text.length_encode] at inside
    rw [Text.length_decodeLossy_take, Text.charsIn_of_isAscii ascii inside]

/-- A body with characters of one, two and four bytes, behind a character of two bytes. -/
def wideBody : ScriptBody where
  document := "<é>a😀é b</é>".toList
  start := 3
  stop := 8

/-- The node of the two wide characters. -/
def wideNode : Node where
  kind := "identifier"
  start := ⟨1, 0, 1⟩
  stop := ⟨7, 0, 7⟩

theorem offsetOf_exact_wide :
    wideBody.Within ∧ wideBody.offsetOf 5 = 5 ∧ wideBody.offsetOf 3 = 5 ∧
      (wideBody.textOf wideNode).encode = [0xF0, 0x9F, 0x98, 0x80, 0xC3, 0xA9] := by
  have within : wideBody.Within := ⟨by decide, by decide, by decide⟩
  obtain ⟨between, _, inside, _, _, covered⟩ := offsetOf_exact within
  refine ⟨within, ?_, ?_, ?_⟩
  · exact between 2 (by decide)
  · exact inside 1 3 (by decide) (by decide) (by decide)
  · rw [covered wideNode ⟨1, by decide, by decide⟩ ⟨3, by decide, by decide⟩ (by decide)]
    decide

end ScriptBody

end DeclOrder

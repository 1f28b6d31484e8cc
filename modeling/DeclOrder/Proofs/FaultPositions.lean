import DeclOrder.Proofs.ByteOffsets
import DeclOrder.Proofs.CondensedRuns
import DeclOrder.Proofs.EditorPositions

/-!
# Positions of syntax errors

A syntax error points at the first fault of a tree, whose row and column count lines and bytes of
the body.  The line of the error is the line of the fault in the document.  Its column counts the
bytes of the line inside the body and the characters before the body on the same line, where the
position of a finding counts UTF-16 units.  So the two agree where the line holds, up to the fault,
only characters of one byte inside the body and of one unit before it.
-/

namespace DeclOrder

/-! ## The first fault of a tree -/

namespace Node

mutual

/-- The first fault of a tree is one of its nodes. -/
theorem mem_preorder_of_firstFault? {node fault : Node} (found : node.firstFault? = some fault) :
    fault ∈ node.preorder := by
  cases node with
  | mk kind start stop isNamed isMissing hasError field children =>
      rw [firstFault?] at found
      rw [preorder]
      split at found
      · cases found
        exact List.mem_cons_self
      · exact List.mem_cons_of_mem _ (mem_preorderAmong_of_firstFaultAmong? found)

theorem mem_preorderAmong_of_firstFaultAmong? {nodes : List Node} {fault : Node}
    (found : firstFaultAmong? nodes = some fault) : fault ∈ preorderAmong nodes := by
  cases nodes with
  | nil => cases found
  | cons child rest =>
      rw [firstFaultAmong?] at found
      rw [preorderAmong, List.mem_append]
      split at found
      · split at found
        · rename_i here
          exact .inl (mem_preorder_of_firstFault? (here.trans found))
        · exact .inr (mem_preorderAmong_of_firstFaultAmong? found)
      · exact .inr (mem_preorderAmong_of_firstFaultAmong? found)

end

/-- Where a syntax error of a tree points: its first fault, or the tree itself. -/
def faultStart (root : Node) : Point :=
  (root.firstFault?.getD root).start

theorem exists_faultStart_eq (root : Node) :
    ∃ node ∈ root.preorder, root.faultStart = node.start := by
  rw [faultStart]
  cases found : root.firstFault? with
  | none => exact ⟨root, by simp [preorder_eq], rfl⟩
  | some fault => exact ⟨fault, mem_preorder_of_firstFault? found, rfl⟩

end Node

/-! ## Lines of bytes -/

theorem lineFeed_mem_utf8EncodeChar_iff {c : Char} :
    (0x0A : UInt8) ∈ String.utf8EncodeChar c ↔ c = '\n' := by
  have code : c = '\n' ↔ c.val.toNat = 10 := by
    rw [← Char.toNat_inj]
    exact Iff.rfl
  have byte : ∀ value : Nat, (0x0A : UInt8) = UInt8.ofNat value ↔ value % 256 = 10 := by
    intro value
    rw [eq_comm, ← UInt8.toNat_inj, UInt8.toNat_ofNat]
    exact Iff.rfl
  rw [code, String.utf8EncodeChar]
  split_ifs <;> simp only [List.mem_cons, List.not_mem_nil, or_false, byte] <;> omega

namespace Text

theorem lineFeed_mem_encode_iff {text : Text} : (0x0A : UInt8) ∈ text.encode ↔ '\n' ∈ text := by
  rw [encode, List.mem_flatMap]
  simp only [lineFeed_mem_utf8EncodeChar_iff, exists_eq_right]

theorem rtakeWhile_append_of_not_mem (bytes : Bytes) {more : Bytes} (absent : 0x0A ∉ more) :
    (bytes ++ more).rtakeWhile (· ≠ 0x0A) = bytes.rtakeWhile (· ≠ 0x0A) ++ more := by
  induction more using List.reverseRecOn with
  | nil => rw [List.append_nil, List.append_nil]
  | append_singleton more byte ih =>
      rw [List.mem_append, not_or, List.mem_singleton] at absent
      rw [← List.append_assoc, List.rtakeWhile_concat_pos, ih absent.1, List.append_assoc]
      exact decide_eq_true fun same => absent.2 same.symm

/-- The bytes of the last line of a text are the last line of its bytes. -/
theorem rtakeWhile_encode (text : Text) :
    text.encode.rtakeWhile (· ≠ 0x0A) = encode text.lastLine := by
  have absent : (0x0A : UInt8) ∉ encode text.lastLine :=
    fun feed => not_mem_lastLine text (lineFeed_mem_encode_iff.mp feed)
  rcases eq_lastLine_or text with whole | ⟨front, shape⟩
  · have alone := rtakeWhile_append_of_not_mem [] absent
    conv_lhs => rw [whole]
    exact alone
  · have feed : encode (front ++ '\n' :: text.lastLine) =
        (front.encode ++ [0x0A]) ++ encode text.lastLine := by
      rw [encode_append, encode_cons, List.append_assoc]
      rfl
    conv_lhs => rw [shape]
    rw [feed, rtakeWhile_append_of_not_mem _ absent, List.rtakeWhile_concat_neg _ _ _ (by simp)]
    rfl

/-- The bytes of a text hold as many line feeds as the text. -/
theorem count_encode (text : Text) : text.encode.count 0x0A = text.lineFeeds := by
  induction text with
  | nil => rfl
  | cons c text ih =>
      have first : (String.utf8EncodeChar c).count 0x0A = if c = '\n' then 1 else 0 := by
        split
        · rename_i feed
          subst feed
          decide
        · rename_i other
          exact List.count_eq_zero.mpr fun feed => other (lineFeed_mem_utf8EncodeChar_iff.mp feed)
      rw [encode_cons, List.count_append, ih, first, lineFeeds, lineFeeds, List.count_cons]
      simp [Nat.add_comm]

/-- Only the last line of what follows counts, and what stands before it on the same line. -/
theorem lastLine_append (before text : Text) :
    (before ++ text).lastLine =
      (if '\n' ∈ text then [] else before.lastLine) ++ text.lastLine := by
  split
  · rename_i feed
    obtain ⟨front, rest, rfl, _⟩ := List.eq_append_cons_of_mem feed
    rw [← List.append_assoc, lastLine_append_lineFeed, lastLine_append_lineFeed,
      List.nil_append]
  · rename_i absent
    rw [lastLine_append_of_not_mem _ absent, lastLine_of_not_mem absent]

/-! ## Units and bytes -/

theorem units_of_forall_eq_one {text : Text} (single : ∀ c ∈ text, unitCount c = 1) :
    text.units = text.length := by
  induction text with
  | nil => rfl
  | cons c text ih =>
      rw [units_cons, single c List.mem_cons_self, ih fun d member => single d (by simp [member]),
        List.length_cons, Nat.add_comm]

/-- A character has no more units than bytes, and as many only if it takes a single byte. -/
theorem unitCount_le_utf8Size (c : Char) :
    unitCount c ≤ c.utf8Size ∧ (unitCount c = c.utf8Size ↔ c.toNat < 0x80) := by
  have size : c.utf8Size = if c.toNat ≤ 0x7F then 1 else if c.toNat ≤ 0x7FF then 2
      else if c.toNat ≤ 0xFFFF then 3 else 4 := rfl
  rw [unitCount, size]
  split_ifs <;> omega

/-- A text has as many units as bytes when all its characters take a single byte. -/
theorem units_le_byteCount (text : Text) :
    text.units ≤ text.byteCount ∧ (text.units = text.byteCount ↔ text.isAscii = true) := by
  induction text with
  | nil => exact ⟨Nat.le_refl _, by decide⟩
  | cons c text ih =>
      obtain ⟨least, same⟩ := ih
      obtain ⟨one, single⟩ := unitCount_le_utf8Size c
      rw [units_cons, byteCount_cons, isAscii, List.all_cons, Bool.and_eq_true, decide_eq_true_eq,
        ← isAscii, ← same, ← single]
      omega

/-! ## Offsets inside characters -/

/-- Up to an offset, the bytes of a text are those of its first characters, and the first bytes of
one character more if the offset lies inside of it. -/
structure CutAt (text : Text) (byte : Nat) (front cut : Text) (part : Bytes) : Prop where
  chars : text.take (text.charsIn byte) = front ++ cut
  bytes : text.encode.take byte = front.encode ++ part
  wide : cut = [] ∧ part = [] ∨
    ∃ c : Char, cut = [c] ∧ 0x80 ≤ c.toNat ∧ part <+: String.utf8EncodeChar c

theorem exists_cutAt {text : Text} {byte : Nat} (inside : byte ≤ text.byteCount) :
    ∃ front cut part, text.CutAt byte front cut part := by
  induction text generalizing byte with
  | nil => exact ⟨[], [], [], rfl, by simp [encode], .inl ⟨rfl, rfl⟩⟩
  | cons c text ih =>
      have length : (String.utf8EncodeChar c).length = c.utf8Size := String.length_utf8EncodeChar c
      rcases Nat.eq_zero_or_pos byte with rfl | some
      · exact ⟨[], [], [], by simp [charsIn_zero], rfl, .inl ⟨rfl, rfl⟩⟩
      · by_cases whole : c.utf8Size ≤ byte
        · rw [byteCount_cons] at inside
          obtain ⟨front, cut, part, chars, bytes, wide⟩ :=
            ih (show byte - c.utf8Size ≤ byteCount text by omega)
          refine ⟨c :: front, cut, part, ?_, ?_, wide⟩
          · rw [charsIn_cons some, List.take_succ_cons, chars, List.cons_append]
          · rw [encode_cons, encode_cons, List.take_append, List.take_of_length_le (by omega),
              length, bytes, List.append_assoc]
        · have none : byte - c.utf8Size = 0 := by omega
          have high : 0x80 ≤ c.toNat := by
            by_contra low
            have size := utf8Size_of_lt (Nat.lt_of_not_le low)
            omega
          refine ⟨[], [c], (String.utf8EncodeChar c).take byte, ?_, ?_, .inr ⟨c, rfl, high, ?_⟩⟩
          · rw [charsIn_cons some, none, charsIn_zero, List.take_succ_cons, List.take_zero,
              List.nil_append]
          · rw [encode_cons, List.take_append_of_le_length (by omega)]
            rfl
          · exact List.take_prefix _ _

namespace CutAt

variable {text front cut : Text} {byte : Nat} {part : Bytes}
  (cutAt : text.CutAt byte front cut part)

include cutAt

/-- No line feed is cut. -/
theorem not_mem : '\n' ∉ cut ∧ 0x0A ∉ part := by
  rcases cutAt.wide with ⟨rfl, rfl⟩ | ⟨c, rfl, high, begins⟩
  · exact ⟨List.not_mem_nil, List.not_mem_nil⟩
  · have other : c ≠ '\n' := by
      rintro rfl
      exact absurd high (by decide)
    refine ⟨fun feed => other (List.mem_singleton.mp feed).symm, fun feed => ?_⟩
    exact other (lineFeed_mem_utf8EncodeChar_iff.mp (begins.subset feed))

theorem length_part (inside : byte ≤ text.byteCount) : byte = front.byteCount + part.length := by
  have length := congrArg List.length cutAt.bytes
  rw [List.length_take, length_encode, Nat.min_eq_left inside, List.length_append,
    length_encode] at length
  exact length

/-- Line feeds are counted alike in the first bytes and in their characters. -/
theorem count_take :
    (text.encode.take byte).count 0x0A = lineFeeds (text.take (text.charsIn byte)) := by
  rw [cutAt.bytes, cutAt.chars, List.count_append, count_encode, lineFeeds_append,
    List.count_eq_zero.mpr cutAt.not_mem.2, lineFeeds, lineFeeds,
    List.count_eq_zero.mpr cutAt.not_mem.1]

/-- The last line of the first bytes is as long as that of their characters, but for the bytes of a
character that are cut off. -/
theorem length_rtakeWhile_take (inside : byte ≤ text.byteCount) :
    ((text.encode.take byte).rtakeWhile (· ≠ 0x0A)).length +
        byteCount (text.take (text.charsIn byte)) =
      byteCount (lastLine (text.take (text.charsIn byte))) + byte := by
  have whole := cutAt.length_part inside
  rw [cutAt.bytes, cutAt.chars, rtakeWhile_append_of_not_mem _ cutAt.not_mem.2, rtakeWhile_encode,
    lastLine_append_of_not_mem _ cutAt.not_mem.1, List.length_append, length_encode,
    byteCount_append, byteCount_append]
  omega

/-- Nothing is cut off where the last line has characters of one byte only. -/
theorem byteCount_take (inside : byte ≤ text.byteCount)
    (ascii : (lastLine (text.take (text.charsIn byte))).isAscii = true) :
    byteCount (text.take (text.charsIn byte)) = byte := by
  rcases cutAt.wide with ⟨rfl, rfl⟩ | ⟨c, rfl, high, _⟩
  · have whole := cutAt.length_part inside
    rw [cutAt.chars, List.append_nil]
    exact whole.symm
  · rw [cutAt.chars, lastLine_append_of_not_mem _ cutAt.not_mem.1, isAscii,
      List.all_eq_true] at ascii
    have low := of_decide_eq_true (ascii c (by simp))
    exact absurd high (Nat.not_le_of_lt low)

end CutAt

end Text

/-- A place in a text that has the row and the column of its offset in bytes: the number of line
feeds before it, and the number of bytes behind the last of them. -/
structure Point.StandsIn (text : Text) (point : Point) : Prop where
  inside : point.byte ≤ text.encode.length
  row : point.row = (text.encode.take point.byte).count 0x0A
  column : point.column = ((text.encode.take point.byte).rtakeWhile (· ≠ 0x0A)).length

instance (text : Text) (point : Point) : Decidable (point.StandsIn text) :=
  decidable_of_iff
    (point.byte ≤ text.encode.length ∧ point.row = (text.encode.take point.byte).count 0x0A ∧
      point.column = ((text.encode.take point.byte).rtakeWhile (· ≠ 0x0A)).length)
    ⟨fun ⟨inside, row, column⟩ => ⟨inside, row, column⟩,
      fun ⟨inside, row, column⟩ => ⟨inside, row, column⟩⟩

namespace ScriptBody

/-! ## The line of a fault -/

/-- The offset in the document of the place where a syntax error points. -/
def faultOffset (body : ScriptBody) (root : Node) : Int :=
  body.offsetOf root.faultStart.byte

/-- The text of the body before the place where a syntax error points. -/
def faultLead (body : ScriptBody) (root : Node) : Text :=
  body.document.slice body.start (body.faultOffset root)

/-- What stands before the body on the line where a syntax error points. -/
def outerLine (body : ScriptBody) (root : Node) : Text :=
  if '\n' ∈ body.faultLead root then [] else (body.document.upTo body.start).lastLine

/-- What stands in the body, before the error, on the line where a syntax error points. -/
def innerLine (body : ScriptBody) (root : Node) : Text :=
  (body.faultLead root).lastLine

section Within

variable {body : ScriptBody} (within : body.Within) {root : Node}
  (inside : root.faultStart.byte ≤ body.text.byteCount)

include within inside

/-- The text before a fault holds the characters that its offset in bytes counts. -/
theorem faultLead_eq :
    body.faultLead root = body.text.take (body.text.charsIn root.faultStart.byte) := by
  obtain ⟨nonneg, forward, stopInside⟩ := within
  have length : (body.text.length : Int) = body.stop - body.start :=
    Text.length_slice _ nonneg forward stopInside
  have counted := Text.charsIn_le_length body.text root.faultStart.byte
  have whole : body.text = (body.document.take body.stop.toNat).drop body.start.toNat :=
    Text.slice_of_nonneg _ nonneg (by omega)
  rw [faultLead, faultOffset, offsetOf_eq_charsIn body inside,
    Text.slice_of_nonneg _ nonneg (by omega)]
  generalize body.text.charsIn root.faultStart.byte = count at counted ⊢
  rw [whole, List.take_drop, List.take_take, Nat.min_eq_left (by omega)]
  congr 2
  omega

/-- The document before a fault ends with the text of the body before it. -/
theorem upTo_faultOffset :
    body.document.upTo (body.faultOffset root) =
      body.document.upTo body.start ++ body.faultLead root := by
  have nonneg := within.nonneg
  have behind : body.start ≤ body.faultOffset root := by
    rw [faultOffset, offsetOf_eq_charsIn body inside]
    omega
  rw [Text.upTo_eq_slice _ (by omega), Text.upTo_eq_slice _ nonneg, faultLead,
    Text.slice_append_slice _ (Int.le_refl 0) nonneg behind]

/-- The position of a fault counts the line feeds before it and the units of its line. -/
theorem positionAt_faultOffset :
    body.document.positionAt (body.faultOffset root) =
      { line := (body.document.upTo body.start).lineFeeds + (body.faultLead root).lineFeeds
        column := (body.outerLine root).units + (body.innerLine root).units } := by
  rw [Text.positionAt, upTo_faultOffset within inside, Text.endPosition, Text.lastLine_append,
    Text.lineFeeds_append, Text.units_append]
  rfl

omit inside

/-- The row and the column of a fault, in lines and bytes of the text before it. -/
theorem row_and_column (stands : root.faultStart.StandsIn body.text) :
    root.faultStart.row = (body.faultLead root).lineFeeds ∧
      root.faultStart.column + (body.faultLead root).byteCount =
        (body.innerLine root).byteCount + root.faultStart.byte := by
  have inside := stands.inside
  rw [Text.length_encode] at inside
  obtain ⟨front, cut, part, cutAt⟩ := Text.exists_cutAt inside
  rw [innerLine, faultLead_eq within inside, stands.row, stands.column]
  exact ⟨cutAt.count_take, cutAt.length_rtakeWhile_take inside⟩

/-- Where the line of a fault has characters of one byte only, the fault lies between characters. -/
theorem byteCount_faultLead (stands : root.faultStart.StandsIn body.text)
    (ascii : (body.innerLine root).isAscii = true) :
    (body.faultLead root).byteCount = root.faultStart.byte := by
  have inside := stands.inside
  rw [Text.length_encode] at inside
  obtain ⟨front, cut, part, cutAt⟩ := Text.exists_cutAt inside
  rw [innerLine, faultLead_eq within inside] at ascii
  rw [faultLead_eq within inside]
  exact cutAt.byteCount_take inside ascii

/-- The column of a syntax error counts the characters before the body and the bytes in it. -/
theorem column_syntaxError (path : String) (stands : root.faultStart.StandsIn body.text) :
    (body.syntaxError path root).column =
      (body.outerLine root).length + root.faultStart.column := by
  have row := (row_and_column within stands).1
  have lead : (body.document.upTo body.start).length = body.start.toNat := by
    obtain ⟨nonneg, forward, stopInside⟩ := within
    rw [Text.upTo_of_nonneg _ nonneg, List.length_take]
    omega
  have line : (body.document.upTo body.start).lastLine.length ≤
      (body.document.upTo body.start).length := (List.rtakeWhile_suffix _ _).length_le
  have nonneg := within.nonneg
  have feeds : root.faultStart.row = 0 ↔ '\n' ∉ body.faultLead root := by
    rw [row, Text.lineFeeds, List.count_eq_zero]
  show (if root.faultStart.row = 0 then _ else _) = _
  rw [outerLine]
  by_cases feed : '\n' ∈ body.faultLead root
  · rw [if_neg (fun first => feeds.mp first feed), if_pos feed]
    exact (Int.zero_add _).symm
  · rw [if_pos (feeds.mpr feed), if_neg feed]
    show (root.faultStart.column : Int) + (body.start - ((_ - _ : Nat) : Int)) = _
    omega

end Within

/-- A script whose tree is marked is refused with a syntax error on the line of its first fault.
The column of the error counts the characters that stand before the body on this line and the bytes
that stand in the body, those of a character that the fault cuts off left out, while the column of
a position counts units.  So where characters before the body have one unit each, the error has the
position of the fault if the line of the body holds only characters of one byte before it, and
otherwise only for a fault inside a character. -/
theorem statements_error_position {body : ScriptBody} (within : body.Within) {root : Node}
    (faulty : root.hasError = true)
    (stands : ∀ node ∈ root.preorder, node.start.StandsIn body.text) (path : String) :
    ∃ error, body.statements path root = .error error ∧
      error.line = (body.document.positionAt (body.faultOffset root)).line ∧
      (body.document.positionAt (body.faultOffset root)).column =
        (body.outerLine root).units + (body.innerLine root).units ∧
      error.column + (body.faultLead root).byteCount =
        (body.outerLine root).length + (body.innerLine root).byteCount + root.faultStart.byte ∧
      ((∀ c ∈ body.outerLine root, unitCount c = 1) →
        ((body.innerLine root).isAscii = true →
          error.column = (body.document.positionAt (body.faultOffset root)).column) ∧
        (body.text.IsBoundary root.faultStart.byte →
          error.column = (body.document.positionAt (body.faultOffset root)).column →
            (body.innerLine root).isAscii = true)) := by
  obtain ⟨node, member, start⟩ := root.exists_faultStart_eq
  have placed : root.faultStart.StandsIn body.text := start ▸ stands node member
  have inside := placed.inside
  rw [Text.length_encode] at inside
  obtain ⟨row, column⟩ := row_and_column within placed
  have reported := column_syntaxError within path placed
  obtain ⟨_, same⟩ := Text.units_le_byteCount (body.innerLine root)
  rw [positionAt_faultOffset within inside]
  refine ⟨body.syntaxError path root, if_pos faulty, ?_, rfl, by omega, fun single => ⟨?_, ?_⟩⟩
  · exact (Nat.add_comm _ _).trans (congrArg (_ + ·) row)
  · intro ascii
    have between := byteCount_faultLead within placed ascii
    have outer := Text.units_of_forall_eq_one single
    have inner := same.mpr ascii
    show _ = ((_ + _ : Nat) : Int)
    omega
  · rintro ⟨count, counted, boundary⟩ equal
    have between : (body.faultLead root).byteCount = root.faultStart.byte := by
      rw [Text.length_encode] at boundary
      rw [faultLead_eq within inside, boundary, Text.charsIn_byteCount_take counted]
    have outer := Text.units_of_forall_eq_one single
    have equal : (body.syntaxError path root).column = ((_ + _ : Nat) : Int) := equal
    exact same.mp (by omega)

/-- The tree of a name with a bracket behind it, where the name has the given number of bytes. -/
def bracketTree (bytes : Nat) : Node where
  kind := "program"
  start := ⟨0, 0, 0⟩
  stop := ⟨bytes + 1, 0, bytes + 1⟩
  hasError := true
  children := [
    { kind := "expression_statement", start := ⟨0, 0, 0⟩, stop := ⟨bytes, 0, bytes⟩ },
    { kind := "ERROR", start := ⟨bytes, 0, bytes⟩, stop := ⟨bytes + 1, 0, bytes + 1⟩
      hasError := true }]

/-- A body behind a character of two bytes, with a fault behind a name of one byte. -/
def bracketBody : ScriptBody where
  document := "<é>a)".toList
  start := 3
  stop := 5

theorem statements_error_position_bracket :
    ∃ error, bracketBody.statements "" (bracketTree 1) = .error error ∧
      error.line = 0 ∧ error.column = 4 ∧ bracketBody.document.positionAt 4 = ⟨0, 4⟩ := by
  have within : bracketBody.Within := ⟨by decide, by decide, by decide⟩
  obtain ⟨error, refused, line, _, _, agrees⟩ :=
    @statements_error_position bracketBody within (bracketTree 1) rfl (by decide) ""
  have outer : bracketBody.outerLine (bracketTree 1) = ['<', 'é', '>'] := by decide
  have single : ∀ c ∈ bracketBody.outerLine (bracketTree 1), unitCount c = 1 := by
    simp [outer, unitCount]
  exact ⟨error, refused, line, (agrees single).1 (by decide), by decide⟩

/-- A body with a fault behind a name of one character and two bytes. -/
def wideNameBody : ScriptBody where
  document := "é)".toList
  start := 0
  stop := 2

/-- Behind a character of two bytes, an error is reported one column behind its position. -/
theorem statements_error_behind_position :
    wideNameBody.Within ∧ (bracketTree 2).hasError = true ∧
      (∀ node ∈ (bracketTree 2).preorder, node.start.StandsIn wideNameBody.text ∧
        node.stop.StandsIn wideNameBody.text) ∧
      (∃ error, wideNameBody.statements "" (bracketTree 2) = .error error ∧ error.column = 2) ∧
      wideNameBody.document.positionAt (wideNameBody.faultOffset (bracketTree 2)) = ⟨0, 1⟩ :=
  ⟨⟨by decide, by decide, by decide⟩, rfl, by decide, ⟨_, rfl, by decide⟩, by decide⟩

end ScriptBody

end DeclOrder

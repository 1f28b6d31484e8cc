import DeclOrder.Proofs.FileTexts
import DeclOrder.Proofs.WrittenPaths
import DeclOrder.Uri

/-!
# File URIs

The bytes of a path can be spelled in many ways in a URI: slashes stand for themselves, unreserved
characters for themselves or escaped, and every other byte is escaped.  No spelling holds a
character that divides a URI, so splitting the URI leaves the spelling whole, and undoing its
escapes gives back the bytes.
-/

namespace DeclOrder.Uri

/-- Whether a character can stand for itself anywhere in a URI. -/
def isUnreserved (c : Char) : Bool :=
  c.isAlphanum || c = '-' || c = '.' || c = '_' || c = '~'

/-- The spellings of bytes: a slash stands for itself, an unreserved character stands for itself or
is escaped, and every other byte is escaped, by two hexadecimal digits with letters of either
case. -/
inductive Spells : Bytes → Text → Prop where
  | done : Spells [] []
  | slash {bytes : Bytes} {uri : Text} (rest : Spells bytes uri) :
      Spells ('/'.toUInt8 :: bytes) ('/' :: uri)
  | literal {c : Char} {bytes : Bytes} {uri : Text} (unreserved : isUnreserved c = true)
      (rest : Spells bytes uri) : Spells (c.toUInt8 :: bytes) (c :: uri)
  | escape {byte : UInt8} {high low : Char} {first second : Nat} {bytes : Bytes} {uri : Text}
      (noSlash : byte ≠ '/'.toUInt8) (highDigit : Numeral.digit? 16 high = some first)
      (lowDigit : Numeral.digit? 16 low = some second) (value : byte.toNat = 16 * first + second)
      (rest : Spells bytes uri) : Spells (byte :: bytes) ('%' :: high :: low :: uri)

/-! ## The characters of a spelling -/

/-- Whether a character occurs in spellings. -/
def isSign (c : Char) : Bool :=
  isUnreserved c || c = '/' || c = '%'

theorem isAlphanum_iff {c : Char} : c.isAlphanum = true ↔
    (65 ≤ c.toNat ∧ c.toNat ≤ 90) ∨ (97 ≤ c.toNat ∧ c.toNat ≤ 122) ∨
      (48 ≤ c.toNat ∧ c.toNat ≤ 57) := by
  simp [Char.isAlphanum, Char.isAlpha, Char.isUpper, Char.isLower, Char.isDigit, ← Char.toNat_val,
    UInt32.le_iff_toNat_le, or_assoc]

theorem isUnreserved_of_digit? {c : Char} {value : Nat}
    (digit : Numeral.digit? 16 c = some value) : isUnreserved c = true := by
  simp only [Numeral.digit?, Option.ite_none_right_eq_some] at digit
  have alphanumeric : c.isAlphanum = true := by
    rw [isAlphanum_iff]
    split_ifs at digit with decimal lower upper
    · have range : 48 ≤ c.toNat ∧ c.toNat ≤ 57 := Char.isDigit_iff_toNat.mp decimal
      omega
    · have range : 97 ≤ c.toNat ∧ c.toNat ≤ 102 := lower
      omega
    · have range : 65 ≤ c.toNat ∧ c.toNat ≤ 70 := upper
      omega
    · exact absurd digit.1 (Nat.lt_irrefl 16)
  simp [isUnreserved, alphanumeric]

theorem isSign_of_isUnreserved {c : Char} (unreserved : isUnreserved c = true) :
    isSign c = true := by
  simp [isSign, unreserved]

/-- All signs are visible ASCII characters. -/
theorem range_of_isSign {c : Char} (sign : isSign c = true) : 0x20 < c.toNat ∧ c.toNat < 0x80 := by
  simp only [isSign, isUnreserved, Bool.or_eq_true, isAlphanum_iff, decide_eq_true_eq] at sign
  rcases sign with ((((((alphanumeric | rfl) | rfl) | rfl) | rfl) | rfl) | rfl)
  · omega
  all_goals decide

namespace Spells

variable {bytes : Bytes} {uri : Text} (spelled : Spells bytes uri)

include spelled

theorem all_isSign : ∀ c ∈ uri, isSign c = true := by
  induction spelled with
  | done => exact fun c member => absurd member List.not_mem_nil
  | slash _ ih => exact List.forall_mem_cons.mpr ⟨rfl, ih⟩
  | literal unreserved _ ih =>
      exact List.forall_mem_cons.mpr ⟨isSign_of_isUnreserved unreserved, ih⟩
  | escape _ highDigit lowDigit _ _ ih =>
      have high := isSign_of_isUnreserved (isUnreserved_of_digit? highDigit)
      have low := isSign_of_isUnreserved (isUnreserved_of_digit? lowDigit)
      exact List.forall_mem_cons.mpr ⟨rfl, List.forall_mem_cons.mpr ⟨high,
        List.forall_mem_cons.mpr ⟨low, ih⟩⟩⟩

/-- What is no sign does not occur. -/
theorem ne_of_mem {c mark : Char} (member : c ∈ uri) (foreign : isSign mark = false) :
    c ≠ mark := by
  rintro rfl
  rw [spelled.all_isSign c member] at foreign
  cases foreign

theorem strip_append {start : Text} (visible : ∀ c ∈ start, 0x20 < c.toNat) :
    strip (start ++ uri) = start ++ uri := by
  have all : ∀ c ∈ start ++ uri, 0x20 < c.toNat := by
    intro c member
    rcases List.mem_append.mp member with first | later
    · exact visible c first
    · exact (range_of_isSign (spelled.all_isSign c later)).1
  rw [strip, List.dropWhile_eq_self_iff.mpr, List.filter_eq_self]
  · intro c member
    have code := all c member
    have other : ∀ mark : Char, mark.toNat ≤ 0x20 → c ≠ mark := by
      rintro mark low rfl
      omega
    simp [other '\t' (by decide), other '\r' (by decide), other '\n' (by decide)]
  · intro some
    simpa using all _ (List.getElem_mem some)

theorem dropQuery_eq : dropQuery uri = uri := by
  rw [dropQuery, List.takeWhile_eq_self_iff]
  intro c member
  simp [spelled.ne_of_mem member (show isSign '?' = false by decide),
    spelled.ne_of_mem member (show isSign '#' = false by decide)]

end Spells

/-! ## Undoing escapes -/

theorem unescape_cons_of_ne {c : Char} (other : c ≠ '%') (rest : Text) :
    unescape (c :: rest) = c.toUInt8 :: unescape rest := by
  rw [unescape]
  exact fun _ _ _ same => absurd same other

/-- Undoing the escapes of a spelling gives the bytes that it spells. -/
theorem Spells.unescape_eq {bytes : Bytes} {uri : Text} (spelled : Spells bytes uri) :
    unescape uri = bytes := by
  induction spelled with
  | done => rfl
  | slash _ ih => rw [unescape_cons_of_ne (by decide), ih]
  | @literal c _ _ unreserved _ ih =>
      have other : c ≠ '%' := by
        rintro rfl
        cases unreserved
      rw [unescape_cons_of_ne other, ih]
  | escape _ highDigit lowDigit value _ ih =>
      rw [unescape, highDigit, lowDigit]
      dsimp only
      rw [ih, ← value, UInt8.ofNat_toNat]

/-- A spelling consists of ASCII characters, so that all its escapes are decoded together. -/
theorem Spells.decode_eq {bytes : Bytes} {uri : Text} (spelled : Spells bytes uri)
    (some : uri ≠ []) : decode uri = Utf8.decodeLossy bytes := by
  have ascii : ∀ c ∈ uri, isAscii c = true := by
    intro c member
    simpa [isAscii] using (range_of_isSign (spelled.all_isSign c member)).2
  have alike : uri.IsChain fun a b => decide (isAscii a = isAscii b) = true := by
    refine List.Pairwise.isChain (List.pairwise_of_forall_mem_list fun a first b second => ?_)
    rw [ascii a first, ascii b second]
    rfl
  rw [decode, List.splitBy_of_isChain some alike, List.flatMap_singleton,
    if_pos (List.all_eq_true.mpr ascii), spelled.unescape_eq]

theorem decodeLossy_encode (text : Text) : Utf8.decodeLossy (Text.encode text) = text := by
  rw [Utf8.decodeLossy, Utf8.decodeEach_encode, List.map_map]
  exact List.map_id _

/-! ## Spellings of paths -/

/-- A spelling of bytes that start with a slash starts with a slash. -/
theorem Spells.exists_cons {bytes : Bytes} {uri : Text} (spelled : Spells bytes uri)
    (slash : bytes.head? = some '/'.toUInt8) : ∃ rest, uri = '/' :: rest := by
  cases spelled with
  | done => cases slash
  | slash rest => exact ⟨_, rfl⟩
  | @literal c _ _ unreserved rest =>
      have low := (range_of_isSign (isSign_of_isUnreserved unreserved)).2
      have code : c.toNat % 256 = '/'.toNat :=
        congrArg UInt8.toNat (Option.some.inj slash)
      have same : c = '/' := by
        rw [← Char.toNat_inj, ← code, Nat.mod_eq_of_lt (by omega)]
      rw [same] at unreserved
      cases unreserved
  | escape noSlash => exact absurd (Option.some.inj slash) noSlash

/-- A path with an anchor is written with a slash in front. -/
theorem head?_encode_render {path : Path} (rooted : path.anchor ≠ .here) :
    (Text.encode path.render.toList).head? = some '/'.toUInt8 := by
  rw [Path.toList_render fun dot => rooted dot.1]
  cases anchor : path.anchor with
  | here => exact absurd anchor rooted
  | root => rfl
  | doubleRoot => rfl

/-- A URI that spells a path with an anchor in any way denotes that path. -/
theorem toPath_spelled {path : Path} (normal : path.Normal) (rooted : path.anchor ≠ .here)
    {uri : Text} (spelled : Spells (Text.encode path.render.toList) uri) :
    toPath ("file://".toList ++ uri) = .ok path := by
  have visible : ∀ c ∈ "file://".toList, 0x20 < c.toNat := by simp
  obtain ⟨rest, slash⟩ := spelled.exists_cons (head?_encode_render rooted)
  have decoded : decode (dropQuery uri) = path.render.toList := by
    rw [spelled.dropQuery_eq, spelled.decode_eq (by simp [slash]), decodeLossy_encode]
  have split : (scheme? ("file://".toList ++ uri)).getD ([], "file://".toList ++ uri) =
      ("file".toList, '/' :: '/' :: uri) := rfl
  have behind : authority ('/' :: '/' :: uri) = ([], uri) := by
    rw [slash]
    rfl
  rw [toPath, spelled.strip_append visible, split]
  dsimp only
  rw [behind]
  dsimp only
  rw [decoded, Path.ofText_render normal]
  rfl

/-- A path with two slashes in front, a character of two bytes and a question mark. -/
def accentedPath : Path where
  anchor := .doubleRoot
  names := ["é", "~a?"]

theorem toPath_spelled_accentedPath :
    accentedPath.Normal ∧ accentedPath.anchor ≠ .here ∧
      Spells (Text.encode accentedPath.render.toList) "//%c3%A9/%7Ea%3F".toList ∧
        toPath "file:////%c3%A9/%7Ea%3F".toList = .ok accentedPath := by
  have normal : accentedPath.Normal := by decide
  have written : Text.encode accentedPath.render.toList =
      [0x2F, 0x2F, 0xC3, 0xA9, 0x2F, 0x7E, 0x61, 0x3F] := by decide
  have spelled : Spells (Text.encode accentedPath.render.toList) "//%c3%A9/%7Ea%3F".toList := by
    rw [written]
    refine .slash (.slash (.escape ?_ rfl rfl rfl (.escape ?_ rfl rfl rfl (.slash
      (.escape ?_ rfl rfl rfl (.literal (c := 'a') rfl (.escape ?_ rfl rfl rfl .done)))))))
    all_goals decide
  exact ⟨normal, by decide, spelled, toPath_spelled normal (by decide) spelled⟩

end DeclOrder.Uri

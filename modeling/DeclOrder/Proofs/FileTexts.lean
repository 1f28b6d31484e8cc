import DeclOrder.FileTree
import Mathlib

/-!
# The texts of files

The bytes of a file and its text determine each other: decoding accepts exactly the bytes that
encoding produces.  Reading also unifies line ends, which loses every carriage return and nothing
else.  A text and its unified form can be cut at the same places, so what was changed in the unified
form can be found again in the bytes of the file.
-/

namespace DeclOrder

namespace Utf8

/-! ## Bytes of a character -/

theorem continuation_zero_eq_some_iff {value code : Nat} {low high : UInt8} {bytes rest : Bytes} :
    continuation 0 value low high bytes = (some code, rest) ↔ value = code ∧ bytes = rest := by
  simp [continuation]

theorem continuation_succ_eq_some_iff {count value code : Nat} {low high : UInt8}
    {bytes rest : Bytes} :
    continuation (count + 1) value low high bytes = (some code, rest) ↔
      ∃ byte more, bytes = byte :: more ∧ low.toNat ≤ byte.toNat ∧ byte.toNat ≤ high.toNat ∧
        continuation count (value * 64 + (byte.toNat - 0x80)) 0x80 0xBF more =
          (some code, rest) := by
  cases bytes with
  | nil => simp [continuation]
  | cons byte more =>
      rw [continuation]
      split
      · rename_i fits
        constructor
        · intro read
          exact ⟨byte, more, rfl, UInt8.le_iff_toNat_le.mp fits.1, UInt8.le_iff_toNat_le.mp fits.2,
            read⟩
        · rintro ⟨_, _, same, _, _, read⟩
          cases same
          exact read
      · rename_i misfit
        constructor
        · intro read
          cases read
        · rintro ⟨_, _, same, least, most, _⟩
          cases same
          exact absurd ⟨UInt8.le_iff_toNat_le.mpr least, UInt8.le_iff_toNat_le.mpr most⟩ misfit

/-- The first byte of a sequence by the number of bytes that continue it.  In sequences of three and
four bytes the range of the second byte excludes what has a shorter form, the surrogates and what
lies beyond the last code point. -/
theorem lead?_eq (first : UInt8) :
    lead? first =
      if first.toNat < 0x80 then some (0, first.toNat, 0x80, 0xBF)
      else if first.toNat < 0xC2 then none
      else if first.toNat < 0xE0 then some (1, first.toNat - 0xC0, 0x80, 0xBF)
      else if first.toNat < 0xF0 then some (2, first.toNat - 0xE0,
        if first.toNat = 0xE0 then 0xA0 else 0x80, if first.toNat = 0xED then 0x9F else 0xBF)
      else if first.toNat < 0xF5 then some (3, first.toNat - 0xF0,
        if first.toNat = 0xF0 then 0x90 else 0x80, if first.toNat = 0xF4 then 0x8F else 0xBF)
      else none := by
  simp only [lead?, UInt8.lt_iff_toNat_lt, ← UInt8.toNat_inj, UInt8.reduceToNat]
  grind

theorem eq_ofNat {byte : UInt8} {value : Nat} (same : byte.toNat = value) :
    byte = UInt8.ofNat value := by
  rw [← same, UInt8.ofNat_toNat]

theorem toNat_ofNat_of_lt {value : Nat} (small : value < 256) :
    (UInt8.ofNat value).toNat = value := by
  rw [UInt8.toNat_ofNat', Nat.mod_eq_of_lt small]

theorem toNat_val_ofNat {code : Nat} (valid : code.isValidChar) :
    (Char.ofNat code).val.toNat = code := by
  show (Char.ofNat code).toNat = code
  rw [Char.toNat_ofNat, if_pos valid]

/-- A character that was read is written with the bytes it was read from. -/
theorem cons_eq_utf8EncodeChar_append {first : UInt8} {count bits code : Nat} {low high : UInt8}
    {bytes rest : Bytes} (lead : lead? first = some (count, bits, low, high))
    (read : continuation count bits low high bytes = (some code, rest)) :
    first :: bytes = String.utf8EncodeChar (Char.ofNat code) ++ rest := by
  rw [lead?_eq] at lead
  split at lead
  · simp only [Option.some.injEq, Prod.mk.injEq] at lead
    obtain ⟨rfl, rfl, rfl, rfl⟩ := lead
    obtain ⟨rfl, rfl⟩ := continuation_zero_eq_some_iff.mp read
    rw [String.utf8EncodeChar, toNat_val_ofNat (.inl (by omega)), if_pos (by omega),
      UInt8.ofNat_toNat]
    rfl
  split at lead
  · cases lead
  split at lead
  · simp only [Option.some.injEq, Prod.mk.injEq] at lead
    obtain ⟨rfl, rfl, rfl, rfl⟩ := lead
    obtain ⟨second, more, rfl, least, most, read⟩ := continuation_succ_eq_some_iff.mp read
    obtain ⟨rfl, rfl⟩ := continuation_zero_eq_some_iff.mp read
    simp only [UInt8.reduceToNat] at least most
    rw [String.utf8EncodeChar, toNat_val_ofNat (.inl (by omega)), if_neg (by omega),
      if_pos (by omega)]
    exact congrArg₂ _ (eq_ofNat (by omega)) (congrArg₂ _ (eq_ofNat (by omega)) rfl)
  split at lead
  · simp only [Option.some.injEq, Prod.mk.injEq] at lead
    obtain ⟨rfl, rfl, rfl, rfl⟩ := lead
    obtain ⟨second, more, rfl, least, most, read⟩ := continuation_succ_eq_some_iff.mp read
    obtain ⟨third, more, rfl, thirdLeast, thirdMost, read⟩ :=
      continuation_succ_eq_some_iff.mp read
    obtain ⟨sum, rfl⟩ := continuation_zero_eq_some_iff.mp read
    simp only [apply_ite UInt8.toNat, UInt8.reduceToNat] at least most
    simp only [UInt8.reduceToNat] at thirdLeast thirdMost
    have tail : 0x80 ≤ second.toNat ∧ second.toNat ≤ 0xBF := by
      split_ifs at least most <;> omega
    have range : 0x800 ≤ code ∧ code < 0x10000 ∧ (code < 0xD800 ∨ 0xDFFF < code) := by
      split_ifs at least most <;> omega
    rw [String.utf8EncodeChar, toNat_val_ofNat (by rw [Nat.isValidChar]; omega), if_neg (by omega),
      if_neg (by omega), if_pos (by omega)]
    exact congrArg₂ _ (eq_ofNat (by omega)) (congrArg₂ _ (eq_ofNat (by omega))
      (congrArg₂ _ (eq_ofNat (by omega)) rfl))
  split at lead
  · simp only [Option.some.injEq, Prod.mk.injEq] at lead
    obtain ⟨rfl, rfl, rfl, rfl⟩ := lead
    obtain ⟨second, more, rfl, least, most, read⟩ := continuation_succ_eq_some_iff.mp read
    obtain ⟨third, more, rfl, thirdLeast, thirdMost, read⟩ :=
      continuation_succ_eq_some_iff.mp read
    obtain ⟨fourth, more, rfl, fourthLeast, fourthMost, read⟩ :=
      continuation_succ_eq_some_iff.mp read
    obtain ⟨sum, rfl⟩ := continuation_zero_eq_some_iff.mp read
    simp only [apply_ite UInt8.toNat, UInt8.reduceToNat] at least most
    simp only [UInt8.reduceToNat] at thirdLeast thirdMost fourthLeast fourthMost
    have tail : 0x80 ≤ second.toNat ∧ second.toNat ≤ 0xBF := by
      split_ifs at least most <;> omega
    have range : 0x10000 ≤ code ∧ code < 0x110000 := by
      split_ifs at least most <;> omega
    rw [String.utf8EncodeChar, toNat_val_ofNat (by rw [Nat.isValidChar]; omega), if_neg (by omega),
      if_neg (by omega), if_neg (by omega)]
    exact congrArg₂ _ (eq_ofNat (by omega)) (congrArg₂ _ (eq_ofNat (by omega))
      (congrArg₂ _ (eq_ofNat (by omega)) (congrArg₂ _ (eq_ofNat (by omega)) rfl)))
  · cases lead

theorem continuation_ofNat {count value bits : Nat} {low high : UInt8} (small : bits < 64)
    (least : low.toNat ≤ bits + 128) (most : bits + 128 ≤ high.toNat) (more : Bytes) :
    continuation (count + 1) value low high (UInt8.ofNat (bits + 128) :: more) =
      continuation count (value * 64 + bits) 0x80 0xBF more := by
  have byte := toNat_ofNat_of_lt (show bits + 128 < 256 by omega)
  rw [continuation, if_pos, byte, Nat.add_sub_cancel]
  rw [UInt8.le_iff_toNat_le, UInt8.le_iff_toNat_le, byte]
  exact ⟨least, most⟩

/-- The bytes of a character are read as that character, up to where they end. -/
theorem exists_lead?_utf8EncodeChar (c : Char) (rest : Bytes) :
    ∃ first more count bits low high, String.utf8EncodeChar c ++ rest = first :: more ∧
      lead? first = some (count, bits, low, high) ∧
        continuation count bits low high more = (some c.toNat, rest) := by
  have valid : c.toNat < 0xD800 ∨ 0xDFFF < c.toNat ∧ c.toNat < 0x110000 := c.valid
  have same : c.val.toNat = c.toNat := rfl
  rw [String.utf8EncodeChar, same]
  split
  · refine ⟨_, _, 0, c.toNat, 0x80, 0xBF, rfl, ?_, rfl⟩
    rw [lead?_eq, toNat_ofNat_of_lt (by omega), if_pos (by omega)]
  split
  · refine ⟨_, _, 1, _, _, _, List.cons_append, by
      rw [lead?_eq, toNat_ofNat_of_lt (by omega), if_neg (by omega), if_neg (by omega),
        if_pos (by omega)], ?_⟩
    rw [List.cons_append, continuation_ofNat (by omega) (by simp) (by simp; omega),
      continuation_zero_eq_some_iff]
    exact ⟨by omega, rfl⟩
  split
  · refine ⟨_, _, 2, _, _, _, List.cons_append, by
      rw [lead?_eq, toNat_ofNat_of_lt (by omega), if_neg (by omega), if_neg (by omega),
        if_neg (by omega), if_pos (by omega)], ?_⟩
    rw [List.cons_append, List.cons_append,
      continuation_ofNat (by omega) (by split <;> simp; omega) (by split <;> simp <;> omega),
      continuation_ofNat (by omega) (by simp) (by simp; omega), continuation_zero_eq_some_iff]
    exact ⟨by omega, rfl⟩
  · refine ⟨_, _, 3, _, _, _, List.cons_append, by
      rw [lead?_eq, toNat_ofNat_of_lt (by omega), if_neg (by omega), if_neg (by omega),
        if_neg (by omega), if_neg (by omega), if_pos (by omega)], ?_⟩
    rw [List.cons_append, List.cons_append,
      continuation_ofNat (by omega) (by split <;> simp; omega) (by split <;> simp <;> omega),
      continuation_ofNat (by omega) (by simp) (by simp; omega), List.cons_append,
      continuation_ofNat (by omega) (by simp) (by simp; omega), continuation_zero_eq_some_iff]
    exact ⟨by omega, rfl⟩

/-! ## Bytes of a text -/

/-- A text is read from its bytes, whatever bytes follow. -/
theorem decodeEach_encode_append (text : Text) (bytes : Bytes) :
    decodeEach (Text.encode text ++ bytes) = text.map some ++ decodeEach bytes := by
  induction text with
  | nil => rfl
  | cons c text ih =>
      obtain ⟨first, more, count, bits, low, high, shape, lead, read⟩ :=
        exists_lead?_utf8EncodeChar c (Text.encode text ++ bytes)
      rw [Text.encode, List.flatMap_cons, ← Text.encode, List.append_assoc, shape, decodeEach, lead]
      dsimp only
      rw [read, ih, Option.map_some, Char.ofNat_toNat, List.map_cons, List.cons_append]

theorem decodeEach_encode (text : Text) : decodeEach (Text.encode text) = text.map some := by
  have read := decodeEach_encode_append text []
  rwa [decodeEach, List.append_nil, List.append_nil] at read

theorem encode_of_decodeEach {bytes : Bytes} {text : Text}
    (read : decodeEach bytes = text.map some) : Text.encode text = bytes := by
  induction bytes using decodeEach.induct generalizing text with
  | case1 =>
      rw [decodeEach] at read
      rw [List.map_eq_nil_iff.mp read.symm]
      rfl
  | case2 first rest lead ih =>
      rw [decodeEach, lead] at read
      cases text <;> cases read
  | case3 first rest count bits low high lead ih =>
      rw [decodeEach, lead] at read
      cases text with
      | nil => cases read
      | cons c text =>
          dsimp only at read
          rw [List.map_cons, List.cons.injEq] at read
          obtain ⟨code, found, rfl⟩ := Option.map_eq_some_iff.mp read.1
          rw [Text.encode, List.flatMap_cons, ← Text.encode, ih read.2]
          exact (cons_eq_utf8EncodeChar_append lead (Prod.ext found rfl)).symm

theorem mapM_id_eq_some_iff {read : List (Option Char)} {text : Text} :
    read.mapM id = some text ↔ read = text.map some := by
  induction read generalizing text with
  | nil => cases text <;> simp
  | cons c read ih =>
      cases c with
      | none => cases text <;> simp
      | some c =>
          rw [List.mapM_cons]
          cases text with
          | nil => cases read.mapM id <;> simp
          | cons d text => cases tail : read.mapM id <;> simp [tail, ← ih]

/-- Decoding accepts exactly the bytes that encoding produces. -/
theorem decode?_eq_some_iff {bytes : Bytes} {text : Text} :
    decode? bytes = some text ↔ bytes = Text.encode text := by
  rw [decode?, mapM_id_eq_some_iff]
  constructor
  · intro read
    exact (encode_of_decodeEach read).symm
  · rintro rfl
    exact decodeEach_encode text

end Utf8

namespace Text

theorem encode_append (first second : Text) :
    encode (first ++ second) = encode first ++ encode second :=
  List.flatMap_append

theorem encode_injective : Function.Injective encode := by
  intro first second same
  have read := Utf8.decode?_eq_some_iff.mpr (show encode first = encode first from rfl)
  rw [same, Utf8.decode?_eq_some_iff.mpr rfl] at read
  exact (Option.some.inj read).symm

theorem ofBytes?_encode (text : Text) : ofBytes? (encode text) = some (unifyLineEnds text) := by
  rw [ofBytes?, Utf8.decode?_eq_some_iff.mpr rfl, Option.map_some]

/-! ## Line ends -/

/-- A carriage return that no line feed follows becomes a line feed, any other character stays. -/
theorem unifyLineEnds_cons {c : Char} {text : Text} (apart : c = '\r' → text.head? ≠ some '\n') :
    unifyLineEnds (c :: text) = (if c = '\r' then '\n' else c) :: unifyLineEnds text := by
  cases text with
  | nil =>
      by_cases feed : c = '\r'
      · rw [feed]
        rfl
      · simp [unifyLineEnds, feed]
  | cons next rest =>
      rw [unifyLineEnds]
      split
      · rename_i feed
        rw [if_neg]
        intro same
        exact apart feed (by rw [same]; rfl)
      · rfl

theorem unifyLineEnds_lineEnd (text : Text) :
    unifyLineEnds ('\r' :: '\n' :: text) = '\n' :: unifyLineEnds text := by
  rw [unifyLineEnds, if_pos rfl, if_pos rfl]

theorem unifyLineEnds_of_not_mem {text : Text} (absent : '\r' ∉ text) :
    unifyLineEnds text = text := by
  induction text with
  | nil => rfl
  | cons c text ih =>
      rw [List.mem_cons, not_or] at absent
      rw [unifyLineEnds_cons (fun feed => absurd feed.symm absent.1), ih absent.2,
        if_neg (Ne.symm absent.1)]

theorem not_mem_unifyLineEnds (text : Text) : '\r' ∉ unifyLineEnds text := by
  fun_induction unifyLineEnds text with
  | case1 => simp
  | case2 => simp
  | case3 rest ih => simpa using ih
  | case4 next rest other ih => simpa using ih
  | case5 c next rest other ih =>
      rw [List.mem_cons, not_or]
      exact ⟨Ne.symm other, ih⟩
  | case6 c other =>
      rw [List.mem_singleton]
      exact Ne.symm other

/-- The number of characters of a text that the first `count` characters of its unified form come
from. -/
def rawCount : Text → Nat → Nat
  | _, 0 => 0
  | [], _ + 1 => 0
  | [_], _ + 1 => 1
  | c :: next :: rest, count + 1 =>
    if c = '\r' ∧ next = '\n' then rawCount rest count + 2 else rawCount (next :: rest) count + 1

/-- A text cut behind the characters that a beginning of its unified form comes from falls into the
two parts of the unified form. -/
theorem unifyLineEnds_cut (text : Text) (count : Nat) :
    unifyLineEnds (text.take (text.rawCount count)) = (unifyLineEnds text).take count ∧
      unifyLineEnds (text.drop (text.rawCount count)) = (unifyLineEnds text).drop count := by
  induction text, count using rawCount.induct with
  | case1 text => simp [rawCount, unifyLineEnds]
  | case2 count => simp [rawCount, unifyLineEnds]
  | case3 c count =>
      have single : unifyLineEnds [c] = [if c = '\r' then '\n' else c] :=
        unifyLineEnds_cons (by simp)
      rw [rawCount, single]
      simp [single, unifyLineEnds]
  | case4 c next rest count ends ih =>
      obtain ⟨rfl, rfl⟩ := ends
      rw [rawCount, if_pos ⟨rfl, rfl⟩, List.take_succ_cons, List.take_succ_cons,
        List.drop_succ_cons, List.drop_succ_cons, unifyLineEnds_lineEnd, unifyLineEnds_lineEnd,
        List.take_succ_cons, List.drop_succ_cons]
      exact ⟨congrArg _ ih.1, ih.2⟩
  | case5 c next rest count other ih =>
      have apart : c = '\r' → (next :: rest).head? ≠ some '\n' := by
        intro feed head
        exact other ⟨feed, Option.some.inj head⟩
      have apartTaken : c = '\r' →
          ((next :: rest).take (rawCount (next :: rest) count)).head? ≠ some '\n' := by
        intro feed head
        rw [List.head?_take] at head
        split at head
        · cases head
        · exact apart feed head
      rw [rawCount, if_neg other, List.take_succ_cons, List.drop_succ_cons,
        unifyLineEnds_cons apart, unifyLineEnds_cons apartTaken, List.take_succ_cons,
        List.drop_succ_cons]
      exact ⟨congrArg _ ih.1, ih.2⟩

/-- Unified line ends around a text are the line ends that stood there only when no carriage return
stood there. -/
theorem encode_unifyLineEnds_around_iff (before middle after : Text) :
    encode (unifyLineEnds before) ++ encode middle ++ encode (unifyLineEnds after) =
        encode before ++ encode middle ++ encode after ↔
      '\r' ∉ before ∧ '\r' ∉ after := by
  constructor
  · intro same
    rw [← encode_append, ← encode_append, ← encode_append, ← encode_append] at same
    have count := congrArg (List.count '\r') (encode_injective same)
    rw [List.count_append, List.count_append, List.count_append, List.count_append,
      List.count_eq_zero.mpr (not_mem_unifyLineEnds before),
      List.count_eq_zero.mpr (not_mem_unifyLineEnds after)] at count
    exact ⟨List.count_eq_zero.mp (by omega), List.count_eq_zero.mp (by omega)⟩
  · rintro ⟨absentBefore, absentAfter⟩
    rw [unifyLineEnds_of_not_mem absentBefore, unifyLineEnds_of_not_mem absentAfter]

end Text

end DeclOrder

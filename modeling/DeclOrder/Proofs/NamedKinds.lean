import DeclOrder.Discovery
import Mathlib

/-!
# Kinds of source by name

Extensions are compared in small letters.  The small letters of a name depend on tables and on the
letters around a sigma, yet only ASCII counts for the extensions of sources: no other character has
one of their letters for its small letter.  So a name ends in an extension exactly when its last
characters are those of the extension up to ASCII case.  The extension of a path leaves out one case
in which the name of a file ends in one: when nothing stands in front of it.
-/

namespace DeclOrder

/-! ## Small letters -/

/-- Whether a character stands for itself among small letters, and for nothing else but a capital
ASCII letter.  A `k` does stand for something else, the Kelvin sign. -/
def isPlain (c : Char) : Bool :=
  0x20 < c.toNat && c.toNat < 0x80 && c.toLower = c && c ≠ 'k'

theorem isPlain_iff {c : Char} : isPlain c = true ↔
    0x20 < c.toNat ∧ c.toNat < 0x80 ∧ c.toLower = c ∧ c ≠ 'k' := by
  simp [isPlain, and_assoc]

theorem toLower_of_le {c : Char} (wide : 0x80 ≤ c.toNat) : c.toLower = c := by
  rw [Char.toLower, dif_neg]
  rintro ⟨_, most⟩
  have most : c.toNat ≤ 90 := most
  omega

/-- Only the first entry of the table of small letters is about ASCII. -/
theorem smallLetters_eq_cons : ∃ rest, CodeRanges.smallLetters = (0x41, 0x5A, 1, 32) :: rest ∧
    ∀ entry ∈ rest, 0x80 ≤ entry.1 :=
  ⟨_, rfl, by decide +kernel⟩

theorem smallLetter_of_lt {c : Char} (ascii : c.toNat < 0x80) : smallLetter c = c.toLower := by
  obtain ⟨rest, table, wide⟩ := smallLetters_eq_cons
  have all : ∀ code < 0x80, (if 0x41 ≤ code ∧ code ≤ 0x5A then Char.ofNat (code + 32)
      else Char.ofNat code) = (Char.ofNat code).toLower := by decide
  have small := all c.toNat ascii
  rw [Char.ofNat_toNat] at small
  rw [← small, smallLetter, table]
  split_ifs with capital
  · rw [List.find?_cons_of_pos (by simpa [Nat.mod_one] using capital)]
    rfl
  · rw [List.find?_cons_of_neg (by simpa [Nat.mod_one] using capital), List.find?_eq_none.mpr]
    intro entry member
    have start := wide entry member
    simp only [Bool.and_eq_true, decide_eq_true_eq]
    omega

/-- Beyond ASCII the table of small letters leads to no ASCII character but a `k`. -/
theorem smallLetters_wide : ∀ entry ∈ CodeRanges.smallLetters, entry.2.1 < 0x80 ∨
    0x80 ≤ entry.1 + entry.2.2.2 ∨ entry = (0x212A, 0x212A, 1, -8383) := by
  decide +kernel

theorem not_isPlain_smallLetter {c : Char} (wide : 0x80 ≤ c.toNat) :
    isPlain (smallLetter c) = false := by
  rw [Bool.eq_false_iff, Ne, isPlain_iff, smallLetter]
  rintro ⟨visible, ascii, _, noK⟩
  split at visible
  · rename_i first last step shift found
    rw [found] at ascii noK
    dsimp only at visible ascii noK
    have range := List.find?_some found
    simp only [Bool.and_eq_true, decide_eq_true_eq] at range
    rcases smallLetters_wide _ (List.mem_of_find?_eq_some found) with low | high | kelvin
    · dsimp only at low
      omega
    · dsimp only at high
      rw [Char.toNat_ofNat] at visible ascii
      split_ifs at visible ascii
      · omega
      · cases visible
    · cases kelvin
      apply noK
      have code : c.toNat = 0x212A := by omega
      rw [code]
      rfl
  · rename_i missing
    rw [missing] at ascii
    exact absurd ascii (Nat.not_lt.mpr wide)

/-- A plain character is the small letter of the characters whose ASCII small letter it is. -/
theorem smallLetter_eq_iff {c d : Char} (plain : isPlain d = true) :
    smallLetter c = d ↔ c.toLower = d := by
  rcases Nat.lt_or_ge c.toNat 0x80 with ascii | wide
  · rw [smallLetter_of_lt ascii]
  · constructor
    · rintro rfl
      rw [not_isPlain_smallLetter wide] at plain
      cases plain
    · rintro rfl
      rw [toLower_of_le wide, isPlain_iff] at plain
      omega

namespace Text

theorem lowerBetween_cases (before : Text) (c : Char) (behind : Text) :
    lowerBetween before c behind = [c.toLower] ∨
      isPlain c.toLower = false ∧ ∃ front last,
        lowerBetween before c behind = front ++ [last] ∧ isPlain last = false := by
  rw [lowerBetween]
  split
  · rename_i dotted
    exact .inr ⟨by rw [dotted]; decide, ['i'], '\u0307', rfl, by decide⟩
  split
  · rename_i sigma
    refine .inr ⟨by rw [sigma]; decide, [], ?_⟩
    split
    · exact ⟨_, rfl, by decide⟩
    · exact ⟨_, rfl, by decide⟩
  · cases small : isPlain (smallLetter c) with
    | true => exact .inl (congrArg ([·]) ((smallLetter_eq_iff small).mp rfl).symm)
    | false =>
        refine .inr ⟨?_, [], _, rfl, small⟩
        rw [Bool.eq_false_iff]
        intro plain
        rw [← (smallLetter_eq_iff plain).mpr rfl, small] at plain
        cases plain

/-- A text of plain characters is the small form of the texts whose ASCII small form it is. -/
theorem lowerAfter_eq_iff {ending : Text} (plain : ∀ c ∈ ending, isPlain c = true)
    (before text : Text) : lowerAfter before text = ending ↔ text.map Char.toLower = ending := by
  induction text generalizing before ending with
  | nil => exact Iff.rfl
  | cons c behind ih =>
      rw [lowerAfter, List.map_cons]
      rcases lowerBetween_cases before c behind with small | ⟨wide, front, last, small, foreign⟩
      · cases ending with
        | nil => simp [small]
        | cons d ending =>
            rw [List.forall_mem_cons] at plain
            rw [small, List.singleton_append, List.cons.injEq, List.cons.injEq, ih plain.2]
      · constructor
        · rintro rfl
          have plain := plain last (by simp [small])
          rw [foreign] at plain
          cases plain
        · rintro rfl
          have plain := plain c.toLower List.mem_cons_self
          rw [wide] at plain
          cases plain

/-- A suffix ends before a character that it does not hold. -/
theorem suffix_append_cons_iff {ending front behind : Text} {c : Char} (absent : c ∉ ending) :
    ending <:+ front ++ c :: behind ↔ ending <:+ behind := by
  constructor
  · intro ends
    rcases List.suffix_or_suffix_of_suffix ends (List.suffix_append front (c :: behind)) with
      short | long
    · rcases List.suffix_cons_iff.mp short with rfl | shorter
      · exact absurd List.mem_cons_self absent
      · exact shorter
    · exact absurd (long.subset List.mem_cons_self) absent
  · intro ends
    exact ends.trans ((List.suffix_cons c behind).trans (List.suffix_append front _))

/-- The small form of a text ends in plain characters exactly when its ASCII small form does. -/
theorem suffix_lowerAfter_iff {ending : Text} (plain : ∀ c ∈ ending, isPlain c = true)
    (before text : Text) :
    ending <:+ lowerAfter before text ↔ ending <:+ text.map Char.toLower := by
  induction text generalizing before with
  | nil => exact Iff.rfl
  | cons c behind ih =>
      rw [List.map_cons, lowerAfter]
      rcases lowerBetween_cases before c behind with small | ⟨wide, front, last, small, foreign⟩
      · have whole : ending = c.toLower :: lowerAfter (c :: before) behind ↔
            ending = c.toLower :: behind.map Char.toLower := by
          rw [eq_comm, ← List.singleton_append, ← small, ← lowerAfter, lowerAfter_eq_iff plain,
            List.map_cons, eq_comm]
        rw [small, List.singleton_append, List.suffix_cons_iff, List.suffix_cons_iff, ih, whole]
      · have absent : ∀ {d : Char}, isPlain d = false → d ∉ ending := by
          intro d foreign member
          rw [plain d member] at foreign
          cases foreign
        rw [small, List.append_assoc, List.singleton_append,
          suffix_append_cons_iff (absent foreign), ih]
        exact (@suffix_append_cons_iff _ [] _ _ (absent wide)).symm

end Text

/-! ## Extensions -/

/-- Whether a text ends in an extension, in capital or small letters. -/
def Text.EndsIn (text : Text) (extension : String) : Prop :=
  extension.toList <:+ text.map Char.toLower

/-- Whether a text is an extension, in capital or small letters. -/
def Text.IsExtension (text : Text) (extension : String) : Prop :=
  text.map Char.toLower = extension.toList

instance (text : Text) (extension : String) : Decidable (text.EndsIn extension) :=
  inferInstanceAs (Decidable (_ <:+ _))

instance (text : Text) (extension : String) : Decidable (text.IsExtension extension) :=
  inferInstanceAs (Decidable (_ = _))

/-- What the extensions of sources are like: a dot and plain characters behind it. -/
structure IsPlainExtension (extension : Text) : Prop where
  dot : extension.head? = some '.'
  letters : extension.tail ≠ []
  dotless : '.' ∉ extension.tail
  plain : extension.all isPlain = true

instance (extension : Text) : Decidable (IsPlainExtension extension) :=
  decidable_of_iff (extension.head? = some '.' ∧ extension.tail ≠ [] ∧ '.' ∉ extension.tail ∧
    extension.all isPlain = true)
    ⟨fun ⟨dot, letters, dotless, plain⟩ => ⟨dot, letters, dotless, plain⟩,
      fun ⟨dot, letters, dotless, plain⟩ => ⟨dot, letters, dotless, plain⟩⟩

theorem IsPlainExtension.eq_cons {extension : Text} (given : IsPlainExtension extension) :
    extension = '.' :: extension.tail :=
  (List.cons_head?_tail given.dot).symm

theorem IsPlainExtension.forall_isPlain {extension : Text} (given : IsPlainExtension extension) :
    ∀ c ∈ extension, isPlain c = true :=
  List.all_eq_true.mp given.plain

theorem toLower_eq_dot_iff {c : Char} : c.toLower = '.' ↔ c = '.' := by
  rcases Nat.lt_or_ge c.toNat 0x80 with ascii | wide
  · have all : ∀ code < 0x80, (Char.ofNat code).toLower = '.' ↔ Char.ofNat code = '.' := by decide
    simpa using all c.toNat ascii
  · rw [toLower_of_le wide]

namespace Path

/-- The extension of a name starts at its last dot, if that is neither its first nor its last
character. -/
theorem extensionOf_append {stem letters : Text} (first : stem ≠ []) (some : letters ≠ [])
    (dotless : '.' ∉ letters) : extensionOf (stem ++ '.' :: letters) = '.' :: letters := by
  have free : ∀ c ∈ letters.reverse, c ≠ '.' := by
    rintro c member rfl
    exact dotless (List.mem_reverse.mp member)
  have ending : ((stem ++ '.' :: letters).reverse.takeWhile (· ≠ '.')).reverse = letters := by
    rw [List.reverse_append, List.reverse_cons, List.append_assoc, List.singleton_append,
      List.takeWhile_append_of_pos (by simpa using free),
      List.takeWhile_cons_of_neg (by simp), List.append_nil, List.reverse_reverse]
  have longer : letters.length + 1 < (stem ++ '.' :: letters).length := by
    have positive := List.length_pos_of_ne_nil first
    rw [List.length_append, List.length_cons]
    omega
  rw [extensionOf, ending, if_pos ⟨some, longer⟩]

/-- A name has no extension, or one behind something else. -/
theorem extensionOf_cases (name : Text) :
    extensionOf name = [] ∨ ∃ stem letters, stem ≠ [] ∧ letters ≠ [] ∧ '.' ∉ letters ∧
      name = stem ++ '.' :: letters := by
  have cut := List.takeWhile_append_dropWhile (p := (· ≠ '.')) (l := name.reverse)
  have dotless : ∀ c ∈ name.reverse.takeWhile (· ≠ '.'), c ≠ '.' := by
    simpa using fun c => List.mem_takeWhile_imp (p := (· ≠ '.')) (l := name.reverse) (x := c)
  rw [extensionOf]
  split
  · rename_i long
    obtain ⟨some, longer⟩ := long
    right
    cases behind : name.reverse.dropWhile (· ≠ '.') with
    | nil =>
        rw [behind, List.append_nil] at cut
        rw [cut, List.reverse_reverse] at longer
        omega
    | cons c stem =>
        have dot : c = '.' := by
          have stops := List.head?_dropWhile_not (· ≠ '.') name.reverse
          rw [behind] at stops
          simpa using stops
        have whole : name = stem.reverse ++ '.' :: (name.reverse.takeWhile (· ≠ '.')).reverse := by
          rw [← List.reverse_reverse name]
          conv_lhs => rw [← cut, behind, dot]
          simp
        refine ⟨stem.reverse, _, ?_, some, ?_, whole⟩
        · intro none
          rw [none, List.nil_append] at whole
          have length := congrArg List.length whole
          rw [List.length_cons] at length
          omega
        · intro member
          exact dotless '.' (List.mem_reverse.mp member) rfl
  · exact .inl rfl

/-- A name that is an extension has none, its dot being its first character. -/
theorem extensionOf_of_isExtension {name : Text} {extension : String}
    (known : IsPlainExtension extension.toList) (bare : name.IsExtension extension) :
    extensionOf name = [] := by
  rcases extensionOf_cases name with none | ⟨stem, letters, first, _, _, rfl⟩
  · exact none
  · obtain ⟨c, stem, rfl⟩ := List.exists_cons_of_ne_nil first
    have tail := congrArg List.tail bare
    refine absurd ?_ known.dotless
    rw [← tail]
    simp [show '.'.toLower = '.' from rfl]

/-- A name has an extension exactly when it ends in it with something in front. -/
theorem isExtension_extensionOf_iff {name : Text} {extension : String}
    (known : IsPlainExtension extension.toList) :
    (extensionOf name).IsExtension extension ↔
      name.EndsIn extension ∧ ¬name.IsExtension extension := by
  constructor
  · intro read
    refine ⟨?_, fun bare => ?_⟩
    · rcases extensionOf_cases name with none | ⟨stem, letters, first, some, dotless, rfl⟩
      · rw [none, Text.IsExtension, known.eq_cons] at read
        cases read
      · rw [extensionOf_append first some dotless] at read
        rw [Text.EndsIn, List.map_append, ← read]
        exact List.suffix_append _ _
    · rw [extensionOf_of_isExtension known bare, Text.IsExtension, known.eq_cons] at read
      cases read
  · rintro ⟨ends, more⟩
    obtain ⟨start, cut⟩ := ends
    obtain ⟨stem, ending, rfl, _, spelled⟩ := List.map_eq_append_iff.mp cut.symm
    rw [known.eq_cons] at spelled
    obtain ⟨c, letters, rfl, dot, spelled⟩ := List.map_eq_cons_iff.mp spelled
    obtain rfl := toLower_eq_dot_iff.mp dot
    have first : stem ≠ [] := by
      rintro rfl
      exact more (by rw [Text.IsExtension, known.eq_cons, ← spelled]; rfl)
    have tail : letters.map Char.toLower = extension.toList.tail := (List.cons.inj spelled).2
    have some : letters ≠ [] := by
      rintro rfl
      exact known.letters tail.symm
    have dotless : '.' ∉ letters := by
      intro member
      exact known.dotless (tail ▸ List.mem_map_of_mem (f := Char.toLower) member)
    rw [extensionOf_append first some dotless, Text.IsExtension, known.eq_cons, ← spelled]

end Path

namespace SourceKind

theorem isPlainExtension {kind : SourceKind} :
    ∀ extension ∈ kind.extensions, IsPlainExtension extension.toList := by
  cases kind <;> decide

/-- A name ends in an extension of a kind when its last characters are those of the extension, in
capital or small letters. -/
theorem hasExtension_iff {kind : SourceKind} {name : String} :
    Discovery.hasExtension kind.extensions name = true ↔
      ∃ extension ∈ kind.extensions, Text.EndsIn name.toList extension := by
  rw [Discovery.hasExtension, List.any_eq_true]
  refine exists_congr fun extension => and_congr_right fun listed => ?_
  rw [List.isSuffixOf_iff_suffix]
  exact Text.suffix_lowerAfter_iff (isPlainExtension extension listed).forall_isPlain [] name.toList

theorem lowerName_mem_iff {kind : SourceKind} {extension : String} :
    lowerName extension ∈ kind.extensions ↔
      ∃ known ∈ kind.extensions, Text.IsExtension extension.toList known := by
  have small : ∀ known ∈ kind.extensions,
      lowerName extension = known ↔ Text.IsExtension extension.toList known := by
    intro known listed
    rw [lowerName, ← String.toList_inj, String.toList_ofList]
    exact Text.lowerAfter_eq_iff (isPlainExtension known listed).forall_isPlain [] extension.toList
  constructor
  · intro listed
    exact ⟨_, listed, (small _ listed).mp rfl⟩
  · rintro ⟨known, listed, same⟩
    rw [(small known listed).mpr same]
    exact listed

/-- The extension of a path decides what kind of source it is, in capital or small letters. -/
theorem ofPath?_eq_some_iff {kind : SourceKind} {path : Path} :
    ofPath? path = some kind ↔
      ∃ extension ∈ kind.extensions, Text.IsExtension path.extension.toList extension := by
  have apart : ∀ extension ∈ script.extensions, extension ∉ component.extensions := by decide
  rw [← lowerName_mem_iff, ofPath?, ofExtension?, List.find?_cons, List.find?_cons]
  by_cases first : lowerName path.extension ∈ component.extensions
  · cases kind with
    | component => simp [first]
    | script => simpa [first] using fun second => apart _ second first
  · by_cases second : lowerName path.extension ∈ script.extensions
    · cases kind <;> simp [first, second]
    · cases kind <;> simp [first, second]

/-- A path is of a kind exactly when its last name ends in an extension of the kind with something
in front. -/
theorem ofPath?_eq_some_iff_lastName {kind : SourceKind} {path : Path} :
    ofPath? path = some kind ↔ ∃ extension ∈ kind.extensions,
      Text.EndsIn path.lastName.toList extension ∧
        ¬Text.IsExtension path.lastName.toList extension := by
  rw [ofPath?_eq_some_iff]
  refine exists_congr fun extension => and_congr_right fun listed => ?_
  rw [Path.extension, String.toList_ofList]
  exact Path.isExtension_extensionOf_iff (isPlainExtension extension listed)

end SourceKind

end DeclOrder

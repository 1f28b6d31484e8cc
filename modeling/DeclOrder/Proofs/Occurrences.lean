import DeclOrder.Proofs.ElementBounds
import Mathlib

/-!
# Words in texts

A word that stands in neither of two texts does not stand in both together either, unless it
stands over the seam.  It cannot do so when the second text starts with a character that the word
has nowhere but at its start.  Masking comments goes along with joining texts in the same way, and
a masked text has no words that the text does not have.
-/

namespace DeclOrder

/-- A character counts as none of the letters of a word. -/
def Foreign (word : Text) (c : Char) : Prop :=
  ∀ letter ∈ word, countsAs letter c = false

instance (word : Text) (c : Char) : Decidable (Foreign word c) :=
  List.decidableBAll (fun letter => countsAs letter c = false) word

theorem Foreign.mono {word other : Text} {c : Char} (foreign : Foreign word c)
    (subset : other ⊆ word) : Foreign other c :=
  fun letter member => foreign letter (subset member)

namespace Text

/-- Whether a word stands somewhere in a text, in capital or small letters. -/
def mentions : Text → String → Bool
  | [], _ => false
  | c :: rest, word => (afterWord? word.toList (c :: rest)).isSome || mentions rest word

/-! ## Words over a seam -/

theorem afterWord?_append {word text behind : Text}
    (foreign : ∀ c ∈ behind.head?, Foreign word c) :
    afterWord? word (text ++ behind) = (afterWord? word text).map (· ++ behind) := by
  induction word generalizing text with
  | nil => simp [afterWord?]
  | cons letter word ih =>
      cases text with
      | nil =>
          cases behind with
          | nil => rfl
          | cons c behind =>
              have apart := foreign c rfl letter List.mem_cons_self
              simp [afterWord?, apart]
      | cons c text =>
          have later : ∀ c ∈ behind.head?, Foreign word c :=
            fun c head other member => foreign c head other (List.mem_cons_of_mem _ member)
          rw [List.cons_append, afterWord?, afterWord?]
          split
          · exact ih later
          · rfl

/-- Only the letters behind the first one of a word can stand behind a seam. -/
theorem afterWord?_cons_append {word behind : Text} (c : Char) (text : Text)
    (foreign : ∀ c ∈ behind.head?, Foreign word.tail c) :
    afterWord? word (c :: (text ++ behind)) = (afterWord? word (c :: text)).map (· ++ behind) := by
  cases word with
  | nil => rfl
  | cons letter word =>
      rw [afterWord?, afterWord?]
      split
      · exact afterWord?_append foreign
      · rfl

theorem mentions_cons_eq_false_iff {word : String} {c : Char} {rest : Text} :
    mentions (c :: rest) word = false ↔
      afterWord? word.toList (c :: rest) = none ∧ mentions rest word = false := by
  rw [mentions, Bool.or_eq_false_iff, Option.isSome_eq_false_iff, Option.isNone_iff_eq_none]

/-- A word that a text does not mention does not start in it, whatever follows a seam. -/
theorem afterWord?_of_unmentioned {word : String} {c : Char} {rest behind : Text}
    (unmentioned : mentions (c :: rest) word = false)
    (foreign : ∀ c ∈ behind.head?, Foreign word.toList.tail c) :
    afterWord? word.toList (c :: (rest ++ behind)) = none := by
  rw [afterWord?_cons_append c rest foreign, (mentions_cons_eq_false_iff.mp unmentioned).1]
  rfl

theorem mentions_append {word : String} {text behind : Text}
    (foreign : ∀ c ∈ behind.head?, Foreign word.toList.tail c) :
    mentions (text ++ behind) word = (mentions text word || mentions behind word) := by
  induction text with
  | nil => rfl
  | cons c rest ih =>
      rw [List.cons_append, mentions, mentions, ih, afterWord?_cons_append c rest foreign,
        Option.isSome_map, Bool.or_assoc]

theorem mentions_append_right {word : String} {text behind : Text}
    (none : mentions (text ++ behind) word = false) : mentions behind word = false := by
  induction text with
  | nil => exact none
  | cons c rest ih =>
      rw [List.cons_append, mentions, Bool.or_eq_false_iff] at none
      exact ih none.2

theorem afterWord?_of_missing {word text : Text} {letter : Char} (member : letter ∈ word)
    (missing : ∀ c ∈ text, countsAs letter c = false) : afterWord? word text = none := by
  fun_induction afterWord? word text with
  | case1 text => cases member
  | case2 => rfl
  | case3 first word c text same ih =>
      rcases List.mem_cons.mp member with rfl | later
      · rw [missing c List.mem_cons_self] at same
        cases same
      · exact ih later fun other found => missing other (List.mem_cons_of_mem _ found)
  | case4 => rfl

/-- A word with a letter that is nowhere in a text does not stand there. -/
theorem mentions_of_missing {word : String} {text : Text} (letter : Char)
    (member : letter ∈ word.toList) (missing : ∀ c ∈ text, countsAs letter c = false) :
    mentions text word = false := by
  induction text with
  | nil => rfl
  | cons c rest ih =>
      rw [mentions, afterWord?_of_missing member missing,
        ih fun other found => missing other (List.mem_cons_of_mem _ found)]
      rfl

/-- A word whose first letter is nowhere in a text cannot start there. -/
theorem mentions_append_of_missing {word : String} {text : Text} {letter : Char}
    (first : word.toList.head? = some letter) (missing : ∀ c ∈ text, countsAs letter c = false)
    (behind : Text) : mentions (text ++ behind) word = mentions behind word := by
  induction text with
  | nil => rfl
  | cons c rest ih =>
      obtain ⟨others, shape⟩ := List.head?_eq_some_iff.mp first
      have none : afterWord? word.toList (c :: (rest ++ behind)) = none := by
        rw [shape, afterWord?, if_neg (by simp [missing c List.mem_cons_self])]
      rw [List.cons_append, mentions, none,
        ih fun other found => missing other (List.mem_cons_of_mem _ found)]
      rfl

/-! ## Words and signs -/

theorem afterWord?_append_of_some {word text rest : Text} (found : afterWord? word text = some rest)
    (behind : Text) : afterWord? word (text ++ behind) = some (rest ++ behind) := by
  fun_induction afterWord? word text with
  | case1 text =>
      cases found
      rfl
  | case2 => cases found
  | case3 letter word c text same ih =>
      rw [List.cons_append, afterWord?, if_pos same]
      exact ih found
  | case4 => cases found

theorem suffix_of_afterWord? {word text rest : Text} (found : afterWord? word text = some rest) :
    rest <:+ text := by
  fun_induction afterWord? word text with
  | case1 text =>
      cases found
      exact List.suffix_refl _
  | case2 => cases found
  | case3 letter word c text same ih => exact (ih found).trans (List.suffix_cons _ _)
  | case4 => cases found

/-- A text that reads as a word has no characters that are foreign to the word. -/
theorem not_mem_of_foreign {word text : Text} (reads : afterWord? word text = some []) {c : Char}
    (foreign : Foreign word c) : c ∉ text := by
  fun_induction afterWord? word text with
  | case1 text =>
      cases reads
      exact List.not_mem_nil
  | case2 => cases reads
  | case3 letter word d text same ih =>
      intro member
      rcases List.mem_cons.mp member with rfl | later
      · rw [foreign letter List.mem_cons_self] at same
        cases same
      · exact ih reads (fun other found => foreign other (List.mem_cons_of_mem _ found)) later
  | case4 => cases reads

/-- Signs have no other case. -/
theorem countsAs_iff_of_sign {letter : Char} (sign : letter.isAlpha = false) (c : Char) :
    countsAs letter c = true ↔ c = letter := by
  have notLong : letter ≠ 's' := by
    rintro rfl
    cases sign
  have notDotted : letter ≠ 'i' := by
    rintro rfl
    cases sign
  have noCapital : ∀ d : Char, d.isAlpha = false → d.toLower = d := by
    intro d other
    apply Char.toLower_eq_of_not_isUpper
    intro capital
    rw [Char.isAlpha, capital] at other
    cases other
  rw [countsAs]
  simp only [notLong, notDotted, decide_false, Bool.false_and, Bool.or_false, decide_eq_true_eq]
  constructor
  · intro same
    have other : c.isAlpha = false := by rw [← Char.isAlpha_toLower_eq_isAlpha, same, sign]
    rw [← noCapital c other, same]
  · rintro rfl
    exact noCapital c sign

theorem countsAs_of_not_mem {letter : Char} {text : Text} (sign : letter.isAlpha = false)
    (absent : letter ∉ text) : ∀ c ∈ text, countsAs letter c = false := by
  intro c member
  rw [Bool.eq_false_iff, ne_eq, countsAs_iff_of_sign sign]
  rintro rfl
  exact absent member

theorem after?_eq_afterWord? {word : Text} (signs : word.any Char.isAlpha = false) (text : Text) :
    after? word text = afterWord? word text := by
  induction word generalizing text with
  | nil => rfl
  | cons letter word ih =>
      rw [List.any_cons, Bool.or_eq_false_iff] at signs
      cases text with
      | nil => rfl
      | cons c text =>
          have same := countsAs_iff_of_sign signs.1 c
          rw [after?, List.isPrefixOf, afterWord?, ← ih signs.2, after?]
          by_cases equal : c = letter
          · rw [if_pos (same.mpr equal), equal, beq_self_eq_true, Bool.true_and]
            rfl
          · rw [if_neg (mt same.mp equal), if_neg]
            simp [Ne.symm equal]

theorem eq_append_of_after? {beginning text rest : Text}
    (found : after? beginning text = some rest) : text = beginning ++ rest := by
  rw [after?] at found
  split at found
  · rename_i starts
    obtain ⟨behind, rfl⟩ := List.isPrefixOf_iff_prefix.mp starts
    cases found
    rw [List.drop_left]
  · cases found

end Text

/-! ## Masked comments -/

namespace Component

theorem after?_opening (text : Text) :
    Text.after? "<!--".toList text = Text.afterWord? "<!--".toList text :=
  Text.after?_eq_afterWord? (by decide) text

theorem after?_closing (text : Text) :
    Text.after? "-->".toList text = Text.afterWord? "-->".toList text :=
  Text.after?_eq_afterWord? (by decide) text

theorem afterComment?_of_unopened {text : Text}
    (unopened : Text.afterWord? "<!--".toList text = none) : afterComment? text = none := by
  rw [afterComment?, after?_opening, unopened]
  rfl

theorem behindFirst?_closing_eq_none_iff {text : Text} :
    behindFirst? "-->".toList text = none ↔ text.mentions "-->" = false := by
  induction text with
  | nil => exact ⟨fun _ => rfl, fun _ => rfl⟩
  | cons c rest ih =>
      rw [behindFirst?, after?_closing, Text.mentions]
      cases Text.afterWord? "-->".toList (c :: rest) with
      | none => exact ih
      | some behind => simp

theorem behindFirst?_closing_append {text rest behind : Text}
    (found : behindFirst? "-->".toList text = some rest)
    (foreign : ∀ c ∈ behind.head?, Foreign "->".toList c) :
    behindFirst? "-->".toList (text ++ behind) = some (rest ++ behind) := by
  induction text with
  | nil => cases found
  | cons c text ih =>
      have seam : Text.afterWord? "-->".toList (c :: (text ++ behind)) =
          (Text.afterWord? "-->".toList (c :: text)).map (· ++ behind) :=
        Text.afterWord?_cons_append c text foreign
      rw [behindFirst?, after?_closing] at found
      rw [List.cons_append, behindFirst?, after?_closing, seam]
      cases here : Text.afterWord? "-->".toList (c :: text) with
      | none =>
          rw [here] at found
          exact ih found
      | some after =>
          rw [here] at found
          cases found
          rfl

theorem suffix_of_behindFirst? {sought text rest : Text}
    (found : behindFirst? sought text = some rest) : rest <:+ text := by
  induction text with
  | nil => exact ⟨_, (Text.eq_append_of_after? found).symm⟩
  | cons c text ih =>
      rw [behindFirst?] at found
      split at found
      · rename_i behind here
        cases found
        exact ⟨_, (Text.eq_append_of_after? here).symm⟩
      · exact (ih found).trans (List.suffix_cons _ _)

theorem suffix_of_afterComment? {text rest : Text} (found : afterComment? text = some rest) :
    rest <:+ text := by
  obtain ⟨inner, opened, closed⟩ := Option.bind_eq_some_iff.mp found
  exact (suffix_of_behindFirst? closed).trans ⟨_, (Text.eq_append_of_after? opened).symm⟩

/-- Masking leaves a text in which no comment can start. -/
theorem maskComments_append_of_not_mem {text : Text} (none : '<' ∉ text) (behind : Text) :
    maskComments (text ++ behind) = text ++ maskComments behind := by
  induction text with
  | nil => rfl
  | cons c rest ih =>
      have unopened : Text.afterWord? "<!--".toList (c :: (rest ++ behind)) = Option.none := by
        have apart := Text.countsAs_of_not_mem (by decide) none c List.mem_cons_self
        exact if_neg (Bool.eq_false_iff.mp apart)
      rw [List.cons_append, maskComments_cons (afterComment?_of_unopened unopened),
        ih fun later => none (List.mem_cons_of_mem _ later), List.cons_append]

/-- Masking leaves a text in which no comment starts. -/
theorem maskComments_append_of_unmentioned {text behind : Text}
    (none : text.mentions "<!--" = false)
    (foreign : ∀ c ∈ behind.head?, Foreign "!--".toList c) :
    maskComments (text ++ behind) = text ++ maskComments behind := by
  induction text with
  | nil => rfl
  | cons c rest ih =>
      have unopened := Text.afterWord?_of_unmentioned none foreign
      rw [List.cons_append, maskComments_cons (afterComment?_of_unopened unopened),
        ih (Text.mentions_cons_eq_false_iff.mp none).2, List.cons_append]

/-- The start of a comment is no comment itself, so it can be seen with what follows it masked. -/
theorem mentions_of_unclosed {c : Char} {rest inner : Text}
    (opened : Text.afterWord? "<!--".toList (c :: rest) = some inner) :
    Text.mentions (c :: maskComments rest) "<!--" = true := by
  rw [← after?_opening] at opened
  have shape : c :: rest = '<' :: ("!--".toList ++ inner) := Text.eq_append_of_after? opened
  obtain ⟨rfl, rfl⟩ := List.cons.inj shape
  rw [maskComments_append_of_not_mem (by decide)]
  rfl

/-- Texts are masked one by one when no comment that is open in the first closes in the second. -/
theorem maskComments_append {text behind : Text}
    (closed : (maskComments text).mentions "<!--" = false ∨ behind.mentions "-->" = false)
    (foreign : ∀ c ∈ behind.head?, Foreign "!-->".toList c) :
    maskComments (text ++ behind) = maskComments text ++ maskComments behind := by
  have foreignOpening : ∀ c ∈ behind.head?, Foreign "!--".toList c :=
    fun c head => (foreign c head).mono (by decide)
  have foreignClosing : ∀ c ∈ behind.head?, Foreign "->".toList c :=
    fun c head => (foreign c head).mono (by decide)
  induction text using maskComments_induction with
  | nil => rw [maskComments_nil, List.nil_append, List.nil_append]
  | comment text rest found ih =>
      obtain ⟨inner, opened, ends⟩ := Option.bind_eq_some_iff.mp found
      have appended : afterComment? (text ++ behind) = some (rest ++ behind) := by
        rw [after?_opening] at opened
        rw [afterComment?, after?_opening, Text.afterWord?_append_of_some opened]
        exact behindFirst?_closing_append ends foreignClosing
      rw [maskComments_of_comment found] at closed ⊢
      have ih := ih (closed.imp_left Text.mentions_append_right)
      rw [maskComments_of_comment appended, ih, List.length_append, List.length_append,
        Nat.add_sub_add_right, List.append_assoc]
  | other c rest none ih =>
      have masked := maskComments_cons none
      rw [masked] at closed ⊢
      have later : (maskComments rest).mentions "<!--" = false ∨ behind.mentions "-->" = false :=
        closed.imp_left fun unmentioned => (Text.mentions_cons_eq_false_iff.mp unmentioned).2
      have seam : Text.afterWord? "<!--".toList (c :: (rest ++ behind)) =
          (Text.afterWord? "<!--".toList (c :: rest)).map (· ++ behind) :=
        Text.afterWord?_cons_append c rest foreignOpening
      have appended : afterComment? (c :: (rest ++ behind)) = Option.none := by
        cases opened : Text.afterWord? "<!--".toList (c :: rest) with
        | none =>
            rw [opened] at seam
            exact afterComment?_of_unopened seam
        | some inner =>
            -- The comment is open at the end of the text, so the other text must not close it.
            have unclosed : behindFirst? "-->".toList inner = Option.none := by
              rwa [afterComment?, after?_opening, opened] at none
            have behindFree : behind.mentions "-->" = false := by
              apply closed.resolve_left
              rw [mentions_of_unclosed opened]
              exact Bool.noConfusion
            rw [afterComment?, after?_opening, seam, opened]
            show behindFirst? "-->".toList (inner ++ behind) = Option.none
            rw [behindFirst?_closing_eq_none_iff, Text.mentions_append foreignClosing, behindFree,
              behindFirst?_closing_eq_none_iff.mp unclosed]
            rfl
      rw [List.cons_append, maskComments_cons appended, ih later, List.cons_append]

/-- A masked character is a blank, or the character itself. -/
def Covers (masked c : Char) : Prop :=
  masked = ' ' ∨ masked = c

theorem forall₂_blanks (text : Text) :
    List.Forall₂ Covers (List.replicate text.length ' ') text := by
  induction text with
  | nil => exact .nil
  | cons c rest ih => exact .cons (.inl rfl) ih

/-- A masked text has its characters from the text, or blanks in their place. -/
theorem forall₂_maskComments (text : Text) :
    List.Forall₂ Covers (maskComments text) text := by
  induction text using maskComments_induction with
  | nil =>
      rw [maskComments_nil]
      exact .nil
  | comment text behind found ih =>
      obtain ⟨front, rfl⟩ := suffix_of_afterComment? found
      rw [maskComments_of_comment found, List.length_append, Nat.add_sub_cancel]
      exact List.rel_append (forall₂_blanks front) ih
  | other c rest none ih =>
      rw [maskComments_cons none]
      exact .cons (.inr rfl) ih

theorem isSome_afterWord?_of_masked {word masked text : Text} (blank : Foreign word ' ')
    (covers : List.Forall₂ Covers masked text)
    (found : (Text.afterWord? word masked).isSome = true) :
    (Text.afterWord? word text).isSome = true := by
  induction covers generalizing word with
  | nil => exact found
  | cons same covers ih =>
      cases word with
      | nil => rfl
      | cons letter word =>
          rw [Text.afterWord?] at found ⊢
          split at found
          · rename_i counts
            rcases same with rfl | rfl
            · rw [blank letter List.mem_cons_self] at counts
              cases counts
            · rw [if_pos counts]
              exact ih (blank.mono (List.subset_cons_self _ _)) found
          · cases found

/-- A masked text mentions no word without blanks that the text does not mention. -/
theorem mentions_maskComments {word : String} {text : Text} (blank : Foreign word.toList ' ')
    (none : text.mentions word = false) : (maskComments text).mentions word = false := by
  have covers := forall₂_maskComments text
  generalize maskComments text = masked at covers
  induction covers with
  | nil => rfl
  | cons same covers ih =>
      obtain ⟨here, later⟩ := Text.mentions_cons_eq_false_iff.mp none
      rw [Text.mentions, ih later, Bool.or_false, Bool.eq_false_iff]
      intro found
      have unmasked := isSome_afterWord?_of_masked blank (.cons same covers) found
      rw [here] at unmasked
      cases unmasked

end Component

end DeclOrder

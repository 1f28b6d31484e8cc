import DeclOrder.Proofs.Occurrences

/-!
# Attributes as they are written

An attribute is a name and, where it has one, a value between quotation marks.  The tag that holds
it is read without regard to the quotation marks: an attribute may seem to start behind any blank.
As long as no value has a blank before what reads as `setup` or as a language, the attributes that
are read are those that were written.
-/

namespace DeclOrder

/-! ## Characters of names -/

theorem isBlank_of_isWord {c : Char} (word : isWord c = true) : isBlank c = false := by
  have apart : ∀ range ∈ CodeRanges.word, ∀ blanks ∈ CodeRanges.blank,
      range.2 < blanks.1 ∨ blanks.2 < range.1 := by decide +kernel
  obtain ⟨range, inWord, first, last⟩ := CodeRanges.has_iff.mp word
  rw [Bool.eq_false_iff]
  intro blank
  obtain ⟨blanks, inBlank, above, below⟩ := CodeRanges.has_iff.mp blank
  have := apart range inWord blanks inBlank
  omega

/-- Whether a character can stand in the name of an attribute, like letters, digits, hyphens and
colons. -/
def isNameChar (c : Char) : Bool :=
  isWord c || c = '-' || c = ':'

/-- Whether a character can stand in the name of a language, like letters, digits and hyphens. -/
def isLanguageChar (c : Char) : Bool :=
  isWord c || c = '-'

theorem isBlank_of_isNameChar {c : Char} (name : isNameChar c = true) : isBlank c = false := by
  simp only [isNameChar, Bool.or_eq_true, decide_eq_true_eq] at name
  rcases name with (word | rfl) | rfl
  · exact isBlank_of_isWord word
  · decide
  · decide

/-- A sign that no name has is none of the characters of a name. -/
theorem ne_of_isNameChar {c sign : Char} (name : isNameChar c = true)
    (foreign : isNameChar sign = false) : c ≠ sign := by
  rintro rfl
  rw [name] at foreign
  cases foreign

/-- Whether a text is a word, in capital or small letters. -/
def Text.reads (text : Text) (word : String) : Bool :=
  afterWord? word.toList text = some []

theorem Text.afterWord?_of_reads {word : String} {text : Text} (reads : text.reads word = true)
    (rest : Text) : afterWord? word.toList (text ++ rest) = some rest := by
  have found := afterWord?_append_of_some (of_decide_eq_true reads) rest
  rwa [List.nil_append] at found

theorem Text.not_mem_of_reads {word : String} {text : Text} (reads : text.reads word = true)
    {c : Char} (foreign : Foreign word.toList c) : c ∉ text :=
  not_mem_of_foreign (of_decide_eq_true reads) foreign

/-! ## Attributes -/

/-- An attribute as it is written: its name, and the value between quotation marks if it has
one. -/
structure Attribute where
  name : Text
  value : Option Text := none
  deriving DecidableEq, Repr

namespace Attribute

/-- What is written behind the name of an attribute. -/
def assignment (attr : Attribute) : Text :=
  match attr.value with
  | none => []
  | some value => '=' :: '"' :: (value ++ ['"'])

/-- An attribute with the space before it. -/
def text (attr : Attribute) : Text :=
  ' ' :: (attr.name ++ attr.assignment)

/-- The language that an attribute gives: the value of `lang`, if it is the name of a language. -/
def language? (attr : Attribute) : Option Text :=
  if attr.name.reads "lang" then
    attr.value.filter fun value => !value.isEmpty && value.all isLanguageChar
  else none

/-- What stands behind each blank of the value of an attribute, with the quotation mark. -/
def innerTexts (attr : Attribute) : List Text :=
  match attr.value with
  | none => []
  | some value => Text.behindEach isBlank (value ++ ['"'])

/-- The name of an attribute has only characters of names, and its value no quotation mark. -/
structure WellFormed (attr : Attribute) : Prop where
  named : attr.name ≠ []
  letters : attr.name.all isNameChar = true
  quoted : ∀ value ∈ attr.value, '"' ∉ value

/-- The value of an attribute cannot be taken for a part of the tag: it neither ends the tag nor
starts a comment, has no blank before what reads as `setup` or as a language, and is the name of a
language as a whole or not at all. -/
structure Harmless (attr : Attribute) : Prop where
  unclosing : ∀ value ∈ attr.value, '>' ∉ value
  uncommenting : ∀ value ∈ attr.value, value.mentions "<!--" = false
  noSetup : ∀ text ∈ attr.innerTexts, Component.startsWithSetup text = false
  noLanguage : ∀ text ∈ attr.innerTexts, Component.langAt? text = none
  whole : attr.name.reads "lang" = true → ∀ value ∈ attr.value,
    value.all isLanguageChar = true ∨ value.head?.any isLanguageChar = false

theorem WellFormed.isNameChar {attr : Attribute} (formed : attr.WellFormed) {c : Char}
    (member : c ∈ attr.name) : isNameChar c = true :=
  List.all_eq_true.mp formed.letters c member

instance (attr : Attribute) : Decidable attr.WellFormed :=
  decidable_of_iff
    (attr.name ≠ [] ∧ attr.name.all isNameChar = true ∧ ∀ value ∈ attr.value, '"' ∉ value)
    ⟨fun ⟨named, letters, quoted⟩ => ⟨named, letters, quoted⟩,
      fun ⟨named, letters, quoted⟩ => ⟨named, letters, quoted⟩⟩

instance (attr : Attribute) : Decidable attr.Harmless :=
  decidable_of_iff
    ((∀ value ∈ attr.value, '>' ∉ value) ∧ (∀ value ∈ attr.value, value.mentions "<!--" = false) ∧
      (∀ text ∈ attr.innerTexts, Component.startsWithSetup text = false) ∧
      (∀ text ∈ attr.innerTexts, Component.langAt? text = none) ∧
      (attr.name.reads "lang" = true → ∀ value ∈ attr.value,
        value.all isLanguageChar = true ∨ value.head?.any isLanguageChar = false))
    ⟨fun ⟨unclosing, uncommenting, noSetup, noLanguage, whole⟩ =>
        ⟨unclosing, uncommenting, noSetup, noLanguage, whole⟩,
      fun ⟨unclosing, uncommenting, noSetup, noLanguage, whole⟩ =>
        ⟨unclosing, uncommenting, noSetup, noLanguage, whole⟩⟩

end Attribute

/-! ## Reading behind a seam -/

namespace Text

theorem dropWhile_append_cons {p : Char → Bool} {c : Char} (stops : p c = false)
    (text rest : Text) : (text ++ c :: rest).dropWhile p = text.dropWhile p ++ c :: rest := by
  induction text with
  | nil => rw [List.nil_append, List.dropWhile_cons_of_neg (by simp [stops]), List.dropWhile_nil,
      List.nil_append]
  | cons d text ih =>
      rw [List.cons_append, List.dropWhile_cons, List.dropWhile_cons]
      split
      · exact ih
      · rfl

theorem takeWhile_append_cons {p : Char → Bool} {c : Char} (stops : p c = false)
    (text rest : Text) : (text ++ c :: rest).takeWhile p = text.takeWhile p := by
  induction text with
  | nil => rw [List.nil_append, List.takeWhile_cons_of_neg (by simp [stops]), List.takeWhile_nil]
  | cons d text ih =>
      rw [List.cons_append, List.takeWhile_cons, List.takeWhile_cons, ih]

theorem behindEach_append (p : Char → Bool) (text rest : Text) :
    behindEach p (text ++ rest) = (behindEach p text).map (· ++ rest) ++ behindEach p rest := by
  induction text with
  | nil => rfl
  | cons c text ih =>
      rw [List.cons_append, behindEach, behindEach, ih]
      split
      · rfl
      · rfl

theorem behindEach_of_not {p : Char → Bool} {text : Text} (none : ∀ c ∈ text, p c = false) :
    behindEach p text = [] := by
  induction text with
  | nil => rfl
  | cons c text ih =>
      rw [behindEach, if_neg (by simp [none c List.mem_cons_self])]
      exact ih fun other member => none other (List.mem_cons_of_mem _ member)

end Text

namespace Component

/-- What follows a quotation mark does not count for whether `setup` stands before it. -/
theorem startsWithSetup_append_quote (text rest : Text) :
    startsWithSetup (text ++ '"' :: rest) = startsWithSetup (text ++ ['"']) := by
  have foreign : ∀ behind : Text, ∀ c ∈ ('"' :: behind).head?, Foreign "setup".toList c := by
    rintro behind c ⟨⟩
    decide
  rw [startsWithSetup, startsWithSetup, Text.afterWord?_append (foreign rest),
    Text.afterWord?_append (foreign [])]
  cases Text.afterWord? "setup".toList text with
  | none => rfl
  | some after =>
      cases after with
      | nil => rfl
      | cons c after => rfl

/-- The name of a language at the start of what follows a sign of equality. -/
def givenLanguage? (text : Text) : Option Text :=
  let value := (dropQuote (text.dropWhile isBlank)).takeWhile isLanguageChar
  if value.isEmpty then none else some value

/-- The name of a language that is given to an attribute, from what follows its name. -/
def assigned? : Text → Option Text
  | '=' :: rest => givenLanguage? rest
  | _ => none

theorem langAt?_eq_bind (text : Text) :
    langAt? text = (Text.afterWord? "lang".toList text).bind fun after =>
      assigned? (after.dropWhile isBlank) := by
  rw [langAt?]
  cases Text.afterWord? "lang".toList text with
  | none => rfl
  | some after =>
      show _ = assigned? (after.dropWhile isBlank)
      rw [Option.map_some]
      split
      · rename_i rest same
        rw [Option.some.inj same]
        rfl
      · rename_i other
        rw [assigned?]
        exact fun rest same => other rest (congrArg some same)

theorem assigned?_of_ne {c : Char} (other : c ≠ '=') (rest : Text) :
    assigned? (c :: rest) = none := by
  rw [assigned?]
  rintro after ⟨⟩
  exact other rfl

/-- What follows a quotation mark does not count for the language that stands before it, unless it
could itself be the name of a language. -/
theorem givenLanguage?_append_quote (text : Text) {rest : Text}
    (apart : ∀ c ∈ rest.head?, isLanguageChar c = false) :
    givenLanguage? (text ++ '"' :: rest) = givenLanguage? (text ++ ['"']) := by
  have blank : isBlank '"' = false := by decide
  have letter : isLanguageChar '"' = false := by decide +kernel
  rw [givenLanguage?, givenLanguage?, Text.dropWhile_append_cons blank,
    Text.dropWhile_append_cons blank]
  cases text.dropWhile isBlank with
  | nil =>
      -- The quotation mark is taken for the one before a value, which would have to follow it.
      have none : rest.takeWhile isLanguageChar = [] := by
        cases rest with
        | nil => rfl
        | cons c rest => exact List.takeWhile_cons_of_neg (by simp [apart c rfl])
      show (if (rest.takeWhile isLanguageChar).isEmpty = true then _ else _) = _
      rw [none]
      rfl
  | cons c inner =>
      have quote : ∀ behind : Text, (dropQuote (c :: inner ++ '"' :: behind)).takeWhile
          isLanguageChar = (dropQuote (c :: inner)).takeWhile isLanguageChar := by
        intro behind
        rw [List.cons_append, dropQuote, dropQuote]
        split
        · exact Text.takeWhile_append_cons letter inner behind
        · exact Text.takeWhile_append_cons letter (c :: inner) behind
      rw [quote, quote]

theorem givenLanguage?_quoted {value : Text}
    (whole : value.all isLanguageChar = true ∨ value.head?.any isLanguageChar = false)
    (rest : Text) :
    givenLanguage? ('"' :: (value ++ '"' :: rest)) =
      (some value).filter fun value => !value.isEmpty && value.all isLanguageChar := by
  have letter : isLanguageChar '"' = false := by decide +kernel
  rw [givenLanguage?, List.dropWhile_cons_of_neg (by decide)]
  show (if ((value ++ '"' :: rest).takeWhile isLanguageChar).isEmpty = true then none
    else some ((value ++ '"' :: rest).takeWhile isLanguageChar)) = _
  rw [Text.takeWhile_append_cons letter, Option.filter_some]
  rcases whole with all | other
  · rw [List.takeWhile_eq_self_iff.mpr (List.all_eq_true.mp all), all, Bool.and_true]
    cases value with
    | nil => rfl
    | cons c value => rfl
  · cases value with
    | nil => rfl
    | cons c value =>
        rw [List.head?_cons, Option.any_some] at other
        rw [List.takeWhile_cons_of_neg (by simp [other]), List.all_cons, other]
        rfl

theorem langAt?_append_quote (text : Text) {rest : Text}
    (apart : ∀ c ∈ rest.head?, isLanguageChar c = false) :
    langAt? (text ++ '"' :: rest) = langAt? (text ++ ['"']) := by
  have foreign : ∀ behind : Text, ∀ c ∈ ('"' :: behind).head?, Foreign "lang".toList c := by
    rintro behind c ⟨⟩
    decide
  have blank : isBlank '"' = false := by decide
  rw [langAt?_eq_bind, langAt?_eq_bind, Text.afterWord?_append (foreign rest),
    Text.afterWord?_append (foreign [])]
  cases Text.afterWord? "lang".toList text with
  | none => rfl
  | some after =>
      show assigned? ((after ++ '"' :: rest).dropWhile isBlank) =
        assigned? ((after ++ ['"']).dropWhile isBlank)
      rw [Text.dropWhile_append_cons blank, Text.dropWhile_append_cons blank]
      cases after.dropWhile isBlank with
      | nil => rfl
      | cons sign after =>
          by_cases equal : sign = '='
          · subst equal
            exact givenLanguage?_append_quote after apart
          · rw [List.cons_append, List.cons_append, assigned?_of_ne equal, assigned?_of_ne equal]

end Component

/-! ## Reading attributes -/

namespace Attribute

theorem exists_of_mem_innerTexts {attr : Attribute} {text : Text}
    (member : text ∈ attr.innerTexts) : ∃ inner, text = inner ++ ['"'] := by
  rw [innerTexts] at member
  split at member
  · cases member
  · rw [Text.behindEach_append, List.mem_append] at member
    rcases member with inside | behind
    · obtain ⟨inner, _, rfl⟩ := List.mem_map.mp inside
      exact ⟨inner, rfl⟩
    · cases behind

/-- An attribute can be taken to start behind the space before it, and behind the blanks of its
value. -/
theorem behindEach_text_append {attr : Attribute} (formed : attr.WellFormed) (rest : Text) :
    Text.behindEach isBlank (attr.text ++ rest) =
      (attr.name ++ (attr.assignment ++ rest)) ::
        (attr.innerTexts.map (· ++ rest) ++ Text.behindEach isBlank rest) := by
  have name : Text.behindEach isBlank attr.name = [] :=
    Text.behindEach_of_not fun c member => isBlank_of_isNameChar (formed.isNameChar member)
  have assignment : Text.behindEach isBlank attr.assignment = attr.innerTexts := by
    rw [Attribute.assignment, innerTexts]
    cases attr.value with
    | none => rfl
    | some value => rfl
  rw [Attribute.text, List.cons_append, Text.behindEach, if_pos (by decide),
    List.append_assoc, Text.behindEach_append, name, Text.behindEach_append, assignment]
  rfl

theorem head_assignment_append (attr : Attribute) {rest : Text}
    (spaced : ∀ c ∈ rest.head?, c = ' ') :
    ∀ c ∈ (attr.assignment ++ rest).head?, c = '=' ∨ c = ' ' := by
  rw [assignment]
  cases attr.value with
  | none => exact fun c head => .inr (spaced c head)
  | some value =>
      rintro c ⟨⟩
      exact .inl rfl

theorem startsWithSetup_name {attr : Attribute} (formed : attr.WellFormed) {rest : Text}
    (spaced : ∀ c ∈ rest.head?, c = ' ') :
    Component.startsWithSetup (attr.name ++ (attr.assignment ++ rest)) =
      attr.name.reads "setup" := by
  have head := attr.head_assignment_append spaced
  have foreign : ∀ c ∈ (attr.assignment ++ rest).head?, Foreign "setup".toList c := by
    intro c here
    rcases head c here with rfl | rfl
    · decide
    · decide
  rw [Component.startsWithSetup, Text.afterWord?_append foreign, Text.reads]
  cases found : Text.afterWord? "setup".toList attr.name with
  | none => rfl
  | some after =>
      cases after with
      | nil =>
          rw [Option.map_some, List.nil_append, decide_eq_true rfl]
          cases shape : attr.assignment ++ rest with
          | nil => rfl
          | cons c behind =>
              rcases head c (by rw [shape]; rfl) with rfl | rfl
              · rfl
              · rfl
      | cons c behind =>
          have name := formed.isNameChar ((Text.suffix_of_afterWord? found).subset List.mem_cons_self)
          have blank := isBlank_of_isNameChar name
          have equal : c ≠ '=' := ne_of_isNameChar name (by decide +kernel)
          have slash : c ≠ '/' := ne_of_isNameChar name (by decide +kernel)
          simp [blank, equal, slash]

theorem langAt?_name {attr : Attribute} (formed : attr.WellFormed) (harmless : attr.Harmless)
    {rest : Text} (spaced : ∀ c ∈ rest.head?, c = ' ')
    (unassigned : Component.assigned? (rest.dropWhile isBlank) = none) :
    Component.langAt? (attr.name ++ (attr.assignment ++ rest)) = attr.language? := by
  have head := attr.head_assignment_append spaced
  have foreign : ∀ c ∈ (attr.assignment ++ rest).head?, Foreign "lang".toList c := by
    intro c here
    rcases head c here with rfl | rfl
    · decide
    · decide
  rw [Component.langAt?_eq_bind, Text.afterWord?_append foreign, language?, Text.reads]
  cases found : Text.afterWord? "lang".toList attr.name with
  | none => rfl
  | some after =>
      cases after with
      | nil =>
          rw [if_pos (decide_eq_true rfl)]
          show Component.assigned? ((attr.assignment ++ rest).dropWhile isBlank) = _
          rw [assignment]
          cases given : attr.value with
          | none => exact unassigned
          | some value =>
              have reads : attr.name.reads "lang" = true := by rw [Text.reads, found, decide_eq_true rfl]
              have whole := harmless.whole reads value given
              show Component.givenLanguage? ('"' :: (value ++ ['"'] ++ rest)) = _
              rw [List.append_assoc]
              exact Component.givenLanguage?_quoted whole rest
      | cons c behind =>
          have name := formed.isNameChar ((Text.suffix_of_afterWord? found).subset List.mem_cons_self)
          have blank := isBlank_of_isNameChar name
          have equal : c ≠ '=' := ne_of_isNameChar name (by decide +kernel)
          rw [if_neg (by simp)]
          show Component.assigned? ((c :: behind ++ (attr.assignment ++ rest)).dropWhile isBlank) = _
          rw [List.cons_append, List.dropWhile_cons_of_neg (by simp [blank])]
          exact Component.assigned?_of_ne equal _

theorem head_texts (attributes : List Attribute) :
    ∀ c ∈ (attributes.flatMap Attribute.text).head?, c = ' ' := by
  cases attributes with
  | nil => exact fun c none => nomatch none
  | cons attr others =>
      rintro c ⟨⟩
      rfl

/-- No value is given to what stands before the attributes. -/
theorem assigned?_texts {attributes : List Attribute}
    (formed : ∀ attr ∈ attributes, attr.WellFormed) :
    Component.assigned? ((attributes.flatMap Attribute.text).dropWhile isBlank) = none := by
  cases attributes with
  | nil => rfl
  | cons attr others =>
      have attrFormed := formed attr List.mem_cons_self
      obtain ⟨c, name, shape⟩ := List.exists_cons_of_ne_nil attrFormed.named
      have letter : isNameChar c = true :=
        attrFormed.isNameChar (by rw [shape]; exact List.mem_cons_self)
      have blank := isBlank_of_isNameChar letter
      have equal : c ≠ '=' := ne_of_isNameChar letter (by decide +kernel)
      rw [List.flatMap_cons, Attribute.text, shape, List.cons_append,
        List.dropWhile_cons_of_pos (by decide), List.cons_append, List.cons_append,
        List.dropWhile_cons_of_neg (by simp [blank])]
      exact Component.assigned?_of_ne equal _

/-- Reading finds a `setup` attribute exactly when one was written. -/
theorem hasSetup_texts {attributes : List Attribute}
    (formed : ∀ attr ∈ attributes, attr.WellFormed)
    (harmless : ∀ attr ∈ attributes, attr.Harmless) :
    Component.hasSetup (attributes.flatMap Attribute.text) =
      attributes.any fun attr => attr.name.reads "setup" := by
  have first : Component.startsWithSetup (attributes.flatMap Attribute.text) = false := by
    cases attributes with
    | nil => rfl
    | cons attr others => rfl
  rw [Component.hasSetup, Component.attributeStarts, List.any_cons, first, Bool.false_or]
  clear first
  induction attributes with
  | nil => rfl
  | cons attr others ih =>
      have attrFormed := formed attr List.mem_cons_self
      have attrHarmless := harmless attr List.mem_cons_self
      have later := ih (fun other member => formed other (List.mem_cons_of_mem _ member))
        fun other member => harmless other (List.mem_cons_of_mem _ member)
      have inner : (attr.innerTexts.map (· ++ others.flatMap Attribute.text)).any
          Component.startsWithSetup = false := by
        rw [List.any_map, List.any_eq_false]
        intro text member
        obtain ⟨inner, rfl⟩ := exists_of_mem_innerTexts member
        rw [Function.comp_apply, List.append_assoc, List.singleton_append,
          Component.startsWithSetup_append_quote, attrHarmless.noSetup _ member]
        exact Bool.noConfusion
      rw [List.flatMap_cons, behindEach_text_append attrFormed, List.any_cons, List.any_append,
        startsWithSetup_name attrFormed (head_texts others), inner, later, List.any_cons,
        Bool.false_or]

/-- Reading finds the first language that was written. -/
theorem findSome?_langAt?_texts {attributes : List Attribute}
    (formed : ∀ attr ∈ attributes, attr.WellFormed)
    (harmless : ∀ attr ∈ attributes, attr.Harmless) :
    (Component.attributeStarts (attributes.flatMap Attribute.text)).findSome? Component.langAt? =
      attributes.findSome? Attribute.language? := by
  have first : Component.langAt? (attributes.flatMap Attribute.text) = none := by
    cases attributes with
    | nil => rfl
    | cons attr others => rfl
  rw [Component.attributeStarts, List.findSome?_cons, first]
  clear first
  induction attributes with
  | nil => rfl
  | cons attr others ih =>
      have attrFormed := formed attr List.mem_cons_self
      have attrHarmless := harmless attr List.mem_cons_self
      have othersFormed := fun other member => formed other (List.mem_cons_of_mem _ member)
      have later := ih othersFormed
        fun other member => harmless other (List.mem_cons_of_mem _ member)
      have head : ∀ c ∈ (others.flatMap Attribute.text).head?, isLanguageChar c = false := by
        intro c here
        rw [head_texts others c here]
        decide +kernel
      have inner : (attr.innerTexts.map (· ++ others.flatMap Attribute.text)).findSome?
          Component.langAt? = none := by
        rw [List.findSome?_map, List.findSome?_eq_none_iff]
        intro text member
        obtain ⟨inner, rfl⟩ := exists_of_mem_innerTexts member
        rw [Function.comp_apply, List.append_assoc, List.singleton_append,
          Component.langAt?_append_quote inner head, attrHarmless.noLanguage _ member]
      rw [List.flatMap_cons, behindEach_text_append attrFormed, List.findSome?_cons,
        List.findSome?_append,
        langAt?_name attrFormed attrHarmless (head_texts others) (assigned?_texts othersFormed),
        inner, List.findSome?_cons]
      dsimp only at later
      rw [Option.none_or, later]

theorem not_mem_text {attr : Attribute} (formed : attr.WellFormed) (harmless : attr.Harmless) :
    '>' ∉ attr.text := by
  have name : '>' ∉ attr.name := fun member =>
    ne_of_isNameChar (formed.isNameChar member) (by decide +kernel) rfl
  have assignment : '>' ∉ attr.assignment := by
    rw [Attribute.assignment]
    cases given : attr.value with
    | none => exact List.not_mem_nil
    | some value => simp [harmless.unclosing value given]
  simp [text, name, assignment]

theorem mentions_text {attr : Attribute} (formed : attr.WellFormed) (harmless : attr.Harmless) :
    attr.text.mentions "<!--" = false := by
  have name : '<' ∉ ' ' :: attr.name := by
    rintro (_ | ⟨_, inName⟩)
    exact ne_of_isNameChar (formed.isNameChar inName) (by decide +kernel) rfl
  have assignment : Text.mentions attr.assignment "<!--" = false := by
    rw [Attribute.assignment]
    cases given : attr.value with
    | none => rfl
    | some value =>
        have signs := Text.countsAs_of_not_mem (by decide) (show '<' ∉ ['=', '"'] by decide)
        show Text.mentions (['=', '"'] ++ (value ++ ['"'])) "<!--" = false
        rw [Text.mentions_append_of_missing rfl signs, Text.mentions_append,
          harmless.uncommenting value given]
        · rfl
        · rintro c ⟨⟩
          decide
  rw [text, ← List.cons_append,
    Text.mentions_append_of_missing rfl (Text.countsAs_of_not_mem (by decide) name), assignment]

theorem mentions_texts {attributes : List Attribute}
    (formed : ∀ attr ∈ attributes, attr.WellFormed)
    (harmless : ∀ attr ∈ attributes, attr.Harmless) :
    Text.mentions (attributes.flatMap Attribute.text) "<!--" = false := by
  induction attributes with
  | nil => rfl
  | cons attr others ih =>
      have foreign : ∀ c ∈ (others.flatMap Attribute.text).head?, Foreign "!--".toList c := by
        intro c head
        rw [head_texts others c head]
        decide
      rw [List.flatMap_cons, Text.mentions_append foreign,
        mentions_text (formed attr List.mem_cons_self) (harmless attr List.mem_cons_self),
        ih (fun other member => formed other (List.mem_cons_of_mem _ member))
          fun other member => harmless other (List.mem_cons_of_mem _ member)]
      rfl

end Attribute

end DeclOrder

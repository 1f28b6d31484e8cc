import DeclOrder.Proofs.ScannedElements

/-!
# Script elements as they are written

A script element is written as an opening tag with attributes, a body and a closing tag.  It is
found again in its place, with its body and its language, as long as what stands between quotation
marks cannot be taken for a part of the tag and no comment reaches over the end of the body.
-/

namespace DeclOrder

/-! ## Finding elements -/

namespace Component

theorem elementAt?_of_unopened {offset : Nat} {text : Text}
    (unopened : Text.afterWord? "<script".toList text = none) : elementAt? offset text = none := by
  rw [elementAt?, openingTag?, unopened]
  rfl

/-- No element starts in a text that does not mention one. -/
theorem elementsFrom_append {text behind : Text} (none : text.mentions "<script" = false)
    (foreign : ∀ c ∈ behind.head?, Foreign "script".toList c) (offset : Nat) :
    elementsFrom offset (text ++ behind) = elementsFrom (offset + text.length) behind := by
  induction text generalizing offset with
  | nil => rfl
  | cons c rest ih =>
      have unopened := Text.afterWord?_of_unmentioned none foreign
      rw [List.cons_append, elementsFrom_cons (elementAt?_of_unopened unopened),
        ih (Text.mentions_cons_eq_false_iff.mp none).2, List.length_cons, Nat.add_right_comm,
        Nat.add_assoc]

theorem elementsFrom_of_unmentioned {text : Text} (none : text.mentions "<script" = false)
    (offset : Nat) : elementsFrom offset text = [] := by
  have foreign : ∀ c ∈ ([] : Text).head?, Foreign "script".toList c := fun c head => nomatch head
  have skipped := elementsFrom_append none foreign offset
  rw [List.append_nil, elementsFrom] at skipped
  exact skipped

theorem afterClosingTag?_of_unopened {text : Text}
    (unopened : Text.afterWord? "</script".toList text = none) : afterClosingTag? text = none := by
  rw [afterClosingTag?, unopened]
  rfl

/-- A body ends at the first closing tag. -/
theorem splitAtClosingTag?_append {body behind rest : Text}
    (none : body.mentions "</script" = false)
    (foreign : ∀ c ∈ behind.head?, Foreign "/script".toList c)
    (closes : afterClosingTag? behind = some rest) :
    splitAtClosingTag? (body ++ behind) = some (body, rest) := by
  induction body with
  | nil =>
      cases behind with
      | nil => cases closes
      | cons c behind => rw [List.nil_append, splitAtClosingTag?, closes]
  | cons c body ih =>
      have unopened := Text.afterWord?_of_unmentioned none foreign
      rw [List.cons_append, splitAtClosingTag?, afterClosingTag?_of_unopened unopened,
        ih (Text.mentions_cons_eq_false_iff.mp none).2]
      rfl

/-! ## Written scripts -/

/-- A script element as it is written into a document: the names in its tags, its attributes, its
body, and the texts before and behind it. -/
structure Written where
  before : Text
  opening : Text := "script".toList
  attributes : List Attribute
  body : Text
  closing : Text := "script".toList
  behind : Text

namespace Written

/-- The attributes of the opening tag. -/
def attributeText (written : Written) : Text :=
  written.attributes.flatMap Attribute.text

/-- The opening tag. -/
def openingTag (written : Written) : Text :=
  '<' :: (written.opening ++ written.attributeText ++ ['>'])

/-- The closing tag. -/
def closingTag (written : Written) : Text :=
  '<' :: '/' :: (written.closing ++ ['>'])

/-- The document with the element in its place. -/
def document (written : Written) : Text :=
  written.before ++
    (written.openingTag ++ (written.body ++ (written.closingTag ++ written.behind)))

/-- The language of the element: the first one that an attribute gives, in small letters. -/
def language (written : Written) : String :=
  match written.attributes.findSome? Attribute.language? with
  | some value => String.ofList value.lower
  | none => "js"

/-- The tags are those of a script, no other script stands around the element, no comment starts
before it, and the body holds no closing tag. -/
structure WellFormed (written : Written) : Prop where
  opening : written.opening.reads "script" = true
  closing : written.closing.reads "script" = true
  attributes : ∀ attr ∈ written.attributes, attr.WellFormed
  before : written.before.mentions "<script" = false
  uncommented : written.before.mentions "<!--" = false
  body : written.body.mentions "</script" = false
  behind : written.behind.mentions "<script" = false

/-- No value can be taken for a part of the tag, and no comment that starts in the body ends behind
the element. -/
structure Harmless (written : Written) : Prop where
  attributes : ∀ attr ∈ written.attributes, attr.Harmless
  comments : (maskComments written.body).mentions "<!--" = false ∨
    written.behind.mentions "-->" = false

instance (written : Written) : Decidable written.WellFormed :=
  decidable_of_iff
    (written.opening.reads "script" = true ∧ written.closing.reads "script" = true ∧
      (∀ attr ∈ written.attributes, attr.WellFormed) ∧
      written.before.mentions "<script" = false ∧ written.before.mentions "<!--" = false ∧
      written.body.mentions "</script" = false ∧ written.behind.mentions "<script" = false)
    ⟨fun ⟨opening, closing, attributes, before, uncommented, body, behind⟩ =>
        ⟨opening, closing, attributes, before, uncommented, body, behind⟩,
      fun ⟨opening, closing, attributes, before, uncommented, body, behind⟩ =>
        ⟨opening, closing, attributes, before, uncommented, body, behind⟩⟩

instance (written : Written) : Decidable written.Harmless :=
  decidable_of_iff
    ((∀ attr ∈ written.attributes, attr.Harmless) ∧
      ((maskComments written.body).mentions "<!--" = false ∨
        written.behind.mentions "-->" = false))
    ⟨fun ⟨attributes, comments⟩ => ⟨attributes, comments⟩,
      fun ⟨attributes, comments⟩ => ⟨attributes, comments⟩⟩

/-- The element is read back: it is the script of the component exactly when it has an attribute
named `setup`, and then it is found in its place, with its body and its language. -/
structure ReadBack (written : Written) : Prop where
  found : (setup? written.document).isSome = true ↔
    ∃ attr ∈ written.attributes, attr.name.reads "setup" = true
  content : ∀ setup ∈ setup? written.document,
    setup.start = written.before.length + written.openingTag.length ∧
      written.document.slice setup.start setup.stop = written.body ∧
        setup.language = written.language

section Found

variable {written : Written} (formed : written.WellFormed) (harmless : written.Harmless)

include formed

theorem afterClosingTag?_closingTag (rest : Text) :
    afterClosingTag? (written.closingTag ++ rest) = some rest := by
  have closes : Text.reads ('<' :: '/' :: written.closing) "</script" = true := formed.closing
  exact afterClosingTag?_eq_some_iff.mpr
    ⟨written.closingTag, ⟨_, [], closes, fun c none => (nomatch none), rfl⟩, rfl⟩

include harmless

theorem not_mem_attributeText : '>' ∉ written.attributeText := by
  intro member
  obtain ⟨attr, found, inText⟩ := List.mem_flatMap.mp member
  exact Attribute.not_mem_text (formed.attributes attr found) (harmless.attributes attr found) inText

theorem openingTag?_openingTag (rest : Text) :
    openingTag? (written.openingTag ++ rest) = some (written.attributeText, rest) := by
  have opens : Text.reads ('<' :: written.opening) "<script" = true := formed.opening
  have space : isWord ' ' = false := by decide +kernel
  have boundary : ∀ c ∈ written.attributeText.head?, isWord c = false := by
    intro c head
    rw [Attribute.head_texts written.attributes c head, space]
  refine openingTag?_eq_some_iff.mpr
    ⟨'<' :: written.opening, opens, boundary, not_mem_attributeText formed harmless, ?_⟩
  rw [openingTag]
  simp

/-- The element is found at its opening tag, with any body that holds no closing tag. -/
theorem elementAt?_openingTag {body : Text} (none : body.mentions "</script" = false)
    (rest : Text) (offset : Nat) :
    elementAt? offset (written.openingTag ++ (body ++ (written.closingTag ++ rest))) =
      some (⟨written.attributeText, offset + written.openingTag.length, body⟩, rest) := by
  have foreign : ∀ c ∈ (written.closingTag ++ rest).head?, Foreign "/script".toList c := by
    rintro c ⟨⟩
    decide
  have opens := openingTag?_openingTag formed harmless (body ++ (written.closingTag ++ rest))
  have closes := splitAtClosingTag?_append none foreign (afterClosingTag?_closingTag formed rest)
  have length : (written.openingTag ++ (body ++ (written.closingTag ++ rest))).length -
      (body ++ (written.closingTag ++ rest)).length = written.openingTag.length := by
    rw [List.length_append, Nat.add_sub_cancel]
  rw [elementAt?, opens]
  show ((splitAtClosingTag? (body ++ (written.closingTag ++ rest))).bind _) = _
  rw [closes, length]
  rfl

omit harmless in
theorem maskComments_closingTag (rest : Text) :
    maskComments (written.closingTag ++ rest) = written.closingTag ++ maskComments rest := by
  have unopened : Text.afterWord? "<!--".toList
      ('<' :: ('/' :: (written.closing ++ ['>']) ++ rest)) = none := rfl
  have inner : '<' ∉ '/' :: (written.closing ++ ['>']) := by
    simp [Text.not_mem_of_reads formed.closing (show Foreign "script".toList '<' by decide)]
  rw [closingTag, List.cons_append, maskComments_cons (afterComment?_of_unopened unopened),
    maskComments_append_of_not_mem inner]
  rfl

theorem maskComments_openingTag (rest : Text) :
    maskComments (written.openingTag ++ rest) = written.openingTag ++ maskComments rest := by
  have sign : '!' ∉ '<' :: written.opening := by
    rintro (_ | ⟨_, inName⟩)
    exact Text.not_mem_of_reads formed.opening (by decide) inName
  have name : Text.mentions ('<' :: written.opening) "<!--" = false :=
    Text.mentions_of_missing '!' (by decide) (Text.countsAs_of_not_mem (by decide) sign)
  have spaced : ∀ c ∈ written.attributeText.head?, Foreign "!--".toList c := by
    intro c head
    rw [Attribute.head_texts written.attributes c head]
    decide
  have front : Text.mentions ('<' :: written.opening ++ written.attributeText) "<!--" = false := by
    rw [Text.mentions_append spaced, name, attributeText,
      Attribute.mentions_texts formed.attributes harmless.attributes]
    rfl
  have foreign : ∀ c ∈ ('>' :: rest).head?, Foreign "!--".toList c := by
    rintro c ⟨⟩
    decide
  have last : maskComments ('>' :: rest) = '>' :: maskComments rest :=
    maskComments_append_of_not_mem (show '<' ∉ ['>'] by decide) rest
  have shape : ∀ behind : Text, written.openingTag ++ behind =
      '<' :: written.opening ++ written.attributeText ++ '>' :: behind := by
    intro behind
    simp [openingTag]
  rw [shape, maskComments_append_of_unmentioned front foreign, last, shape]

/-- Masking leaves the tags, and everything before them. -/
theorem maskComments_document :
    maskComments written.document = written.before ++ (written.openingTag ++
      (maskComments written.body ++ (written.closingTag ++ maskComments written.behind))) := by
  have opening : ∀ c ∈ (written.openingTag ++ (written.body ++
      (written.closingTag ++ written.behind))).head?, Foreign "!--".toList c := by
    rintro c ⟨⟩
    decide
  have closing : ∀ c ∈ (written.closingTag ++ written.behind).head?,
      Foreign "!-->".toList c := by
    rintro c ⟨⟩
    decide
  have hyphen : '-' ∉ written.closingTag := by
    simp [closingTag, Text.not_mem_of_reads formed.closing (show Foreign "script".toList '-' by decide)]
  have comments : (maskComments written.body).mentions "<!--" = false ∨
      Text.mentions (written.closingTag ++ written.behind) "-->" = false := by
    rw [Text.mentions_append_of_missing rfl (Text.countsAs_of_not_mem (by decide) hyphen)]
    exact harmless.comments
  rw [document, maskComments_append_of_unmentioned formed.uncommented opening,
    maskComments_openingTag formed harmless, maskComments_append comments closing,
    maskComments_closingTag formed]

/-- The element is the only one of its document. -/
theorem elements_document :
    elements written.document = [⟨written.attributeText,
      written.before.length + written.openingTag.length, maskComments written.body⟩] := by
  have opening : ∀ c ∈ (written.openingTag ++ (maskComments written.body ++
      (written.closingTag ++ maskComments written.behind))).head?, Foreign "script".toList c := by
    rintro c ⟨⟩
    decide
  have body := mentions_maskComments (by decide) formed.body
  have found := elementAt?_openingTag formed harmless body (maskComments written.behind)
    (0 + written.before.length)
  have behind := mentions_maskComments (by decide) formed.behind
  rw [elements, maskComments_document formed harmless, elementsFrom_append formed.before opening,
    elementsFrom_of_element found, elementsFrom_of_unmentioned behind, Nat.zero_add]

theorem setup?_document :
    setup? written.document =
      if written.attributes.any fun attr => attr.name.reads "setup" then
        some ⟨written.before.length + written.openingTag.length,
          written.before.length + written.openingTag.length + written.body.length,
          written.language⟩
      else none := by
  have named := Attribute.hasSetup_texts formed.attributes harmless.attributes
  have language : languageOf written.attributeText = written.language := by
    rw [languageOf, attributeText,
      Attribute.findSome?_langAt?_texts formed.attributes harmless.attributes]
    rfl
  rw [setup?, elements_document formed harmless, ← named, ← attributeText]
  cases setup : hasSetup written.attributeText with
  | false => simp [setup]
  | true => simp [setup, language]

end Found

theorem slice_document (written : Written) :
    written.document.slice (written.before.length + written.openingTag.length : Nat)
      (written.before.length + written.openingTag.length + written.body.length : Nat) =
        written.body := by
  have shape : written.document = written.before ++ written.openingTag ++
      (written.body ++ (written.closingTag ++ written.behind)) := by
    rw [document, List.append_assoc]
  rw [shape, Text.slice_of_le (by simp) (by simp; omega), ← List.length_append,
    List.take_length_add_append, List.take_left, List.drop_left]

/-- A harmless script is read back as it was written. -/
theorem readBack_of_harmless {written : Written} (formed : written.WellFormed)
    (harmless : written.Harmless) : written.ReadBack := by
  have read := setup?_document formed harmless
  constructor
  · rw [read, ← List.any_eq_true]
    split
    · rename_i named
      simp [named]
    · rename_i unnamed
      simp [unnamed]
  · intro setup found
    rw [read] at found
    split at found
    · cases found
      exact ⟨rfl, written.slice_document, rfl⟩
    · cases found

/-- A script in capital letters, with a comment in its body and blanks in the value of an
attribute. -/
def shouting : Written where
  before := "<p>é</p>\n".toList
  opening := "SCRIPT".toList
  attributes :=
    [{ name := "LANG".toList, value := some "Ts".toList },
     { name := "v-x:y".toList, value := some "no setup".toList },
     { name := "SetUp".toList }]
  body := "\nlet a = 1 // <!-- setup -->\n".toList
  closing := "Script".toList
  behind := "\n<style/> -->".toList

theorem readBack_shouting :
    shouting.WellFormed ∧ shouting.Harmless ∧ ∃ setup, setup? shouting.document = some setup ∧
      shouting.document.slice setup.start setup.stop = shouting.body ∧ setup.language = "ts" := by
  have formed : shouting.WellFormed := by decide +kernel
  have harmless : shouting.Harmless := by decide +kernel
  obtain ⟨found, content⟩ := readBack_of_harmless formed harmless
  obtain ⟨setup, here⟩ := Option.isSome_iff_exists.mp (found.mpr (by decide +kernel))
  obtain ⟨_, body, language⟩ := content setup here
  exact ⟨formed, harmless, setup, here, body, language.trans (by decide +kernel)⟩

/-- A script with a sign in the value of an attribute that also ends tags. -/
def generic : Written where
  before := []
  attributes :=
    [{ name := "setup".toList },
     { name := "lang".toList, value := some "ts".toList },
     { name := "generic".toList, value := some "T extends Record<string, number>".toList }]
  body := "\nconst a = 1\n".toList
  behind := []

/-- The sign that ends a tag also ends it between quotation marks, so not every script is read
back. -/
theorem closing_sign_cuts_tag :
    ¬ ∀ written : Written, written.WellFormed →
      (written.attributes.map fun attr => attr.name.lower).Nodup → written.ReadBack := by
  intro readBack
  have formed : generic.WellFormed := by decide +kernel
  have found : setup? generic.document = some ⟨65, 80, "ts"⟩ := by decide +kernel
  have content := (readBack generic formed (by decide +kernel)).content _ found
  exact absurd content.2.1 (by decide +kernel)

end Written

end Component

end DeclOrder

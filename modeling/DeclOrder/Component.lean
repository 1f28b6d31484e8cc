import DeclOrder.Text.Blank
import DeclOrder.Text.Lowercase
import DeclOrder.Text.Word

/-!
# Components

A component is a document with a script among its elements.  The script that counts is the first
one with a `setup` attribute, comments being invisible.  It is found by its tags alone: an opening
tag ends at the first `>`, and the body at the first closing tag.
-/

namespace DeclOrder.Component

/-- What follows the first occurrence of a text. -/
def behindFirst? (sought : Text) : Text → Option Text
  | [] => Text.after? sought []
  | c :: rest =>
    match Text.after? sought (c :: rest) with
    | some behind => some behind
    | none => behindFirst? sought rest

/-- What follows the comment at the start of a text, if a closed comment stands there. -/
def afterComment? (text : Text) : Option Text :=
  (Text.after? "<!--".toList text).bind (behindFirst? "-->".toList)

theorem length_of_behindFirst? {sought text rest : Text}
    (found : behindFirst? sought text = some rest) : rest.length ≤ text.length := by
  induction text with
  | nil =>
    have := Text.length_of_after? found
    omega
  | cons c text ih =>
    simp only [behindFirst?] at found
    split at found <;> rename_i result
    · have := Text.length_of_after? result
      simp only [Option.some.injEq] at found
      subst found
      omega
    · have := ih found
      simp only [List.length_cons]
      omega

theorem length_of_afterComment? {text rest : Text} (found : afterComment? text = some rest) :
    rest.length < text.length := by
  obtain ⟨inner, opened, closed⟩ := Option.bind_eq_some_iff.mp found
  have := Text.length_of_after? opened
  have := length_of_behindFirst? closed
  have : "<!--".toList.length = 4 := rfl
  omega

/-- A document with blanks in place of its comments. -/
def maskComments : Text → Text
  | [] => []
  | c :: rest =>
    match found : afterComment? (c :: rest) with
    | some behind =>
      have := length_of_afterComment? found
      List.replicate ((c :: rest).length - behind.length) ' ' ++ maskComments behind
    | none => c :: maskComments rest
  termination_by text => text.length
  decreasing_by
    · assumption
    · simp

def afterClosingTag? (text : Text) : Option Text :=
  match (Text.afterWord? "</script".toList text).map (List.dropWhile isBlank) with
  | some ('>' :: rest) => some rest
  | _ => none

def splitAtClosingTag? : Text → Option (Text × Text)
  | [] => none
  | c :: rest =>
    match afterClosingTag? (c :: rest) with
    | some behind => some ([], behind)
    | none => (splitAtClosingTag? rest).map fun (body, behind) => (c :: body, behind)

/-- The attributes of the opening tag at the start of a text, and what follows the tag. -/
def openingTag? (text : Text) : Option (Text × Text) :=
  match Text.afterWord? "<script".toList text with
  | none => none
  | some rest =>
    if (rest.head?.map isWord).getD false then none
    else
      match rest.dropWhile (· ≠ '>') with
      | [] => none
      | _ :: behind => some (rest.takeWhile (· ≠ '>'), behind)

/-- A script element: its attributes, and the place and text of its body. -/
structure Element where
  attributes : Text
  start : Nat
  body : Text
  deriving DecidableEq, Repr

/-- The script element at the start of a text that stands at a given offset, and what follows. -/
def elementAt? (offset : Nat) (text : Text) : Option (Element × Text) := do
  let (attributes, inner) ← openingTag? text
  let (body, behind) ← splitAtClosingTag? inner
  return ({ attributes, start := offset + (text.length - inner.length), body }, behind)

theorem length_of_afterClosingTag? {text rest : Text} (found : afterClosingTag? text = some rest) :
    rest.length < text.length := by
  unfold afterClosingTag? at found
  split at found
  · rename_i behind result
    obtain ⟨inner, word, blanks⟩ := Option.map_eq_some_iff.mp result
    have taken := Text.length_of_afterWord? word
    have shorter := (List.dropWhile_suffix (l := inner) isBlank).length_le
    simp only [Option.some.injEq] at found
    subst found
    rw [blanks] at shorter
    simp only [List.length_cons] at shorter
    omega
  · simp at found

theorem length_of_splitAtClosingTag? {text body rest : Text}
    (found : splitAtClosingTag? text = some (body, rest)) : rest.length < text.length := by
  induction text generalizing body with
  | nil => simp [splitAtClosingTag?] at found
  | cons c text ih =>
    simp only [splitAtClosingTag?] at found
    split at found <;> rename_i result
    · simp only [Option.some.injEq, Prod.mk.injEq] at found
      obtain ⟨_, rfl⟩ := found
      exact length_of_afterClosingTag? result
    · obtain ⟨⟨inner, behind⟩, split, same⟩ := Option.map_eq_some_iff.mp found
      simp only [Prod.mk.injEq] at same
      obtain ⟨_, rfl⟩ := same
      have := ih split
      simp only [List.length_cons]
      omega

theorem length_of_openingTag? {text attributes rest : Text}
    (found : openingTag? text = some (attributes, rest)) : rest.length < text.length := by
  unfold openingTag? at found
  split at found
  · simp at found
  · rename_i inner word
    have taken := Text.length_of_afterWord? word
    have shorter := (List.dropWhile_suffix (l := inner) (· ≠ '>')).length_le
    split at found
    · simp at found
    · split at found <;> rename_i result
      · simp at found
      · simp only [Option.some.injEq, Prod.mk.injEq] at found
        obtain ⟨_, rfl⟩ := found
        rw [result] at shorter
        simp only [List.length_cons] at shorter
        omega

theorem length_of_elementAt? {offset : Nat} {text rest : Text} {element : Element}
    (found : elementAt? offset text = some (element, rest)) : rest.length < text.length := by
  unfold elementAt? at found
  obtain ⟨⟨attributes, inner⟩, opened, found⟩ := Option.bind_eq_some_iff.mp found
  obtain ⟨⟨body, behind⟩, closed, found⟩ := Option.bind_eq_some_iff.mp found
  have := length_of_openingTag? opened
  have := length_of_splitAtClosingTag? closed
  simp only [pure, Option.some.injEq, Prod.mk.injEq] at found
  obtain ⟨_, rfl⟩ := found
  omega

/-- The script elements of a text that stands at a given offset, from left to right; the search
goes on behind each element. -/
def elementsFrom (offset : Nat) : Text → List Element
  | [] => []
  | c :: rest =>
    match found : elementAt? offset (c :: rest) with
    | some (element, behind) =>
      element :: elementsFrom (offset + ((c :: rest).length - behind.length)) behind
    | none => elementsFrom (offset + 1) rest
  termination_by text => text.length
  decreasing_by
    · exact length_of_elementAt? found
    · simp

/-- The script elements of a document, comments being invisible. -/
def elements (document : Text) : List Element :=
  elementsFrom 0 (maskComments document)

def startsWithSetup (text : Text) : Bool :=
  match Text.afterWord? "setup".toList text with
  | none => false
  | some [] => true
  | some (c :: _) => isBlank c || c = '=' || c = '/'

/-- The places of an attribute text where an attribute can start. -/
def attributeStarts (attributes : Text) : List Text :=
  attributes :: Text.behindEach isBlank attributes

def hasSetup (attributes : Text) : Bool :=
  (attributeStarts attributes).any startsWithSetup

def dropQuote : Text → Text
  | [] => []
  | c :: rest => if c = '"' || c = '\x27' then rest else c :: rest

/-- The value of the attribute at the start of a text, if that is `lang` and has a value of word
characters and hyphens. -/
def langAt? (text : Text) : Option Text :=
  match (Text.afterWord? "lang".toList text).map (List.dropWhile isBlank) with
  | some ('=' :: rest) =>
    let value := (dropQuote (rest.dropWhile isBlank)).takeWhile fun c => isWord c || c = '-'
    if value.isEmpty then none else some value
  | _ => none

def languageOf (attributes : Text) : String :=
  match (attributeStarts attributes).findSome? langAt? with
  | some value => String.ofList value.lower
  | none => "js"

structure Setup where
  start : Nat
  stop : Nat
  language : String
  deriving DecidableEq, Repr

/-- The script of a component: the first script element with a `setup` attribute. -/
def setup? (document : Text) : Option Setup :=
  ((elements document).find? fun element => hasSetup element.attributes).map fun element =>
    { start := element.start
      stop := element.start + element.body.length
      language := languageOf element.attributes }

end DeclOrder.Component

import DeclOrder.Component
import DeclOrder.Path
import DeclOrder.ScriptBody

/-!
# Kinds of source

A document is handled according to the extension of its path: a component holds its script in an
element, any other source is a script as a whole.  The language of the script decides which grammar it is
parsed with.
-/

namespace DeclOrder

inductive Grammar where
  | typescript
  | tsx
  deriving DecidableEq, Repr

namespace Grammar

def name : Grammar → String
  | .typescript => "typescript"
  | .tsx => "tsx"

/-- The grammar of a language.  Plain scripts may hold markup, which only one grammar knows. -/
def ofLanguage (language : String) : Grammar :=
  if lowerName language ∈ ["tsx", "jsx", "js", "mjs", "cjs"] then .tsx else .typescript

end Grammar

inductive SourceKind where
  | component
  | script
  deriving DecidableEq, Repr

/-- The script of a document before it is parsed. -/
structure Extract where
  body : ScriptBody
  language : String

def Extract.grammar (extract : Extract) : Grammar :=
  Grammar.ofLanguage extract.language

namespace SourceKind

def name : SourceKind → String
  | .component => "vue"
  | .script => "script"

def extensions : SourceKind → List String
  | .component => [".vue"]
  | .script => [".ts", ".mts", ".cts", ".tsx", ".js", ".mjs", ".cjs", ".jsx"]

/-- The kind of source of an extension, in capital or small letters. -/
def ofExtension? (extension : String) : Option SourceKind :=
  [component, script].find? fun kind => lowerName extension ∈ kind.extensions

def ofPath? (path : Path) : Option SourceKind :=
  ofExtension? path.extension

/-- The language of a whole script, by the extension of its path. -/
def scriptLanguage (path : Path) : String :=
  match Text.lower (path.extension.toList.dropWhile (· = '.')) with
  | [] => "ts"
  | language => String.ofList language

/-- The script of a document; a component may have none. -/
def extract? (kind : SourceKind) (path : Path) (document : Text) : Option Extract :=
  match kind with
  | .component => (Component.setup? document).map fun setup =>
      { body := { document, start := setup.start, stop := setup.stop }
        language := setup.language }
  | .script => some
      { body := { document, start := 0, stop := document.length }
        language := scriptLanguage path }

end SourceKind

end DeclOrder

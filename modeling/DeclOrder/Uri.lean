import DeclOrder.Failure
import DeclOrder.HostAddress
import DeclOrder.Path
import DeclOrder.Text.CodeRanges
import DeclOrder.Text.Utf8

/-!
# File URIs

An editor names its documents by URIs.  A URI with the scheme `file` denotes the path between its
authority and its query, with escaped bytes decoded as UTF-8; any other URI is taken for a path as
it stands.  The authority has to be well formed in any case.
-/

namespace DeclOrder.Uri

/-- A text without the spaces and control characters at its start and without any tab or line
end. -/
def strip (uri : Text) : Text :=
  (uri.dropWhile fun c => c.toNat ≤ 0x20).filter fun c => c ≠ '\t' && c ≠ '\r' && c ≠ '\n'

/-- Whether a text is the name of a scheme: a letter, then letters, digits, plus signs, minus signs
and dots. -/
def isScheme (text : Text) : Bool :=
  (text.head?.map Char.isAlpha).getD false &&
    text.all fun c => c.isAlphanum || c = '+' || c = '-' || c = '.'

def scheme? (uri : Text) : Option (Text × Text) :=
  match uri.dropWhile (· ≠ ':') with
  | [] => none
  | _ :: rest =>
    let name := uri.takeWhile (· ≠ ':')
    if isScheme name then some (name.map Char.toLower, rest) else none

def isAuthority (c : Char) : Bool :=
  c ≠ '/' && c ≠ '?' && c ≠ '#'

/-- The authority behind two slashes, which is empty without them, and what follows it. -/
def authority (text : Text) : Text × Text :=
  match text with
  | '/' :: '/' :: rest => (rest.takeWhile isAuthority, rest.dropWhile isAuthority)
  | other => ([], other)

def hostPart (authority : Text) : Text :=
  (authority.reverse.takeWhile (· ≠ '@')).reverse

/-- Whether the brackets of an authority enclose an address, with nothing before them and either
nothing or a colon right behind them. -/
def bracketsEncloseAddress (authority : Text) : Bool :=
  match hostPart authority with
  | '[' :: rest =>
    let behind := (rest.dropWhile (· ≠ ']')).drop 1
    (behind.isEmpty || behind.head? = some ':') && HostAddress.isBracketed (rest.takeWhile (· ≠ ']'))
  | other =>
    '[' ∉ other && HostAddress.isBracketed (other.takeWhile (· ≠ ':'))

/-- The characters that are equivalent to a text with one of the marks that divide a URI. -/
def disguisedMarks : CodeRanges :=
  [(0x2047, 0x2049), (0x2100, 0x2101), (0x2105, 0x2106), (0x2A74, 0x2A74), (0xFE13, 0xFE13),
    (0xFE16, 0xFE16), (0xFE55, 0xFE56), (0xFE5F, 0xFE5F), (0xFE6B, 0xFE6B), (0xFF03, 0xFF03),
    (0xFF0F, 0xFF0F), (0xFF1A, 0xFF1A), (0xFF1F, 0xFF20)]

/-- Whether an authority is well formed: its brackets come in pairs around an address, and no
character is a mark in disguise. -/
def isWellFormed (authority : Text) : Bool :=
  let bracketed := decide ('[' ∈ authority)
  bracketed = decide (']' ∈ authority) && (!bracketed || bracketsEncloseAddress authority) &&
    !authority.any disguisedMarks.has

def dropQuery (text : Text) : Text :=
  text.takeWhile fun c => c ≠ '?' && c ≠ '#'

/-- The bytes of an ASCII text, an escape being the byte it spells; a malformed escape stays. -/
def unescape : Text → Bytes
  | '%' :: high :: low :: rest =>
    match Numeral.digit? 16 high, Numeral.digit? 16 low with
    | some h, some l => UInt8.ofNat (16 * h + l) :: unescape rest
    | _, _ => '%'.toUInt8 :: unescape (high :: low :: rest)
  | c :: rest => c.toUInt8 :: unescape rest
  | [] => []

def isAscii (c : Char) : Bool :=
  c.toNat < 0x80

/-- Decodes the escapes of a text.  Only escapes that are not separated by a character outside
ASCII spell a character together. -/
def decode (text : Text) : Text :=
  (text.splitBy fun a b => isAscii a = isAscii b).flatMap fun run =>
    if run.all isAscii then Utf8.decodeLossy (unescape run) else run

/-- The path that a URI denotes; a malformed authority is a failure, whatever the scheme. -/
def toPath (uri : Text) : Except Failure Path :=
  let (scheme, rest) := (scheme? (strip uri)).getD ([], strip uri)
  let (host, behind) := authority rest
  if !isWellFormed host then .error .malformedUri
  else if scheme = "file".toList then .ok (Path.ofText (decode (dropQuery behind)))
  else .ok (Path.ofText uri)

end DeclOrder.Uri

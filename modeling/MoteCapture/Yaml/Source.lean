import MoteCapture.Text.Basic

/-!
The characters of a document, and what can be wrong with it. Before anything else is read the ways of
ending a line are made one, apart from the two separators of Unicode, which are kept as they are.

Tags are octets, since an octet of a tag may be written by its number. A standard tag says what a scalar
has to be. A document's own tag starts with an exclamation mark and is a key, or a row of keys, for the
value it stands at.
-/

namespace MoteCapture

namespace Yaml

inductive Fault where
  | character
  | token
  /-- A token stands where the layout of lines does not allow it. -/
  | layout
  | shape
  | documents
  | unknownAnchor
  /-- The nesting is too deep, or aliases repeat too much. -/
  | size
  | tag
  | kind
  deriving DecidableEq, Repr

def Fault.message : Fault → String
  | .character => "a character that is not allowed"
  | .token => "a token that is not complete"
  | .layout => "a token in the wrong place"
  | .shape => "tokens that make up no document"
  | .documents => "more than one document"
  | .unknownAnchor => "an unknown anchor"
  | .size => "too much nesting or repetition"
  | .tag => "a tag that does not fit"
  | .kind => "a document or key of the wrong kind"

def isAllowed (c : Char) : Bool :=
  let n := c.toNat
  n == 0x09 || n == 0x0A || n == 0x0D || (0x20 ≤ n && n ≤ 0x7E) || n == 0x85 ||
    (0xA0 ≤ n && n ≤ 0xFFFD) || 0x10000 ≤ n

def unifyBreaks : List Char → List Char
  | [] => []
  | '\r' :: '\n' :: rest => '\n' :: unifyBreaks rest
  | c :: rest => (if c == '\r' || c == '\x85' then '\n' else c) :: unifyBreaks rest

def isBreak (c : Char) : Bool :=
  c == '\n' || c == '\u2028' || c == '\u2029'

def isBlank (c : Char) : Bool :=
  c == ' ' || c == '\t'

def isNameChar (c : Char) : Bool :=
  c.isAlphanum || c == '-' || c == '_'

def endsWord : List Char → Bool
  | [] => true
  | c :: _ => isBlank c || isBreak c

def endsLine : List Char → Bool
  | [] => true
  | c :: _ => isBreak c

/-- The three characters that start or end a document, if they are a word of their own. They count
only at the start of a line. -/
def isDocumentMark : List Char → Bool
  | '-' :: '-' :: '-' :: rest => endsWord rest
  | '.' :: '.' :: '.' :: rest => endsWord rest
  | _ => false

def skipBlanks (text : List Char) : List Char :=
  text.dropWhile isBlank

def skipComment : List Char → List Char
  | '#' :: rest => rest.dropWhile fun c => !isBreak c
  | text => text

def skipToNextLine (text : List Char) : Except Fault (List Char) :=
  match skipComment (skipBlanks text) with
  | [] => .ok []
  | c :: rest => if isBreak c then .ok rest else .error .token

abbrev Tag := Text.Bytes

namespace Tag

def ofString (text : String) : Tag :=
  Text.encode text

/-- The tag that is an exclamation mark alone. As a handle the mark stands for it as well. -/
def mark : Tag :=
  ofString "!"

def standardStem : Tag :=
  ofString "tag:yaml.org,2002:"

def standard (name : String) : Tag :=
  standardStem ++ ofString name

def isOwn (tag : Tag) : Bool :=
  mark.isPrefixOf tag

/-- What counts of a part of a tag: a NUL ends it. -/
def beforeNul (part : Tag) : Tag :=
  part.takeWhile (· != 0)

def ownText? (tag : Tag) : Option String :=
  if tag == mark then Text.decode? tag
  else if tag.isOwn then Text.decode? (tag.drop mark.length)
  else none

def splitKeys (text : String) : List String :=
  ((Text.splitAll '.' text.toList).takeWhile fun key => !key.isEmpty).map String.ofList

def keys (tag : Tag) : List String :=
  match tag.ownText? with
  | some text => splitKeys text
  | none => []

end Tag

end Yaml

end MoteCapture

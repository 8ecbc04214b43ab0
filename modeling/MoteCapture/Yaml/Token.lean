import MoteCapture.Text.Basic
import MoteCapture.Yaml.Scalar
import MoteCapture.Yaml.Source

/-!
The tokens of a document. Where a collection in block style starts and ends is told by indentation; a
token says it. What makes this more than cutting is that a key is known only by the colon after it: the
place of a token that may turn out to be a key is remembered, and the token that says so is put in front
of it later. A key may not be longer than a line or 1024 bytes.
-/

namespace MoteCapture

namespace Yaml

inductive Token where
  | version (major minor : Nat)
  | tagRule (handle : List Char) (stem : Tag)
  | documentStart
  | documentEnd
  | blockSequenceStart
  | blockMappingStart
  | blockEnd
  | flowSequenceStart
  | flowSequenceEnd
  | flowMappingStart
  | flowMappingEnd
  | blockEntry
  | flowEntry
  | key
  | value
  | aliased (name : List Char)
  | anchor (name : List Char)
  | tag (handle : List Char) (suffix : Tag)
  | scalar (isPlain : Bool) (text : List Char)
  deriving DecidableEq, Repr

namespace Token

def readName (source : List Char) : Except Fault (List Char × List Char) :=
  let name := source.takeWhile isNameChar
  let rest := source.dropWhile isNameChar
  let ends := match rest with
    | [] => true
    | c :: _ =>
        isBlank c || isBreak c || c == '?' || c == ':' || c == ',' || c == ']' || c == '\x7d' ||
          c == '%' || c == '@' || c == '\x60'
  if name.isEmpty || !ends then .error .token else .ok (name, rest)

def isTagChar (c : Char) : Bool :=
  isNameChar c || c == ';' || c == '/' || c == '?' || c == ':' || c == '@' || c == '&' ||
    c == '=' || c == '+' || c == '$' || c == '.' || c == '!' || c == '~' || c == '*' ||
    c == '\x27' || c == '(' || c == ')'

def sequenceLength? (octet : Nat) : Option Nat :=
  if octet < 0x80 then some 1
  else if 0xC0 ≤ octet && octet < 0xE0 then some 2
  else if 0xE0 ≤ octet && octet < 0xF0 then some 3
  else if 0xF0 ≤ octet && octet < 0xF8 then some 4
  else none

/-- Whether the octet may come when `missing` octets of a sequence are missing; if so, how many are
missing after it. -/
def missingAfter? (missing octet : Nat) : Option Nat :=
  if missing == 0 then (sequenceLength? octet).map fun length => length - 1
  else if 0x80 ≤ octet && octet < 0xC0 then some (missing - 1)
  else none

/-- Reads a part of a tag. After a percent sign an octet is written by its number, and together such
octets have to look like UTF-8. Brackets and commas are allowed only in a tag that is written in
full. -/
def readUri (isFull : Bool) : Nat → List Char → Except Fault (Tag × List Char)
  | missing, '%' :: a :: b :: rest =>
      match Text.Hexadecimal.read? [a, b] with
      | none => .error .token
      | some octet =>
          match missingAfter? missing octet with
          | none => .error .token
          | some missing =>
              (readUri isFull missing rest).map fun read => (UInt8.ofNat octet :: read.1, read.2)
  | missing, c :: rest =>
      if c == '%' || missing != 0 then .error .token
      else if isTagChar c || (isFull && (c == ',' || c == '[' || c == ']')) then
        (readUri isFull 0 rest).map fun read => (c.toUInt8 :: read.1, read.2)
      else .ok ([], c :: rest)
  | missing, [] => if missing == 0 then .ok ([], []) else .error .token

def readHandle (source : List Char) : Except Fault (List Char × List Char) :=
  match source with
  | '!' :: rest =>
      let name := rest.takeWhile isNameChar
      match rest.dropWhile isNameChar with
      | '!' :: after => .ok ('!' :: (name ++ ['!']), after)
      | after => .ok ('!' :: name, after)
  | _ => .error .token

def isNamedHandle (handle : List Char) : Bool :=
  1 < handle.length && handle.getLast? == some '!'

/-- Reads the handle and the rest of a tag. A tag in full has no handle, and neither has the mark
alone. -/
def readTagParts (source : List Char) : Except Fault ((List Char × Tag) × List Char) :=
  match source with
  | '!' :: '<' :: rest => do
      let (uri, after) ← readUri true 0 rest
      match after with
      | '>' :: after => if uri.isEmpty then .error .token else .ok (([], uri.beforeNul), after)
      | _ => .error .token
  | _ => do
      let (handle, rest) ← readHandle source
      let (uri, after) ← readUri false 0 rest
      if isNamedHandle handle then
        if uri.isEmpty then .error .token else .ok ((handle, uri.beforeNul), after)
      else
        let suffix := (Tag.ofString (String.ofList (handle.drop 1)) ++ uri).beforeNul
        .ok (if suffix.isEmpty then ([], Tag.mark) else (['!'], suffix), after)

def readTag (inFlow : Bool) (source : List Char) : Except Fault (Token × List Char) := do
  let (parts, rest) ← readTagParts source
  if endsWord rest || (inFlow && rest.head? == some ',') then
    .ok (.tag parts.1 parts.2, rest)
  else .error .token

def readVersionPart (source : List Char) : Except Fault (Nat × List Char) :=
  let digits := source.takeWhile Text.Numeral.isDigit
  match Text.Numeral.readDigits? digits with
  | some n => if digits.length ≤ 9 then .ok (n, source.drop digits.length) else .error .token
  | none => .error .token

def readVersion (source : List Char) : Except Fault (Token × List Char) := do
  let (major, rest) ← readVersionPart (skipBlanks source)
  match rest with
  | '.' :: rest =>
      let (minor, rest) ← readVersionPart rest
      .ok (.version major minor, rest)
  | _ => .error .token

def readTagRule (source : List Char) : Except Fault (Token × List Char) := do
  let (handle, rest) ← readHandle (skipBlanks source)
  if handle != ['!'] && !isNamedHandle handle then .error .token
  else
    match rest with
    | c :: _ =>
        if !isBlank c then .error .token
        else
          let (stem, rest) ← readUri true 0 (skipBlanks rest)
          if stem.isEmpty || !endsWord rest then .error .token
          else .ok (.tagRule handle stem.beforeNul, rest)
    | [] => .error .token

def readDirective (source : List Char) : Except Fault (Token × List Char) := do
  let name := source.takeWhile isNameChar
  let rest := source.dropWhile isNameChar
  if !endsWord rest then .error .token
  else
    let (token, rest) ←
      if name == ['Y', 'A', 'M', 'L'] then readVersion rest
      else if name == ['T', 'A', 'G'] then readTagRule rest
      else .error .token
    .ok (token, ← skipToNextLine rest)

end Token

structure Place where
  index : Nat
  line : Nat
  column : Nat

namespace Place

def start : Place := ⟨0, 0, 0⟩

def past (place : Place) (c : Char) : Place :=
  if isBreak c then ⟨place.index + c.utf8Size, place.line + 1, 0⟩
  else ⟨place.index + c.utf8Size, place.line, place.column + 1⟩

end Place

/-- A token that is a key if a colon follows. -/
structure PossibleKey where
  /-- Whether it cannot be anything else. -/
  isNeeded : Bool
  position : Nat
  place : Place

def PossibleKey.greatestLength : Nat := 1024

def PossibleKey.isPast (key : PossibleKey) (place : Place) : Bool :=
  key.place.line < place.line || key.place.index + greatestLength < place.index

structure Lexer where
  rest : List Char
  place : Place
  tokens : List Token
  indents : List Nat
  /-- The possible key in the innermost collection in flow style, or outside of all. -/
  key : Option PossibleKey
  outerKeys : List (Option PossibleKey)
  keyAllowed : Bool

namespace Lexer

def ofText (text : List Char) : Lexer :=
  { rest := text, place := .start, tokens := [], indents := [], key := none, outerKeys := []
    keyAllowed := true }

def inFlow (lexer : Lexer) : Bool :=
  !lexer.outerKeys.isEmpty

def leastColumn (lexer : Lexer) : Nat :=
  match lexer.indents with
  | [] => 0
  | indent :: _ => indent + 1

def emit (token : Token) (lexer : Lexer) : Lexer :=
  { lexer with tokens := token :: lexer.tokens }

def emitAt (position : Nat) (token : Token) (lexer : Lexer) : Lexer :=
  let later := lexer.tokens.length - position
  { lexer with tokens := lexer.tokens.take later ++ token :: lexer.tokens.drop later }

def goTo (rest : List Char) (lexer : Lexer) : Lexer :=
  let passed := lexer.rest.take (lexer.rest.length - rest.length)
  { lexer with rest := rest, place := passed.foldl Place.past lexer.place }

def skip (count : Nat) (lexer : Lexer) : Lexer :=
  lexer.goTo (lexer.rest.drop count)

def giveUp : Option PossibleKey → Except Fault (Option PossibleKey)
  | some key => if key.isNeeded then .error .layout else .ok none
  | none => .ok none

def dropKey (lexer : Lexer) : Except Fault Lexer := do
  return { lexer with key := ← giveUp lexer.key }

def saveKey (lexer : Lexer) : Except Fault Lexer := do
  if lexer.keyAllowed then
    let lexer ← lexer.dropKey
    return { lexer with
      key := some
        { isNeeded := !lexer.inFlow && lexer.indents.head? == some lexer.place.column
          position := lexer.tokens.length
          place := lexer.place } }
  else return lexer

def expire (place : Place) : Option PossibleKey → Except Fault (Option PossibleKey)
  | some key => if key.isPast place then giveUp (some key) else .ok (some key)
  | none => .ok none

def expireKeys (lexer : Lexer) : Except Fault Lexer := do
  let key ← expire lexer.place lexer.key
  let outerKeys ← lexer.outerKeys.mapM (expire lexer.place)
  return { lexer with key, outerKeys }

def unrollTo (least : Nat) (tokens : List Token) : List Nat → List Token × List Nat
  | [] => (tokens, [])
  | indent :: rest =>
      if least ≤ indent then unrollTo least (.blockEnd :: tokens) rest else (tokens, indent :: rest)

def unroll (least : Nat) (lexer : Lexer) : Lexer :=
  if lexer.inFlow then lexer
  else
    let (tokens, indents) := unrollTo least lexer.tokens lexer.indents
    { lexer with tokens, indents }

/-- Starts a collection at a column that is indented further, after the first `position` tokens. -/
def roll (column : Nat) (token : Token) (position : Nat) (lexer : Lexer) : Lexer :=
  if !lexer.inFlow && lexer.leastColumn ≤ column then
    { lexer.emitAt position token with indents := column :: lexer.indents }
  else lexer

def rollHere (token : Token) (lexer : Lexer) : Except Fault Lexer :=
  if lexer.inFlow then .ok lexer
  else if lexer.keyAllowed then
    .ok (lexer.roll lexer.place.column token lexer.tokens.length)
  else .error .layout

/-- A mark that may stand at the start of a line and says nothing. -/
def byteOrderMark : Char := '\ufeff'

def skipBetween (inFlow : Bool) :
    (startsLine keyAllowed inComment : Bool) → List Char → Bool × List Char
  | _, keyAllowed, _, [] => (keyAllowed, [])
  | startsLine, keyAllowed, inComment, c :: rest =>
      if isBreak c then skipBetween inFlow true (keyAllowed || !inFlow) false rest
      else if inComment || c == ' ' || (c == '\t' && (inFlow || !keyAllowed)) ||
          (startsLine && c == byteOrderMark) then
        skipBetween inFlow false keyAllowed inComment rest
      else if c == '#' then skipBetween inFlow false keyAllowed true rest
      else (keyAllowed, c :: rest)

def skipToToken (lexer : Lexer) : Lexer :=
  let (keyAllowed, rest) :=
    skipBetween lexer.inFlow (lexer.place.column == 0) lexer.keyAllowed false lexer.rest
  { lexer.goTo rest with keyAllowed }

def closeAll (lexer : Lexer) : Except Fault Lexer := do
  let lexer ← (lexer.unroll 0).dropKey
  return { lexer with keyAllowed := false }

def takeDirective (lexer : Lexer) : Except Fault Lexer := do
  let lexer ← lexer.closeAll
  let (token, rest) ← Token.readDirective (lexer.rest.drop 1)
  return (lexer.goTo rest).emit token

def takeDocumentMark (token : Token) (lexer : Lexer) : Except Fault Lexer := do
  return ((← lexer.closeAll).skip 3).emit token

def openFlow (token : Token) (lexer : Lexer) : Except Fault Lexer := do
  let lexer ← lexer.saveKey
  return { (lexer.skip 1).emit token with
    key := none, outerKeys := lexer.key :: lexer.outerKeys, keyAllowed := true }

def closeFlow (token : Token) (lexer : Lexer) : Except Fault Lexer := do
  let lexer ← lexer.dropKey
  let closed := { (lexer.skip 1).emit token with keyAllowed := false }
  match lexer.outerKeys with
  | [] => return closed
  | key :: outerKeys => return { closed with key, outerKeys }

def takeFlowEntry (lexer : Lexer) : Except Fault Lexer := do
  let lexer ← lexer.dropKey
  return { (lexer.skip 1).emit .flowEntry with keyAllowed := true }

def takeBlockEntry (lexer : Lexer) : Except Fault Lexer := do
  let lexer ← (← lexer.rollHere .blockSequenceStart).dropKey
  return { (lexer.skip 1).emit .blockEntry with keyAllowed := true }

def takeKey (lexer : Lexer) : Except Fault Lexer := do
  let lexer ← (← lexer.rollHere .blockMappingStart).dropKey
  return { (lexer.skip 1).emit .key with keyAllowed := !lexer.inFlow }

def takeValue (lexer : Lexer) : Except Fault Lexer :=
  match lexer.key with
  | some key =>
      let keyed := (lexer.emitAt key.position .key).roll key.place.column .blockMappingStart
        key.position
      .ok { (keyed.skip 1).emit .value with key := none, keyAllowed := false }
  | none => do
      let lexer ← lexer.rollHere .blockMappingStart
      return { (lexer.skip 1).emit .value with keyAllowed := !lexer.inFlow }

def takeAnchor (lexer : Lexer) : Except Fault Lexer := do
  let lexer ← lexer.saveKey
  let (name, rest) ← Token.readName (lexer.rest.drop 1)
  let token := if lexer.rest.head? == some '*' then .aliased name else .anchor name
  return { (lexer.goTo rest).emit token with keyAllowed := false }

def takeTag (lexer : Lexer) : Except Fault Lexer := do
  let lexer ← lexer.saveKey
  let (token, rest) ← Token.readTag lexer.inFlow lexer.rest
  return { (lexer.goTo rest).emit token with keyAllowed := false }

def takeQuoted (isDouble : Bool) (lexer : Lexer) : Except Fault Lexer := do
  let lexer ← lexer.saveKey
  let (text, rest) ← Quoted.read isDouble (lexer.rest.drop 1)
  return { (lexer.goTo rest).emit (.scalar false text) with keyAllowed := false }

def takePlain (lexer : Lexer) : Except Fault Lexer := do
  let lexer ← lexer.saveKey
  let plain ← Plain.readFrom lexer.inFlow lexer.leastColumn lexer.place.column .none [] lexer.rest
  return { (lexer.goTo plain.rest).emit (.scalar true plain.text) with
    keyAllowed := plain.endsLine }

def takeBlock (isFolded : Bool) (lexer : Lexer) : Except Fault Lexer := do
  let lexer ← lexer.dropKey
  let (text, rest) ← Block.read isFolded lexer.leastColumn (lexer.rest.drop 1)
  return { (lexer.goTo rest).emit (.scalar false text) with keyAllowed := true }

def takeToken (c : Char) (lexer : Lexer) : Except Fault Lexer :=
  let after := lexer.rest.drop 1
  let isMark := lexer.inFlow || endsWord after
  if lexer.place.column == 0 && c == '%' then lexer.takeDirective
  else if lexer.place.column == 0 && isDocumentMark lexer.rest then
    lexer.takeDocumentMark (if c == '-' then .documentStart else .documentEnd)
  else if c == '[' then lexer.openFlow .flowSequenceStart
  else if c == '\x7b' then lexer.openFlow .flowMappingStart
  else if c == ']' then lexer.closeFlow .flowSequenceEnd
  else if c == '\x7d' then lexer.closeFlow .flowMappingEnd
  else if c == ',' then lexer.takeFlowEntry
  else if c == '-' && endsWord after then lexer.takeBlockEntry
  else if c == '?' && isMark then lexer.takeKey
  else if c == ':' && isMark then lexer.takeValue
  else if c == '*' || c == '&' then lexer.takeAnchor
  else if c == '!' then lexer.takeTag
  else if c == '|' && !lexer.inFlow then lexer.takeBlock false
  else if c == '>' && !lexer.inFlow then lexer.takeBlock true
  else if c == Quoted.singleQuote then lexer.takeQuoted false
  else if c == '"' then lexer.takeQuoted true
  else if Plain.starts lexer.inFlow lexer.rest then lexer.takePlain
  else .error .token

/-- Takes up to `fuel` tokens. Every one of them takes a character at least. -/
def run : (fuel : Nat) → Lexer → Except Fault (List Token)
  | 0, _ => .error .size
  | fuel + 1, lexer => do
      let lexer ← lexer.skipToToken.expireKeys
      match lexer.rest with
      | [] => return (← lexer.closeAll).tokens.reverse
      | c :: _ => run fuel (← (lexer.unroll (lexer.place.column + 1)).takeToken c)

end Lexer

def Token.ofText (text : List Char) : Except Fault (List Token) :=
  if text.all isAllowed then
    let text := unifyBreaks text
    (Lexer.ofText text).run (text.length + 1)
  else .error .character

end Yaml

end MoteCapture

import MoteCapture.Options.Value
import MoteCapture.Text.Basic
import MoteCapture.Yaml.Source

/-!
What scalars without quotes stand for: nothing, a truth value, a number or a text. A number that starts
with a zero and has more digits is a text.

Texts are written so that they are read back as texts. One of several lines is written line by line;
others stand without quotes if they can, between single quotes otherwise, and between double quotes if
something has to be escaped.
-/

namespace MoteCapture

namespace Yaml

open Text

namespace Schema

def readNull? (text : String) : Option Unit :=
  if ["null", "Null", "NULL", "~"].contains text then some () else none

def readBool? (text : String) : Option Bool :=
  if ["true", "True", "TRUE"].contains text then some true
  else if ["false", "False", "FALSE"].contains text then some false
  else none

def base? (c : Char) : Option Nat :=
  match c with
  | 'x' => some 16
  | 'o' => some 8
  | 'b' => some 2
  | _ => none

def readBase? (base : Nat) (text : List Char) : Option Nat :=
  let isDigit := fun c => Hexadecimal.isDigit c && Hexadecimal.digitValue c < base
  if !text.isEmpty && text.all isDigit then
    some (text.foldl (fun value c => base * value + Hexadecimal.digitValue c) 0)
  else none

def readBased? : List Char → Option Nat
  | '0' :: letter :: rest =>
      match base? letter with
      | some base => readBase? base rest
      | none => none
  | _ => none

def hasLeadingZero : List Char → Bool
  | '0' :: rest => Numeral.isDigits rest
  | _ => false

def readMagnitude? (text : List Char) : Option Nat :=
  match readBased? text with
  | some n => some n
  | none => if hasLeadingZero text then none else Numeral.readDigits? text

def unsigned? (n : Nat) : Option Scalar :=
  if n < UInt64.size then some (.unsigned n)
  else if n < Nat.pow 2 128 then some (.long n "u128")
  else none

def negated? (n : Nat) : Option Scalar :=
  if n ≤ UInt64.size / 2 then some (.signed (-n))
  else if n ≤ Nat.pow 2 127 then some (.long (-n) "i128")
  else none

def readWhole? : List Char → Option Scalar
  | '+' :: text => (readMagnitude? text).bind unsigned?
  | '-' :: text => (readMagnitude? text).bind negated?
  | text => (readMagnitude? text).bind unsigned?

def infinity? (text : List Char) : Bool :=
  [".inf", ".Inf", ".INF"].contains (String.ofList text)

def readFinite? (text : List Char) : Option Binary64 :=
  match Binary64.read? text with
  | some x => if x.isFinite then some x else none
  | none => none

def readFloat? (text : List Char) : Option Binary64 :=
  if [".nan", ".NaN", ".NAN"].contains (String.ofList text) then some .notANumber
  else
    match text with
    | '+' :: rest =>
        if rest.head? == some '+' || rest.head? == some '-' then none
        else if infinity? rest then some (.infinite false)
        else readFinite? rest
    | '-' :: rest => if infinity? rest then some (.infinite true) else readFinite? text
    | _ => if infinity? text then some (.infinite false) else readFinite? text

def isPaddedNumber : List Char → Bool
  | '+' :: text => hasLeadingZero text
  | '-' :: text => hasLeadingZero text
  | text => hasLeadingZero text

def resolve (text : List Char) : Scalar :=
  let whole := String.ofList text
  if text.isEmpty || (readNull? whole).isSome then .unit
  else
    match readBool? whole with
    | some b => .bool b
    | none =>
        match readWhole? text with
        | some scalar => scalar
        | none =>
            match if isPaddedNumber text then none else readFloat? text with
            | some x => .float x
            | none => .text whole

/-- The scalar that a tag asks for; `none` if the text is of another kind. A tag that is not known
asks for text. -/
def resolveAs (tag : Tag) (text : List Char) : Option Scalar :=
  let whole := String.ofList text
  if tag == Tag.standard "bool" then (readBool? whole).map .bool
  else if tag == Tag.standard "int" then readWhole? text
  else if tag == Tag.standard "float" then (readFloat? text).map .float
  else if tag == Tag.standard "null" then (readNull? whole).map fun _ => .unit
  else some (.text whole)

end Schema

inductive Style where
  | plain
  | single
  | double
  | lines
  deriving DecidableEq, Repr

namespace Style

def isPrintable (c : Char) : Bool :=
  let n := c.toNat
  n == 0x0A || (0x20 ≤ n && n ≤ 0x7E) || (0xA0 ≤ n && n != 0xFEFF && n != 0xFFFE && n != 0xFFFF)

def hasPair (p q : Char → Bool) : List Char → Bool
  | a :: b :: rest => (p a && q b) || hasPair p q (b :: rest)
  | _ => false

def isSpace (c : Char) : Bool :=
  c == ' '

/-- Whether something in the text has to be escaped, or blanks would be lost before a break. -/
def needsEscapes (text : List Char) : Bool :=
  text.any (fun c => !isPrintable c) || hasPair isSpace isBreak text

def startsWithMark : List Char → Bool
  | '-' :: '-' :: '-' :: _ => true
  | '.' :: '.' :: '.' :: _ => true
  | c :: rest =>
      ((c == '?' || c == '-') && endsWord rest) || c == '#' || c == ',' || c == '[' || c == ']' ||
        c == '\x7b' || c == '\x7d' || c == '&' || c == '*' || c == '!' || c == '|' || c == '>' ||
        c == '\x27' || c == '"' || c == '%' || c == '@' || c == '\x60'
  | [] => false

def hasMark (afterBlank : Bool) : List Char → Bool
  | [] => false
  | c :: rest =>
      (c == ':' && endsWord rest) || (c == '#' && afterBlank) ||
        hasMark (isBlank c || isBreak c) rest

def hasBareEnd (text : List Char) : Bool :=
  [text.head?, text.getLast?].any fun c => c.any fun c => isSpace c || isBreak c

def canBePlain (text : List Char) : Bool :=
  !(needsEscapes text || text.any isBreak || hasBareEnd text || startsWithMark text ||
    hasMark true text)

def isReadAsText (text : List Char) : Bool :=
  match Schema.resolve text with
  | .text _ => !Schema.isPaddedNumber text
  | _ => false

def ofText (text : List Char) : Style :=
  if text.contains '\n' then
    if needsEscapes text || text.getLast? == some ' ' then .double else .lines
  else if isReadAsText text && canBePlain text then .plain
  else if needsEscapes text || hasPair isBreak isSpace text then .double
  else .single

/-! Writing. -/

def escapeLetter? (c : Char) : Option Char :=
  match c with
  | '\x00' => some '0'
  | '\x07' => some 'a'
  | '\x08' => some 'b'
  | '\t' => some 't'
  | '\n' => some 'n'
  | '\x0b' => some 'v'
  | '\x0c' => some 'f'
  | '\r' => some 'r'
  | '\x1b' => some 'e'
  | '"' => some '"'
  | '\\' => some '\\'
  | '\x85' => some 'N'
  | '\u2028' => some 'L'
  | '\u2029' => some 'P'
  | _ => none

def hexDigits (n : Nat) : (width : Nat) → List Char
  | 0 => []
  | width + 1 => hexDigits (n / 16) width ++ [(Nat.digitChar (n % 16)).toUpper]

def escapeCode (n : Nat) : List Char :=
  if n ≤ 0xFF then 'x' :: hexDigits n 2
  else if n ≤ 0xFFFF then 'u' :: hexDigits n 4
  else 'U' :: hexDigits n 8

def escape (c : Char) : List Char :=
  if isPrintable c && !isBreak c && c != '"' && c != '\\' then [c]
  else
    match escapeLetter? c with
    | some letter => ['\\', letter]
    | none => '\\' :: escapeCode c.toNat

def writeDouble (text : List Char) : List Char :=
  '"' :: (text.flatMap escape ++ ['"'])

def writeSingleFrom (indent : List Char) (afterBreak : Bool) : List Char → List Char
  | [] => (if afterBreak then indent else []) ++ ['\x27']
  | c :: rest =>
      if isBreak c then c :: writeSingleFrom indent true rest
      else
        (if afterBreak then indent else []) ++ (if c == '\x27' then ['\x27'] else []) ++
          c :: writeSingleFrom indent false rest

def writeSingle (indent text : List Char) : List Char :=
  '\x27' :: writeSingleFrom indent false text

/-- What is said in front of lines: by how much they are indented, if the first one does not show
it, and what happens to the line breaks at the end. -/
def linesHeader (text : List Char) : List Char :=
  let step := if text.head?.any fun c => isSpace c || isBreak c then ['2'] else []
  let chomp := match text.reverse with
    | [] => ['-']
    | [last] => if isBreak last then ['+'] else ['-']
    | last :: before :: _ =>
        if !isBreak last then ['-'] else if isBreak before then ['+'] else []
  '|' :: (step ++ chomp)

def writeLinesFrom (indent : List Char) (atStart : Bool) : List Char → List Char
  | [] => if atStart then [] else ['\n']
  | c :: rest =>
      if isBreak c then c :: writeLinesFrom indent true rest
      else (if atStart then indent else []) ++ c :: writeLinesFrom indent false rest

def write (indent text : List Char) : List Char :=
  match ofText text with
  | .plain => text ++ ['\n']
  | .single => writeSingle indent text ++ ['\n']
  | .double => writeDouble text ++ ['\n']
  | .lines => linesHeader text ++ '\n' :: writeLinesFrom indent true text

end Style

end Yaml

end MoteCapture

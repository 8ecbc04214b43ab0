import MoteCapture.Text.Basic
import MoteCapture.Yaml.Source

/-!
Scalars. One without quotes ends before a comment, before a colon that ends a word, before the marks of
collections in flow style if it stands in one, and otherwise before a line that is not indented enough.
Between single quotes only the quote itself has to be written in another way, twice; between double quotes
a backslash starts an escape, which may also hide a line break.

Scalars that are made of indented lines keep their breaks, or are folded: a line feed between two lines
that do not start with a blank becomes a space. What happens to the line breaks at the end is said in
front: all are kept, one of them is, or none.
-/

namespace MoteCapture

namespace Yaml

inductive Gap where
  | none
  | blanks (text : List Char)
  /-- The first line break, unless it is escaped, and those after it. -/
  | breaks (first : Option Char) (others : List Char)
  deriving DecidableEq, Repr

namespace Gap

def text : Gap → List Char
  | .none => []
  | .blanks text => text
  | .breaks .none others => others
  | .breaks (some first) others =>
      if first == '\n' then (if others.isEmpty then [' '] else others) else first :: others

def withBlank (c : Char) : Gap → Gap
  | .none => .blanks [c]
  | .blanks text => .blanks (text ++ [c])
  | .breaks first others => .breaks first others

def withBreak (c : Char) : Gap → Gap
  | .breaks first others => .breaks first (others ++ [c])
  | _ => .breaks (some c) []

def hasBreak : Gap → Bool
  | .breaks .. => true
  | _ => false

def push (gap : Gap) (c : Char) (text : List Char) : List Char :=
  c :: (gap.text.reverse ++ text)

end Gap

structure Plain where
  text : List Char
  endsLine : Bool
  rest : List Char

namespace Plain

def isFlowMark (c : Char) : Bool :=
  c == ',' || c == '[' || c == ']' || c == '\x7b' || c == '\x7d'

def isMisplacedColon : List Char → Bool
  | ':' :: c :: _ => isFlowMark c || c == '?'
  | _ => false

def stops (inFlow : Bool) : List Char → Bool
  | [] => true
  | c :: rest => (c == ':' && endsWord rest) || (inFlow && isFlowMark c)

def stopsAfterGap (inFlow : Bool) (indent column : Nat) (text : List Char) : Bool :=
  (!inFlow && column < indent) || (column == 0 && isDocumentMark text) || text.head? == some '#'

/-- Reads on; `column` is that of the next character, `text` what was read so far, backwards. -/
def readFrom (inFlow : Bool) (indent : Nat) :
    (column : Nat) → (gap : Gap) → (text : List Char) → List Char → Except Fault Plain
  | _, gap, text, [] => .ok ⟨text.reverse, gap.hasBreak, []⟩
  | column, gap, text, c :: rest =>
      if isBlank c then
        if gap.hasBreak && column < indent && c == '\t' then .error .layout
        else readFrom inFlow indent (column + 1) (gap.withBlank c) text rest
      else if isBreak c then readFrom inFlow indent 0 (gap.withBreak c) text rest
      else if gap != .none && stopsAfterGap inFlow indent column (c :: rest) then
        .ok ⟨text.reverse, gap.hasBreak, c :: rest⟩
      else if inFlow && isMisplacedColon (c :: rest) then .error .token
      else if stops inFlow (c :: rest) then .ok ⟨text.reverse, gap.hasBreak, c :: rest⟩
      else readFrom inFlow indent (column + 1) .none (gap.push c text) rest

def starts (inFlow : Bool) : List Char → Bool
  | [] => false
  | c :: rest =>
      if c == '-' then !endsWord rest
      else if c == '?' || c == ':' then !inFlow && !endsWord rest
      else
        !(isBlank c || isBreak c || isFlowMark c || c == '#' || c == '&' || c == '*' || c == '!' ||
          c == '|' || c == '>' || c == '\x27' || c == '"' || c == '%' || c == '@' || c == '\x60')

end Plain

namespace Quoted

def singleQuote : Char := '\x27'

def shortEscape? (c : Char) : Option Char :=
  match c with
  | '0' => some '\x00'
  | 'a' => some '\x07'
  | 'b' => some '\x08'
  | 't' => some '\t'
  | '\t' => some '\t'
  | 'n' => some '\n'
  | 'v' => some '\x0b'
  | 'f' => some '\x0c'
  | 'r' => some '\r'
  | 'e' => some '\x1b'
  | ' ' => some ' '
  | '"' => some '"'
  | '/' => some '/'
  | '\\' => some '\\'
  | 'N' => some '\x85'
  | '_' => some '\xa0'
  | 'L' => some '\u2028'
  | 'P' => some '\u2029'
  | _ => none

def codeLength? (c : Char) : Option Nat :=
  match c with
  | 'x' => some 2
  | 'u' => some 4
  | 'U' => some 8
  | _ => none

def escape? (letter : Char) (rest : List Char) : Option (Char × Nat) :=
  match shortEscape? letter with
  | some c => some (c, 0)
  | none =>
      match codeLength? letter with
      | none => none
      | some length =>
          match Text.Hexadecimal.read? (rest.take length) with
          | some n =>
              if length ≤ rest.length && n.isValidChar then some (Char.ofNat n, length) else none
          | none => none

/-- Reads up to the closing quote, from the text after the opening one. `atLineStart` tells whether
the next character starts a line; `text` is what was read so far, backwards. -/
def readFrom (isDouble : Bool) (atLineStart : Bool) (gap : Gap) (text : List Char)
    (source : List Char) : Except Fault (List Char × List Char) :=
  match source with
  | [] => .error .token
  | c :: rest =>
      if isBlank c then readFrom isDouble false (gap.withBlank c) text rest
      else if isBreak c then readFrom isDouble true (gap.withBreak c) text rest
      else if atLineStart && isDocumentMark (c :: rest) then .error .token
      else if isDouble then
        if c == '"' then .ok ((gap.text.reverse ++ text).reverse, rest)
        else if c == '\\' then
          match rest with
          | [] => .error .token
          | letter :: after =>
              if isBreak letter then
                readFrom isDouble true (.breaks none []) (gap.text.reverse ++ text) after
              else
                match escape? letter after with
                | none => .error .token
                | some (c, length) =>
                    readFrom isDouble false .none (gap.push c text) (after.drop length)
        else readFrom isDouble false .none (gap.push c text) rest
      else if c == singleQuote then
        match rest with
        | [] => .ok ((gap.text.reverse ++ text).reverse, [])
        | other :: after =>
            if other == singleQuote then
              readFrom isDouble false .none (gap.push singleQuote text) after
            else .ok ((gap.text.reverse ++ text).reverse, other :: after)
      else readFrom isDouble false .none (gap.push c text) rest
termination_by source.length
decreasing_by all_goals (simp +arith [List.length_drop])

def read (isDouble : Bool) (source : List Char) : Except Fault (List Char × List Char) :=
  readFrom isDouble false .none [] source

end Quoted

inductive Chomp where
  | strip
  | clip
  | keep
  deriving DecidableEq, Repr

namespace Block

structure Header where
  chomp : Chomp
  /-- By how much the lines are indented; it is the first line that shows it otherwise. -/
  step : Option Nat

def chomp? (c : Char) : Option Chomp :=
  if c == '+' then some .keep else if c == '-' then some .strip else none

def isStep (c : Char) : Bool :=
  '1' ≤ c && c ≤ '9'

def readHeader (source : List Char) : Except Fault (Header × List Char) :=
  let step (c : Char) : Option Nat := some (Text.Numeral.digitValue c)
  match source with
  | [] => .ok (⟨.clip, none⟩, [])
  | a :: rest =>
      match chomp? a, rest with
      | some chomp, b :: after =>
          if isStep b then .ok (⟨chomp, step b⟩, after)
          else if b == '0' then .error .layout
          else .ok (⟨chomp, none⟩, rest)
      | some chomp, [] => .ok (⟨chomp, none⟩, [])
      | none, b :: after =>
          if isStep a then
            match chomp? b with
            | some chomp => .ok (⟨chomp, step a⟩, after)
            | none => .ok (⟨.clip, step a⟩, rest)
          else if a == '0' then .error .layout
          else .ok (⟨.clip, none⟩, source)
      | none, [] =>
          if isStep a then .ok (⟨.clip, step a⟩, [])
          else if a == '0' then .error .layout
          else .ok (⟨.clip, none⟩, source)

structure Lines where
  indent : Option Nat
  /-- The widest column that was reached before it was known. -/
  widest : Nat
  column : Nat
  inLine : Bool
  text : List Char
  leading : List Char
  trailing : List Char
  afterBlank : Bool

namespace Lines

def joined (isFolded : Bool) (c : Char) (lines : Lines) : List Char :=
  let first :=
    if isFolded && lines.leading == ['\n'] && !lines.afterBlank && !isBlank c then
      (if lines.trailing.isEmpty then [' '] else [])
    else lines.leading
  lines.trailing.reverse ++ first ++ lines.text

def start (isFolded : Bool) (c : Char) (lines : Lines) : Lines :=
  { lines with
    inLine := true
    text := c :: lines.joined isFolded c
    leading := []
    trailing := []
    afterBlank := isBlank c }

def settled (least : Nat) (lines : Lines) : Nat :=
  lines.indent.getD (max lines.widest (max lines.column least))

def isIndenting (lines : Lines) : Bool :=
  match lines.indent with
  | some indent => lines.column < indent
  | none => true

def finish (chomp : Chomp) (lines : Lines) : List Char :=
  let body := lines.text.reverse
  match chomp with
  | .strip => body
  | .clip => body ++ lines.leading
  | .keep => body ++ lines.leading ++ lines.trailing

def readFrom (isFolded : Bool) (least : Nat) (lines : Lines) :
    List Char → Except Fault (Lines × List Char)
  | [] => .ok (lines, [])
  | c :: rest =>
      if lines.inLine then
        if isBreak c then
          readFrom isFolded least { lines with inLine := false, column := 0, leading := [c] } rest
        else readFrom isFolded least { lines with text := c :: lines.text } rest
      else if lines.isIndenting && c == ' ' then
        readFrom isFolded least { lines with column := lines.column + 1 } rest
      else if lines.isIndenting && c == '\t' then .error .layout
      else if isBreak c then
        readFrom isFolded least
          { lines with
            widest := max lines.widest lines.column
            column := 0
            trailing := lines.trailing ++ [c] } rest
      else
        let indent := lines.settled least
        if lines.column == indent then
          readFrom isFolded least { lines.start isFolded c with indent := some indent } rest
        else .ok (lines, c :: rest)

end Lines

/-- Reads a scalar from the text after its mark. `least` is the column after the one at which the
collection around it starts. -/
def read (isFolded : Bool) (least : Nat) (source : List Char) :
    Except Fault (List Char × List Char) := do
  let (header, afterHeader) ← readHeader source
  let body ← skipToNextLine afterHeader
  let lines : Lines :=
    { indent := header.step.map fun step => least - 1 + step
      widest := 0, column := 0, inLine := false, text := [], leading := [], trailing := []
      afterBlank := false }
  let (lines, rest) ← lines.readFrom isFolded (max least 1) body
  return (lines.finish header.chomp, rest)

end Block

end Yaml

end MoteCapture

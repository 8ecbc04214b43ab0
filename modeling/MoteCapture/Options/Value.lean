import MoteCapture.Numeric.Binary64
import MoteCapture.Text.Basic
import MoteCapture.Text.Quoted

/-!
Values as they are read from a file or the environment, before it is known what they are for. Every value
remembers where it was read. A map lists its entries in the order of their keys.

The name of an environment variable says where its value belongs, with two underscores between the keys;
the case of names does not count. Values are written in a small notation: truth values and numbers, texts
with or without quotes, lists in brackets and maps in braces. What does not fit it is a text as it is.
-/

namespace MoteCapture

inductive Origin where
  | file (path : String)
  | environment
  | direct
  deriving DecidableEq, Repr

inductive Scalar where
  | unit
  | bool (b : Bool)
  | unsigned (n : Nat)
  | signed (n : Int)
  /-- A longer number, with the name of a width that holds it. -/
  | long (n : Int) (width : String)
  | float (x : Binary64)
  | letter (c : Char)
  | text (s : String)
  deriving DecidableEq, Repr

inductive Value where
  | scalar (origin : Origin) (content : Scalar)
  | list (origin : Origin) (items : List Value)
  | map (origin : Origin) (entries : List (String × Value))

instance : Inhabited Value := ⟨.scalar .direct .unit⟩

namespace Value

def origin : Value → Origin
  | .scalar origin _ => origin
  | .list origin _ => origin
  | .map origin _ => origin

def describeScalar : Scalar → String
  | .unit => "unit"
  | .bool b => "bool " ++ (if b then "true" else "false")
  | .unsigned n => "unsigned int `" ++ toString n ++ "`"
  | .signed n => "signed int `" ++ toString n ++ "`"
  | .long n width => "integer `" ++ toString n ++ "` as " ++ width
  | .float x => "float `" ++ x.write ++ "`"
  | .letter c => "string " ++ Text.Quoted.quote (String.ofList [c])
  | .text s => "string " ++ Text.Quoted.quote s

def describe : Value → String
  | .scalar _ content => describeScalar content
  | .list .. => "sequence"
  | .map .. => "map"

def setEntry (key : String) (value : Value) : List (String × Value) → List (String × Value)
  | [] => [(key, value)]
  | entry :: rest =>
      if key < entry.1 then (key, value) :: entry :: rest
      else if key == entry.1 then (key, value) :: rest
      else entry :: setEntry key value rest

/-- A map of entries, of which a later one with the same key counts. -/
def ofEntries (origin : Origin) (entries : List (String × Value)) : Value :=
  .map origin (entries.foldl (fun sorted entry => setEntry entry.1 entry.2 sorted) [])

mutual

/-- Lays a value over another one. Maps are joined key by key; anything else is replaced. -/
def overlay (high low : Value) : Value :=
  match high, low with
  | .map origin highs, .map _ lows => .map origin (entriesOver highs lows)
  | _, _ => high
termination_by sizeOf high

def entriesOver (highs lows : List (String × Value)) : List (String × Value) :=
  match highs with
  | [] => lows
  | (key, value) :: rest =>
      entriesOver rest
        (setEntry key
          (match lows.lookup key with
            | some old => overlay value old
            | none => value)
          lows)
termination_by sizeOf highs

end

mutual

def relocate (origin : Origin) : Value → Value
  | .scalar _ content => .scalar origin content
  | .list _ items => .list origin (relocateItems origin items)
  | .map _ entries => .map origin (relocateEntries origin entries)

def relocateItems (origin : Origin) : List Value → List Value
  | [] => []
  | item :: rest => item.relocate origin :: relocateItems origin rest

def relocateEntries (origin : Origin) : List (String × Value) → List (String × Value)
  | [] => []
  | (key, value) :: rest => (key, value.relocate origin) :: relocateEntries origin rest

end

def nest (origin : Origin) (keys : List String) (value : Value) : Value :=
  keys.foldr (fun key inner => .map origin [(key, inner)]) value

end Value

open Text

namespace Environment

/-! The notation of values. -/

/-- The blanks of ASCII, of which the vertical tab is none. -/
def isSpace (c : Char) : Bool :=
  c == ' ' || c == '\t' || c == '\n' || c == '\x0c' || c == '\r'

def skipSpaces (text : List Char) : List Char :=
  text.dropWhile isSpace

def isSeparator (c : Char) : Bool :=
  c == ',' || c == '\x7b' || c == '\x7d' || c == '[' || c == ']'

def isKeyChar (c : Char) : Bool :=
  c.isAlphanum || c == '_' || c == '-'

def shortEscape? (c : Char) : Option Char :=
  match c with
  | '"' => some '"'
  | '\\' => some '\\'
  | 'b' => some '\x08'
  | 'f' => some '\x0c'
  | 'n' => some '\n'
  | 'r' => some '\r'
  | 't' => some '\t'
  | _ => none

def codeLength? (c : Char) : Option Nat :=
  if c == 'u' then some 4 else if c == 'U' then some 8 else none

def escape? (letter : Char) (rest : List Char) : Option (Char × Nat) :=
  match shortEscape? letter, codeLength? letter with
  | some c, _ => some (c, 0)
  | none, none => none
  | none, some length =>
      match Hexadecimal.read? (rest.take length) with
      | some n =>
          if length ≤ rest.length && n.isValidChar then some (Char.ofNat n, length) else none
      | none => none

def readEscaped? (text : List Char) : Option (List Char × List Char) :=
  match text with
  | [] => none
  | '"' :: rest => some ([], rest)
  | '\\' :: letter :: rest =>
      match escape? letter rest with
      | none => none
      | some (c, length) =>
          (readEscaped? (rest.drop length)).map fun read => (c :: read.1, read.2)
  | c :: rest =>
      if (c.toNat < 0x20 && c != '\t') || c == '\x7f' || c == '\\' then none
      else (readEscaped? rest).map fun read => (c :: read.1, read.2)
termination_by text.length
decreasing_by all_goals (simp +arith [List.length_drop])

/-- Reads a text up to its closing quote. If it has escapes, what stands before the first one is cut
to as many bytes as it has characters; in ASCII this is all of it. -/
def readQuoted? (text : List Char) : Option (List Char × List Char) :=
  let start := text.takeWhile fun c => c != '"' && c != '\\'
  let rest := text.drop start.length
  match readEscaped? text with
  | some (whole, after) =>
      if rest.head? == some '\\' then
        some (takeBytes start.length start ++ whole.drop start.length, after)
      else some (whole, after)
  | none => none

def readSigned? : List Char → Option Int
  | '-' :: text =>
      match Numeral.readDigits? text with
      | some n => if n ≤ UInt64.size / 2 then some (-n) else none
      | none => none
  | _ => none

/-- What a text without quotes stands for. Only a text with a point is read as a float. -/
def resolve (text : List Char) : Scalar :=
  match if text.contains '.' then Binary64.read? text else none with
  | some x => .float x
  | none =>
      match Numeral.readUInt64? text with
      | some n => .unsigned n.toNat
      | none =>
          match readSigned? text with
          | some n => .signed n
          | none => .text (String.ofList text)

def readKey? (text : List Char) : Option (String × List Char) :=
  let start := skipSpaces text
  let read := match start with
    | '"' :: rest => readQuoted? rest
    | _ =>
        let name := start.takeWhile isKeyChar
        if name.isEmpty then none else some (name, start.dropWhile isKeyChar)
  match read with
  | some (name, rest) =>
      match skipSpaces rest with
      | '=' :: rest => some (String.ofList name, rest)
      | _ => none
  | none => none

def readScalar? (text : List Char) : Option (Scalar × List Char) :=
  match dropLead? "true".toList text with
  | some rest => some (.bool true, rest)
  | none =>
      match dropLead? "false".toList text with
      | some rest => some (.bool false, rest)
      | none =>
          match text with
          | '"' :: rest =>
              (readQuoted? rest).map fun read => (.text (String.ofList read.1), read.2)
          | '\x27' :: c :: '\x27' :: rest => some (.letter c, rest)
          | '\x27' :: _ => none
          | _ =>
              some (resolve (trim (text.takeWhile fun c => !isSeparator c)),
                text.dropWhile fun c => !isSeparator c)

mutual

def readValue? : (fuel : Nat) → List Char → Option (Value × List Char)
  | 0, _ => none
  | fuel + 1, text => do
      let (value, rest) ← match skipSpaces text with
        | '[' :: rest =>
            (readItems? fuel rest).map fun read => (Value.list .environment read.1, read.2)
        | '\x7b' :: rest =>
            (readFields? fuel rest).map fun read => (Value.ofEntries .environment read.1, read.2)
        | start =>
            (readScalar? start).map fun read => (Value.scalar .environment read.1, read.2)
      return (value, skipSpaces rest)

def readItems? : (fuel : Nat) → List Char → Option (List Value × List Char)
  | 0, _ => none
  | _ + 1, ']' :: rest => some ([], rest)
  | fuel + 1, text => do
      let (item, rest) ← readValue? fuel text
      match rest with
      | ',' :: rest => (readItems? fuel rest).map fun read => (item :: read.1, read.2)
      | ']' :: rest => some ([item], rest)
      | _ => none

def readFields? : (fuel : Nat) → List Char → Option (List (String × Value) × List Char)
  | 0, _ => none
  | _ + 1, '\x7d' :: rest => some ([], rest)
  | fuel + 1, text => do
      let (key, rest) ← readKey? text
      let (value, rest) ← readValue? fuel rest
      match rest with
      | ',' :: rest => (readFields? fuel rest).map fun read => ((key, value) :: read.1, read.2)
      | '\x7d' :: rest => some ([(key, value)], rest)
      | _ => none

end

def readText (text : String) : Value :=
  match readValue? (2 * text.toList.length + 2) text.toList with
  | some (value, []) => value
  | _ => .scalar .environment (.text text)

def lead : List Char :=
  "SENSELOG_".toList

def dropLeadCaseless? : List Char → List Char → Option (List Char)
  | [], text => some text
  | _ :: _, [] => none
  | l :: lead, c :: text =>
      if l.toLower == c.toLower then dropLeadCaseless? lead text else none

def keys? (name : String) : Option (List String) :=
  match dropLeadCaseless? lead (trim name.toList) with
  | none => none
  | some rest =>
      let path := substitute ['_', '_'] ['.'] rest
      if (splitAll '.' path).any List.isEmpty then none
      else some ((splitAll '.' ((trim path).map Char.toLower)).map String.ofList)

/-- The value of all variables. A later one lies over those before it. -/
def value (vars : List (String × String)) : Value :=
  vars.foldl
    (fun low entry =>
      match keys? entry.1 with
      | some keys => Value.overlay (Value.nest .environment keys (readText entry.2)) low
      | none => low)
    (.map .environment [])

end Environment

end MoteCapture

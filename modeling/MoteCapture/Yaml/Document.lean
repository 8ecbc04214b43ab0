import MoteCapture.Text.Basic
import MoteCapture.Yaml.Schema
import MoteCapture.Yaml.Source
import MoteCapture.Yaml.Token

/-!
The nodes of a document, how they are made up of tokens, and the value of the document. It has to be a
map; an empty document is one without entries. Aliases are replaced by what they stand for, up to a limit,
and the keys of maps are texts as they are written. A value with a document's own tag stands under the
keys that the tag is for. A map below the root may be a wrapping: it stands for the value under one of its
keys, and may say with a number that the value was read elsewhere.
-/

namespace MoteCapture

namespace Yaml

structure Properties where
  anchor : Option Nat
  tag : Option Tag

namespace Properties

def none : Properties := ⟨.none, .none⟩

def isNone (properties : Properties) : Bool :=
  properties.anchor.isNone && properties.tag.isNone

end Properties

inductive Node where
  | scalar (properties : Properties) (isPlain : Bool) (text : List Char)
  | list (properties : Properties) (items : List Node)
  | map (properties : Properties) (entries : List (Node × Node))
  | aliased (anchor : Nat)

namespace Node

def empty : Node := .scalar .none true []

structure Reading where
  tokens : List Token
  anchors : List (List Char × Nat)
  handles : List (List Char × Tag)

abbrev Reader := StateT Reading (Except Fault)

namespace Reader

def peek : Reader (Option Token) := do
  return (← get).tokens.head?

def advance : Reader Unit :=
  modify fun reading => { reading with tokens := reading.tokens.drop 1 }

def isNext (tokens : List Token) : Reader Bool := do
  match ← peek with
  | some token => return tokens.contains token
  | none => return false

def expect (token : Token) : Reader Unit := do
  if ← isNext [token] then advance else throw .shape

/-- Numbers an anchor by how many names were met before. A name that is met again gets a new
number, and loses its old one. -/
def register (name : List Char) : Reader Nat := do
  let reading ← get
  let number := reading.anchors.length
  let others := reading.anchors.filter fun entry => entry.1 != name
  set { reading with anchors := (name, number) :: others }
  return number

def fullTag (handle : List Char) (suffix : Tag) : Reader Tag := do
  if handle.isEmpty then return suffix
  else
    match (← get).handles.lookup handle with
    | some stem => return stem ++ suffix
    | none => throw .tag

def anchor? : Reader (Option Nat) := do
  match ← peek with
  | some (.anchor name) => advance; return some (← register name)
  | _ => return none

def tag? : Reader (Option Tag) := do
  match ← peek with
  | some (.tag handle suffix) => advance; return some (← fullTag handle suffix)
  | _ => return none

def properties : Reader Properties := do
  match ← anchor? with
  | some anchor => return ⟨some anchor, ← tag?⟩
  | none =>
      match ← tag? with
      | some tag => return ⟨← anchor?, some tag⟩
      | none => return .none

def aliased (name : List Char) : Reader Node := do
  match (← get).anchors.lookup name with
  | some anchor => return .aliased anchor
  | none => throw .unknownAnchor

mutual

/-- A node. Collections in block style are possible only outside of those in flow style; the items
of a list may stand without a start if `isIndentless`. -/
def node : (fuel : Nat) → (inBlock isIndentless : Bool) → Reader Node
  | 0, _, _ => throw .size
  | fuel + 1, inBlock, isIndentless => do
      match ← peek with
      | some (.aliased name) => advance; aliased name
      | _ =>
          let properties ← properties
          match ← peek with
          | some (.scalar isPlain text) => advance; return .scalar properties isPlain text
          | some .flowSequenceStart =>
              advance
              return .list properties (← flowItems fuel true)
          | some .flowMappingStart =>
              advance
              return .map properties (← flowEntries fuel true)
          | some .blockEntry =>
              if isIndentless then return .list properties (← items fuel true)
              else emptyNode properties
          | some .blockSequenceStart =>
              if inBlock then
                advance
                return .list properties (← items fuel false)
              else emptyNode properties
          | some .blockMappingStart =>
              if inBlock then
                advance
                return .map properties (← entries fuel)
              else emptyNode properties
          | _ => emptyNode properties

def emptyNode (properties : Properties) : Reader Node :=
  if properties.isNone then throw .shape else return .scalar properties true []

def nodeBefore : (fuel : Nat) → (tokens : List Token) → (inBlock isIndentless : Bool) → Reader Node
  | 0, _, _, _ => throw .size
  | fuel + 1, tokens, inBlock, isIndentless => do
      if ← isNext tokens then return .empty else node fuel inBlock isIndentless

def valueBefore : (fuel : Nat) → (tokens : List Token) → (inBlock isIndentless : Bool) → Reader Node
  | 0, _, _, _ => throw .size
  | fuel + 1, tokens, inBlock, isIndentless => do
      if ← isNext [.value] then
        advance
        nodeBefore fuel tokens inBlock isIndentless
      else return .empty

/-- The items of a list in block style. Without a start it ends with the last item. -/
def items : (fuel : Nat) → (isIndentless : Bool) → Reader (List Node)
  | 0, _ => throw .size
  | fuel + 1, isIndentless => do
      if ← isNext [.blockEntry] then
        advance
        let ends : List Token :=
          if isIndentless then [.blockEntry, .key, .value, .blockEnd] else [.blockEntry, .blockEnd]
        let item ← nodeBefore fuel ends true false
        return item :: (← items fuel isIndentless)
      else if isIndentless then return []
      else
        expect .blockEnd
        return []

def entries : (fuel : Nat) → Reader (List (Node × Node))
  | 0 => throw .size
  | fuel + 1 => do
      if ← isNext [.key] then
        advance
        let key ← nodeBefore fuel [.key, .value, .blockEnd] true true
        let value ← valueBefore fuel [.key, .value, .blockEnd] true true
        return (key, value) :: (← entries fuel)
      else
        expect .blockEnd
        return []

def flowItems : (fuel : Nat) → (isFirst : Bool) → Reader (List Node)
  | 0, _ => throw .size
  | fuel + 1, isFirst => do
      if ← isNext [.flowSequenceEnd] then
        advance
        return []
      else
        if !isFirst then expect .flowEntry
        if ← isNext [.key] then
          advance
          let entry ← flowPair fuel
          return .map .none [entry] :: (← flowItems fuel false)
        else if ← isNext [.flowSequenceEnd] then
          advance
          return []
        else
          let item ← node fuel false false
          return item :: (← flowItems fuel false)

/-- The single entry of a map in a list. If the key is missing, so is the token after it. -/
def flowPair : (fuel : Nat) → Reader (Node × Node)
  | 0 => throw .size
  | fuel + 1 => do
      let key ←
        if ← isNext [.value, .flowEntry, .flowSequenceEnd] then
          advance
          pure Node.empty
        else node fuel false false
      let value ← valueBefore fuel [.flowEntry, .flowSequenceEnd] false false
      return (key, value)

/-- The entries of a map in flow style. A node without a key mark is a key without a value. -/
def flowEntries : (fuel : Nat) → (isFirst : Bool) → Reader (List (Node × Node))
  | 0, _ => throw .size
  | fuel + 1, isFirst => do
      if ← isNext [.flowMappingEnd] then
        advance
        return []
      else
        if !isFirst then expect .flowEntry
        if ← isNext [.key] then
          advance
          let key ← nodeBefore fuel [.value, .flowEntry, .flowMappingEnd] false false
          let value ← valueBefore fuel [.flowEntry, .flowMappingEnd] false false
          return (key, value) :: (← flowEntries fuel false)
        else if ← isNext [.flowMappingEnd] then
          advance
          return []
        else
          let key ← node fuel false false
          return (key, .empty) :: (← flowEntries fuel false)

end

end Reader

def standardHandles : List (List Char × Tag) :=
  [(['!'], Tag.mark), (['!', '!'], Tag.standardStem)]

/-- Reads directives up to the start of the document. The version is said once at most, and so is
what a handle stands for. -/
def readDirectives (hasVersion : Bool) (handles : List (List Char × Tag)) :
    List Token → Except Fault (List (List Char × Tag) × List Token)
  | .version major minor :: rest =>
      if hasVersion || major != 1 || (minor != 1 && minor != 2) then .error .shape
      else readDirectives true handles rest
  | .tagRule handle stem :: rest =>
      if (handles.lookup handle).isSome then .error .shape
      else readDirectives hasVersion ((handle, stem) :: handles) rest
  | .documentStart :: rest => .ok (handles, rest)
  | _ => .error .shape

def readRoot (handles : List (List Char × Tag)) (tokens : List Token) :
    Except Fault (Node × List Token) := do
  let (root, reading) ← (Reader.node (4 * tokens.length + 4) true false).run
    { tokens, anchors := [], handles := handles ++ standardHandles }
  return (root, reading.tokens)

def readContent (handles : List (List Char × Tag)) (tokens : List Token) :
    Except Fault (Node × List Token) :=
  match tokens with
  | [] => .ok (.empty, [])
  | .version .. :: _ => .ok (.empty, tokens)
  | .tagRule .. :: _ => .ok (.empty, tokens)
  | .documentStart :: _ => .ok (.empty, tokens)
  | .documentEnd :: _ => .ok (.empty, tokens)
  | _ => readRoot handles tokens

def readDocument (tokens : List Token) : Except Fault (Node × List Token) :=
  let isMarked := match tokens with
    | .version .. :: _ => true
    | .tagRule .. :: _ => true
    | .documentStart :: _ => true
    | _ => false
  if isMarked then do
    let (handles, rest) ← readDirectives false [] tokens
    readContent handles rest
  else readRoot [] tokens

def ofTokens (tokens : List Token) : Except Fault Node :=
  if tokens.isEmpty then .ok .empty
  else do
    let (root, rest) ← readDocument tokens
    if (rest.dropWhile (· == .documentEnd)).isEmpty then return root else throw .documents

mutual

/-- How many marks the nodes take: one for a scalar or alias, one at each end of a collection. -/
def size : Node → Nat
  | .scalar .. => 1
  | .aliased _ => 1
  | .list _ items => 2 + sizeItems items
  | .map _ entries => 2 + sizeEntries entries

def sizeItems : List Node → Nat
  | [] => 0
  | item :: rest => item.size + sizeItems rest

def sizeEntries : List (Node × Node) → Nat
  | [] => 0
  | (key, value) :: rest => key.size + value.size + sizeEntries rest

end

def properties : Node → Properties
  | .scalar properties .. => properties
  | .list properties _ => properties
  | .map properties _ => properties
  | .aliased _ => .none

def anchoredSelf (node : Node) : List (Nat × Node) :=
  match node.properties.anchor with
  | some anchor => [(anchor, node)]
  | none => []

mutual

def anchored (node : Node) : List (Nat × Node) :=
  match node with
  | .scalar p isPlain text => anchoredSelf (.scalar p isPlain text)
  | .aliased _ => []
  | .list p items => anchoredSelf (.list p items) ++ anchoredItems items
  | .map p entries => anchoredSelf (.map p entries) ++ anchoredEntries entries

def anchoredItems : List Node → List (Nat × Node)
  | [] => []
  | item :: rest => item.anchored ++ anchoredItems rest

def anchoredEntries : List (Node × Node) → List (Nat × Node)
  | [] => []
  | (key, value) :: rest => key.anchored ++ value.anchored ++ anchoredEntries rest

end

end Node

namespace Document

def greatestDepth : Nat := 128

def wrappedKey : String := "___figment_value_value"

def placeKey : String := "___figment_value_id"

/-- How many times as many aliases as marks may be replaced. -/
def repetitionLimit : Nat := 100

abbrev Builder := StateT Nat (Except Fault)

namespace Builder

/-- The node, or what it stands for if it is an alias. Of several nodes with an anchor it is the
last one. -/
def target (anchored : List (Nat × Node)) (node : Node) : Builder Node :=
  match node with
  | .aliased anchor => do
      match ← get with
      | 0 => throw .size
      | left + 1 =>
          set left
          match anchored.reverse.lookup anchor with
          | some target => return target
          | none => throw .unknownAnchor
  | node => return node

def scalar (properties : Properties) (isPlain : Bool) (text : List Char) : Builder Scalar :=
  match properties.tag.filter fun tag => !tag.isOwn with
  | some tag =>
      match Schema.resolveAs tag text with
      | some scalar => return scalar
      | none => throw .tag
  | none => return if isPlain then Schema.resolve text else .text (String.ofList text)

def key (anchored : List (Nat × Node)) (node : Node) : Builder String := do
  match ← target anchored node with
  | .scalar _ _ text => return String.ofList text
  | _ => throw .kind

def place (anchored : List (Nat × Node)) (node : Node) : Builder Nat := do
  let node ← target anchored node
  if (node.properties.tag.bind Tag.ownText?).isSome then throw .kind
  match node with
  | .scalar properties isPlain text =>
      match ← scalar properties isPlain text with
      | .unsigned n => return n
      | _ => throw .kind
  | _ => throw .kind

/-- The value of a map, of which the entries are values by their keys or numbers of places. Without
a wrapped value the numbers are passed over; a zero stands for the document itself, and the other
places are not known. -/
def unwrap (origin : Origin) (entries : List (String × Value ⊕ Nat)) : Value :=
  let values := entries.filterMap Sum.getLeft?
  match values.reverse.lookup wrappedKey, (entries.filterMap Sum.getRight?).getLast? with
  | none, _ => .ofEntries origin values
  | some value, none => value
  | some value, some place => value.relocate (if place == 0 then origin else .direct)

def tagKeys (properties : Properties) : List String :=
  (properties.tag.map Tag.keys).getD []

def value (origin : Origin) (anchored : List (Nat × Node)) :
    (depth : Nat) → (node : Node) → Builder Value
  | depth, node => do
      let node ← target anchored node
      let content ← match node, depth with
        | .scalar properties isPlain text, _ =>
            Value.scalar origin <$> scalar properties isPlain text
        | .list _ items, depth + 1 =>
            Value.list origin <$> items.mapM (value origin anchored depth)
        | .map _ entries, depth + 1 =>
            unwrap origin <$> entries.mapM fun entry => do
              let key ← key anchored entry.1
              if key == placeKey then return .inr (← place anchored entry.2)
              else return .inl (key, ← value origin anchored depth entry.2)
        | _, _ => throw .size
      return .nest origin (tagKeys node.properties) content
termination_by depth => depth

/-- The map of a document. A document without a value is a map without entries; an empty text in
quotes is a value. -/
def root (origin : Origin) (anchored : List (Nat × Node)) (node : Node) : Builder Value :=
  match node with
  | .map _ entries => do
      return .ofEntries origin (← entries.mapM fun entry =>
        return (← key anchored entry.1, ← value origin anchored (greatestDepth - 1) entry.2))
  | .scalar _ isPlain text =>
      if isPlain && text.isEmpty then return .map origin [] else throw .kind
  | _ => throw .kind

end Builder

def readText (origin : Origin) (text : List Char) : Except Fault Value := do
  let root ← Node.ofTokens (← Token.ofText text)
  let (value, _) ← (Builder.root origin root.anchored root).run (repetitionLimit * root.size)
  return value

def read (origin : Origin) (bytes : Text.Bytes) : Except Fault Value :=
  match Text.decode? bytes with
  | some text => readText origin text.toList
  | none => .error .character

end Document

end Yaml

end MoteCapture

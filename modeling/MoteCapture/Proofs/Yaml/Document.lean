import MoteCapture.Proofs.Options.Overlay
import MoteCapture.Proofs.Text.Basic
import MoteCapture.Proofs.Yaml.Outline
import MoteCapture.Yaml.Document

/-!
The nodes of a written document and its value. It has no anchors, aliases or tags, so that every token
stands for itself. Its scalars are read as what they were written for: a number in digits, a truth value
by its name, and a text in whatever style it was given.
-/

namespace MoteCapture

namespace Yaml

open Text

namespace Content

def item (n : Nat) : Node :=
  .scalar .none true (Numeral.write n)

def node : Content → Node
  | .text s => .scalar .none (decide (Style.ofText s = .plain)) s
  | .number n => item n
  | .truth b => .scalar .none true (truthName b)
  | .numbers ns => .list .none (ns.map item)

end Content

def Entry.node (entry : Entry) : Node × Node :=
  (.scalar .none true entry.name, entry.content.node)

def Chapter.node (chapter : Chapter) : Node × Node :=
  (.scalar .none true chapter.name, .map .none (chapter.entries.map Entry.node))

def outlineNode (chapters : List Chapter) : Node :=
  .map .none (chapters.map Chapter.node)

namespace Node.Reader

variable {α β : Type} {fuel : Nat} {tokens middle rest : List Token}

/-- The action reads so many tokens, and nothing else. -/
def Reads (action : Reader α) (tokens : List Token) (a : α) (rest : List Token) : Prop :=
  ∀ anchors handles, action.run ⟨tokens, anchors, handles⟩ = .ok (a, ⟨rest, anchors, handles⟩)

theorem Reads.bind {action : Reader α} {next : α → Reader β} {a : α} {b : β}
    (first : Reads action tokens a middle) (second : Reads (next a) middle b rest) :
    Reads (action >>= next) tokens b rest := by
  intro anchors handles
  rw [StateT.run_bind, first]
  exact second anchors handles

theorem reads_pure (a : α) (tokens : List Token) : Reads (pure a) tokens a tokens :=
  fun _ _ => rfl

def entryEnds : List Token := [.key, .value, .blockEnd]

def itemEnds : List Token := [.blockEntry, .key, .value, .blockEnd]

theorem reads_key (isPlain : Bool) (text : List Char) :
    Reads (nodeBefore (fuel + 2) entryEnds true true) (.scalar isPlain text :: rest)
      (.scalar .none isPlain text) rest :=
  fun _ _ => rfl

theorem reads_item (text : List Char) :
    Reads (nodeBefore (fuel + 2) itemEnds true false) (.scalar true text :: rest)
      (.scalar .none true text) rest :=
  fun _ _ => rfl

def Follows (rest : List Token) : Prop :=
  rest.head? = some .key ∨ rest.head? = some .blockEnd

theorem reads_items (ns : List Nat) (follows : Follows rest) (enough : ns.length + 2 < fuel) :
    Reads (items fuel true) (ns.flatMap Content.itemTokens ++ rest) (ns.map Content.item) rest := by
  obtain ⟨left, rfl⟩ : ∃ left, fuel = left + 1 := ⟨fuel - 1, by omega⟩
  induction ns generalizing left with
  | nil =>
      cases rest with
      | nil => rcases follows with none | none <;> cases none
      | cons token rest => rcases follows with same | same <;> cases same <;> exact fun _ _ => rfl
  | cons n others ih =>
      rw [List.length_cons] at enough
      obtain ⟨deeper, rfl⟩ : ∃ deeper, left = deeper + 2 := ⟨left - 2, by omega⟩
      intro anchors handles
      change (nodeBefore (deeper + 2) itemEnds true false >>= fun item =>
        items (deeper + 2) true >>= fun rest => pure (item :: rest)).run
          ⟨.scalar true (Numeral.write n) :: (others.flatMap Content.itemTokens ++ rest), anchors,
            handles⟩ = _
      have later : Reads (items (deeper + 2) true >>= fun rest => pure (Content.item n :: rest))
          (others.flatMap Content.itemTokens ++ rest) ((n :: others).map Content.item) rest :=
        (ih (deeper + 1) (by omega)).bind (reads_pure _ rest)
      exact (reads_item _).bind later anchors handles

/-- A value is read before the next key, or the end of the map. -/
theorem reads_content (content : Content) (filled : content.Fits) (follows : Follows rest)
    (enough : content.tokens.length + 4 < fuel) :
    Reads (nodeBefore fuel entryEnds true true) (content.tokens ++ rest) content.node rest := by
  obtain ⟨left, rfl⟩ : ∃ left, fuel = left + 2 := ⟨fuel - 2, by omega⟩
  cases content with
  | text s => exact reads_key _ s
  | number n => exact reads_key _ _
  | truth b => exact reads_key _ _
  | numbers ns =>
      obtain ⟨n, others, rfl⟩ := List.exists_cons_of_ne_nil filled.1
      have short : (n :: others).length + 2 < left := by
        have long : (n :: others).length ≤ (Content.numbers (n :: others)).tokens.length := by
          simp only [Content.tokens, Content.itemTokens, List.length_flatMap, List.map_const',
            List.length_cons, List.length_nil, List.sum_replicate_nat]
          omega
        omega
      have list : Reads (items left true >>= fun items => pure (Node.list .none items))
          ((n :: others).flatMap Content.itemTokens ++ rest) (Content.numbers (n :: others)).node rest :=
        (reads_items (n :: others) follows short).bind (reads_pure _ rest)
      exact list

theorem reads_value (content : Content) (filled : content.Fits) (follows : Follows rest)
    (enough : content.tokens.length + 5 < fuel) :
    Reads (valueBefore fuel entryEnds true true) (.value :: content.tokens ++ rest) content.node
      rest := by
  obtain ⟨left, rfl⟩ : ∃ left, fuel = left + 1 := ⟨fuel - 1, by omega⟩
  exact reads_content content filled follows (by omega)

section Entries

variable {ι : Type} {name : ι → List Char} {valueTokens : ι → List Token} {valueNode : ι → Node}

def entryTokens (name : ι → List Char) (valueTokens : ι → List Token) (item : ι) : List Token :=
  [.key, .scalar true (name item), .value] ++ valueTokens item

theorem follows_entries (items : List ι) (rest : List Token) :
    Follows (items.flatMap (entryTokens name valueTokens) ++ .blockEnd :: rest) := by
  cases items with
  | nil => exact .inr rfl
  | cons => exact .inl rfl

/-- The entries of a map are read up to its end, if the value of each one is. -/
theorem reads_entries {items : List ι} (value : ∀ item ∈ items, ∀ {fuel rest}, Follows rest →
      (valueTokens item).length + 5 < fuel →
        Reads (valueBefore fuel entryEnds true true) (.value :: valueTokens item ++ rest)
          (valueNode item) rest)
    (enough : (items.flatMap (entryTokens name valueTokens)).length + 3 < fuel) :
    Reads (entries fuel) (items.flatMap (entryTokens name valueTokens) ++ .blockEnd :: rest)
      (items.map fun item => (.scalar .none true (name item), valueNode item)) rest := by
  obtain ⟨left, rfl⟩ : ∃ left, fuel = left + 1 := ⟨fuel - 1, by omega⟩
  induction items generalizing left with
  | nil => exact fun _ _ => rfl
  | cons item others ih =>
      obtain ⟨own, later⟩ := List.forall_mem_cons.mp value
      have length : (entryTokens name valueTokens item).length = (valueTokens item).length + 3 := by
        simp +arith [entryTokens]
      rw [List.flatMap_cons, List.length_append, length] at enough
      obtain ⟨deeper, rfl⟩ : ∃ deeper, left = deeper + 2 := ⟨left - 2, by omega⟩
      have whole : Reads
          (nodeBefore (deeper + 2) entryEnds true true >>= fun key =>
            valueBefore (deeper + 2) entryEnds true true >>= fun value =>
              entries (deeper + 2) >>= fun rest => pure ((key, value) :: rest))
          (.scalar true (name item) :: (.value :: valueTokens item ++
            (others.flatMap (entryTokens name valueTokens) ++ .blockEnd :: rest)))
          ((item :: others).map fun item => (.scalar .none true (name item), valueNode item)) rest :=
        (reads_key true (name item)).bind
          ((own (follows_entries others rest) (by omega)).bind
            ((ih later (deeper + 1) (by omega)).bind (reads_pure _ rest)))
      have shown : (item :: others).flatMap (entryTokens name valueTokens) ++ .blockEnd :: rest =
          .key :: .scalar true (name item) :: (.value :: valueTokens item ++
            (others.flatMap (entryTokens name valueTokens) ++ .blockEnd :: rest)) := by
        simp [entryTokens]
      rw [shown]
      exact whole

end Entries

theorem reads_chapter {chapter : Chapter} (fits : chapter.Fits) (rest : List Token)
    (enough : (chapter.entries.flatMap Entry.tokens).length + 6 < fuel) :
    Reads (valueBefore fuel entryEnds true true)
      (.value :: (.blockMappingStart :: chapter.entries.flatMap Entry.tokens ++ [.blockEnd]) ++ rest)
      chapter.node.2 rest := by
  obtain ⟨left, rfl⟩ : ∃ left, fuel = left + 3 := ⟨fuel - 3, by omega⟩
  have inner : Reads (entries left)
      (chapter.entries.flatMap (entryTokens Entry.name fun entry => entry.content.tokens) ++
        .blockEnd :: rest)
      (chapter.entries.map Entry.node) rest :=
    reads_entries (fun entry member _ _ follows short =>
      reads_value entry.content (fits.entries entry member).content follows short)
      (by rw [show entryTokens Entry.name (fun entry => entry.content.tokens) = Entry.tokens from rfl]
          omega)
  have map : Reads (entries left >>= fun entries => pure (Node.map .none entries)) _
      chapter.node.2 rest := inner.bind (reads_pure _ rest)
  rw [List.cons_append, List.cons_append, List.cons_append, List.append_assoc]
  exact map

theorem reads_outline {chapters : List Chapter} (fits : ∀ chapter ∈ chapters, chapter.Fits)
    (enough : (chapters.flatMap Chapter.tokens).length + 3 < fuel) :
    Reads (node (fuel + 1) true false) (outlineTokens chapters) (outlineNode chapters) [] := by
  have inner : Reads (entries fuel) (chapters.flatMap (entryTokens Chapter.name fun chapter =>
        .blockMappingStart :: chapter.entries.flatMap Entry.tokens ++ [.blockEnd]) ++ [.blockEnd])
      (chapters.map Chapter.node) [] :=
    reads_entries (fun chapter member _ rest _ short =>
      reads_chapter (fits chapter member) rest (by
        simp only [List.length_cons, List.length_append, List.length_nil] at short
        omega))
      (by simpa [Chapter.tokens, entryTokens] using enough)
  have map : Reads (entries fuel >>= fun entries => pure (Node.map .none entries)) _
      (outlineNode chapters) [] := inner.bind (reads_pure _ [])
  have shown : outlineTokens chapters = .blockMappingStart :: (chapters.flatMap
      (entryTokens Chapter.name fun chapter =>
        .blockMappingStart :: chapter.entries.flatMap Entry.tokens ++ [.blockEnd]) ++
          [.blockEnd]) := by
    have same : Chapter.tokens = entryTokens Chapter.name fun chapter =>
        .blockMappingStart :: chapter.entries.flatMap Entry.tokens ++ [.blockEnd] := by
      funext chapter
      simp [Chapter.tokens, entryTokens]
    simp [outlineTokens, same]
  rw [shown]
  exact map

end Node.Reader

/-- The node of a document is read from its tokens. -/
theorem ofTokens_outline {chapters : List Chapter} (fits : ∀ chapter ∈ chapters, chapter.Fits) :
    Node.ofTokens (outlineTokens chapters) = .ok (outlineNode chapters) := by
  have enough : (chapters.flatMap Chapter.tokens).length + 3 <
      4 * (outlineTokens chapters).length + 3 := by
    simp +arith [outlineTokens]
  have root : Node.readDocument (outlineTokens chapters) = .ok (outlineNode chapters, []) := by
    change Node.readRoot [] (outlineTokens chapters) = _
    rw [Node.readRoot, Node.Reader.reads_outline fits enough]
    rfl
  have filled : (outlineTokens chapters).isEmpty = false := rfl
  rw [Node.ofTokens, filled, root]
  rfl

open Text Value

namespace Schema

variable {text : List Char} {n : Nat}

theorem readBased?_digits (digits : ∀ c ∈ text, Numeral.isDigit c = true) :
    readBased? text = none := by
  unfold readBased?
  split
  · next letter rest =>
    have digit : Numeral.isDigit letter = true := digits letter (by simp)
    have other : base? letter = none := by
      unfold base?
      split
      · cases digit
      · cases digit
      · cases digit
      · rfl
    rw [other]
  · rfl

theorem hasLeadingZero_write (n : Nat) : hasLeadingZero (Numeral.write n) = false := by
  unfold hasLeadingZero
  split
  · next rest same =>
    obtain rfl := Numeral.eq_nil_of_write_eq_zero_cons same
    rfl
  · rfl

theorem readMagnitude?_write (n : Nat) : readMagnitude? (Numeral.write n) = some n := by
  rw [readMagnitude?, readBased?_digits (Numeral.all_write n), hasLeadingZero_write]
  simp [Numeral.readDigits?, Numeral.isDigits_write, Numeral.continueFrom_write]

theorem readWhole?_write (small : n < UInt64.size) :
    readWhole? (Numeral.write n) = some (.unsigned n) := by
  have plus : '+' ∉ Numeral.write n := Numeral.not_mem_write (by decide) n
  have minus : '-' ∉ Numeral.write n := Numeral.not_mem_write (by decide) n
  unfold readWhole?
  split
  · next same => simp [same] at plus
  · next same => simp [same] at minus
  · rw [readMagnitude?_write]
    simp [unsigned?, small]

/-- None of the names starts like a number. -/
theorem contains_write {names : List String}
    (other : names.all (fun name => name.toList.any fun c => !Numeral.isDigit c) = true) (n : Nat) :
    names.contains (String.ofList (Numeral.write n)) = false := by
  rw [List.contains_eq_mem, decide_eq_false_iff_not]
  intro member
  obtain ⟨c, inside, letter⟩ := List.any_eq_true.mp (List.all_eq_true.mp other _ member)
  rw [String.toList_ofList] at inside
  exact Numeral.not_mem_write (by simpa using letter) n inside

theorem resolve_write (small : n < UInt64.size) :
    resolve (Numeral.write n) = .unsigned n := by
  have null : readNull? (String.ofList (Numeral.write n)) = none := by
    rw [readNull?, contains_write (by decide +kernel)]
    rfl
  have truth : readBool? (String.ofList (Numeral.write n)) = none := by
    rw [readBool?, contains_write (by decide +kernel), contains_write (by decide +kernel)]
    rfl
  simp [resolve, null, truth, readWhole?_write small, Numeral.write_ne_nil]

theorem resolve_truthName (b : Bool) : resolve (Content.truthName b) = .bool b := by
  cases b
  · decide +kernel
  · decide +kernel

theorem readWhole?_ne_text (text : List Char) (s : String) : readWhole? text ≠ some (.text s) := by
  have unsigned (n : Nat) : unsigned? n ≠ some (.text s) := by
    unfold unsigned?
    split
    · simp
    · split <;> simp
  have negated (n : Nat) : negated? n ≠ some (.text s) := by
    unfold negated?
    split
    · simp
    · split <;> simp
  unfold readWhole?
  intro whole
  split at whole <;> obtain ⟨n, -, own⟩ := Option.bind_eq_some_iff.mp whole
  · exact unsigned n own
  · exact negated n own
  · exact unsigned n own

theorem eq_of_resolve_eq_text {s : String} (read : resolve text = .text s) :
    s = String.ofList text := by
  unfold resolve at read
  dsimp only at read
  split at read
  · cases read
  · split at read
    · cases read
    · split at read
      · next whole =>
        subst read
        exact absurd whole (readWhole?_ne_text text s)
      · split at read
        · cases read
        · cases read
          rfl

theorem resolve_of_isReadAsText (own : Style.isReadAsText text = true) :
    resolve text = .text (String.ofList text) := by
  unfold Style.isReadAsText at own
  split at own
  · next s read => rw [read, eq_of_resolve_eq_text read]
  · cases own

end Schema

/-! Values. -/

namespace Content

def value (origin : Origin) : Content → Value
  | .text s => .scalar origin (.text (String.ofList s))
  | .number n => .scalar origin (.unsigned n)
  | .truth b => .scalar origin (.bool b)
  | .numbers ns => .list origin (ns.map fun n => .scalar origin (.unsigned n))

end Content

def Entry.value (origin : Origin) (entry : Entry) : String × Value :=
  (String.ofList entry.name, entry.content.value origin)

def Chapter.value (origin : Origin) (chapter : Chapter) : String × Value :=
  (String.ofList chapter.name, .ofEntries origin (chapter.entries.map (Entry.value origin)))

def outlineValue (origin : Origin) (chapters : List Chapter) : Value :=
  .ofEntries origin (chapters.map (Chapter.value origin))

def Chapter.IsBare (chapter : Chapter) : Prop :=
  ∀ entry ∈ chapter.entries, String.ofList entry.name ≠ Document.placeKey ∧
    String.ofList entry.name ≠ Document.wrappedKey

namespace Document

namespace Builder

variable {origin : Origin} {anchored : List (Nat × Node)} {depth : Nat}

theorem mapM_eq_pure {ι α β : Type} {f : α → Builder β} {node : ι → α} {result : ι → β}
    {items : List ι} (each : ∀ item ∈ items, f (node item) = pure (result item)) :
    (items.map node).mapM f = pure (items.map result) := by
  induction items with
  | nil => rfl
  | cons item rest ih =>
      obtain ⟨own, others⟩ := List.forall_mem_cons.mp each
      rw [List.map_cons, List.mapM_cons, own, ih others]
      rfl

theorem value_scalar (isPlain : Bool) (text : List Char) :
    value origin anchored depth (.scalar .none isPlain text) =
      pure (.scalar origin (if isPlain then Schema.resolve text else .text (String.ofList text))) := by
  rw [value]
  rfl

theorem value_list_eq (items : List Node) :
    value origin anchored (depth + 1) (.list .none items) =
      Value.list origin <$> items.mapM (value origin anchored depth) := by
  rw [value]
  exact bind_pure (Value.list origin <$> items.mapM (value origin anchored depth))

/-- An entry of a map below the root: the number of a place, or a value by its key. -/
def part (origin : Origin) (anchored : List (Nat × Node)) (depth : Nat) (entry : Node × Node) :
    Builder (String × Value ⊕ Nat) := do
  let key ← key anchored entry.1
  if key == placeKey then return .inr (← place anchored entry.2)
  else return .inl (key, ← value origin anchored depth entry.2)

theorem value_map_eq (entries : List (Node × Node)) :
    value origin anchored (depth + 1) (.map .none entries) =
      unwrap origin <$> entries.mapM (part origin anchored depth) := by
  rw [value]
  exact bind_pure (unwrap origin <$> entries.mapM (part origin anchored depth))

theorem value_item {n : Nat} (small : n < UInt64.size) :
    value origin anchored depth (Content.item n) = pure (.scalar origin (.unsigned n)) := by
  rw [Content.item, value_scalar, if_pos rfl, Schema.resolve_write small]

theorem value_content {content : Content} (fits : content.Fits) :
    value origin anchored (depth + 1) content.node = pure (content.value origin) := by
  cases content with
  | text s =>
      rw [Content.node, value_scalar, Content.value]
      by_cases plain : Style.ofText s = .plain
      · rw [if_pos (decide_eq_true plain),
          Schema.resolve_of_isReadAsText (Lexer.ofText_plain plain).1]
      · rw [if_neg (by simp [plain])]
  | number n => exact value_item fits
  | truth b =>
      rw [Content.node, value_scalar, if_pos rfl, Schema.resolve_truthName]
      rfl
  | numbers ns =>
      rw [Content.node, value_list_eq, mapM_eq_pure fun n member => value_item (fits.2 n member)]
      rfl

theorem unwrap_values {entries : List (String × Value)}
    (bare : ∀ entry ∈ entries, entry.1 ≠ wrappedKey) :
    unwrap origin (entries.map .inl) = .ofEntries origin entries := by
  have values : (entries.map Sum.inl).filterMap (Sum.getLeft? : String × Value ⊕ Nat → _) =
      entries := by
    rw [List.filterMap_map]
    exact List.filterMap_some
  have none : entries.reverse.lookup wrappedKey = none := by
    refine lookup_eq_none_of_not_mem fun member => ?_
    obtain ⟨entry, inside, same⟩ := List.mem_map.mp member
    exact bare entry (List.mem_reverse.mp inside) same
  rw [unwrap, values, none]

theorem part_scalar {isPlain : Bool} {name : List Char} {node : Node} {inner : Value}
    (bare : String.ofList name ≠ placeKey)
    (own : value origin anchored depth node = pure inner) :
    part origin anchored depth (.scalar .none isPlain name, node) =
      pure (.inl (String.ofList name, inner)) := by
  change (if String.ofList name == placeKey then _ else _) = _
  rw [if_neg (by simpa using bare), own]
  rfl

/-- A map below the root that is no wrapping. -/
theorem value_map {ι : Type} {items : List ι} {name : ι → List Char} {node : ι → Node}
    {inner : ι → Value}
    (bare : ∀ item ∈ items, String.ofList (name item) ≠ placeKey ∧
      String.ofList (name item) ≠ wrappedKey)
    (each : ∀ item ∈ items, value origin anchored depth (node item) = pure (inner item)) :
    value origin anchored (depth + 1)
        (.map .none (items.map fun item => (.scalar .none true (name item), node item))) =
      pure (.ofEntries origin (items.map fun item => (String.ofList (name item), inner item))) := by
  rw [value_map_eq, mapM_eq_pure fun item member =>
    part_scalar (bare item member).1 (each item member), map_pure]
  have whole : unwrap origin
      ((items.map fun item => (String.ofList (name item), inner item)).map .inl) =
        .ofEntries origin (items.map fun item => (String.ofList (name item), inner item)) := by
    refine unwrap_values fun found member => ?_
    obtain ⟨item, inside, rfl⟩ := List.mem_map.mp member
    exact (bare item inside).2
  rw [List.map_map] at whole
  exact congrArg pure whole

theorem value_single {name : String} {node : Node} {inner : Value}
    (bare : name ≠ placeKey ∧ name ≠ wrappedKey)
    (own : value origin anchored depth node = pure inner) :
    value origin anchored (depth + 1) (.map .none [(.scalar .none true name.toList, node)]) =
      pure (.map origin [(name, inner)]) := by
  have map : value origin anchored (depth + 1)
        (.map .none ([name].map fun name => (.scalar .none true name.toList, node))) =
      pure (.ofEntries origin ([name].map fun name => (String.ofList name.toList, inner))) :=
    value_map (by simpa using bare) fun _ _ => own
  simpa [ofEntries, setEntry] using map

theorem value_chapter {chapter : Chapter} (fits : chapter.Fits) (bare : chapter.IsBare) :
    value origin anchored (depth + 2) chapter.node.2 = pure (chapter.value origin).2 :=
  value_map bare fun entry member => value_content (fits.entries entry member).content

theorem root_map {ι : Type} {items : List ι} {name : ι → List Char} {node : ι → Node}
    {inner : ι → Value} (each : ∀ item ∈ items,
      value origin anchored (greatestDepth - 1) (node item) = pure (inner item)) :
    root origin anchored
        (.map .none (items.map fun item => (.scalar .none true (name item), node item))) =
      pure (.ofEntries origin (items.map fun item => (String.ofList (name item), inner item))) := by
  have own : ∀ item ∈ items,
      (do return (← key anchored (.scalar .none true (name item)),
          ← value origin anchored (greatestDepth - 1) (node item))) =
        (pure (String.ofList (name item), inner item) : Builder (String × Value)) := by
    intro item member
    rw [each item member]
    rfl
  rw [root, mapM_eq_pure own]
  rfl

theorem root_single {name : String} {node : Node} {inner : Value}
    (own : value origin anchored (greatestDepth - 1) node = pure inner) :
    root origin anchored (.map .none [(.scalar .none true name.toList, node)]) =
      pure (.map origin [(name, inner)]) := by
  have map : root origin anchored
        (.map .none ([name].map fun name => (.scalar .none true name.toList, node))) =
      pure (.ofEntries origin ([name].map fun name => (String.ofList name.toList, inner))) :=
    root_map fun _ _ => own
  simpa [ofEntries, setEntry] using map

theorem root_outline {chapters : List Chapter} (fits : ∀ chapter ∈ chapters, chapter.Fits)
    (bare : ∀ chapter ∈ chapters, chapter.IsBare) :
    root origin anchored (outlineNode chapters) = pure (outlineValue origin chapters) :=
  root_map fun chapter member => value_chapter (fits chapter member) (bare chapter member)

end Builder

theorem read_encode {origin : Origin} {text : String} {tokens : List Token} {root : Node}
    {value : Value} (lexed : Token.ofText text.toList = .ok tokens)
    (parsed : Node.ofTokens tokens = .ok root)
    (built : Builder.root origin root.anchored root = pure value) :
    read origin (encode text) = .ok value := by
  have whole : readText origin text.toList = .ok value := by
    simp only [readText, lexed, parsed, built, bind, Except.bind]
    rfl
  rw [read, decode?_eq_some_iff.mpr rfl]
  exact whole

/-- The document is read back. -/
theorem read_outline {chapters : List Chapter} (origin : Origin) (filled : chapters ≠ [])
    (fits : ∀ chapter ∈ chapters, chapter.Fits) (bare : ∀ chapter ∈ chapters, chapter.IsBare) :
    read origin (encode (String.ofList (chapters.flatMap Chapter.write))) =
      .ok (outlineValue origin chapters) := by
  refine read_encode ?_ (ofTokens_outline fits) (Builder.root_outline fits bare)
  rw [String.toList_ofList, ofText_outline filled fits]

end Document

end Yaml

end MoteCapture

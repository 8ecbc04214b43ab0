import MoteCapture.Proofs.Yaml.Lexer

/-!
Documents of sections that have fields, as they are written, and their tokens. What is taken for a word
becomes a key once its colon is met; a list may stand as far in as the key that it is for.
-/

namespace MoteCapture

namespace Yaml

namespace Lexer

variable {lexer next : Lexer} {place : Place} {tokens : List Token} {indents : List Nat}
  {rest text : List Char} {c : Char} {keyAllowed : Bool}

section Keys

variable {name after : List Char} {width : Nat} {key : PossibleKey}

def pending (key : PossibleKey) (keyAllowed : Bool) (rest : List Char) (place : Place)
    (tokens : List Token) (indents : List Nat) : Lexer :=
  { rest, place, tokens, indents, key := some key, outerKeys := [], keyAllowed }

/-- A map is started at a column that is further in than all that is open. -/
def opened (column : Nat) (tokens : List Token) (indents : List Nat) : List Token × List Nat :=
  if (between true [] .start tokens indents).leastColumn ≤ column then
    (.blockMappingStart :: tokens, column :: indents)
  else (tokens, indents)

theorem opens_word (word : Plain.IsWord name) (next : List Char) : Opens (name ++ next) :=
  opens_plain word.canBePlain word.1 next

def wordKey (place : Place) (tokens : List Token) (indents : List Nat) : PossibleKey where
  isNeeded := indents.head? == some place.column
  position := tokens.length
  place := place

/-- A plain scalar may be a key if one is allowed. -/
theorem takePlain_pending {source passed : List Char} {endsLine : Bool} (whole : source = passed ++ rest)
    (read : Plain.readFrom false (between true source place tokens indents).leastColumn place.column
      .none [] source = .ok ⟨text, endsLine, rest⟩) :
    (between true source place tokens indents).takePlain =
      .ok (pending (wordKey place tokens indents) endsLine rest (place.pass passed)
        (.scalar true text :: tokens) indents) := by
  have reached := goTo_append (pending (wordKey place tokens indents) true source place tokens indents)
    passed whole
  have saved : (between true source place tokens indents).saveKey =
      .ok (pending (wordKey place tokens indents) true source place tokens indents) := rfl
  rw [takePlain, saved]
  change (Plain.readFrom false (between true source place tokens indents).leastColumn place.column
    .none [] source >>= _) = _
  rw [read]
  simp only [bind, Except.bind, reached]
  rfl

theorem roll_pending (column : Nat) (first second : Token) :
    (pending key keyAllowed rest place (first :: second :: tokens) indents).roll column
        .blockMappingStart tokens.length =
      pending key keyAllowed rest place (first :: second :: (opened column tokens indents).1)
        (opened column tokens indents).2 := by
  have two : tokens.length + 1 + 1 - tokens.length = 2 := by omega
  have flow : (pending key keyAllowed rest place (first :: second :: tokens) indents).inFlow = false :=
    rfl
  have least : (pending key keyAllowed rest place (first :: second :: tokens) indents).leastColumn =
      (between true [] .start tokens indents).leastColumn := rfl
  rw [roll, opened, flow, least]
  by_cases further : (between true [] .start tokens indents).leastColumn ≤ column
  · simp [further, emitAt, pending, two]
  · simp [further]

/-- A colon makes a key of what is in front of it. -/
theorem takeValue_pending (position : key.position = tokens.length) :
    (pending key false (':' :: after) place (.scalar true name :: tokens) indents).takeValue =
      .ok (between false after (place.pass [':'])
        (.value :: .scalar true name :: .key :: (opened key.place.column tokens indents).1)
        (opened key.place.column tokens indents).2) := by
  have emitted : (pending key false (':' :: after) place (.scalar true name :: tokens) indents).emitAt
        key.position .key =
      pending key false (':' :: after) place (.scalar true name :: .key :: tokens) indents := by
    simp [emitAt, pending, position]
  change Except.ok { ((((pending key false (':' :: after) place (.scalar true name :: tokens)
    indents).emitAt key.position .key).roll key.place.column .blockMappingStart key.position).skip
      1).emit .value with key := none, keyAllowed := false } = _
  rw [emitted, position, roll_pending, skip_one rfl]
  rfl

theorem unrollTo_again {least further : Nat} {closed : List Token} {left : List Nat}
    (unrolled : unrollTo least tokens indents = (closed, left)) (other : List Token)
    (le : least ≤ further) :
    unrollTo further other left = (other, left) := by
  induction indents generalizing tokens with
  | nil =>
      cases unrolled
      rfl
  | cons indent outer ih =>
      rw [unrollTo] at unrolled
      split at unrolled
      · exact ih unrolled
      · next outside =>
        cases unrolled
        exact if_neg fun inside => outside (le.trans inside)

theorem stands_pending (opens : Opens rest) (fresh : key.isPast place = false) :
    Stands (pending key keyAllowed rest place tokens indents)
      (pending key keyAllowed rest place tokens indents) := by
  have kept : expire place (some key) = .ok (some key) := by simp [expire, fresh]
  rw [Stands, skipToToken_spaces 0 rfl opens]
  change (expire place (some key) >>= _) = _
  rw [kept]
  rfl

-- A name stays on its line, and is not long.
theorem not_isPast_name (word : Plain.IsWord name) (short : name.length ≤ 256) {isNeeded : Bool}
    {position : Nat} :
    ({ isNeeded, position, place } : PossibleKey).isPast (place.pass name) = false := by
  have unbroken := (Plain.canBePlain_iff.mp word.canBePlain).2.1
  have line := (place.pass_unbroken unbroken).1
  have index := Place.index_pass place name
  have near : ¬ place.index + PossibleKey.greatestLength < (place.pass name).index := by
    rw [PossibleKey.greatestLength]
    omega
  simp [PossibleKey.isPast, line, near]

theorem takeToken_colon (ends : endsWord after = true) :
    (pending key false (':' :: after) place tokens indents).takeToken ':' =
      (pending key false (':' :: after) place tokens indents).takeValue := by
  simp [takeToken, pending, inFlow, isDocumentMark, ends]

theorem not_isDocumentMark (word : Plain.IsWord name) (next : List Char) :
    isDocumentMark (name ++ next) = false := by
  obtain ⟨c, rest, rfl⟩ := List.exists_cons_of_ne_nil word.1
  have own := word.2 c List.mem_cons_self
  have dash : c ≠ '-' := Plain.ne_of_isWordChar own rfl
  have point : c ≠ '.' := Plain.ne_of_isWordChar own rfl
  rw [List.cons_append, isDocumentMark.eq_def]
  split
  · next same => exact absurd (List.cons.inj same).1 dash
  · next same => exact absurd (List.cons.inj same).1 point
  · rfl

section Name

variable {lexer : Lexer} {closed : List Token} {left : List Nat}

/-- The name is read; what is further in than it is closed before. -/
theorem reaches_name (fits : (name ++ ':' :: after).length ≤ lexer.rest.length)
    (stands : lexer.Stands (between true (name ++ ':' :: after) place tokens indents))
    (word : Plain.IsWord name) (ends : endsWord after = true)
    (unrolled : unrollTo (place.column + 1) tokens indents = (closed, left)) :
    lexer.Reaches (pending (wordKey place closed left) false (':' :: after) (place.pass name)
      (.scalar true name :: closed) left) := by
  have starts := Plain.starts_of_canBePlain word.canBePlain word.1 (':' :: after)
  have taken : (between true (name ++ ':' :: after) place closed left).takePlain = _ :=
    takePlain_pending rfl (Plain.readFrom_key word ends)
  obtain ⟨c, rest, rfl⟩ := List.exists_cons_of_ne_nil word.1
  refine reaches_of_takeToken stands rfl ?_ ?_
  · refine (congrArg (takeToken c) (unroll_eq rfl unrolled)).trans ?_
    exact (takeToken_plain rfl rfl starts fun _ => not_isDocumentMark word _).trans taken
  · simp only [pending, List.cons_append, List.length_cons, List.length_append] at *
    omega

/-- The colon makes a key of the name. -/
theorem reaches_colon (word : Plain.IsWord name) (short : name.length ≤ 256)
    (ends : endsWord after = true)
    (unrolled : unrollTo (place.column + 1) tokens indents = (closed, left)) :
    (pending (wordKey place closed left) false (':' :: after) (place.pass name)
      (.scalar true name :: closed) left).Reaches
      (between false after ((place.pass name).pass [':'])
        (.value :: .scalar true name :: .key :: (opened place.column closed left).1)
        (opened place.column closed left).2) := by
  have unbroken := (Plain.canBePlain_iff.mp word.canBePlain).2.1
  have column := (place.pass_unbroken unbroken).2
  have opens : Opens (':' :: after) := by
    rintro d first
    cases first
    decide
  have stays := unrollTo_again unrolled (.scalar true name :: closed)
    (show place.column + 1 ≤ (place.pass name).column + 1 by omega)
  refine reaches_of_takeToken (stands_pending opens (not_isPast_name word short)) rfl ?_
    (Nat.lt_succ_self _)
  refine (congrArg (takeToken ':') (unroll_eq rfl stays)).trans ?_
  exact (takeToken_colon ends).trans (takeValue_pending rfl)

/-- A name and a colon are a key; a map is started for it if it is the first one. -/
theorem reaches_key {column : Nat} (atLine : lexer.AtLine column (name ++ ':' :: after) tokens indents)
    (word : Plain.IsWord name) (short : name.length ≤ 256) (ends : endsWord after = true)
    (unrolled : unrollTo (column + 1) tokens indents = (closed, left)) :
    ∃ place : Place, column < place.column ∧
      lexer.Reaches (between false after place
        (.value :: .scalar true name :: .key :: (opened column closed left).1)
        (opened column closed left).2) := by
  obtain ⟨fits, place, rfl, stands⟩ := atLine
  have unbroken := (Plain.canBePlain_iff.mp word.canBePlain).2.1
  have column := (place.pass_unbroken unbroken).2
  have colonColumn : ((place.pass name).pass [':']).column = (place.pass name).column + 1 := rfl
  refine ⟨(place.pass name).pass [':'], by omega, ?_⟩
  exact (reaches_name fits stands word ends unrolled).trans (reaches_colon word short ends unrolled)

end Name

end Keys

section Items

variable {width indent : Nat} {outer : List Nat} {key : PossibleKey}

/-- A line later it turns out that something was no key. -/
theorem atLine_pending (opens : Opens rest) (past : key.isPast place = true)
    (optional : key.isNeeded = false) :
    AtLine (pending key true rest place tokens indents) place.column rest tokens indents := by
  have dropped : expire place (some key) = .ok none := by simp [expire, giveUp, past, optional]
  refine ⟨Nat.le_refl _, place, rfl, ?_⟩
  rw [Stands, skipToToken_spaces 0 rfl opens]
  change (expire place (some key) >>= _) = _
  rw [dropped]
  rfl

theorem takeToken_dash (ends : endsWord rest = true) (column : place.column = indent)
    (document : indent ≠ 0) :
    (between true ('-' :: rest) place tokens (indent :: outer)).takeToken '-' =
      .ok (between true rest (place.pass ['-']) (.blockEntry :: tokens) (indent :: outer)) := by
  have entry : (between true ('-' :: rest) place tokens (indent :: outer)).takeToken '-' =
      (between true ('-' :: rest) place tokens (indent :: outer)).takeBlockEntry := by
    simp [takeToken, between, ends, column, document]
  have outside : ¬ indent + 1 ≤ place.column := by omega
  have rolled : (between true ('-' :: rest) place tokens (indent :: outer)).rollHere
      .blockSequenceStart = .ok (between true ('-' :: rest) place tokens (indent :: outer)) := by
    simp [rollHere, roll, between, inFlow, leastColumn, outside]
  rw [entry, takeBlockEntry, rolled]
  change Except.ok { ((between true ('-' :: rest) place tokens (indent :: outer)).skip 1).emit _ with
    keyAllowed := true } = _
  rw [skip_one rfl]
  rfl

theorem reaches_dash {lexer : Lexer} {source : List Char}
    (fits : ('-' :: ' ' :: source).length ≤ lexer.rest.length)
    (stands : lexer.Stands (between true ('-' :: ' ' :: source) place tokens (indent :: outer)))
    (column : place.column = indent) (document : indent ≠ 0) :
    lexer.Reaches (between true (' ' :: source) (place.pass ['-']) (.blockEntry :: tokens)
      (indent :: outer)) := by
  refine reaches_of_takeToken stands rfl ?_ ?_
  · have inside : indent < place.column + 1 := by omega
    refine (congrArg (takeToken '-') (unroll_inside inside)).trans ?_
    exact takeToken_dash rfl column document
  · simp only [between, List.length_cons] at *
    omega

/-- A scalar that fills the rest of its line is read with the break. -/
theorem reaches_word (place : Place) (tokens : List Token) (outer : List Nat)
    (plain : Style.canBePlain text = true) (filled : text ≠ []) (inside : indent ≤ place.column)
    (near : width ≤ indent) (opens : Opens rest) :
    (between true (' ' :: (text ++ '\n' :: (List.replicate width ' ' ++ rest))) place tokens
        (indent :: outer)).Reaches
      (pending (wordKey (place.pass [' ']) tokens (indent :: outer)) true rest
        ((place.pass [' ']).pass (text ++ '\n' :: List.replicate width ' '))
        (.scalar true text :: tokens) (indent :: outer)) := by
  have start := opens_plain plain filled ('\n' :: (List.replicate width ' ' ++ rest))
  have starts := Plain.starts_of_canBePlain plain filled ('\n' :: (List.replicate width ' ' ++ rest))
  have further : indent + 1 ≤ (place.pass [' ']).column := Nat.succ_le_succ inside
  have read := Plain.readFrom_plain plain filled further (opens.startsLine (Nat.lt_succ_of_le near))
  have whole : text ++ '\n' :: (List.replicate width ' ' ++ rest) =
      (text ++ '\n' :: List.replicate width ' ') ++ rest := by simp
  have taken : (between true (text ++ '\n' :: (List.replicate width ' ' ++ rest)) (place.pass [' '])
      tokens (indent :: outer)).takePlain = _ := takePlain_pending whole read
  obtain ⟨c, source, rfl⟩ := List.exists_cons_of_ne_nil filled
  refine reaches_of_takeToken (stands_between_spaces 1 start) rfl ?_
    (by simp +arith [pending, between])
  have deeper : indent < (place.pass [' ']).column + 1 := by omega
  have notFirst : (place.pass [' ']).column ≠ 0 := by omega
  refine (congrArg (takeToken c) (unroll_inside deeper)).trans ?_
  exact (takeToken_plain rfl rfl starts fun first => absurd first notFirst).trans taken

theorem reaches_item {lexer : Lexer} (plain : Style.canBePlain text = true) (filled : text ≠ [])
    (document : indent ≠ 0) (near : width ≤ indent) (opens : Opens rest)
    (atLine : lexer.AtLine indent
      ('-' :: ' ' :: (text ++ '\n' :: (List.replicate width ' ' ++ rest))) tokens (indent :: outer)) :
    ∃ next, lexer.Reaches next ∧
      AtLine next width rest (.scalar true text :: .blockEntry :: tokens) (indent :: outer) := by
  obtain ⟨fits, place, column, stands⟩ := atLine
  have dash := reaches_dash fits stands column document
  have dashColumn : (place.pass ['-']).column = indent + 1 := by rw [← column]; rfl
  have word := reaches_word (place.pass ['-']) (.blockEntry :: tokens) outer plain filled
    (show indent ≤ (place.pass ['-']).column by omega) near opens
  obtain ⟨lineColumn, lineAfter⟩ :=
    ((place.pass ['-']).pass [' ']).pass_line text (c := '\n') rfl width
  have wordColumn : ((place.pass ['-']).pass [' ']).column = indent + 2 := by rw [← column]; rfl
  generalize (place.pass ['-']).pass [' '] = start at word lineColumn lineAfter wordColumn
  generalize start.pass (text ++ '\n' :: List.replicate width ' ') = reached at word lineColumn lineAfter
  have past : (wordKey start (.blockEntry :: tokens) (indent :: outer)).isPast reached = true := by
    simp [wordKey, PossibleKey.isPast, lineAfter]
  have optional : (wordKey start (.blockEntry :: tokens) (indent :: outer)).isNeeded = false := by
    simp [wordKey, wordColumn]
  exact ⟨_, dash.trans word, lineColumn ▸ atLine_pending opens past optional⟩

end Items

end Lexer

open Text

inductive Content where
  | text (text : List Char)
  | number (n : Nat)
  | truth (b : Bool)
  | numbers (ns : List Nat)

namespace Content

def truthName (b : Bool) : List Char :=
  if b then ['t', 'r', 'u', 'e'] else ['f', 'a', 'l', 's', 'e']

def writeItem (n : Nat) : List Char :=
  [' ', ' ', '-', ' '] ++ Numeral.write n ++ ['\n']

def write : Content → List Char
  | .text s => ' ' :: Style.write (List.replicate Block.Lines.margin ' ') s
  | .number n => ' ' :: (Numeral.write n ++ ['\n'])
  | .truth b => ' ' :: (truthName b ++ ['\n'])
  | .numbers ns => '\n' :: ns.flatMap writeItem

def itemTokens (n : Nat) : List Token :=
  [.blockEntry, .scalar true (Numeral.write n)]

def tokens : Content → List Token
  | .text s => [.scalar (decide (Style.ofText s = .plain)) s]
  | .number n => [.scalar true (Numeral.write n)]
  | .truth b => [.scalar true (truthName b)]
  | .numbers ns => ns.flatMap itemTokens

def Fits : Content → Prop
  | .number n => n < UInt64.size
  | .numbers ns => ns ≠ [] ∧ ∀ n ∈ ns, n < UInt64.size
  | _ => True

end Content

structure Entry where
  name : List Char
  content : Content

namespace Entry

def line (entry : Entry) : List Char :=
  entry.name ++ ':' :: entry.content.write

def write (entry : Entry) : List Char :=
  [' ', ' '] ++ entry.line

def tokens (entry : Entry) : List Token :=
  [.key, .scalar true entry.name, .value] ++ entry.content.tokens

structure Fits (entry : Entry) : Prop where
  word : Plain.IsWord entry.name
  short : entry.name.length ≤ 256
  content : entry.content.Fits

end Entry

structure Chapter where
  name : List Char
  entries : List Entry

namespace Chapter

def write (chapter : Chapter) : List Char :=
  chapter.name ++ [':', '\n'] ++ chapter.entries.flatMap Entry.write

def tokens (chapter : Chapter) : List Token :=
  [.key, .scalar true chapter.name, .value, .blockMappingStart] ++
    chapter.entries.flatMap Entry.tokens ++ [.blockEnd]

structure Fits (chapter : Chapter) : Prop where
  word : Plain.IsWord chapter.name
  short : chapter.name.length ≤ 256
  filled : chapter.entries ≠ []
  entries : ∀ entry ∈ chapter.entries, entry.Fits

end Chapter

namespace Lexer

variable {lexer : Lexer} {place : Place} {tokens : List Token} {rest : List Char} {width : Nat}

theorem isWord_numeral (n : Nat) : Plain.IsWord (Numeral.write n) :=
  ⟨Numeral.write_ne_nil n, fun c member => by
    simp [Plain.isWordChar, Numeral.all_write n c member]⟩

theorem isWord_truthName (b : Bool) : Plain.IsWord (Content.truthName b) := by
  cases b
  · decide +kernel
  · decide +kernel

theorem opens_dash (text : List Char) : Opens ('-' :: text) := by
  rintro c first
  cases first
  decide

theorem reaches_items (ns : List Nat) (filled : ns ≠ []) (near : width ≤ 2) (opens : Opens rest)
    (atLine : lexer.AtLine 2 ((ns.flatMap Content.writeItem).drop 2 ++
      (List.replicate width ' ' ++ rest)) tokens [2, 0]) :
    ∃ next, lexer.Reaches next ∧
      AtLine next width rest ((ns.flatMap Content.itemTokens).reverse ++ tokens) [2, 0] := by
  induction ns generalizing lexer tokens with
  | nil => exact absurd rfl filled
  | cons n others ih =>
      have word := isWord_numeral n
      cases others with
      | nil =>
          have item := reaches_item word.canBePlain word.1 (by decide) near opens
            (by simpa [Content.writeItem] using atLine)
          simpa [Content.itemTokens] using item
      | cons m others =>
          have following : (Content.writeItem n ++ (m :: others).flatMap Content.writeItem).drop 2 ++
              (List.replicate width ' ' ++ rest) =
              '-' :: ' ' :: (Numeral.write n ++ '\n' :: (List.replicate 2 ' ' ++
                (((m :: others).flatMap Content.writeItem).drop 2 ++
                  (List.replicate width ' ' ++ rest)))) := by
            simp [Content.writeItem]
          rw [List.flatMap_cons, following] at atLine
          obtain ⟨next, reached, nextLine⟩ := reaches_item word.canBePlain word.1 (by decide)
            (Nat.le_refl 2) (opens_dash _) atLine
          obtain ⟨last, reachedLast, lastLine⟩ := ih (by simp) nextLine
          exact ⟨last, reached.trans reachedLast, by simpa [Content.itemTokens] using lastLine⟩

theorem reaches_content {content : Content} (fits : content.Fits) (inside : 2 < place.column)
    (near : width ≤ 2) (opens : Opens rest) :
    ∃ next, (between false (content.write ++ (List.replicate width ' ' ++ rest)) place tokens
        [2, 0]).Reaches next ∧
      AtLine next width rest (content.tokens.reverse ++ tokens) [2, 0] := by
  cases content with
  | text s => exact reaches_text s inside near opens
  | number n =>
      have word := isWord_numeral n
      simpa [Content.write, Content.tokens] using reaches_plain word.canBePlain word.1 inside near opens
  | truth b =>
      have word := isWord_truthName b
      simpa [Content.write, Content.tokens] using reaches_plain word.canBePlain word.1 inside near opens
  | numbers ns =>
      obtain ⟨n, others, rfl⟩ := List.exists_cons_of_ne_nil fits.1
      have shown : (n :: others).flatMap Content.writeItem ++ (List.replicate width ' ' ++ rest) =
          List.replicate 2 ' ' ++ (((n :: others).flatMap Content.writeItem).drop 2 ++
            (List.replicate width ' ' ++ rest)) := by
        simp [Content.writeItem]
      have start : Opens (((n :: others).flatMap Content.writeItem).drop 2 ++
          (List.replicate width ' ' ++ rest)) := by
        simpa [Content.writeItem] using opens_dash _
      rw [Content.write, List.cons_append, shown]
      exact reaches_items (n :: others) fits.1 near opens (atLine_break start)

/-! Entries. -/

theorem endsWord_content (content : Content) (next : List Char) :
    endsWord (content.write ++ next) = true := by
  cases content <;> rfl

theorem opens_line {entry : Entry} (fits : entry.Fits) (next : List Char) :
    Opens (entry.line ++ next) := by
  simpa [Entry.line] using opens_word fits.word _

/-- One entry; it opens the map of its section if it is the first one. -/
theorem reaches_entry {entry : Entry} {closed opening : List Token} {indents left : List Nat}
    (fits : entry.Fits) (near : width ≤ 2) (opens : Opens rest)
    (atLine : lexer.AtLine 2 (entry.line ++ (List.replicate width ' ' ++ rest)) tokens indents)
    (unrolled : unrollTo 3 tokens indents = (closed, left))
    (rolled : opened 2 closed left = (opening, [2, 0])) :
    ∃ next, lexer.Reaches next ∧
      AtLine next width rest (entry.tokens.reverse ++ opening) [2, 0] := by
  rw [Entry.line, List.append_assoc, List.cons_append] at atLine
  obtain ⟨place, inside, key⟩ := reaches_key atLine fits.word fits.short
    (endsWord_content entry.content _) unrolled
  rw [rolled] at key
  obtain ⟨next, value, nextLine⟩ := reaches_content fits.content inside near opens
  exact ⟨next, key.trans value, by simpa [Entry.tokens] using nextLine⟩

theorem reaches_entries {entries : List Entry} {closed opening : List Token}
    {indents left : List Nat} (filled : entries ≠ []) (fits : ∀ entry ∈ entries, entry.Fits)
    (near : width ≤ 2) (opens : Opens rest)
    (atLine : lexer.AtLine 2 ((entries.flatMap Entry.write).drop 2 ++
      (List.replicate width ' ' ++ rest)) tokens indents)
    (unrolled : unrollTo 3 tokens indents = (closed, left))
    (rolled : opened 2 closed left = (opening, [2, 0])) :
    ∃ next, lexer.Reaches next ∧
      AtLine next width rest ((entries.flatMap Entry.tokens).reverse ++ opening) [2, 0] := by
  induction entries generalizing lexer tokens indents closed left opening with
  | nil => exact absurd rfl filled
  | cons entry others ih =>
      obtain ⟨own, later⟩ := List.forall_mem_cons.mp fits
      cases others with
      | nil =>
          have last := reaches_entry own near opens (by simpa [Entry.write] using atLine) unrolled rolled
          simpa using last
      | cons second others =>
          have following : (entry.write ++ (second :: others).flatMap Entry.write).drop 2 ++
              (List.replicate width ' ' ++ rest) =
              entry.line ++ (List.replicate 2 ' ' ++
                (((second :: others).flatMap Entry.write).drop 2 ++
                  (List.replicate width ' ' ++ rest))) := by
            simp [Entry.write]
          rw [List.flatMap_cons, following] at atLine
          have start : Opens (((second :: others).flatMap Entry.write).drop 2 ++
              (List.replicate width ' ' ++ rest)) := by
            simpa [Entry.write] using opens_line (later second List.mem_cons_self) _
          obtain ⟨next, reached, nextLine⟩ := reaches_entry own (Nat.le_refl 2) start atLine unrolled
            rolled
          obtain ⟨last, reachedLast, lastLine⟩ := ih (by simp) later nextLine rfl rfl
          exact ⟨last, reached.trans reachedLast, by simpa using lastLine⟩

theorem opens_chapter {chapter : Chapter} (fits : chapter.Fits) (next : List Char) :
    Opens (chapter.write ++ next) := by
  simpa [Chapter.write] using opens_word fits.word _

/-- The collections that are open in front of a chapter are closed first. -/
theorem reaches_chapter {chapter : Chapter} {closed opening : List Token} {indents left : List Nat}
    (fits : chapter.Fits) (opens : Opens rest)
    (atLine : lexer.AtLine 0 (chapter.write ++ rest) tokens indents)
    (unrolled : unrollTo 1 tokens indents = (closed, left))
    (rolled : opened 0 closed left = (opening, [0])) :
    ∃ next later, lexer.Reaches next ∧ AtLine next 0 rest later [2, 0] ∧
      .blockEnd :: later = chapter.tokens.reverse ++ opening := by
  have shown : chapter.write ++ rest = chapter.name ++ ':' :: '\n' :: (List.replicate 2 ' ' ++
      ((chapter.entries.flatMap Entry.write).drop 2 ++ (List.replicate 0 ' ' ++ rest))) := by
    obtain ⟨entry, others, same⟩ := List.exists_cons_of_ne_nil fits.filled
    simp [Chapter.write, Entry.write, same]
  have start : Opens ((chapter.entries.flatMap Entry.write).drop 2 ++
      (List.replicate 0 ' ' ++ rest)) := by
    obtain ⟨entry, others, same⟩ := List.exists_cons_of_ne_nil fits.filled
    have first := fits.entries entry (same ▸ List.mem_cons_self)
    simpa [same, Entry.write] using opens_line first _
  rw [shown] at atLine
  obtain ⟨place, -, key⟩ := reaches_key atLine fits.word fits.short rfl unrolled
  rw [rolled] at key
  have inner : AtLine (between false _ place
      (.value :: .scalar true chapter.name :: .key :: opening) [0]) 2 _ _ [0] := atLine_break start
  obtain ⟨next, reached, nextLine⟩ := reaches_entries fits.filled fits.entries (Nat.zero_le 2) opens
    inner rfl rfl
  exact ⟨next, _, key.trans reached, nextLine, by simp [Chapter.tokens]⟩

theorem reaches_chapters {chapters : List Chapter} {closed opening : List Token}
    {indents left : List Nat} (filled : chapters ≠ []) (fits : ∀ chapter ∈ chapters, chapter.Fits)
    (atLine : lexer.AtLine 0 (chapters.flatMap Chapter.write) tokens indents)
    (unrolled : unrollTo 1 tokens indents = (closed, left))
    (rolled : opened 0 closed left = (opening, [0])) :
    ∃ next later, lexer.Reaches next ∧ AtLine next 0 [] later [2, 0] ∧
      .blockEnd :: later = (chapters.flatMap Chapter.tokens).reverse ++ opening := by
  induction chapters generalizing lexer tokens indents closed left opening with
  | nil => exact absurd rfl filled
  | cons chapter others ih =>
      obtain ⟨own, rest⟩ := List.forall_mem_cons.mp fits
      rw [List.flatMap_cons] at atLine
      cases others with
      | nil =>
          have none : Opens [] := by
            rintro c first
            cases first
          simpa using reaches_chapter own none atLine unrolled rolled
      | cons second others =>
          have start : Opens ((second :: others).flatMap Chapter.write) :=
            opens_chapter (rest second List.mem_cons_self) _
          obtain ⟨next, later, reached, nextLine, shown⟩ := reaches_chapter own start atLine unrolled
            rolled
          obtain ⟨last, ending, reachedLast, lastLine, all⟩ := ih (by simp) rest nextLine rfl rfl
          exact ⟨last, ending, reached.trans reachedLast, lastLine, by rw [all, shown]; simp⟩

end Lexer

/-! The whole document. -/

def outlineTokens (chapters : List Chapter) : List Token :=
  [.blockMappingStart] ++ chapters.flatMap Chapter.tokens ++ [.blockEnd]

theorem run_outline {chapters : List Chapter} (filled : chapters ≠ [])
    (fits : ∀ chapter ∈ chapters, chapter.Fits) :
    (Lexer.ofText (chapters.flatMap Chapter.write)).run
        ((chapters.flatMap Chapter.write).length + 1) = .ok (outlineTokens chapters) := by
  have opens : Lexer.Opens (chapters.flatMap Chapter.write) := by
    obtain ⟨chapter, others, rfl⟩ := List.exists_cons_of_ne_nil filled
    exact Lexer.opens_chapter (fits chapter List.mem_cons_self) _
  obtain ⟨next, later, ⟨count, shorter, runs⟩, ends, all⟩ :=
    Lexer.reaches_chapters filled fits (Lexer.atLine_start opens) rfl rfl
  have enough : (chapters.flatMap Chapter.write).length + 1 =
      ((chapters.flatMap Chapter.write).length - count) + 1 + count := by
    have fuel : count + next.rest.length ≤ (chapters.flatMap Chapter.write).length := shorter
    omega
  have closed : (Lexer.unrollTo 0 later [2, 0]).1.reverse = outlineTokens chapters := by
    change (Token.blockEnd :: Token.blockEnd :: later).reverse = _
    rw [all]
    simp [outlineTokens]
  rw [enough, runs, Lexer.run_end ends, closed]

theorem printable_hexDigits (n width : Nat) : Printable (Style.hexDigits n width) := by
  have digits : ∀ d < 16, Style.isPrintable (Nat.digitChar d).toUpper = true := by decide
  induction width generalizing n with
  | zero => simp [Style.hexDigits, Printable]
  | succ width ih =>
      rw [Style.hexDigits]
      refine (ih (n / 16)).append ?_
      simpa [Printable] using digits (n % 16) (Nat.mod_lt n (by decide))

theorem printable_cons {c : Char} {text : List Char} (own : Style.isPrintable c = true)
    (rest : Printable text) : Printable (c :: text) :=
  List.forall_mem_cons.mpr ⟨own, rest⟩

theorem printable_escape (c : Char) : Printable (Style.escape c) := by
  rw [Style.escape]
  split
  · next bare =>
    simp only [Bool.and_eq_true] at bare
    simpa [Printable] using bare.1.1.1
  · cases short : Style.escapeLetter? c with
    | some letter =>
        unfold Style.escapeLetter? at short
        split at short <;> cases short <;> decide +kernel
    | none =>
        simp only [Style.escapeCode]
        refine printable_cons rfl ?_
        split
        · exact printable_cons rfl (printable_hexDigits _ 2)
        · split
          · exact printable_cons rfl (printable_hexDigits _ 4)
          · exact printable_cons rfl (printable_hexDigits _ 8)

theorem printable_replicate (width : Nat) : Printable (List.replicate width ' ') := by
  intro c member
  rw [List.eq_of_mem_replicate member]
  rfl

theorem printable_writeSingleFrom {indent text : List Char} (margin : Printable indent)
    (own : Printable text) (afterBreak : Bool) :
    Printable (Style.writeSingleFrom indent afterBreak text) := by
  have before (flag : Bool) : Printable (if flag then indent else []) := by
    cases flag
    · simp [Printable]
    · exact margin
  induction text generalizing afterBreak with
  | nil => exact (before afterBreak).append (by decide +kernel)
  | cons c rest ih =>
      obtain ⟨first, later⟩ := List.forall_mem_cons.mp own
      rw [Style.writeSingleFrom]
      split
      · exact printable_cons first (ih later true)
      · have quote : Printable (if c == '\x27' then ['\x27'] else []) := by
          split <;> decide +kernel
        exact ((before afterBreak).append quote).append (printable_cons first (ih later false))

theorem printable_writeLinesFrom {indent text : List Char} (margin : Printable indent)
    (own : Printable text) (atStart : Bool) :
    Printable (Style.writeLinesFrom indent atStart text) := by
  have before (flag : Bool) : Printable (if flag then indent else []) := by
    cases flag
    · simp [Printable]
    · exact margin
  induction text generalizing atStart with
  | nil => cases atStart <;> simp only [Style.writeLinesFrom] <;> decide +kernel
  | cons c rest ih =>
      obtain ⟨first, later⟩ := List.forall_mem_cons.mp own
      rw [Style.writeLinesFrom]
      split
      · exact printable_cons first (ih later true)
      · exact (before atStart).append (printable_cons first (ih later false))

theorem printable_linesHeader (text : List Char) : Printable (Style.linesHeader text) := by
  rw [Block.linesHeader_eq]
  generalize Block.hidesStep text = hides
  generalize Block.Lines.chomp text = chomp
  cases hides <;> cases chomp <;> decide +kernel

/-- What is written for any text is printable. -/
theorem printable_write (text : List Char) :
    Printable (Style.write (List.replicate Block.Lines.margin ' ') text) := by
  have margin := printable_replicate Block.Lines.margin
  have feed : Printable ['\n'] := by decide +kernel
  rw [Style.write]
  cases style : Style.ofText text with
  | plain => exact (Plain.printable_of_canBePlain (Lexer.ofText_plain style).2).append feed
  | single =>
      refine Printable.append ?_ feed
      exact printable_cons rfl
        (printable_writeSingleFrom margin (Lexer.ofText_single style).printable false)
  | double =>
      have escapes : Printable (text.flatMap Style.escape) := by
        intro c member
        obtain ⟨d, -, inside⟩ := List.mem_flatMap.mp member
        exact printable_escape d c inside
      refine Printable.append (printable_cons rfl (escapes.append ?_)) feed
      decide +kernel
  | lines =>
      refine (printable_linesHeader text).append (printable_cons rfl ?_)
      exact printable_writeLinesFrom margin (Lexer.ofText_lines style).2 true

theorem printable_word {text : List Char} (word : Plain.IsWord text) : Printable text :=
  fun c member => Plain.isPrintable_of_isWordChar (word.2 c member)

theorem printable_content (content : Content) : Printable content.write := by
  have feed : Printable ['\n'] := by decide +kernel
  cases content with
  | text s => exact printable_cons rfl (printable_write s)
  | number n => exact printable_cons rfl ((printable_word (Lexer.isWord_numeral n)).append feed)
  | truth b => exact printable_cons rfl ((printable_word (Lexer.isWord_truthName b)).append feed)
  | numbers ns =>
      refine printable_cons rfl fun c member => ?_
      obtain ⟨n, -, inside⟩ := List.mem_flatMap.mp member
      have dash : Printable [' ', ' ', '-', ' '] := by decide +kernel
      exact (dash.append (printable_word (Lexer.isWord_numeral n))).append feed c inside

theorem printable_chapter {chapter : Chapter} (fits : chapter.Fits) : Printable chapter.write := by
  have end_ : Printable [':', '\n'] := by decide +kernel
  refine ((printable_word fits.word).append end_).append fun c member => ?_
  obtain ⟨entry, own, inside⟩ := List.mem_flatMap.mp member
  have line := (printable_word (fits.entries entry own).word).append
    (printable_cons (rfl : Style.isPrintable ':' = true) (printable_content entry.content))
  exact (printable_replicate 2).append line c inside

/-- The tokens of a document that is written. -/
theorem ofText_outline {chapters : List Chapter} (filled : chapters ≠ [])
    (fits : ∀ chapter ∈ chapters, chapter.Fits) :
    Token.ofText (chapters.flatMap Chapter.write) = .ok (outlineTokens chapters) := by
  have printable : Printable (chapters.flatMap Chapter.write) := by
    intro c member
    obtain ⟨chapter, own, inside⟩ := List.mem_flatMap.mp member
    exact printable_chapter (fits chapter own) c inside
  have allowed : (chapters.flatMap Chapter.write).all isAllowed = true :=
    List.all_eq_true.mpr fun c member => isAllowed_of_isPrintable (printable c member)
  rw [Token.ofText, if_pos allowed]
  simp only [unifyBreaks_eq printable]
  exact run_outline filled fits

end Yaml

end MoteCapture

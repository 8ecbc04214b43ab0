import MoteCapture.Proofs.Yaml.Lines
import MoteCapture.Proofs.Yaml.Plain
import MoteCapture.Proofs.Yaml.Quoted
import MoteCapture.Yaml.Token

/-!
What the lexer makes of the lines of a written document. Between two lines it is in one state, however the
value before was written; and in whatever style a text is written behind a key, it is read as one token
that stands for it.
-/

namespace MoteCapture

namespace Yaml

namespace Place

variable {place : Place} {text : List Char} {c : Char}

def pass (place : Place) (text : List Char) : Place :=
  text.foldl Place.past place

theorem pass_append (place : Place) (text other : List Char) :
    place.pass (text ++ other) = (place.pass text).pass other :=
  List.foldl_append

theorem pass_unbroken (place : Place) (unbroken : ∀ c ∈ text, isBreak c = false) :
    (place.pass text).line = place.line ∧
      (place.pass text).column = place.column + text.length := by
  induction text generalizing place with
  | nil => exact ⟨rfl, rfl⟩
  | cons c rest ih =>
      obtain ⟨line, column⟩ := ih (place.past c)
        fun d member => unbroken d (List.mem_cons_of_mem c member)
      have own := unbroken c List.mem_cons_self
      simp only [past, own, Bool.false_eq_true, if_false] at line column
      refine ⟨by simpa [pass, past, own] using line, ?_⟩
      simpa [pass, past, own, Nat.add_assoc, Nat.add_comm 1] using column

theorem index_pass (place : Place) (text : List Char) :
    (place.pass text).index ≤ place.index + 4 * text.length := by
  induction text generalizing place with
  | nil => exact Nat.le_refl _
  | cons c rest ih =>
      have further := ih (place.past c)
      have size : (place.past c).index ≤ place.index + 4 := by
        have small : c.utf8Size ≤ 4 := c.utf8Size_le_four
        rw [past]
        split <;> exact Nat.add_le_add_left small _
      rw [List.length_cons]
      simp only [pass, List.foldl_cons] at *
      omega

theorem line_le_pass (place : Place) (text : List Char) : place.line ≤ (place.pass text).line := by
  induction text generalizing place with
  | nil => exact Nat.le_refl _
  | cons c rest ih =>
      have further := ih (place.past c)
      have step : place.line ≤ (place.past c).line := by
        rw [past]
        split
        · exact Nat.le_succ _
        · exact Nat.le_refl _
      exact step.trans further

/-- Behind a break and some spaces a new line is reached. -/
theorem pass_line (place : Place) (text : List Char) (break_ : isBreak c = true) (width : Nat) :
    (place.pass (text ++ c :: List.replicate width ' ')).column = width ∧
      place.line < (place.pass (text ++ c :: List.replicate width ' ')).line := by
  have spaces : ∀ d ∈ List.replicate width ' ', isBreak d = false := by
    intro d member
    rw [List.eq_of_mem_replicate member]
    rfl
  obtain ⟨line, column⟩ := pass_unbroken ((place.pass text).past c) spaces
  have before := line_le_pass place text
  simp only [past, break_, if_true, List.length_replicate, Nat.zero_add] at line column
  rw [pass_append]
  simp only [pass, List.foldl_cons, past, break_, if_true] at *
  exact ⟨column, by omega⟩

end Place

namespace Lexer

variable {lexer next : Lexer} {place : Place} {tokens : List Token} {indents : List Nat}
  {rest text : List Char} {c : Char} {keyAllowed : Bool}

theorem goTo_append (lexer : Lexer) (text : List Char) (whole : lexer.rest = text ++ rest) :
    lexer.goTo rest = { lexer with rest, place := lexer.place.pass text } := by
  have passed : lexer.rest.take (lexer.rest.length - rest.length) = text := by
    rw [whole, List.length_append, Nat.add_sub_cancel]
    exact List.take_left
  rw [goTo, passed]
  rfl

theorem skip_one (more : lexer.rest = c :: rest) :
    lexer.skip 1 = { lexer with rest, place := lexer.place.pass [c] } := by
  rw [skip, more]
  exact goTo_append lexer [c] more

theorem unroll_eq {least : Nat} {closed : List Token} {left : List Nat} (flow : lexer.inFlow = false)
    (unrolled : unrollTo least lexer.tokens lexer.indents = (closed, left)) :
    lexer.unroll least = { lexer with tokens := closed, indents := left } := by
  rw [unroll, flow, unrolled]
  rfl

def between (keyAllowed : Bool) (rest : List Char) (place : Place) (tokens : List Token)
    (indents : List Nat) : Lexer :=
  { rest, place, tokens, indents, key := none, outerKeys := [], keyAllowed }

def Stands (lexer standing : Lexer) : Prop :=
  lexer.skipToToken.expireKeys = .ok standing

/-- The lexer gets from one state to another, and takes a character for each token at least. -/
def Reaches (lexer next : Lexer) : Prop :=
  ∃ count, count + next.rest.length ≤ lexer.rest.length ∧
    ∀ fuel, run (fuel + count) lexer = run fuel next

theorem Reaches.trans {last : Lexer} (first : Reaches lexer next) (second : Reaches next last) :
    Reaches lexer last := by
  obtain ⟨count, shorter, runs⟩ := first
  obtain ⟨others, shorterStill, runsOn⟩ := second
  refine ⟨others + count, by omega, fun fuel => ?_⟩
  rw [← Nat.add_assoc, runs, runsOn]

theorem reaches_of_takeToken {standing : Lexer} (stands : lexer.Stands standing)
    (more : standing.rest = c :: rest)
    (taken : (standing.unroll (standing.place.column + 1)).takeToken c = .ok next)
    (shorter : next.rest.length < lexer.rest.length) : Reaches lexer next := by
  refine ⟨1, by omega, fun fuel => ?_⟩
  rw [Stands] at stands
  rw [run, stands]
  simp only [bind, Except.bind, more, taken]

def Opens (text : List Char) : Prop :=
  ∀ c ∈ text.head?, isBlank c = false ∧ isBreak c = false ∧ c ≠ '#' ∧ c ≠ byteOrderMark

theorem skipBetween_opens {inFlow startsLine : Bool} (opens : Opens rest) :
    skipBetween inFlow startsLine keyAllowed false rest = (keyAllowed, rest) := by
  cases rest with
  | nil => rfl
  | cons c rest =>
      obtain ⟨blank, unbroken, noComment, noMark⟩ := opens c rfl
      simp only [isBlank, Bool.or_eq_false_iff] at blank
      simp [skipBetween, blank, unbroken, noComment, noMark]

theorem skipBetween_spaces {inFlow startsLine : Bool} (opens : Opens rest) (width : Nat) :
    skipBetween inFlow startsLine keyAllowed false (List.replicate width ' ' ++ rest) =
      (keyAllowed, rest) := by
  induction width generalizing startsLine with
  | zero => exact skipBetween_opens opens
  | succ width ih => simpa [List.replicate_succ, skipBetween, isBreak] using ih

theorem skipToToken_spaces (width : Nat) (whole : lexer.rest = List.replicate width ' ' ++ rest)
    (opens : Opens rest) :
    lexer.skipToToken =
      { lexer with rest, place := lexer.place.pass (List.replicate width ' ') } := by
  rw [skipToToken, whole, skipBetween_spaces opens]
  simp only [goTo_append lexer _ whole]

theorem skipToToken_line {width : Nat} (flow : lexer.outerKeys = [])
    (whole : lexer.rest = '\n' :: (List.replicate width ' ' ++ rest)) (opens : Opens rest) :
    lexer.skipToToken =
      { lexer with
        rest, place := lexer.place.pass ('\n' :: List.replicate width ' '), keyAllowed := true } := by
  have broken : skipBetween lexer.inFlow (lexer.place.column == 0) lexer.keyAllowed false lexer.rest =
      (true, rest) := by
    rw [whole, skipBetween, inFlow, flow]
    simpa [isBreak] using skipBetween_spaces opens width
  rw [skipToToken, broken]
  simp only [goTo_append lexer ('\n' :: List.replicate width ' ') whole]

theorem stands_between_spaces (width : Nat) (opens : Opens rest) :
    Stands (between keyAllowed (List.replicate width ' ' ++ rest) place tokens indents)
      (between keyAllowed rest (place.pass (List.replicate width ' ')) tokens indents) := by
  rw [Stands, skipToToken_spaces width rfl opens]
  rfl

/-- The lexer is in front of a line, of which the spaces in front are told by their number. -/
def AtLine (lexer : Lexer) (width : Nat) (rest : List Char) (tokens : List Token)
    (indents : List Nat) : Prop :=
  rest.length ≤ lexer.rest.length ∧ ∃ place : Place, place.column = width ∧
    lexer.Stands (between true rest place tokens indents)

theorem atLine_between (opens : Opens rest) (place : Place) (tokens : List Token)
    (indents : List Nat) :
    AtLine (between true rest place tokens indents) place.column rest tokens indents :=
  ⟨Nat.le_refl _, place, rfl, stands_between_spaces 0 opens⟩

theorem atLine_break {width : Nat} (opens : Opens rest) :
    AtLine (between keyAllowed ('\n' :: (List.replicate width ' ' ++ rest)) place tokens indents)
      width rest tokens indents := by
  refine ⟨by simp +arith [between], _, (place.pass_line [] (c := '\n') rfl width).1, ?_⟩
  rw [Stands, skipToToken_line rfl rfl opens]
  rfl

theorem takeToken_plain (flow : lexer.outerKeys = []) (more : lexer.rest = c :: rest)
    (starts : Plain.starts false (c :: rest) = true)
    (noMark : lexer.place.column = 0 → isDocumentMark (c :: rest) = false) :
    lexer.takeToken c = lexer.takePlain := by
  have outside : lexer.inFlow = false := by simp [inFlow, flow]
  have other : ∀ d ∈ ['%', '[', ']', '\x7b', '\x7d', ',', '*', '&', '!', '|', '>', '\x27', '"'],
      c ≠ d := by
    rintro d member rfl
    simp only [List.mem_cons, List.not_mem_nil, or_false] at member
    rcases member with rfl | rfl | rfl | rfl | rfl | rfl | rfl | rfl | rfl | rfl | rfl | rfl | rfl <;>
      cases starts
  simp only [List.forall_mem_cons] at other
  have word : ∀ d ∈ ['-', '?', ':'], c = d → endsWord rest = false := by
    rintro d member rfl
    simp only [List.mem_cons, List.not_mem_nil, or_false] at member
    rcases member with rfl | rfl | rfl <;> simpa [Plain.starts] using starts
  have marks : ∀ d ∈ ['-', '?', ':'], (c == d && endsWord rest) = false := by
    intro d member
    by_cases same : c = d
    · simp [word d member same]
    · simp [same]
  simp only [List.forall_mem_cons] at marks
  have noDocument : (lexer.place.column == 0 && isDocumentMark (c :: rest)) = false := by
    by_cases first : lexer.place.column = 0
    · simp [noMark first]
    · simp [first]
  rw [takeToken]
  simp only [more, List.drop_succ_cons, List.drop_zero, outside, Bool.false_or, noDocument, marks,
    starts, Quoted.singleQuote]
  simp [other]

theorem atLine_start (opens : Opens text) : AtLine (ofText text) 0 text [] [] :=
  atLine_between opens .start [] []

/-- At the end all maps are closed. -/
theorem run_end {lexer : Lexer} {width : Nat} (atLine : lexer.AtLine width [] tokens indents)
    (fuel : Nat) : run (fuel + 1) lexer = .ok (unrollTo 0 tokens indents).1.reverse := by
  obtain ⟨-, place, -, stands⟩ := atLine
  have closed : (between true [] place tokens indents).unroll 0 =
      between true [] place (unrollTo 0 tokens indents).1 (unrollTo 0 tokens indents).2 :=
    unroll_eq rfl rfl
  rw [Stands] at stands
  rw [run, stands]
  change ((between true [] place tokens indents).closeAll >>= fun lexer =>
    Except.ok lexer.tokens.reverse) = _
  rw [closeAll, closed]
  rfl

end Lexer

/-! Texts behind a key. -/

namespace Lexer

variable {lexer next : Lexer} {place : Place} {tokens : List Token} {indents : List Nat}
  {rest text : List Char} {c : Char} {keyAllowed : Bool} {indent width : Nat} {outer : List Nat}

theorem Opens.startsLine {least : Nat} (opens : Opens rest) (outside : width < least) :
    StartsLine least width rest :=
  ⟨outside, fun c first => ⟨(opens c first).1, (opens c first).2.1⟩⟩

theorem unroll_inside {least : Nat} (inside : indent < least) :
    (between keyAllowed rest place tokens (indent :: outer)).unroll least =
      between keyAllowed rest place tokens (indent :: outer) :=
  unroll_eq rfl (if_neg (Nat.not_le.mpr inside))

/-- A value starts behind the space after a colon. -/
theorem reaches_value {source : List Char} (inside : indent < place.column)
    (opens : Opens (c :: source))
    (taken : (between false (c :: source) (place.pass [' ']) tokens (indent :: outer)).takeToken c =
      .ok next) (shorter : next.rest.length ≤ source.length) :
    Reaches (between false (' ' :: c :: source) place tokens (indent :: outer)) next := by
  have further : indent < (place.pass [' ']).column + 1 := by
    have column : (place.pass [' ']).column = place.column + 1 := rfl
    omega
  refine reaches_of_takeToken (stands_between_spaces 1 opens) (rfl : _ = c :: source) ?_
    (by simp only [between, List.length_cons]; omega)
  rw [← taken]
  exact congrArg (takeToken c) (unroll_inside further)

theorem opens_plain (plain : Style.canBePlain text = true) (filled : text ≠ []) (next : List Char) :
    Opens (text ++ next) := by
  have starts := Plain.starts_of_canBePlain plain filled next
  obtain ⟨c, rest, rfl⟩ := List.exists_cons_of_ne_nil filled
  have printable := Plain.printable_of_canBePlain plain c List.mem_cons_self
  rintro d first
  cases first
  refine ⟨Plain.not_isBlank_head plain,
    (Plain.canBePlain_iff.mp plain).2.1 c List.mem_cons_self, ?_, ?_⟩
  · rintro rfl
    cases starts
  · rintro rfl
    cases printable

theorem takePlain_value {source passed : List Char} (whole : source = passed ++ rest)
    (read : Plain.readFrom false (indent + 1) place.column .none [] source = .ok ⟨text, true, rest⟩) :
    (between false source place tokens (indent :: outer)).takePlain =
      .ok (between true rest (place.pass passed) (.scalar true text :: tokens) (indent :: outer)) := by
  have reached := goTo_append (between false source place tokens (indent :: outer)) passed whole
  have saved : (between false source place tokens (indent :: outer)).saveKey =
      .ok (between false source place tokens (indent :: outer)) := rfl
  have least : (between false source place tokens (indent :: outer)).leastColumn = indent + 1 := rfl
  have outside : (between false source place tokens (indent :: outer)).inFlow = false := rfl
  rw [takePlain, saved]
  simp only [bind, Except.bind, least, outside]
  change (Plain.readFrom false (indent + 1) place.column .none [] source >>= _) = _
  rw [read]
  simp only [bind, Except.bind, reached]
  rfl

theorem reaches_plain (plain : Style.canBePlain text = true) (filled : text ≠ [])
    (inside : indent < place.column) (near : width ≤ indent) (opens : Opens rest) :
    ∃ next, Reaches (between false (' ' :: (text ++ '\n' :: (List.replicate width ' ' ++ rest))) place
        tokens (indent :: outer)) next ∧
      AtLine next width rest (.scalar true text :: tokens) (indent :: outer) := by
  have start := opens_plain plain filled ('\n' :: (List.replicate width ' ' ++ rest))
  have starts := Plain.starts_of_canBePlain plain filled ('\n' :: (List.replicate width ' ' ++ rest))
  have column : (place.pass [' ']).column = place.column + 1 := rfl
  have far : indent + 1 ≤ (place.pass [' ']).column := by omega
  have read := Plain.readFrom_plain plain filled far (opens.startsLine (Nat.lt_succ_of_le near))
  obtain ⟨c, source, rfl⟩ := List.exists_cons_of_ne_nil filled
  let reached := (place.pass [' ']).pass (c :: source ++ '\n' :: List.replicate width ' ')
  refine ⟨between true rest reached (.scalar true (c :: source) :: tokens) (indent :: outer),
    reaches_value inside start ?_ ?_, ?_⟩
  · have outside : (place.pass [' ']).column ≠ 0 := by omega
    refine (takeToken_plain rfl rfl starts (fun first => absurd first outside)).trans ?_
    exact takePlain_value (by simp) read
  · simp +arith [between]
  · have atLine := atLine_between opens reached (.scalar true (c :: source) :: tokens)
      (indent :: outer)
    rwa [(Place.pass_line _ (c :: source) (c := '\n') rfl width).1] at atLine

theorem takeQuoted_value {isDouble : Bool} {body : List Char}
    (read : Quoted.read isDouble (body ++ rest) = .ok (text, rest)) (quote : Char) :
    (between false (quote :: (body ++ rest)) place tokens (indent :: outer)).takeQuoted isDouble =
      .ok (between false rest (place.pass (quote :: body)) (.scalar false text :: tokens)
        (indent :: outer)) := by
  have reached := goTo_append (between false (quote :: (body ++ rest)) place tokens (indent :: outer))
    (quote :: body) rfl
  change (Quoted.read isDouble (body ++ rest) >>= _) = _
  rw [read]
  simp only [bind, Except.bind, reached]
  rfl

def quoteOf (isDouble : Bool) : Char :=
  if isDouble then '"' else Quoted.singleQuote

theorem takeToken_quote {isDouble : Bool} {body : List Char} :
    (between keyAllowed (quoteOf isDouble :: body) place tokens indents).takeToken
        (quoteOf isDouble) =
      (between keyAllowed (quoteOf isDouble :: body) place tokens indents).takeQuoted isDouble := by
  cases isDouble <;> simp [takeToken, quoteOf, between, inFlow, isDocumentMark, Quoted.singleQuote]

theorem reaches_quoted {isDouble : Bool} {body : List Char}
    (read : Quoted.read isDouble (body ++ '\n' :: (List.replicate width ' ' ++ rest)) =
      .ok (text, '\n' :: (List.replicate width ' ' ++ rest)))
    (inside : indent < place.column) (opens : Opens rest) :
    ∃ next, Reaches
        (between false
          (' ' :: quoteOf isDouble :: (body ++ '\n' :: (List.replicate width ' ' ++ rest))) place tokens
          (indent :: outer)) next ∧
      AtLine next width rest (.scalar false text :: tokens) (indent :: outer) := by
  have start (source : List Char) : Opens (quoteOf isDouble :: source) := by
    rintro c first
    cases first
    cases isDouble <;> decide
  exact ⟨_, reaches_value inside (start _) (takeToken_quote.trans (takeQuoted_value read _))
    (by simp +arith [between]), atLine_break opens⟩

/-! Lines. -/

/-- Lines that are written end with a break. -/
theorem writeLinesFrom_break (margin text : List Char) (atStart : Bool)
    (more : atStart = false ∨ text ≠ []) :
    ∃ before c, Style.writeLinesFrom margin atStart text = before ++ [c] ∧ isBreak c = true := by
  induction text generalizing atStart with
  | nil =>
      have inLine : atStart = false := more.resolve_right (by simp)
      subst inLine
      exact ⟨[], '\n', rfl, rfl⟩
  | cons c rest ih =>
      rw [Style.writeLinesFrom]
      split
      · next break_ =>
        by_cases last : rest = []
        · subst last
          exact ⟨[], c, rfl, break_⟩
        · obtain ⟨before, d, lines, ends⟩ := ih true (.inr last)
          exact ⟨c :: before, d, by simp [lines], ends⟩
      · obtain ⟨before, d, lines, ends⟩ := ih false (.inl rfl)
        exact ⟨(if atStart then margin else []) ++ c :: before, d, by simp [lines], ends⟩

theorem takeBlock_value {signs : List Char}
    (read : Block.read false (indent + 1) (signs ++ rest) = .ok (text, rest)) :
    (between false ('|' :: (signs ++ rest)) place tokens (indent :: outer)).takeBlock false =
      .ok (between true rest (place.pass ('|' :: signs)) (.scalar false text :: tokens)
        (indent :: outer)) := by
  have reached := goTo_append (between false ('|' :: (signs ++ rest)) place tokens (indent :: outer))
    ('|' :: signs) rfl
  change (Block.read false (indent + 1) (signs ++ rest) >>= _) = _
  rw [read]
  simp only [bind, Except.bind]
  change Except.ok { ((between false ('|' :: (signs ++ rest)) place tokens (indent :: outer)).goTo
    rest).emit _ with keyAllowed := true } = _
  rw [reached]
  rfl

theorem takeToken_bar {body : List Char} :
    (between keyAllowed ('|' :: body) place tokens indents).takeToken '|' =
      (between keyAllowed ('|' :: body) place tokens indents).takeBlock false := by
  simp [takeToken, between, inFlow, isDocumentMark]

theorem reaches_lines (filled : text ≠ []) (printable : Printable text) (inside : 2 < place.column)
    (near : width ≤ 2) (opens : Opens rest) :
    ∃ next, Reaches
        (between false (' ' :: (Style.linesHeader text ++ '\n' ::
          (Style.writeLinesFrom (List.replicate Block.Lines.margin ' ') true text ++
            (List.replicate width ' ' ++ rest)))) place tokens (2 :: outer)) next ∧
      AtLine next width rest (.scalar false text :: tokens) (2 :: outer) := by
  have line : StartsLine Block.Lines.margin width rest :=
    opens.startsLine (by simp only [Block.Lines.margin]; omega)
  obtain ⟨signs, header, read⟩ := Block.read_lines filled printable line
  obtain ⟨before, c, lines, break_⟩ := writeLinesFrom_break
    (List.replicate Block.Lines.margin ' ') text true (.inr filled)
  have whole : signs ++ '\n' ::
      (Style.writeLinesFrom (List.replicate Block.Lines.margin ' ') true text ++
        (List.replicate width ' ' ++ rest)) =
      (signs ++ '\n' :: before ++ c :: List.replicate width ' ') ++ rest := by
    simp [lines]
  have start (source : List Char) : Opens ('|' :: source) := by
    rintro d first
    cases first
    decide
  rw [whole] at read
  rw [header, List.cons_append, whole]
  refine ⟨_, reaches_value inside (start _) (takeToken_bar.trans (takeBlock_value read))
    (by simp +arith [between]), ?_⟩
  have atLine := atLine_between opens
    ((place.pass [' ']).pass ('|' :: (signs ++ '\n' :: before ++ c :: List.replicate width ' ')))
    (.scalar false text :: tokens) (2 :: outer)
  rwa [← List.cons_append, (Place.pass_line _ _ break_ width).1] at atLine

theorem ofText_plain (style : Style.ofText text = .plain) :
    Style.isReadAsText text = true ∧ Style.canBePlain text = true := by
  rw [Style.ofText] at style
  split at style
  · split at style <;> cases style
  · split at style
    · next plain => exact Bool.and_eq_true_iff.mp plain
    · split at style <;> cases style

theorem ofText_single (style : Style.ofText text = .single) : Quoted.Lasting text := by
  rw [Style.ofText] at style
  split at style
  · split at style <;> cases style
  · next feedless =>
    split at style
    · cases style
    · split at style
      · cases style
      · next bare =>
        simp only [Bool.or_eq_true, not_or, Bool.not_eq_true] at bare
        obtain ⟨printable, spaceBreak⟩ := Plain.needsEscapes_eq_false_iff.mp bare.1
        exact ⟨printable, by simpa using feedless, spaceBreak, bare.2⟩

theorem ofText_lines (style : Style.ofText text = .lines) : text ≠ [] ∧ Printable text := by
  rw [Style.ofText] at style
  split at style
  · next feed =>
    split at style
    · cases style
    · next bare =>
      simp only [Bool.or_eq_true, not_or, Bool.not_eq_true] at bare
      refine ⟨?_, (Plain.needsEscapes_eq_false_iff.mp bare.1).1⟩
      rintro rfl
      cases feed
  · split at style
    · cases style
    · split at style <;> cases style

/-- Whatever style a text is written in, it becomes one token. -/
theorem reaches_text (text : List Char) (inside : 2 < place.column) (near : width ≤ 2)
    (opens : Opens rest) :
    ∃ next, Reaches
        (between false (' ' :: (Style.write (List.replicate Block.Lines.margin ' ') text ++
          (List.replicate width ' ' ++ rest))) place tokens (2 :: outer)) next ∧
      AtLine next width rest (.scalar (decide (Style.ofText text = .plain)) text :: tokens)
        (2 :: outer) := by
  have line : ∀ c ∈ ('\n' :: (List.replicate width ' ' ++ rest)).head?, c ≠ Quoted.singleQuote := by
    rintro c first
    cases first
    decide
  rw [Style.write]
  cases style : Style.ofText text with
  | plain =>
      obtain ⟨asText, plain⟩ := ofText_plain style
      have filled : text ≠ [] := by
        rintro rfl
        cases asText
      simpa using reaches_plain plain filled inside near opens
  | single =>
      have read := Quoted.read_single (ofText_single style) line
      simpa [Style.writeSingle, quoteOf, Quoted.singleQuote, Block.Lines.margin] using
        reaches_quoted read inside opens
  | double =>
      have read : Quoted.read true ((text.flatMap Style.escape ++ ['"']) ++
          '\n' :: (List.replicate width ' ' ++ rest)) =
            .ok (text, '\n' :: (List.replicate width ' ' ++ rest)) := by
        simpa using Quoted.read_double text _
      simpa [Style.writeDouble, quoteOf] using reaches_quoted read inside opens
  | lines =>
      obtain ⟨filled, printable⟩ := ofText_lines style
      simpa using reaches_lines filled printable inside near opens

end Lexer

end Yaml

end MoteCapture

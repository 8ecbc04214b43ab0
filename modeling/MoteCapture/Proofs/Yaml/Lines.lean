import MoteCapture.Proofs.Yaml.Quoted
import MoteCapture.Yaml.Scalar

/-!
Texts that are written line by line are read as what was written. What was read is kept in three
parts, the lines, the break after the last one and the breaks of empty lines behind it; what is said
in front of the lines tells which of them count.
-/

namespace MoteCapture.Yaml.Block

namespace Lines

variable {lines : Lines} {done text next : List Char} {c : Char} {least : Nat}

def margin : Nat := 4

structure Held (atStart : Bool) (done : List Char) (lines : Lines) : Prop where
  whole : lines.text.reverse ++ (lines.leading ++ lines.trailing) = done
  breaks : ∀ c ∈ lines.leading ++ lines.trailing, isBreak c = true
  last : ∀ c ∈ lines.text.head?, isBreak c = false
  single : lines.leading.length ≤ 1
  place : if atStart then lines.inLine = false ∧ lines.column = 0 ∧
      (lines.leading = [] → lines.text = [])
    else lines.inLine = true ∧ lines.leading = [] ∧ lines.trailing = []

theorem readFrom_char (held : Held false done lines) (unbroken : isBreak c = false)
    (known : lines.indent = some margin) :
    ∃ later, readFrom false least lines (c :: next) = readFrom false least later next ∧
      Held false (done ++ [c]) later ∧ later.indent = some margin := by
  obtain ⟨inLine, leading, trailing⟩ := held.place
  refine ⟨{ lines with text := c :: lines.text }, by simp [readFrom, inLine, unbroken], ?_, known⟩
  refine ⟨?_, held.breaks, ?_, held.single, held.place⟩
  · simp [← held.whole, leading, trailing]
  · simpa using unbroken

theorem readFrom_break (held : Held false done lines) (break_ : isBreak c = true)
    (known : lines.indent = some margin) :
    ∃ later, readFrom false least lines (c :: next) = readFrom false least later next ∧
      Held true (done ++ [c]) later ∧ later.indent = some margin := by
  obtain ⟨inLine, leading, trailing⟩ := held.place
  refine ⟨{ lines with inLine := false, column := 0, leading := [c] },
    by simp [readFrom, inLine, break_], ?_, known⟩
  refine ⟨?_, ?_, held.last, by simp, by simp⟩
  · simp [← held.whole, leading, trailing]
  · simp [trailing, break_]

theorem readFrom_emptyLine (held : Held true done lines) (break_ : isBreak c = true)
    (known : lines.indent = some margin) :
    ∃ later, readFrom false least lines (c :: next) = readFrom false least later next ∧
      Held true (done ++ [c]) later ∧ later.indent = some margin := by
  obtain ⟨inLine, column, first⟩ := held.place
  have blank := isBlank_eq_false_of_isBreak break_
  simp only [isBlank, Bool.or_eq_false_iff] at blank
  refine ⟨{ lines with
      widest := max lines.widest lines.column, column := 0, trailing := lines.trailing ++ [c] },
    by simp [readFrom, inLine, break_, blank], ?_, known⟩
  refine ⟨?_, ?_, held.last, held.single, inLine, rfl, first⟩
  · simp [← held.whole]
  · have old := held.breaks
    simp only [List.forall_mem_append, List.forall_mem_singleton] at *
    exact ⟨old.1, old.2, break_⟩

theorem readFrom_indent (least : Nat) (next : List Char) (inLine : lines.inLine = false) (width : Nat)
    (near : lines.indent = none ∨ lines.indent = some margin ∧ lines.column + width ≤ margin) :
    readFrom false least lines (List.replicate width ' ' ++ next) =
      readFrom false least { lines with column := lines.column + width } next := by
  induction width generalizing lines with
  | zero => rfl
  | succ width ih =>
      have indenting : lines.isIndenting = true := by
        rcases near with none | ⟨some, inside⟩
        · simp [isIndenting, none]
        · simp only [isIndenting, some, decide_eq_true_eq]
          omega
      have step : readFrom false least lines (List.replicate (width + 1) ' ' ++ next) =
          readFrom false least { lines with column := lines.column + 1 }
            (List.replicate width ' ' ++ next) := by
        simp [List.replicate_succ, readFrom, inLine, indenting]
      have further : lines.indent = none ∨
          lines.indent = some margin ∧ lines.column + 1 + width ≤ margin :=
        near.imp_right fun some => ⟨some.1, by have := some.2; omega⟩
      have rest : readFrom false least { lines with column := lines.column + 1 }
          (List.replicate width ' ' ++ next) = _ := ih inLine further
      rw [step, rest]
      simp [Nat.add_comm, Nat.add_left_comm]

theorem readFrom_first (inLine : lines.inLine = false) (unbroken : isBreak c = false)
    (noTab : c ≠ '\t') (text : (lines.isIndenting && c == ' ') = false)
    (settled : lines.settled least = lines.column) :
    readFrom false least lines (c :: next) =
      readFrom false least { lines.start false c with indent := some lines.column } next := by
  rw [readFrom]
  simp [inLine, text, noTab, unbroken, settled]

-- The line takes what is pending in front of it.
theorem held_start (held : Held true done lines) (unbroken : isBreak c = false) (column : Nat) :
    Held false (done ++ [c])
      { { lines with column }.start false c with indent := some column } := by
  have order : lines.leading.reverse = lines.leading := by
    have single := held.single
    match leading : lines.leading, single with
    | [], _ => rfl
    | [c], _ => rfl
  refine ⟨?_, by simp [Lines.start], ?_, by simp [Lines.start], by simp [Lines.start]⟩
  · simp [Lines.start, joined, order, ← held.whole]
  · simpa [Lines.start] using unbroken

def Settles (c : Char) (lines : Lines) : Prop :=
  lines.indent = some margin ∨ lines.indent = none ∧ lines.widest = 0 ∧ c ≠ ' '

theorem readFrom_start (held : Held true done lines) (unbroken : isBreak c = false)
    (noTab : c ≠ '\t') (settles : lines.Settles c) (small : least ≤ margin) (next : List Char) :
    ∃ later, readFrom false least lines (List.replicate margin ' ' ++ c :: next) =
        readFrom false least later next ∧
      Held false (done ++ [c]) later ∧ later.indent = some margin := by
  obtain ⟨inLine, column, first⟩ := held.place
  have indented := readFrom_indent least (c :: next) inLine margin
    (settles.symm.imp And.left fun known => ⟨known, by omega⟩)
  rw [column, Nat.zero_add] at indented
  have settled : settled least { lines with column := margin } = margin := by
    rcases settles with known | ⟨none, widest, -⟩
    · simp [Lines.settled, known]
    · simp [Lines.settled, none, widest, Nat.max_eq_left small]
  have text : (isIndenting { lines with column := margin } && c == ' ') = false := by
    rcases settles with known | ⟨-, -, other⟩
    · simp [isIndenting, known]
    · simp [other]
  exact ⟨_, indented.trans (readFrom_first inLine unbroken noTab text settled),
    held_start held unbroken margin, rfl⟩

def closing : (atStart : Bool) → List Char → List Char
  | atStart, [] => if atStart then [] else ['\n']
  | _, c :: rest => closing (isBreak c) rest

theorem readFrom_rest {atStart : Bool} (held : Held atStart done lines)
    (known : lines.indent = some margin) (printable : Printable text) (small : least ≤ margin)
    (next : List Char) :
    ∃ later, readFrom false least lines
        (Style.writeLinesFrom (List.replicate margin ' ') atStart text ++ next) =
          readFrom false least later next ∧
      Held true (done ++ (text ++ closing atStart text)) later ∧ later.indent = some margin := by
  induction text generalizing atStart done lines with
  | nil =>
      cases atStart with
      | true => exact ⟨lines, rfl, by simpa [closing] using held, known⟩
      | false => exact readFrom_break held rfl known
  | cons c rest ih =>
      have after : Printable rest := fun d member => printable d (List.mem_cons_of_mem c member)
      have onward {source : List Char} {again : Bool}
          (step : ∃ later, readFrom false least lines source =
              readFrom false least later
                (Style.writeLinesFrom (List.replicate margin ' ') again rest ++ next) ∧
            Held again (done ++ [c]) later ∧ later.indent = some margin) :
          ∃ later, readFrom false least lines source = readFrom false least later next ∧
            Held true (done ++ (c :: rest ++ closing again rest)) later ∧
              later.indent = some margin := by
        obtain ⟨later, reached, heldLater, knownLater⟩ := step
        obtain ⟨last, rest, heldLast, knownLast⟩ := ih heldLater knownLater after
        exact ⟨last, reached.trans rest, by simpa using heldLast, knownLast⟩
      rw [Style.writeLinesFrom, closing]
      split
      · next break_ =>
        rw [break_]
        cases atStart with
        | true => exact onward (readFrom_emptyLine held break_ known)
        | false => exact onward (readFrom_break held break_ known)
      · next unbroken =>
        have own : isBreak c = false := by simpa using unbroken
        rw [own]
        cases atStart with
        | true => 
            have noTab := (isPrintable_cases (printable c List.mem_cons_self)).2.2
            simpa using onward (readFrom_start held own noTab (.inl known) small _)
        | false => exact onward (readFrom_char held own known)

theorem readFrom_all {rest : List Char} (empty : Held true [] lines) (settles : lines.Settles c)
    (unbroken : lines.indent = none → isBreak c = false) (printable : Printable (c :: rest))
    (small : least ≤ margin) :
    ∃ later, readFrom false least lines
        (Style.writeLinesFrom (List.replicate margin ' ') true (c :: rest) ++ next) =
          readFrom false least later next ∧
      Held true (c :: rest ++ closing true (c :: rest)) later ∧ later.indent = some margin := by
  by_cases known : lines.indent = some margin
  · simpa using readFrom_rest empty known printable small next
  · have none : lines.indent = none := (settles.resolve_left known).1
    have own := unbroken none
    have noTab := (isPrintable_cases (printable c List.mem_cons_self)).2.2
    have after : Printable rest := fun d member => printable d (List.mem_cons_of_mem c member)
    obtain ⟨first, reached, heldFirst, knownFirst⟩ := readFrom_start empty own noTab settles small
      (Style.writeLinesFrom (List.replicate margin ' ') false rest ++ next)
    obtain ⟨later, last, heldLater, knownLater⟩ := readFrom_rest heldFirst knownFirst after small
      next
    refine ⟨later, Eq.trans ?_ (reached.trans last), ?_, knownLater⟩
    · simp [Style.writeLinesFrom, own]
    · simpa [closing, own] using heldLater

theorem readFrom_outside (inLine : lines.inLine = false) (blank : isBlank c = false)
    (unbroken : isBreak c = false) (outside : lines.column ≠ lines.settled least) :
    readFrom false least lines (c :: next) = .ok (lines, c :: next) := by
  simp only [isBlank, Bool.or_eq_false_iff] at blank
  rw [readFrom]
  simp [inLine, blank, unbroken, outside]

/-- The lines end before a line that is not indented as far. -/
theorem readFrom_end {width : Nat} {rest : List Char} (held : Held true done lines)
    (known : lines.indent = some margin) (line : StartsLine margin width rest) :
    readFrom false least lines (List.replicate width ' ' ++ rest) =
      .ok ({ lines with column := width }, rest) := by
  obtain ⟨inLine, column, -⟩ := held.place
  have near := line.outside
  rw [readFrom_indent least rest inLine width (.inr ⟨known, by omega⟩), column, Nat.zero_add]
  cases rest with
  | nil => rfl
  | cons c rest =>
      obtain ⟨blank, unbroken⟩ := line.word c rfl
      have outside : width ≠ settled least { lines with column := width } := by
        simp only [settled, known, Option.getD_some]
        omega
      exact readFrom_outside inLine blank unbroken outside

def chomp (text : List Char) : Chomp :=
  match text.reverse with
  | [] => .strip
  | [last] => if isBreak last then .keep else .strip
  | last :: before :: _ => if !isBreak last then .strip else if isBreak before then .keep else .clip

/-- There is one way to tell a text from the breaks after it. -/
theorem split_unique {body other breaks others : List Char}
    (same : body ++ breaks = other ++ others) (own : ∀ c ∈ breaks, isBreak c = true)
    (last : ∀ c ∈ other.getLast?, isBreak c = false) (own' : ∀ c ∈ others, isBreak c = true)
    (last' : ∀ c ∈ body.getLast?, isBreak c = false) : body = other ∧ breaks = others := by
  have nothing {text between : List Char} (own : ∀ c ∈ between, isBreak c = true)
      (last : ∀ c ∈ (text ++ between).getLast?, isBreak c = false) : between = [] := by
    cases found : between.getLast? with
    | none => exact List.getLast?_eq_none_iff.mp found
    | some c =>
        have unbroken := last c (by simp [List.getLast?_append, found])
        rw [own c (List.mem_of_mem_getLast? found)] at unbroken
        cases unbroken
  rcases List.append_eq_append_iff.mp same with ⟨between, rfl, rfl⟩ | ⟨between, rfl, rfl⟩
  · have empty := nothing (fun c member => own c (List.mem_append_left _ member)) last
    simp [empty]
  · have empty := nothing (fun c member => own' c (List.mem_append_left _ member)) last'
    simp [empty]

theorem closing_concat (atStart : Bool) (text : List Char) (c : Char) :
    closing atStart (text ++ [c]) = if isBreak c then [] else ['\n'] := by
  induction text generalizing atStart with
  | nil => rfl
  | cons d rest ih => exact ih (isBreak d)

theorem Held.split (held : Held true (text ++ closing true text) lines) (body breaks : List Char)
    (same : body ++ breaks = text ++ closing true text) (own : ∀ c ∈ breaks, isBreak c = true)
    (last : ∀ c ∈ body.getLast?, isBreak c = false) :
    lines.text.reverse = body ∧ lines.leading ++ lines.trailing = breaks :=
  split_unique (held.whole.trans same.symm) held.breaks last own fun c ends =>
    held.last c (by simpa using ends)

theorem finish_keep (held : Held true (text ++ closing true text) lines)
    (closes : closing true text = []) : lines.finish .keep = text := by
  simpa [finish, closes] using held.whole

theorem closing_break {before : List Char} {last : Char} (whole : text = before ++ [last])
    (broken : isBreak last = true) : closing true text = [] := by
  rw [whole, closing_concat, if_pos broken]

theorem finish_strip {before : List Char} {last : Char} (whole : text = before ++ [last])
    (held : Held true (text ++ closing true text) lines) (unbroken : isBreak last = false) :
    lines.finish .strip = text := by
  have closes : closing true text = ['\n'] := by simp [whole, closing_concat, unbroken]
  refine (held.split text ['\n'] (by rw [closes]) ?_ ?_).1
  · simp [isBreak]
  · simpa [whole] using unbroken

/-- With what is said about its end the text is had again. -/
theorem finish_chomp (held : Held true (text ++ closing true text) lines) :
    lines.finish (chomp text) = text := by
  rw [chomp]
  split
  · next empty =>
    have none : text = [] := List.reverse_eq_nil_iff.mp empty
    subst none
    exact (held.split [] [] rfl (by simp) (by simp)).1
  · next last only =>
    have whole : text = [] ++ [last] := List.reverse_eq_iff.mp only
    split
    · next broken => exact finish_keep held (closing_break whole broken)
    · next unbroken => exact finish_strip whole held (by simpa using unbroken)
  · next last before rest ends =>
    have whole : text = (rest.reverse ++ [before]) ++ [last] := by
      simpa using List.reverse_eq_iff.mp ends
    split
    · next unbroken => exact finish_strip whole held (by simpa using unbroken)
    · next notUnbroken =>
      have broken : isBreak last = true := by simpa using notUnbroken
      have closes := closing_break whole broken
      split
      · exact finish_keep held closes
      · next inner =>
        obtain ⟨body, breaks⟩ := held.split (rest.reverse ++ [before]) [last]
          (by rw [closes, List.append_nil, whole]) (by simpa using broken) (by simpa using inner)
        have filled : lines.leading ≠ [] := by
          intro none
          rw [held.place.2.2 none] at body
          simp at body
        have only : lines.leading = [last] := by
          cases first : lines.leading with
          | nil => exact absurd first filled
          | cons c rest =>
              rw [first] at breaks
              simp_all
        rw [finish, body, only, whole]

def initial (indent : Option Nat) : Lines :=
  { indent, widest := 0, column := 0, inLine := false, text := [], leading := [], trailing := []
    afterBlank := false }

theorem held_initial (indent : Option Nat) : Held true [] (initial indent) :=
  ⟨rfl, by simp [initial], by simp [initial], by simp [initial], rfl, rfl, fun _ => rfl⟩

theorem readFrom_written {indent : Option Nat} {width : Nat} {others rest : List Char}
    (settles : (initial indent).Settles c) (unbroken : indent = none → isBreak c = false)
    (printable : Printable (c :: others)) (line : StartsLine margin width rest)
    (small : least ≤ margin) :
    ∃ lines, readFrom false least (initial indent)
        (Style.writeLinesFrom (List.replicate margin ' ') true (c :: others) ++
          (List.replicate width ' ' ++ rest)) = .ok (lines, rest) ∧
      lines.finish (chomp (c :: others)) = c :: others := by
  obtain ⟨later, reached, held, known⟩ :=
    readFrom_all (held_initial indent) settles unbroken printable small
  -- The column that is reached last makes no difference.
  have whole := finish_chomp held
  exact ⟨_, reached.trans (readFrom_end held known line), whole⟩

end Lines

/-! What is said in front. -/

/-- Whether the first line does not show by how much it is indented. -/
def hidesStep (text : List Char) : Bool :=
  text.head?.any fun c => Style.isSpace c || isBreak c

def chompSign : Chomp → List Char
  | .strip => ['-']
  | .clip => []
  | .keep => ['+']

theorem linesHeader_eq (text : List Char) :
    Style.linesHeader text =
      '|' :: ((if hidesStep text then ['2'] else []) ++ chompSign (Lines.chomp text)) := by
  rw [Style.linesHeader, Lines.chomp, hidesStep]
  congr 2
  cases text.reverse with
  | nil => rfl
  | cons last before =>
      cases before with
      | nil => by_cases broken : isBreak last = true <;> simp [broken, chompSign]
      | cons d rest =>
          by_cases broken : isBreak last = true <;> by_cases inner : isBreak d = true <;>
            simp [broken, inner, chompSign]

theorem readHeader_signs (hides : Bool) (chomp : Chomp) (next : List Char) :
    readHeader ((if hides then ['2'] else []) ++ chompSign chomp ++ '\n' :: next) =
      .ok (⟨chomp, if hides then some 2 else none⟩, '\n' :: next) := by
  cases hides <;> cases chomp <;> cases next <;> rfl

/-- Lines that are written are read again. -/
theorem read_lines {width : Nat} {text rest : List Char} (filled : text ≠ [])
    (printable : Printable text) (line : StartsLine Lines.margin width rest) :
    ∃ signs, Style.linesHeader text = '|' :: signs ∧
      read false 3 (signs ++ '\n' ::
          (Style.writeLinesFrom (List.replicate Lines.margin ' ') true text ++
            (List.replicate width ' ' ++ rest))) = .ok (text, rest) := by
  refine ⟨_, linesHeader_eq text, ?_⟩
  obtain ⟨c, others, rfl⟩ := List.exists_cons_of_ne_nil filled
  have shown : hidesStep (c :: others) = (Style.isSpace c || isBreak c) := rfl
  rw [read, readHeader_signs]
  have finished {indent : Option Nat} (settles : (Lines.initial indent).Settles c)
      (unbroken : indent = none → isBreak c = false) :
      ((Lines.initial indent).readFrom false 3
          (Style.writeLinesFrom (List.replicate Lines.margin ' ') true (c :: others) ++
            (List.replicate width ' ' ++ rest)) >>= fun read =>
        pure (read.1.finish (Lines.chomp (c :: others)), read.2)) = .ok (c :: others, rest) := by
    obtain ⟨lines, reached, whole⟩ := Lines.readFrom_written settles unbroken printable line
      (show 3 ≤ Lines.margin by decide)
    rw [reached]
    exact congrArg (fun text => Except.ok (text, rest)) whole
  cases hides : hidesStep (c :: others) with
  | true => exact finished (.inl rfl) (by simp)
  | false =>
      rw [shown, Bool.or_eq_false_iff, Style.isSpace, beq_eq_false_iff_ne] at hides
      exact finished (.inr ⟨rfl, rfl, hides.1⟩) fun _ => hides.2

end MoteCapture.Yaml.Block

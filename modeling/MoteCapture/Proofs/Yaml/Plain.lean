import MoteCapture.Proofs.Text.Basic
import MoteCapture.Yaml.Scalar
import MoteCapture.Yaml.Schema

/-!
Texts without quotes. All that is written is printable, so that it is read as it stands, and a text that
can be plain is read up to its own end, whether a line break or the colon after a key follows.
-/

namespace MoteCapture

namespace Yaml

variable {text other : List Char} {c : Char}

def Printable (text : List Char) : Prop :=
  ∀ c ∈ text, Style.isPrintable c = true

instance (text : List Char) : Decidable (Printable text) :=
  List.decidableBAll _ text

theorem Printable.append (first : Printable text) (second : Printable other) :
    Printable (text ++ other) := fun c member =>
  (List.mem_append.mp member).elim (first c) (second c)

theorem isAllowed_of_isPrintable (printable : Style.isPrintable c = true) : isAllowed c = true := by
  have valid : c.toNat.isValidChar := c.valid
  simp only [Style.isPrintable, isAllowed, Nat.isValidChar, Bool.or_eq_true, Bool.and_eq_true,
    beq_iff_eq, decide_eq_true_eq, bne_iff_ne] at *
  omega

theorem isPrintable_cases (printable : Style.isPrintable c = true) :
    c ≠ '\r' ∧ c ≠ '\x85' ∧ c ≠ '\t' := by
  refine ⟨?_, ?_, ?_⟩ <;> rintro rfl <;> revert printable <;> decide

theorem isBlank_eq_false_of_isBreak (break_ : isBreak c = true) : isBlank c = false := by
  simp only [isBreak, Bool.or_eq_true, beq_iff_eq] at break_
  rcases break_ with (rfl | rfl) | rfl <;> rfl

/-- What is printable has line feeds for breaks already. -/
theorem unifyBreaks_eq (printable : Printable text) : unifyBreaks text = text := by
  induction text with
  | nil => rfl
  | cons c rest ih =>
      obtain ⟨feed, line, -⟩ := isPrintable_cases (printable c List.mem_cons_self)
      rw [unifyBreaks, ih fun d member => printable d (List.mem_cons_of_mem c member)]
      · simp [feed, line]
      · intro after same
        exact absurd same feed

structure StartsLine (indent width : Nat) (rest : List Char) : Prop where
  outside : width < indent
  word : ∀ c ∈ rest.head?, isBlank c = false ∧ isBreak c = false

end Yaml

namespace Yaml.Plain

variable {inFlow : Bool} {indent column : Nat} {gap : Gap} {acc text next : List Char} {c : Char}

/-- What stands in the text counts for itself: there is no break, and no mark that ends a text. -/
structure Runs (afterBlank : Bool) (text : List Char) : Prop where
  unbroken : ∀ c ∈ text, isBreak c = false
  unmarked : Style.hasMark afterBlank text = false
  /-- A blank at the end would be lost. -/
  closed : ∀ c ∈ text.getLast?, isBlank c = false

theorem readFrom_blank (blank : isBlank c = true) (single : gap.hasBreak = false) :
    readFrom false indent column gap acc (c :: next) =
      readFrom false indent (column + 1) (gap.withBlank c) acc next := by
  simp [readFrom, blank, single]

/-- A character that ends nothing is read. -/
theorem readFrom_char (blank : isBlank c = false) (unbroken : isBreak c = false)
    (gapped : gap = .none ∨ indent ≤ column ∧ 0 < column ∧ c ≠ '#')
    (colon : c ≠ ':' ∨ endsWord next = false) :
    readFrom false indent column gap acc (c :: next) =
      readFrom false indent (column + 1) .none (gap.push c acc) next := by
  have goesOn : (gap != .none && stopsAfterGap false indent column (c :: next)) = false := by
    rcases gapped with rfl | ⟨far, inLine, other⟩
    · rfl
    · have near : ¬ column < indent := Nat.not_lt.mpr far
      simp [stopsAfterGap, near, Nat.ne_of_gt inLine, other]
  have noStop : stops false (c :: next) = false := by
    rcases colon with other | word
    · simp [stops, other]
    · simp [stops, word]
  rw [readFrom]
  simp [blank, unbroken, goesOn, noStop]

theorem hasBreak_withBlank (single : gap.hasBreak = false) (c : Char) :
    (gap.withBlank c).hasBreak = false ∧ (gap.withBlank c).text = gap.text ++ [c] := by
  cases gap with
  | none => exact ⟨rfl, rfl⟩
  | blanks text => exact ⟨rfl, rfl⟩
  | breaks first others => cases single

theorem Runs.tail {afterBlank : Bool} {d : Char} (runs : Runs afterBlank (c :: d :: text)) :
    Runs (isBlank c) (d :: text) where
  unbroken := fun e member => runs.unbroken e (List.mem_cons_of_mem c member)
  unmarked := by
    have unmarked := runs.unmarked
    rw [Style.hasMark, runs.unbroken c List.mem_cons_self, Bool.or_false] at unmarked
    exact (Bool.or_eq_false_iff.mp unmarked).2
  closed := by simpa using runs.closed

theorem Runs.behindBlank {afterBlank : Bool} {d : Char} (runs : Runs afterBlank (c :: d :: text))
    (blank : isBlank c = true) : Runs (gap.withBlank c != .none) (d :: text) := by
  have gapped : (gap.withBlank c != .none) = true := by cases gap <;> rfl
  rw [gapped, ← blank]
  exact runs.tail

theorem Runs.behindSolid {afterBlank : Bool} {d : Char} (runs : Runs afterBlank (c :: d :: text))
    (solid : isBlank c = false) : Runs (Gap.none != .none) (d :: text) := by
  have tail := runs.tail
  rw [solid] at tail
  exact tail

theorem Runs.head {afterBlank : Bool} (runs : Runs afterBlank (c :: text)) (next : List Char) :
    (afterBlank = false ∨ c ≠ '#') ∧ (c ≠ ':' ∨ (text ≠ [] ∧ endsWord (text ++ next) = false)) := by
  have unmarked := runs.unmarked
  simp only [Style.hasMark, Bool.or_eq_false_iff, Bool.and_eq_false_iff, beq_eq_false_iff_ne]
    at unmarked
  refine ⟨unmarked.1.2.symm, unmarked.1.1.imp_right fun word => ?_⟩
  cases text with
  | nil => cases word
  | cons d rest => exact ⟨List.cons_ne_nil d rest, word⟩

/-- The whole text is read before what follows is looked at. -/
theorem readFrom_text (runs : Runs (gap != .none) text) (filled : text ≠ [])
    (single : gap.hasBreak = false) (inLine : gap = .none ∨ 0 < column)
    (far : indent ≤ column ∨ gap = .none ∧ ∀ c ∈ text, isBlank c = false) (next : List Char) :
    readFrom false indent column gap acc (text ++ next) =
      readFrom false indent (column + text.length) .none
        (text.reverse ++ (gap.text.reverse ++ acc)) next := by
  induction text generalizing column gap acc with
  | nil => exact absurd rfl filled
  | cons c rest ih =>
      have unbroken := runs.unbroken c List.mem_cons_self
      cases blank : isBlank c with
      | true =>
          cases rest with
          | nil =>
              have closed := runs.closed c rfl
              rw [blank] at closed
              cases closed
          | cons d rest =>
              obtain ⟨stillSingle, text⟩ := hasBreak_withBlank single c
              have reached : indent ≤ column + 1 := by
                rcases far with far | ⟨-, noBlank⟩
                · omega
                · rw [noBlank c List.mem_cons_self] at blank
                  cases blank
              have later : Runs (gap.withBlank c != .none) (d :: rest) := runs.behindBlank blank
              rw [List.cons_append, readFrom_blank blank single,
                ih later (List.cons_ne_nil d rest) stillSingle (.inr (by omega)) (.inl reached), text]
              simp [Nat.add_assoc, Nat.add_comm]
      | false =>
          obtain ⟨comment, colon⟩ := runs.head next
          have gapped : gap = .none ∨ indent ≤ column ∧ 0 < column ∧ c ≠ '#' := by
            by_cases start : gap = .none
            · exact .inl start
            · have blanks : (gap != .none) = true := by simpa using start
              rw [blanks] at comment
              exact .inr ⟨far.resolve_right fun none => start none.1, inLine.resolve_left start,
                comment.resolve_left (by simp)⟩
          have further : indent ≤ column + 1 ∨ Gap.none = .none ∧ ∀ d ∈ rest, isBlank d = false :=
            far.imp (by omega) fun none =>
              ⟨rfl, fun d member => none.2 d (List.mem_cons_of_mem c member)⟩
          rw [List.cons_append, readFrom_char blank unbroken gapped
            (colon.imp_right And.right), Gap.push]
          cases rest with
          | nil => rfl
          | cons d rest =>
              rw [ih (runs.behindSolid blank) (List.cons_ne_nil d rest) rfl (.inl rfl) further]
              simp [Gap.text, Nat.add_assoc, Nat.add_comm]

theorem readFrom_spaces (column width : Nat) (first : Option Char) (rest : List Char) :
    readFrom false indent column (.breaks first []) acc (List.replicate width ' ' ++ rest) =
      readFrom false indent (column + width) (.breaks first []) acc rest := by
  induction width generalizing column with
  | zero => rfl
  | succ width ih =>
      rw [List.replicate_succ, List.cons_append, readFrom]
      have goesOn := ih (column + 1)
      simpa [isBlank, Gap.withBlank, Nat.add_assoc, Nat.add_comm, Nat.add_left_comm] using goesOn

theorem readFrom_line {width : Nat} {rest : List Char} (line : StartsLine indent width rest) :
    readFrom false indent column .none acc ('\n' :: (List.replicate width ' ' ++ rest)) =
      .ok ⟨acc.reverse, true, rest⟩ := by
  have break_ : readFrom false indent column .none acc ('\n' :: (List.replicate width ' ' ++ rest)) =
      readFrom false indent 0 (.breaks (some '\n') []) acc (List.replicate width ' ' ++ rest) := by
    rw [readFrom]
    rfl
  rw [break_, readFrom_spaces]
  cases rest with
  | nil => rfl
  | cons c rest =>
      obtain ⟨blank, unbroken⟩ := line.word c rfl
      rw [readFrom]
      simp [blank, unbroken, stopsAfterGap, line.outside, Gap.hasBreak]

theorem readFrom_colon (word : endsWord next = true) :
    readFrom false indent column .none acc (':' :: next) = .ok ⟨acc.reverse, false, ':' :: next⟩ := by
  have stop : stops false (':' :: next) = true := by simp [stops, word]
  rw [readFrom]
  simp [isBlank, isBreak, stop, Gap.hasBreak]

theorem not_isBlank_of_isPrintable (printable : Style.isPrintable c = true)
    (noSpace : Style.isSpace c = false) : isBlank c = false := by
  obtain ⟨-, -, noTab⟩ := isPrintable_cases printable
  rw [Style.isSpace] at noSpace
  simp [isBlank, noSpace, noTab]

theorem needsEscapes_eq_false_iff : Style.needsEscapes text = false ↔
    Printable text ∧ Style.hasPair Style.isSpace isBreak text = false := by
  simp [Style.needsEscapes, Printable]

theorem canBePlain_iff : Style.canBePlain text = true ↔
    Style.needsEscapes text = false ∧ (∀ c ∈ text, isBreak c = false) ∧
      Style.hasBareEnd text = false ∧ Style.startsWithMark text = false ∧
      Style.hasMark true text = false := by
  simp [Style.canBePlain, and_assoc]

theorem printable_of_canBePlain (plain : Style.canBePlain text = true) : Printable text :=
  (needsEscapes_eq_false_iff.mp (canBePlain_iff.mp plain).1).1

theorem hasMark_false (unmarked : Style.hasMark true text = false) :
    Style.hasMark false text = false := by
  cases text with
  | nil => rfl
  | cons c rest =>
      simp only [Style.hasMark, Bool.or_eq_false_iff, Bool.and_false] at *
      exact ⟨⟨unmarked.1.1, trivial⟩, unmarked.2⟩

theorem runs_of_canBePlain (plain : Style.canBePlain text = true) :
    Runs (Gap.none != .none) text := by
  have printable := printable_of_canBePlain plain
  obtain ⟨-, unbroken, bare, -, unmarked⟩ := canBePlain_iff.mp plain
  refine ⟨unbroken, hasMark_false unmarked, fun c last => ?_⟩
  simp only [Style.hasBareEnd, List.any_cons, List.any_nil, Bool.or_eq_false_iff, Option.mem_def.mp last,
    Option.any_some] at bare
  exact not_isBlank_of_isPrintable (printable c (List.mem_of_mem_getLast? last)) bare.2.1.1

theorem endsWord_append (word : endsWord text = false) (next : List Char) :
    endsWord (text ++ next) = false := by
  cases text with
  | nil => cases word
  | cons => exact word

theorem not_isBlank_head (plain : Style.canBePlain (c :: text) = true) : isBlank c = false := by
  have bare := (canBePlain_iff.mp plain).2.2.1
  simp only [Style.hasBareEnd, List.any_cons, List.head?_cons, Option.any_some,
    Bool.or_eq_false_iff] at bare
  exact not_isBlank_of_isPrintable (printable_of_canBePlain plain c List.mem_cons_self) bare.1.1

theorem starts_of_canBePlain (plain : Style.canBePlain text = true) (filled : text ≠ [])
    (next : List Char) : starts false (text ++ next) = true := by
  obtain ⟨-, unbroken, -, start, unmarked⟩ := canBePlain_iff.mp plain
  obtain ⟨c, rest, rfl⟩ := List.exists_cons_of_ne_nil filled
  have blank := not_isBlank_head plain
  have line := unbroken c List.mem_cons_self
  have colon : c ≠ ':' ∨ endsWord (rest ++ next) = false := by
    simp only [Style.hasMark, Bool.or_eq_false_iff, Bool.and_eq_false_iff, beq_eq_false_iff_ne]
      at unmarked
    exact unmarked.1.1.imp_right fun word => endsWord_append word next
  unfold Style.startsWithMark at start
  split at start
  · cases start
  · cases start
  · next first behind _ _ same =>
    cases same
    simp only [Bool.or_eq_false_iff, Bool.and_eq_false_iff, beq_eq_false_iff_ne] at start
    have mark : (c ≠ '?' ∧ c ≠ '-') ∨ endsWord (rest ++ next) = false := by
      simp only [and_assoc] at start
      exact start.1.imp_right fun word => endsWord_append word next
    rw [List.cons_append, starts]
    split
    · next dash =>
      rw [beq_iff_eq] at dash
      simpa [dash] using mark
    · split
      · next noDash sign =>
        simp only [Bool.or_eq_true, beq_iff_eq] at sign
        rcases sign with rfl | rfl
        · simpa using mark
        · simpa using colon
      · simp_all [isFlowMark]
  · next empty => cases empty

/-- A plain text is read to the end of its line. -/
theorem readFrom_plain {width : Nat} {rest : List Char} (plain : Style.canBePlain text = true)
    (filled : text ≠ []) (far : indent ≤ column) (line : StartsLine indent width rest) :
    readFrom false indent column .none [] (text ++ '\n' :: (List.replicate width ' ' ++ rest)) =
      .ok ⟨text, true, rest⟩ := by
  rw [readFrom_text (runs_of_canBePlain plain) filled rfl (.inl rfl) (.inl far), readFrom_line line]
  simp [Gap.text]

/-! Words. -/

def isWordChar (c : Char) : Bool :=
  Text.Numeral.isDigit c || ('a' ≤ c && c ≤ 'z') || c == '_'

def IsWord (text : List Char) : Prop :=
  text ≠ [] ∧ ∀ c ∈ text, isWordChar c = true

instance (text : List Char) : Decidable (IsWord text) :=
  @instDecidableAnd _ _ inferInstance (List.decidableBAll _ text)

theorem ne_of_isWordChar {d : Char} (own : isWordChar c = true) (other : isWordChar d = false) :
    c ≠ d := by
  rintro rfl
  rw [own] at other
  cases other

theorem isPrintable_of_isWordChar (own : isWordChar c = true) : Style.isPrintable c = true := by
  have bounds : 0x20 ≤ c.toNat ∧ c.toNat ≤ 0x7E := by
    simp only [isWordChar, Bool.or_eq_true, Bool.and_eq_true, beq_iff_eq, decide_eq_true_eq,
      Text.Numeral.isDigit_iff] at own
    rcases own with (digit | ⟨low, high⟩) | rfl
    · omega
    · have above : 'a'.toNat ≤ c.toNat := low
      have below : c.toNat ≤ 'z'.toNat := high
      simp only [Char.reduceToNat] at above below
      omega
    · decide
  simp [Style.isPrintable, bounds]

theorem hasMark_word (own : ∀ c ∈ text, isWordChar c = true) (afterBlank : Bool) :
    Style.hasMark afterBlank text = false := by
  induction text generalizing afterBlank with
  | nil => rfl
  | cons c rest ih =>
      have first := own c List.mem_cons_self
      have noColon : c ≠ ':' := ne_of_isWordChar first rfl
      have noComment : c ≠ '#' := ne_of_isWordChar first rfl
      simp [Style.hasMark, noColon, noComment, ih fun d member => own d (List.mem_cons_of_mem c member)]

theorem startsWithMark_word (own : isWordChar c = true) (text : List Char) :
    Style.startsWithMark (c :: text) = false := by
  have marks : ['?', '-', '.', '#', ',', '[', ']', '\x7b', '\x7d', '&', '*', '!', '|', '>', '\x27', '"',
      '%', '@', '\x60'].all (fun d => !isWordChar d) = true := by decide
  have other := fun d member =>
    ne_of_isWordChar own (Bool.not_eq_true' _ ▸ List.all_eq_true.mp marks d member)
  simp only [List.forall_mem_cons] at other
  unfold Style.startsWithMark
  split
  · next same =>
    cases same
    cases own
  · next same =>
    cases same
    cases own
  · next same =>
    cases same
    simp [other]
  · rfl

theorem hasPair_eq_false {p q : Char → Bool} (own : ∀ c ∈ text, p c = false) :
    Style.hasPair p q text = false := by
  fun_induction Style.hasPair p q text with
  | case1 a b rest ih =>
      rw [own a List.mem_cons_self, ih fun c member => own c (List.mem_cons_of_mem a member)]
      rfl
  | case2 => rfl

theorem IsWord.canBePlain (word : IsWord text) : Style.canBePlain text = true := by
  obtain ⟨filled, own⟩ := word
  have space : ∀ c ∈ text, Style.isSpace c = false := fun c member =>
    beq_eq_false_iff_ne.mpr (ne_of_isWordChar (own c member) rfl)
  have unbroken : ∀ c ∈ text, isBreak c = false := fun c member => by
    have feed : c ≠ '\n' := ne_of_isWordChar (own c member) rfl
    have line : c ≠ '\u2028' := ne_of_isWordChar (own c member) rfl
    have paragraph : c ≠ '\u2029' := ne_of_isWordChar (own c member) rfl
    simp [isBreak, feed, line, paragraph]
  refine canBePlain_iff.mpr ⟨needsEscapes_eq_false_iff.mpr ⟨fun c member =>
    isPrintable_of_isWordChar (own c member), hasPair_eq_false space⟩, unbroken, ?_, ?_,
    hasMark_word own true⟩
  · rw [Style.hasBareEnd, List.any_eq_false]
    intro place member
    have inside : ∀ c ∈ place, c ∈ text := by
      simp only [List.mem_cons, List.not_mem_nil, or_false] at member
      rcases member with rfl | rfl
      · exact fun c first => List.mem_of_mem_head? first
      · exact fun c last => List.mem_of_mem_getLast? last
    cases place with
    | none => simp
    | some c => simp [space c (inside c rfl), unbroken c (inside c rfl)]
  · obtain ⟨c, rest, rfl⟩ := List.exists_cons_of_ne_nil filled
    exact startsWithMark_word (own c List.mem_cons_self) rest

/-- A word is read to the colon after it, wherever it stands. -/
theorem readFrom_key (word : IsWord text) (ends : endsWord next = true) :
    readFrom false indent column .none [] (text ++ ':' :: next) =
      .ok ⟨text, false, ':' :: next⟩ := by
  have noBlank : ∀ c ∈ text, isBlank c = false := fun c member => by
    have space : c ≠ ' ' := ne_of_isWordChar (word.2 c member) rfl
    have tab : c ≠ '\t' := ne_of_isWordChar (word.2 c member) rfl
    simp [isBlank, space, tab]
  rw [readFrom_text (runs_of_canBePlain word.canBePlain) word.1 rfl (.inl rfl) (.inr ⟨rfl, noBlank⟩),
    readFrom_colon ends]
  simp [Gap.text]

end Yaml.Plain

end MoteCapture

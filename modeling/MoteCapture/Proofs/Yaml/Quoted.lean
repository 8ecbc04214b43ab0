import Mathlib.Algebra.GroupWithZero.Nat
import MoteCapture.Proofs.Yaml.Plain
import MoteCapture.Yaml.Scalar

/-!
Texts in quotes are read as what was written, up to the quote at the end.
-/

namespace MoteCapture.Yaml.Quoted

variable {isDouble atLineStart : Bool} {gap : Gap} {acc text rest next : List Char} {c : Char} {n : Nat}

theorem readFrom_blank (blank : isBlank c = true) :
    readFrom isDouble atLineStart gap acc (c :: next) =
      readFrom isDouble false (gap.withBlank c) acc next := by
  rw [readFrom.eq_def]
  simp [blank]

theorem readFrom_break (blank : isBlank c = false) (break_ : isBreak c = true) :
    readFrom isDouble atLineStart gap acc (c :: next) =
      readFrom isDouble true (gap.withBreak c) acc next := by
  rw [readFrom.eq_def]
  simp [blank, break_]

/-- What was read so far, with the gap at its end. -/
theorem text_push (gap : Gap) (c : Char) (acc : List Char) :
    (gap.push c acc).reverse = acc.reverse ++ gap.text ++ [c] := by
  simp [Gap.push]

theorem text_withBlank (single : gap.hasBreak = false) (c : Char) :
    (gap.withBlank c).hasBreak = false ∧ (gap.withBlank c).text = gap.text ++ [c] := by
  cases gap with
  | none => exact ⟨rfl, rfl⟩
  | blanks text => exact ⟨rfl, rfl⟩
  | breaks first others => cases single

theorem hexDigits_spec (n width : Nat) :
    (∀ c ∈ Style.hexDigits n width, Text.Hexadecimal.isDigit c = true) ∧
      (Style.hexDigits n width).foldl (fun value c => 16 * value + Text.Hexadecimal.digitValue c) 0 =
        n % 16 ^ width ∧
      (Style.hexDigits n width).length = width := by
  have digits : ∀ d < 16, Text.Hexadecimal.isDigit (Nat.digitChar d).toUpper = true ∧
      Text.Hexadecimal.digitValue (Nat.digitChar d).toUpper = d := by decide
  induction width generalizing n with
  | zero => simp [Style.hexDigits, Nat.mod_one]
  | succ width ih =>
      obtain ⟨own, value, length⟩ := ih (n / 16)
      obtain ⟨last, lastValue⟩ := digits (n % 16) (Nat.mod_lt n (by decide))
      rw [Style.hexDigits]
      refine ⟨List.forall_mem_append.mpr ⟨own, by simpa using last⟩, ?_, by simp [length]⟩
      rw [List.foldl_append, value, List.foldl_cons, List.foldl_nil, lastValue, Nat.pow_succ',
        Nat.mod_mul, Nat.add_comm]

theorem read?_hexDigits {width : Nat} (small : n < 16 ^ width) (positive : 0 < width) :
    Text.Hexadecimal.read? (Style.hexDigits n width) = some n := by
  obtain ⟨own, value, length⟩ := hexDigits_spec n width
  have filled : Style.hexDigits n width ≠ [] := by
    intro empty
    rw [empty] at length
    exact Nat.ne_of_lt positive length
  rw [Text.Hexadecimal.read?, value, Nat.mod_eq_of_lt small]
  simp [filled, List.all_eq_true.mpr own]

theorem escape?_letter {letter : Char} (short : Style.escapeLetter? c = some letter)
    (next : List Char) : isBreak letter = false ∧ escape? letter next = some (c, 0) := by
  have own : isBreak letter = false ∧ shortEscape? letter = some c := by
    unfold Style.escapeLetter? at short
    split at short <;> cases short <;> exact ⟨rfl, rfl⟩
  rw [escape?, own.2]
  exact ⟨own.1, rfl⟩

theorem escape?_hexDigits {letter : Char} {width : Nat} (noShort : shortEscape? letter = none)
    (length : codeLength? letter = some width) (positive : 0 < width) (small : c.toNat < 16 ^ width)
    (next : List Char) :
    escape? letter (Style.hexDigits c.toNat width ++ next) = some (c, width) := by
  have size := (hexDigits_spec c.toNat width).2.2
  have taken : (Style.hexDigits c.toNat width ++ next).take width =
      Style.hexDigits c.toNat width := List.take_left' size
  have valid : c.toNat.isValidChar := c.valid
  rw [escape?, noShort]
  simp only [length, taken, read?_hexDigits small positive]
  simp [size, valid, Char.ofNat_toNat]

theorem readFrom_escape {letter d : Char} {length : Nat} (unbroken : isBreak letter = false)
    (stands : escape? letter next = some (d, length)) :
    readFrom true false gap acc ('\\' :: letter :: next) =
      readFrom true false .none (gap.push d acc) (next.drop length) := by
  have blank : isBlank '\\' = false := rfl
  have line : isBreak '\\' = false := rfl
  rw [readFrom.eq_def]
  simp [blank, line, unbroken, stands]

theorem readFrom_char (blank : isBlank c = false) (unbroken : isBreak c = false)
    (plain : (if isDouble then c != '"' && c != '\\' else c != singleQuote) = true) :
    readFrom isDouble false gap acc (c :: next) =
      readFrom isDouble false .none (gap.push c acc) next := by
  rw [readFrom.eq_def]
  cases isDouble <;> simp_all

/-! Double quotes. -/

/-- Reading goes past the writing of any character but a blank. -/
theorem readFrom_escaped (noBlank : c ≠ ' ') :
    readFrom true false gap acc (Style.escape c ++ next) =
      readFrom true false .none (gap.push c acc) next := by
  rw [Style.escape]
  split
  · next bare =>
    simp only [Bool.and_eq_true, Bool.not_eq_true'] at bare
    obtain ⟨⟨⟨printable, unbroken⟩, noQuote⟩, noSlash⟩ := bare
    have blank : isBlank c = false := by simp [isBlank, noBlank, (isPrintable_cases printable).2.2]
    exact readFrom_char blank unbroken (by simp_all)
  · cases short : Style.escapeLetter? c with
    | some letter =>
        obtain ⟨unbroken, stands⟩ := escape?_letter short next
        exact readFrom_escape unbroken stands
    | none =>
        have code {letter : Char} {width : Nat} (noShort : shortEscape? letter = none)
            (length : codeLength? letter = some width) (positive : 0 < width)
            (unbroken : isBreak letter = false) (small : c.toNat < 16 ^ width) :
            readFrom true false gap acc ('\\' :: letter :: (Style.hexDigits c.toNat width ++ next)) =
              readFrom true false .none (gap.push c acc) next := by
          rw [readFrom_escape unbroken (escape?_hexDigits noShort length positive small next),
            List.drop_left' (hexDigits_spec c.toNat width).2.2]
        simp only [Style.escapeCode]
        split
        · exact code rfl rfl (by decide) rfl (by omega)
        · split
          · exact code rfl rfl (by decide) rfl (by omega)
          · have valid : c.toNat.isValidChar := c.valid
            simp only [Nat.isValidChar] at valid
            exact code rfl rfl (by decide) rfl (by omega)

theorem readFrom_double (single : gap.hasBreak = false) (text next : List Char) :
    readFrom true false gap acc (text.flatMap Style.escape ++ '"' :: next) =
      .ok (acc.reverse ++ gap.text ++ text, next) := by
  induction text generalizing gap acc with
  | nil =>
      rw [List.flatMap_nil, List.nil_append, readFrom.eq_def]
      simp [isBlank, isBreak]
  | cons c rest ih =>
      rw [List.flatMap_cons, List.append_assoc]
      by_cases blank : c = ' '
      · subst blank
        obtain ⟨stillSingle, text⟩ := text_withBlank single ' '
        have bare : Style.escape ' ' = [' '] := by decide
        rw [bare, List.singleton_append, readFrom_blank rfl, ih stillSingle, text]
        simp
      · rw [readFrom_escaped blank, ih rfl, text_push]
        simp [Gap.text]

/-- What is written between double quotes is read again. -/
theorem read_double (text next : List Char) :
    read true (text.flatMap Style.escape ++ '"' :: next) = .ok (text, next) := by
  rw [read, readFrom_double rfl]
  rfl

/-! Single quotes. -/

/-- What stands for a character between single quotes. -/
theorem readFrom_single_char (blank : isBlank c = false) (unbroken : isBreak c = false) :
    readFrom false false gap acc ((if c == singleQuote then [singleQuote] else []) ++ c :: next) =
      readFrom false false .none (gap.push c acc) next := by
  split
  · next quote =>
    rw [beq_iff_eq] at quote
    subst quote
    rw [readFrom.eq_def]
    simp [isBlank, isBreak, singleQuote]
  · next other => exact readFrom_char blank unbroken (by simpa using other)

theorem readFrom_close (other : ∀ c ∈ next.head?, c ≠ singleQuote) :
    readFrom false false gap acc (singleQuote :: next) = .ok (acc.reverse ++ gap.text, next) := by
  rw [readFrom.eq_def]
  cases next with
  | nil => simp [isBlank, isBreak, singleQuote]
  | cons c next =>
      have noQuote : c ≠ singleQuote := other c rfl
      simp [isBlank, isBreak, singleQuote] at *
      simp [noQuote]

theorem readFrom_spaces (width : Nat) (first : Option Char) (others : List Char) :
    readFrom false atLineStart (.breaks first others) acc (List.replicate (width + 1) ' ' ++ next) =
      readFrom false false (.breaks first others) acc next := by
  induction width generalizing atLineStart with
  | zero => rw [List.replicate_succ, List.cons_append, readFrom_blank rfl]; rfl
  | succ width ih =>
      rw [List.replicate_succ, List.cons_append, readFrom_blank rfl]
      exact ih

theorem hasPair_cons {p q : Char → Bool} : Style.hasPair p q (c :: rest) = false ↔
    (∀ d ∈ rest.head?, p c = true → q d = false) ∧ Style.hasPair p q rest = false := by
  cases rest with
  | nil => simp [Style.hasPair]
  | cons d rest =>
      rw [Style.hasPair, Bool.or_eq_false_iff]
      cases p c <;> simp

structure Lasting (text : List Char) : Prop where
  printable : Printable text
  feedless : '\n' ∉ text
  spaceBreak : Style.hasPair Style.isSpace isBreak text = false
  breakSpace : Style.hasPair isBreak Style.isSpace text = false

theorem Lasting.tail (lasting : Lasting (c :: rest)) : Lasting rest where
  printable := fun d member => lasting.printable d (List.mem_cons_of_mem c member)
  feedless := fun member => lasting.feedless (List.mem_cons_of_mem c member)
  spaceBreak := (hasPair_cons.mp lasting.spaceBreak).2
  breakSpace := (hasPair_cons.mp lasting.breakSpace).2

/-- What was read last fits what comes next: breaks are not followed by a space, spaces are not
followed by a break. -/
def Fits (text : List Char) : (afterBreak : Bool) → Gap → Prop
  | true, .breaks (some first) _ => first ≠ '\n' ∧ ∀ c ∈ text.head?, c ≠ ' '
  | false, .none => True
  | false, .blanks _ => ∀ c ∈ text.head?, isBreak c = false
  | _, _ => False

theorem readFrom_indent {afterBreak : Bool} (fits : Fits text afterBreak gap) (next : List Char) :
    readFrom false afterBreak gap acc
        ((if afterBreak then List.replicate 4 ' ' else []) ++ next) =
      readFrom false false gap acc next := by
  cases afterBreak with
  | false => rfl
  | true =>
      cases gap with
      | none => cases fits
      | blanks => cases fits
      | breaks first others => exact readFrom_spaces 3 first others

/-- A break adds to the gap. -/
theorem fits_break {afterBreak : Bool} (lasting : Lasting (c :: rest))
    (fits : Fits (c :: rest) afterBreak gap) (break_ : isBreak c = true) :
    Fits rest true (gap.withBreak c) ∧ (gap.withBreak c).text = gap.text ++ [c] := by
  have noFeed : c ≠ '\n' := fun same => lasting.feedless (same ▸ List.mem_cons_self)
  have noSpace : ∀ d ∈ rest.head?, d ≠ ' ' := by
    intro d head
    simpa [Style.isSpace] using (hasPair_cons.mp lasting.breakSpace).1 d head break_
  cases afterBreak with
  | false =>
      cases gap with
      | none => exact ⟨⟨noFeed, noSpace⟩, by simp [Gap.withBreak, Gap.text, noFeed]⟩
      | blanks =>
          have unbroken := fits c rfl
          rw [break_] at unbroken
          cases unbroken
      | breaks => cases fits
  | true =>
      cases gap with
      | none => cases fits
      | blanks => cases fits
      | breaks first others =>
          cases first with
          | none => cases fits
          | some first => exact ⟨⟨fits.1, noSpace⟩, by simp [Gap.withBreak, Gap.text, fits.1]⟩

/-- So does a space. -/
theorem fits_space {afterBreak : Bool} (lasting : Lasting (' ' :: rest))
    (fits : Fits (' ' :: rest) afterBreak gap) :
    afterBreak = false ∧ Fits rest false (gap.withBlank ' ') ∧
      (gap.withBlank ' ').text = gap.text ++ [' '] := by
  have unbroken : ∀ d ∈ rest.head?, isBreak d = false := fun d head =>
    (hasPair_cons.mp lasting.spaceBreak).1 d head rfl
  cases afterBreak with
  | false =>
      cases gap with
      | none => exact ⟨rfl, unbroken, rfl⟩
      | blanks => exact ⟨rfl, unbroken, rfl⟩
      | breaks => cases fits
  | true =>
      cases gap with
      | none => cases fits
      | blanks => cases fits
      | breaks first others =>
          cases first with
          | none => cases fits
          | some first => exact absurd rfl (fits.2 ' ' rfl)

theorem readFrom_single {afterBreak : Bool} (lasting : Lasting text)
    (fits : Fits text afterBreak gap) (other : ∀ c ∈ next.head?, c ≠ singleQuote) :
    readFrom false afterBreak gap acc
        (Style.writeSingleFrom (List.replicate 4 ' ') afterBreak text ++ next) =
      .ok (acc.reverse ++ gap.text ++ text, next) := by
  induction text generalizing afterBreak gap acc with
  | nil =>
      rw [Style.writeSingleFrom, List.append_assoc, readFrom_indent fits, List.append_nil]
      exact readFrom_close other
  | cons c rest ih =>
      rw [Style.writeSingleFrom]
      split
      · next break_ =>
        have blank := isBlank_eq_false_of_isBreak break_
        obtain ⟨later, text⟩ := fits_break lasting fits break_
        rw [List.cons_append, readFrom_break blank break_, ih lasting.tail later, text]
        simp
      · next unbroken =>
        rw [List.append_assoc, List.append_assoc, readFrom_indent fits]
        by_cases space : c = ' '
        · subst space
          obtain ⟨rfl, later, text⟩ := fits_space lasting fits
          have single : readFrom false false (gap.withBlank ' ') acc
              (Style.writeSingleFrom (List.replicate 4 ' ') false rest ++ next) = _ :=
            ih lasting.tail later
          rw [text, ← readFrom_blank rfl] at single
          simpa [singleQuote] using single
        · have blank : isBlank c = false := by
            simp [isBlank, space, (isPrintable_cases (lasting.printable c List.mem_cons_self)).2.2]
          have start : Fits rest false .none := trivial
          have later : readFrom false false .none (gap.push c acc)
              (Style.writeSingleFrom (List.replicate 4 ' ') false rest ++ next) = _ :=
            ih lasting.tail start
          rw [text_push] at later
          rw [List.cons_append]
          refine (readFrom_single_char blank (by simpa using unbroken)).trans ?_
          simpa [Gap.text] using later

/-- What is written between single quotes is read again. -/
theorem read_single (lasting : Lasting text) (other : ∀ c ∈ next.head?, c ≠ singleQuote) :
    read false (Style.writeSingleFrom (List.replicate 4 ' ') false text ++ next) =
      .ok (text, next) := by
  have start : Fits text false .none := trivial
  rw [read, readFrom_single lasting start other]
  rfl

end MoteCapture.Yaml.Quoted

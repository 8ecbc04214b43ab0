import Mathlib.Data.Nat.Digits.Defs
import MoteCapture.Text.Basic

/-!
Text that is cut at its first hit is the two halves with the hit between them, and what stands in front of
a hit does not matter for what is behind it. Numerals that are written can be read back, and they are made
of digits only; what is read is the number that the digits denote in their positions, if a word holds it.

The lower case of an ASCII character is its ASCII lower case; that of any other character goes beyond
ASCII, but for the Kelvin sign, which becomes a k. So a text without a k can be had from ASCII letters
only.
-/

namespace MoteCapture

namespace Text

variable {p : Char → Bool} {text : List Char}

theorem cutAt?_append {c : Char} (outside : ∀ d ∈ text, p d = false) (hit : p c = true)
    (rest : List Char) : cutAt? p (text ++ c :: rest) = some (text, rest) := by
  induction text with
  | nil => simp [cutAt?, hit]
  | cons d others ih =>
      have first : p d = false := outside d List.mem_cons_self
      have later : ∀ d ∈ others, p d = false := by
        intro d member
        exact outside d (List.mem_cons_of_mem _ member)
      simp [cutAt?, first, ih later]

theorem cutAt?_eq_none (outside : ∀ d ∈ text, p d = false) : cutAt? p text = none := by
  induction text with
  | nil => rfl
  | cons d others ih =>
      have later := ih fun c member => outside c (List.mem_cons_of_mem _ member)
      simp [cutAt?, outside d List.mem_cons_self, later]

theorem cutAt?_eq_some {halves : List Char × List Char} (cut : cutAt? p text = some halves) :
    ∃ c, text = halves.1 ++ c :: halves.2 ∧ p c = true ∧ ∀ d ∈ halves.1, p d = false := by
  induction text generalizing halves with
  | nil => cases cut
  | cons d others ih =>
      rw [cutAt?] at cut
      split at cut
      · next hit =>
        cases cut
        exact ⟨d, rfl, hit, by simp⟩
      · next miss =>
        obtain ⟨inner, found, rfl⟩ := Option.map_eq_some_iff.mp cut
        obtain ⟨c, whole, hit, outside⟩ := ih found
        refine ⟨c, by rw [whole]; rfl, hit, ?_⟩
        intro e member
        rcases List.mem_cons.mp member with rfl | later
        · simpa using miss
        · exact outside e later

-- A front without a hit stays in front of the cut.
theorem cutAt?_behind {front : List Char} (outside : ∀ d ∈ front, p d = false) :
    cutAt? p (front ++ text) = (cutAt? p text).map fun halves => (front ++ halves.1, halves.2) := by
  induction front with
  | nil => simp
  | cons d others ih =>
      have later := ih fun c member => outside c (List.mem_cons_of_mem _ member)
      simp [cutAt?, outside d List.mem_cons_self, later, Function.comp_def]

theorem splitAll_eq_splitOn {α : Type} [BEq α] {separator : α} (text : List α) :
    splitAll separator text = text.splitOn separator := by
  induction text with
  | nil => rfl
  | cons c rest ih =>
      rw [splitAll, ih, List.splitOn_cons_eq_if_modifyHead]
      cases pieces : rest.splitOn separator with
      | nil => exact absurd pieces (List.splitOn_ne_nil separator rest)
      | cons piece others => rfl

theorem mem_intercalate {α : Type} {separator c : α} {pieces : List (List α)}
    (member : c ∈ [separator].intercalate pieces) : c = separator ∨ ∃ piece ∈ pieces, c ∈ piece := by
  induction pieces with
  | nil => cases member
  | cons piece rest ih =>
      cases rest with
      | nil => exact .inr ⟨piece, List.mem_cons_self, by simpa using member⟩
      | cons next others =>
          rw [List.intercalate_cons_cons, List.append_assoc, List.mem_append,
            List.mem_append] at member
          rcases member with own | between | behind
          · exact .inr ⟨piece, List.mem_cons_self, own⟩
          · exact .inl (List.mem_singleton.mp between)
          · rcases ih behind with same | ⟨other, later, inside⟩
            · exact .inl same
            · exact .inr ⟨other, List.mem_cons_of_mem _ later, inside⟩

theorem occurs_iff {part text : List Char} : occurs part text = true ↔ part <:+: text := by
  induction text with
  | nil => simp [occurs]
  | cons c rest ih =>
      rw [occurs, Bool.or_eq_true, ih, List.infix_cons_iff, List.isPrefixOf_iff_prefix]

end Text

namespace Text.LowerCase

variable {c : Char} {text name : List Char} {run : Capitals}

theorem ofChar_ascii (small : c.toNat < 128) : ofChar c = [c.toLower] := by
  have all : ∀ n < 128, ofChar (Char.ofNat n) = [(Char.ofNat n).toLower] := by decide +kernel
  have own := all c.toNat small
  rwa [Char.ofNat_toNat] at own

def kelvinSign : Capitals := ⟨0x212A, 0x212A, 1, 'k'.toNat⟩

-- Beyond ASCII all capitals but the Kelvin sign have their lower case beyond ASCII, too.
theorem capitals_beyond : ∀ run ∈ capitals, 128 ≤ run.last → run = kelvinSign ∨
    128 ≤ run.lower ∧ (run.lower + (run.last - run.first) < 0xD800 ∨
      0xDFFF < run.lower ∧ run.lower + (run.last - run.first) < 0x110000) := by
  decide +kernel

theorem lowered_beyond (listed : run ∈ capitals) (covers : run.covers c = true)
    (large : 128 ≤ c.toNat) : run.lowered c = 'k' ∨ 128 ≤ (run.lowered c).toNat := by
  simp only [Capitals.covers, Bool.and_eq_true, decide_eq_true_eq] at covers
  obtain ⟨⟨above, below⟩, _⟩ := covers
  rcases capitals_beyond run listed (by omega) with rfl | ⟨beyond, valid⟩
  · have sign : c.toNat - kelvinSign.first = 0 := by
      simp only [kelvinSign] at above below ⊢
      omega
    left
    rw [Capitals.lowered, sign]
    decide
  · right
    have offset : c.toNat - run.first ≤ run.last - run.first := Nat.sub_le_sub_right below _
    have isChar : (run.lower + (c.toNat - run.first)).isValidChar := by
      rcases valid with low | high
      · exact Or.inl (by omega)
      · exact Or.inr (by omega)
    have value : (run.lowered c).toNat = run.lower + (c.toNat - run.first) := by
      rw [Capitals.lowered, Char.ofNat, dif_pos isChar]
      rfl
    omega

theorem ofChar_beyond (large : 128 ≤ c.toNat) : ∃ d ∈ ofChar c, d = 'k' ∨ 128 ≤ d.toNat := by
  fun_cases ofChar c with
  | case1 dotted => exact ⟨'\u0307', by simp, Or.inr (by decide)⟩
  | case2 _ run found =>
      have covers := List.find?_some found
      exact ⟨_, List.mem_singleton_self _,
        lowered_beyond (List.mem_of_find?_eq_some found) covers large⟩
  | case3 _ _ => exact ⟨c, List.mem_singleton_self c, Or.inr large⟩

theorem ascii_of_toLower (small : c.toLower.toNat < 128) : c.toNat < 128 := by
  rcases Nat.lt_or_ge c.toNat 128 with below | large
  · exact below
  · have same : c.toLower = c := dif_neg fun capital =>
      absurd (Nat.lt_of_le_of_lt capital.2 (by decide)) (Nat.not_lt.mpr large)
    rwa [same] at small

theorem ofText_ascii (small : ∀ c ∈ text, c.toNat < 128) : ofText text = text.map Char.toLower := by
  induction text with
  | nil => rfl
  | cons c rest ih =>
      have later := ih fun d member => small d (List.mem_cons_of_mem _ member)
      rw [ofText] at later
      rw [ofText, List.flatMap_cons, ofChar_ascii (small c List.mem_cons_self), later]
      rfl

/-- A text whose characters are ASCII, none of them a k, is the lower case of exactly those texts that
differ from it in the case of ASCII letters only. -/
theorem ofText_eq_iff (plain : ∀ c ∈ name, c.toNat < 128 ∧ c ≠ 'k') :
    ofText text = name ↔ text.map Char.toLower = name := by
  constructor
  · rintro rfl
    refine (ofText_ascii fun c member => ?_).symm
    rcases Nat.lt_or_ge c.toNat 128 with small | large
    · exact small
    · obtain ⟨d, own, beyond⟩ := ofChar_beyond large
      obtain ⟨small, other⟩ := plain d (List.mem_flatMap.mpr ⟨c, member, own⟩)
      rcases beyond with kelvin | outside
      · exact absurd kelvin other
      · exact absurd small (Nat.not_lt.mpr outside)
  · rintro rfl
    refine ofText_ascii fun c member => ascii_of_toLower ?_
    exact (plain _ (List.mem_map_of_mem member)).1

end Text.LowerCase

namespace Text.Numeral

variable {n : Nat} {c : Char} {text : List Char}

theorem isDigit_iff : isDigit c = true ↔ 48 ≤ c.toNat ∧ c.toNat ≤ 57 := by
  simp only [isDigit, Bool.and_eq_true, decide_eq_true_eq]
  rfl

theorem isDigit_digit (small : n < 10) : isDigit (digit n) = true := by
  have all : ∀ n < 10, isDigit (digit n) = true := by decide
  exact all n small

theorem digitValue_digit (small : n < 10) : digitValue (digit n) = n := by
  have all : ∀ n < 10, digitValue (digit n) = n := by decide
  exact all n small

theorem digitValue_le (own : isDigit c = true) : digitValue c ≤ 9 := by
  rw [isDigit_iff] at own
  simp only [digitValue, Char.reduceToNat]
  omega

theorem isBlank_digit (own : isDigit c = true) : isBlank c = false := by
  rw [isDigit_iff] at own
  simp [isBlank]
  omega

theorem all_write (n : Nat) : ∀ c ∈ write n, isDigit c = true := by
  induction n using Nat.strongRecOn with
  | ind n ih =>
    intro c member
    rw [write] at member
    split at member
    · next small =>
      rw [List.mem_singleton] at member
      subst member
      exact isDigit_digit small
    · next large =>
      rcases List.mem_append.mp member with high | last
      · exact ih (n / 10) (by omega) c high
      · rw [List.mem_singleton] at last
        subst last
        exact isDigit_digit (Nat.mod_lt n (by decide))

theorem write_ne_nil (n : Nat) : write n ≠ [] := by
  rw [write]
  split <;> simp

theorem isDigits_write (n : Nat) : isDigits (write n) = true := by
  have all := all_write n
  have filled := write_ne_nil n
  simpa [isDigits, filled] using all

theorem continueFrom_concat (high : Nat) (text : List Char) (c : Char) :
    continueFrom high (text ++ [c]) = 10 * continueFrom high text + digitValue c := by
  simp [continueFrom]

theorem continueFrom_write (n : Nat) : continueFrom 0 (write n) = n := by
  induction n using Nat.strongRecOn with
  | ind n ih =>
    rw [write]
    split
    · next small => simpa [continueFrom] using digitValue_digit small
    · next large =>
      rw [continueFrom_concat, ih (n / 10) (by omega), digitValue_digit (Nat.mod_lt n (by decide))]
      omega

/-- Only zero starts with a zero. -/
theorem eq_nil_of_write_eq_zero_cons {rest : List Char} (same : write n = '0' :: rest) :
    rest = [] := by
  induction n using Nat.strongRecOn generalizing rest with
  | ind n ih =>
    rw [write] at same
    split at same
    · exact (List.cons.inj same).2.symm
    · next large =>
      obtain ⟨c, high, shown⟩ := List.exists_cons_of_ne_nil (write_ne_nil (n / 10))
      rw [shown, List.cons_append] at same
      obtain ⟨rfl, -⟩ := List.cons.inj same
      obtain rfl := ih (n / 10) (by omega) shown
      have zero : n / 10 = 0 := by rw [← continueFrom_write (n / 10), shown]; rfl
      omega

-- A plus sign is no digit, so nothing is taken off a run of digits.
theorem read?_digits (digits : isDigits text = true) : read? text = some (continueFrom 0 text) := by
  cases text with
  | nil => simp [isDigits] at digits
  | cons c rest =>
      by_cases sign : c = '+'
      · subst sign
        simp [isDigits, isDigit] at digits
      · simp [read?, readDigits?, sign, digits]

theorem read?_write (n : Nat) : read? (write n) = some n := by
  rw [read?_digits (isDigits_write n), continueFrom_write]

theorem readUInt32?_write (n : UInt32) : readUInt32? (write n.toNat) = some n := by
  simp [readUInt32?, read?_write, n.toNat_lt]

theorem readUInt64?_write (n : UInt64) : readUInt64? (write n.toNat) = some n := by
  simp [readUInt64?, read?_write, n.toNat_lt]

def Denotes (text : List Char) (n : Nat) : Prop :=
  ∃ digits, (text = digits ∨ text = '+' :: digits) ∧ digits ≠ [] ∧
    (∀ c ∈ digits, isDigit c = true) ∧ n = Nat.ofDigits 10 (digits.map digitValue).reverse

theorem continueFrom_eq_ofDigits (digits : List Char) :
    continueFrom 0 digits = Nat.ofDigits 10 (digits.map digitValue).reverse := by
  rw [Nat.ofDigits_eq_foldr, List.foldr_reverse, List.foldl_map, continueFrom]
  simp only [Nat.cast_id, Nat.add_comm]

theorem isDigits_iff : isDigits text = true ↔ text ≠ [] ∧ ∀ c ∈ text, isDigit c = true := by
  cases text <;> simp [isDigits]

theorem readDigits?_eq_some_iff :
    readDigits? text = some n ↔ text ≠ [] ∧ (∀ c ∈ text, isDigit c = true) ∧
      n = Nat.ofDigits 10 (text.map digitValue).reverse := by
  rw [readDigits?, ← continueFrom_eq_ofDigits, ← and_assoc, ← isDigits_iff]
  split
  · next digits => simp [digits, eq_comm]
  · next other => simp [other]

theorem read?_eq_some_iff : read? text = some n ↔ Denotes text n := by
  constructor
  · intro read
    rw [read?.eq_def] at read
    split at read
    · next digits =>
      exact ⟨digits, .inr rfl, readDigits?_eq_some_iff.mp read⟩
    · exact ⟨text, .inl rfl, readDigits?_eq_some_iff.mp read⟩
  · rintro ⟨digits, rfl | rfl, filled, all, rfl⟩
    · rw [read?_digits (isDigits_iff.mpr ⟨filled, all⟩), continueFrom_eq_ofDigits]
    · exact readDigits?_eq_some_iff.mpr ⟨filled, all, rfl⟩

theorem readUInt64?_eq_some_iff {word : UInt64} :
    readUInt64? text = some word ↔ Denotes text word.toNat := by
  rw [← read?_eq_some_iff, readUInt64?]
  cases read? text with
  | none => simp
  | some n =>
      have small := word.toNat_lt_size
      simp only [Option.ite_none_right_eq_some, Option.some.injEq]
      constructor
      · rintro ⟨fits, rfl⟩
        rw [UInt64.toNat_ofNat_of_lt' fits]
      · rintro rfl
        exact ⟨small, UInt64.ofNat_toNat⟩

theorem Denotes.digit_or_plus (denotes : Denotes text n) :
    ∀ c ∈ text, isDigit c = true ∨ c = '+' := by
  obtain ⟨digits, rfl | rfl, -, all, -⟩ := denotes
  · exact fun c member => .inl (all c member)
  · intro c member
    rcases List.mem_cons.mp member with rfl | later
    · exact .inr rfl
    · exact .inl (all c later)

-- What is no digit is not in a numeral.
theorem not_mem_write (other : isDigit c = false) (n : Nat) : c ∉ write n := by
  intro member
  rw [all_write n c member] at other
  cases other

end Text.Numeral

end MoteCapture

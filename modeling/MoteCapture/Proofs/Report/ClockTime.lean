import Mathlib.Data.List.Forall2
import MoteCapture.Proofs.Text.Basic
import MoteCapture.Report

/-!
What a time field stands for. The value is said without a bound, by the digits alone; reading computes
it in words and gives it up as soon as a word does not hold what comes out. Both agree, because every
number on the way is at most the one at the end: what does not fit on the way does not fit in the end.
-/

namespace MoteCapture.Report

open Text

namespace ClockTime

/-- The thousandths that the digits of a fraction stand for. Digits behind the third are cut off. -/
def thousandths (fraction : List Char) : Nat :=
  Nat.ofDigits 10 (((fraction ++ ['0', '0', '0']).take 3).map Numeral.digitValue).reverse

def WithFraction (whole fraction seconds : List Char) : Prop :=
  seconds = whole ∧ fraction = [] ∨ seconds = whole ++ '.' :: fraction

/-- The number of milliseconds that a field stands for, however large. -/
inductive Denotes : List Char → Nat → Prop where
  | count {field : List Char} {n : Nat} (plain : Numeral.Denotes field n) : Denotes field n
  | clock {segments : List (List Char)} {minutes : List Nat} {whole fraction seconds : List Char}
      {n : Nat} (filled : segments ≠ [])
      (high : List.Forall₂ Numeral.Denotes segments minutes)
      (plain : Numeral.Denotes whole n)
      (digits : ∀ c ∈ fraction, Numeral.isDigit c = true)
      (last : WithFraction whole fraction seconds) :
      Denotes ([':'].intercalate (segments ++ [seconds]))
        (1000 * (60 * Nat.ofDigits 60 minutes.reverse + n) + thousandths fraction)

theorem plus?_eq_some_iff {a b c : UInt64} :
    plus? a b = some c ↔ c.toNat = a.toNat + b.toNat := by
  have small := c.toNat_lt
  rw [plus?, Option.ite_none_right_eq_some, Option.some.injEq, ← UInt64.toNat_inj,
    UInt64.toNat_add, UInt64.size]
  omega

theorem times?_eq_some_iff {a b c : UInt64} :
    times? a b = some c ↔ c.toNat = a.toNat * b.toNat := by
  have small := c.toNat_lt
  rw [times?, Option.ite_none_right_eq_some, Option.some.injEq, ← UInt64.toNat_inj,
    UInt64.toNat_mul, UInt64.size]
  constructor
  · rintro ⟨fits, same⟩
    rw [← same, Nat.mod_eq_of_lt fits]
  · intro same
    rw [← same]
    exact ⟨small, Nat.mod_eq_of_lt small⟩

theorem exists_word {n : Nat} (fits : n < UInt64.size) : ∃ word : UInt64, word.toNat = n :=
  ⟨.ofNat n, UInt64.toNat_ofNat_of_lt' fits⟩

-- The fraction is filled up to three digits exactly, so that the words below are all small.
theorem taken_digits {fraction : List Char} (digits : ∀ c ∈ fraction, Numeral.isDigit c = true) :
    ∃ a b c, (fraction ++ ['0', '0', '0']).take 3 = [a, b, c] ∧ Numeral.digitValue a ≤ 9 ∧
      Numeral.digitValue b ≤ 9 ∧ Numeral.digitValue c ≤ 9 := by
  have three : ((fraction ++ ['0', '0', '0']).take 3).length = 3 := by simp
  have small : ∀ c ∈ (fraction ++ ['0', '0', '0']).take 3, Numeral.digitValue c ≤ 9 := by
    intro c member
    apply Numeral.digitValue_le
    rcases List.mem_append.mp (List.mem_of_mem_take member) with own | zero
    · exact digits c own
    · have all : ['0', '0', '0'].all Numeral.isDigit = true := by decide
      exact List.all_eq_true.mp all c zero
  obtain ⟨a, b, c, taken⟩ := List.length_eq_three.mp three
  rw [taken] at small
  exact ⟨a, b, c, taken, small a (by simp), small b (by simp), small c (by simp)⟩

theorem toNat_millis {fraction : List Char}
    (digits : ∀ c ∈ fraction, Numeral.isDigit c = true) :
    (millis fraction).toNat = thousandths fraction := by
  obtain ⟨a, b, c, taken, first, second, third⟩ := taken_digits digits
  have word : ∀ n ≤ 9, (UInt64.ofNat n).toNat = n := by
    intro n le
    exact UInt64.toNat_ofNat_of_lt' (by rw [UInt64.size]; omega)
  rw [millis, thousandths, taken]
  simp only [List.foldl_cons, List.foldl_nil, UInt64.toNat_add, UInt64.toNat_mul, word _ first,
    word _ second, word _ third, List.map_cons, List.map_nil, Nat.ofDigits_reverse_cons,
    List.reverse_nil, Nat.ofDigits_nil, List.length_cons, List.length_nil]
  simp
  omega

-- The two most significant digits to base sixty can be put together first.
theorem ofDigits_shift (high value : Nat) (values : List Nat) :
    Nat.ofDigits 60 (high :: value :: values).reverse =
      Nat.ofDigits 60 ((high * 60 + value) :: values).reverse := by
  simp only [Nat.ofDigits_reverse_cons, List.length_cons]
  ring

theorem le_ofDigits (high : Nat) (values : List Nat) :
    high ≤ Nat.ofDigits 60 (high :: values).reverse := by
  rw [Nat.ofDigits_reverse_cons]
  have positive : 0 < 60 ^ values.length := Nat.pow_pos (by decide)
  have least := Nat.le_mul_of_pos_left high positive
  omega

theorem sexagesimal?_eq_some_iff {high minutes : UInt64} {segments : List (List Char)} :
    sexagesimal? high segments = some minutes ↔
      ∃ values, List.Forall₂ Numeral.Denotes segments values ∧
        minutes.toNat = Nat.ofDigits 60 (high.toNat :: values).reverse := by
  induction segments generalizing high with
  | nil =>
      simp [sexagesimal?, ← UInt64.toNat_inj, List.forall₂_nil_left_iff, eq_comm]
  | cons segment rest ih =>
      rw [sexagesimal?]
      simp only [Option.bind_eq_bind, Option.bind_eq_some_iff, Numeral.readUInt64?_eq_some_iff,
        times?_eq_some_iff, plus?_eq_some_iff, ih]
      constructor
      · rintro ⟨value, first, shifted, sixty, sum, total, values, later, same⟩
        refine ⟨value.toNat :: values, .cons first later, ?_⟩
        rw [ofDigits_shift, same, total, sixty]
        rfl
      · rintro ⟨values, denotes, same⟩
        cases denotes with
        | cons first later =>
          rename_i value values
          rw [ofDigits_shift] at same
          -- The sum at this place is at most the number at the end, which a word holds.
          have least := le_ofDigits (high.toNat * 60 + value) values
          have small := minutes.toNat_lt_size
          obtain ⟨word, rfl⟩ := exists_word (n := value) (by omega)
          obtain ⟨shifted, sixty⟩ := exists_word (n := high.toNat * 60) (by omega)
          obtain ⟨sum, total⟩ := exists_word (n := high.toNat * 60 + word.toNat) (by omega)
          refine ⟨word, first, shifted, sixty, sum, by rw [total, sixty], values, later, ?_⟩
          rw [same, total]

theorem wholeAndFraction_spec (seconds : List Char) :
    WithFraction (wholeAndFraction seconds).1 (wholeAndFraction seconds).2 seconds := by
  rw [wholeAndFraction]
  cases cut : cutAt? (· == '.') seconds with
  | none => exact .inl ⟨rfl, rfl⟩
  | some halves =>
      obtain ⟨c, whole, hit, -⟩ := cutAt?_eq_some cut
      rw [beq_iff_eq] at hit
      subst hit
      exact .inr whole

-- A numeral has no point in it, so the cut is where the fraction starts.
theorem WithFraction.cut {whole fraction seconds : List Char} {n : Nat}
    (last : WithFraction whole fraction seconds) (plain : Numeral.Denotes whole n) :
    wholeAndFraction seconds = (whole, fraction) := by
  have outside : ∀ c ∈ whole, (c == '.') = false := by
    intro c member
    rcases plain.digit_or_plus c member with digit | rfl
    · by_cases point : c = '.'
      · subst point
        cases digit
      · simpa using point
    · rfl
  rcases last with ⟨rfl, rfl⟩ | rfl
  · rw [wholeAndFraction, cutAt?_eq_none outside]
    rfl
  · rw [wholeAndFraction, cutAt?_append outside (beq_self_eq_true '.')]
    rfl

theorem withSeconds?_eq_some_iff {minutes time : UInt64} {seconds : List Char} :
    withSeconds? minutes seconds = some time ↔
      ∃ whole fraction n, WithFraction whole fraction seconds ∧ Numeral.Denotes whole n ∧
        (∀ c ∈ fraction, Numeral.isDigit c = true) ∧
        time.toNat = 1000 * (60 * minutes.toNat + n) + thousandths fraction := by
  simp only [withSeconds?, Option.bind_eq_bind, Option.bind_eq_some_iff,
    Option.ite_none_right_eq_some, Numeral.readUInt64?_eq_some_iff, times?_eq_some_iff,
    plus?_eq_some_iff, List.all_eq_true, UInt64.reduceToNat]
  constructor
  · rintro ⟨n, plain, digits, sixty, first, inSeconds, second, total, third, last⟩
    refine ⟨_, _, n.toNat, wholeAndFraction_spec seconds, plain, digits, ?_⟩
    rw [last, toNat_millis digits, third, second, first]
    ring
  · rintro ⟨whole, fraction, n, parted, plain, digits, last⟩
    have small := time.toNat_lt_size
    obtain ⟨word, rfl⟩ := exists_word (n := n) (by omega)
    obtain ⟨sixty, first⟩ := exists_word (n := minutes.toNat * 60) (by omega)
    obtain ⟨inSeconds, second⟩ :=
      exists_word (n := minutes.toNat * 60 + word.toNat) (by omega)
    obtain ⟨total, third⟩ :=
      exists_word (n := (minutes.toNat * 60 + word.toNat) * 1000) (by omega)
    rw [parted.cut plain]
    refine ⟨word, plain, digits, sixty, first, inSeconds, by rw [second, first], total,
      by rw [third, second], ?_⟩
    rw [last, toNat_millis digits, third]
    ring

-- The characters of numerals and fractions; a colon or a blank is none of them.
def isPart (c : Char) : Bool :=
  Numeral.isDigit c || c == '+' || c == '.'

theorem isPart_numeral {text : List Char} {n : Nat} (denotes : Numeral.Denotes text n) :
    ∀ c ∈ text, isPart c = true := by
  intro c member
  rcases denotes.digit_or_plus c member with digit | rfl
  · simp [isPart, digit]
  · rfl

theorem WithFraction.isPart {whole fraction seconds : List Char} {n : Nat}
    (last : WithFraction whole fraction seconds) (plain : Numeral.Denotes whole n)
    (digits : ∀ c ∈ fraction, Numeral.isDigit c = true) :
    ∀ c ∈ seconds, ClockTime.isPart c = true := by
  rcases last with ⟨rfl, -⟩ | rfl
  · exact isPart_numeral plain
  · intro c member
    rcases List.mem_append.mp member with front | behind
    · exact isPart_numeral plain c front
    · rcases List.mem_cons.mp behind with rfl | digit
      · rfl
      · simp [ClockTime.isPart, digits c digit]

theorem isPart_segments {segments : List (List Char)} {minutes : List Nat}
    (high : List.Forall₂ Numeral.Denotes segments minutes) :
    ∀ segment ∈ segments, ∀ c ∈ segment, isPart c = true := by
  induction high with
  | nil => simp
  | cons first _ ih => exact List.forall_mem_cons.mpr ⟨isPart_numeral first, ih⟩

theorem Denotes.solid {field : List Char} {n : Nat} (denotes : Denotes field n) :
    ∀ c ∈ field, isBlank c = false := by
  have part : ∀ c, isPart c = true → isBlank c = false := by
    intro c own
    simp only [isPart, Bool.or_eq_true, beq_iff_eq] at own
    rcases own with (digit | rfl) | rfl
    · exact Numeral.isBlank_digit digit
    · rfl
    · rfl
  intro c member
  cases denotes with
  | count plain => exact part c (isPart_numeral plain c member)
  | clock filled high plain digits last =>
      rcases mem_intercalate member with rfl | ⟨piece, segment, inside⟩
      · rfl
      · rcases List.mem_append.mp segment with front | seconds
        · exact part c (isPart_segments high piece front c inside)
        · rw [List.mem_singleton] at seconds
          subst seconds
          exact part c (last.isPart plain digits c inside)

theorem splitAll_segments {segments : List (List Char)} {minutes : List Nat}
    {whole fraction seconds : List Char} {n : Nat}
    (high : List.Forall₂ Numeral.Denotes segments minutes) (plain : Numeral.Denotes whole n)
    (digits : ∀ c ∈ fraction, Numeral.isDigit c = true)
    (last : WithFraction whole fraction seconds) :
    splitAll ':' ([':'].intercalate (segments ++ [seconds])) = segments ++ [seconds] := by
  have absent : ∀ piece ∈ segments ++ [seconds], ':' ∉ piece := by
    intro piece member inside
    have part : isPart ':' = true := by
      rcases List.mem_append.mp member with front | behind
      · exact isPart_segments high piece front _ inside
      · rw [List.mem_singleton] at behind
        subst behind
        exact last.isPart plain digits _ inside
    cases part
  rw [splitAll_eq_splitOn]
  exact List.splitOn_intercalate ':' absent (by simp)

theorem segmented?_eq_some_iff {field : List Char} {time : UInt64} :
    segmented? field = some time ↔
      ∃ segments seconds minutes whole fraction n,
        field = [':'].intercalate (segments ++ [seconds]) ∧
        List.Forall₂ Numeral.Denotes segments minutes ∧ Numeral.Denotes whole n ∧
        (∀ c ∈ fraction, Numeral.isDigit c = true) ∧ WithFraction whole fraction seconds ∧
        time.toNat =
          1000 * (60 * Nat.ofDigits 60 minutes.reverse + n) + thousandths fraction := by
  have fromZero : ∀ values : List Nat, Nat.ofDigits 60 (UInt64.toNat 0 :: values).reverse =
      Nat.ofDigits 60 values.reverse := by
    intro values
    simp [Nat.ofDigits_append]
  simp only [segmented?, Option.bind_eq_bind, Option.bind_eq_some_iff, sexagesimal?_eq_some_iff,
    withSeconds?_eq_some_iff, fromZero]
  constructor
  · rintro ⟨total, ⟨minutes, high, sum⟩, whole, fraction, n, last, plain, digits, same⟩
    have pieces : (splitAll ':' field).dropLast ++ [(splitAll ':' field).getLast?.getD []] =
        splitAll ':' field := by
      have filled : splitAll ':' field ≠ [] := by
        rw [splitAll_eq_splitOn]
        exact List.splitOn_ne_nil ':' field
      rw [List.getLast?_eq_some_getLast filled]
      exact List.dropLast_concat_getLast filled
    refine ⟨_, _, minutes, whole, fraction, n, ?_, high, plain, digits, last, by rw [same, sum]⟩
    rw [pieces, splitAll_eq_splitOn, List.intercalate_splitOn]
  · rintro ⟨segments, seconds, minutes, whole, fraction, n, rfl, high, plain, digits, last, same⟩
    have small := time.toNat_lt_size
    obtain ⟨total, sum⟩ := exists_word (n := Nat.ofDigits 60 minutes.reverse) (by omega)
    rw [splitAll_segments high plain digits last, List.dropLast_concat, List.getLast?_concat]
    exact ⟨total, ⟨minutes, high, sum⟩, whole, fraction, n, last, plain, digits, by rw [same, sum]⟩

theorem read?_eq_some_iff {field : List Char} {time : UInt64} :
    read? field = some time ↔ Denotes field time.toNat := by
  rw [read?]
  split
  · next colon =>
    rw [List.contains_iff_mem] at colon
    rw [segmented?_eq_some_iff]
    constructor
    · rintro ⟨segments, seconds, minutes, whole, fraction, n, rfl, high, plain, digits, last, same⟩
      have filled : segments ≠ [] := by
        rintro rfl
        cases last.isPart plain digits ':' (by simpa using colon)
      rw [same]
      exact .clock filled high plain digits last
    · intro denotes
      generalize value : time.toNat = v at denotes
      cases denotes with
      | count plain => cases isPart_numeral plain ':' colon
      | clock filled high plain digits last =>
          exact ⟨_, _, _, _, _, _, rfl, high, plain, digits, last, rfl⟩
  · next plain =>
    rw [Numeral.readUInt64?_eq_some_iff]
    constructor
    · exact .count
    · intro denotes
      generalize value : time.toNat = v at denotes
      cases denotes with
      | count plain => exact plain
      | @clock segments _ _ _ _ _ filled high =>
          obtain ⟨first, others, rfl⟩ := List.exists_cons_of_ne_nil filled
          refine absurd ?_ plain
          rw [List.cons_append, List.intercalate_cons_of_ne_nil (by simp)]
          simp

end ClockTime

/-- A time field is read as the number of milliseconds that it denotes, exactly and whatever the
length of its parts, if a word holds that number. In every other case the field is blamed as it
stands. -/
theorem time_field_is_exact (field : List Char) :
    (∀ time, ClockTime.read? field = some time ↔ ClockTime.Denotes field time.toNat) ∧
    ∀ mote message, ofFields ⟨field, mote, message⟩ = .error (.badTime (String.ofList field)) ↔
      ¬ ∃ n < UInt64.size, ClockTime.Denotes field n := by
  refine ⟨fun time => ClockTime.read?_eq_some_iff, fun mote message => ?_⟩
  cases read : ClockTime.read? field with
  | none =>
      have nothing : ¬ ∃ n < UInt64.size, ClockTime.Denotes field n := by
        rintro ⟨n, fits, denotes⟩
        obtain ⟨time, rfl⟩ := ClockTime.exists_word fits
        rw [ClockTime.read?_eq_some_iff.mpr denotes] at read
        cases read
      simp [ofFields, read, nothing]
  | some time =>
      have something : ∃ n < UInt64.size, ClockTime.Denotes field n :=
        ⟨_, time.toNat_lt_size, ClockTime.read?_eq_some_iff.mp read⟩
      rw [ofFields, read]
      cases readMote? mote <;> simp [something]

-- Leading zeros, a sign, an hour and a long fraction; and the greatest time, with what is beyond it.
example : ClockTime.read? "+1:000:07.45678".toList = some 3607456 := by decide +kernel
example : ClockTime.read? "307445734561825:51.615".toList = some 18446744073709551615 := by
  decide +kernel
example : ClockTime.read? "307445734561825:51.616".toList = none := by decide +kernel

end MoteCapture.Report

import Mathlib.Data.List.Count
import Mathlib.Data.List.Infix
import Mathlib.Logic.Function.Basic
import MoteCapture.Proofs.Text.Basic

/-!
Replacing one text by another. A pattern with an opening brace in front and no other one never overlaps
itself, nor another one of its kind; so what is replaced in front of a brace and behind it is replaced
apart, and the other patterns of a text stay where they are.

Replacing a pattern is filling the gaps that it leaves in a text. A text that is filled tells what its
gaps were filled with, and two fillings that begin differently tell where they were. If the gaps are
filled with the pattern itself, replacing it finds these gaps again, and no others exactly if the pattern
does not occur more often than there are gaps.
-/

namespace MoteCapture

namespace Text

def Braced (pattern : List Char) : Prop :=
  ∃ rest, pattern = '\x7b' :: rest ∧ '\x7b' ∉ rest

/-- At how many places of the text the nonempty pattern begins. -/
def timesIn (pattern : List Char) : List Char → Nat
  | [] => 0
  | c :: rest => timesIn pattern rest + if pattern.isPrefixOf (c :: rest) then 1 else 0

variable {pattern other value text front rest : List Char} {c : Char}

theorem Braced.ne_nil (braced : Braced pattern) : pattern ≠ [] := by
  obtain ⟨inside, rfl, -⟩ := braced
  exact List.cons_ne_nil _ _

theorem substituteFrom_eq (pattern value : List Char) (skip : Nat) (text : List Char) :
    substituteFrom pattern value skip text = substitute pattern value (text.drop skip) := by
  induction text generalizing skip with
  | nil => cases skip <;> simp [substitute, substituteFrom]
  | cons c rest ih =>
      cases skip with
      | zero => rfl
      | succ skip => exact ih skip

theorem substitute_hit (filled : pattern ≠ []) (value rest : List Char) :
    substitute pattern value (pattern ++ rest) = value ++ substitute pattern value rest := by
  obtain ⟨c, others, rfl⟩ := List.exists_cons_of_ne_nil filled
  have hit : (c :: others).isPrefixOf (c :: (others ++ rest)) = true :=
    List.isPrefixOf_iff_prefix.mpr (List.prefix_append (c :: others) rest)
  rw [List.cons_append, substitute, substituteFrom, if_pos hit, substituteFrom_eq]
  simp

theorem substitute_miss (miss : ¬ pattern <+: c :: rest) (value : List Char) :
    substitute pattern value (c :: rest) = c :: substitute pattern value rest := by
  rw [substitute, substituteFrom, if_neg]
  · rfl
  · rw [List.isPrefixOf_iff_prefix]
    exact miss

theorem timesIn_miss (miss : ¬ pattern <+: c :: rest) :
    timesIn pattern (c :: rest) = timesIn pattern rest := by
  rw [timesIn, if_neg, Nat.add_zero]
  rw [List.isPrefixOf_iff_prefix]
  exact miss

-- A text is gone through from left to right, past a whole pattern or past one character.
theorem pattern_induction {motive : List Char → Prop} (filled : pattern ≠ []) (nil : motive [])
    (hit : ∀ rest, motive rest → motive (pattern ++ rest))
    (miss : ∀ c rest, ¬ pattern <+: c :: rest → motive rest → motive (c :: rest))
    (text : List Char) : motive text := by
  induction long : text.length using Nat.strongRecOn generalizing text with
  | ind length ih =>
    rcases text with _ | ⟨c, rest⟩
    · exact nil
    · by_cases begins : pattern <+: c :: rest
      · obtain ⟨behind, whole⟩ := begins
        have shorter : behind.length < length := by
          have some := List.length_pos_of_ne_nil filled
          rw [← long, ← whole, List.length_append]
          omega
        rw [← whole]
        exact hit behind (ih _ shorter behind rfl)
      · have shorter : rest.length < length := by simp [← long]
        exact miss c rest begins (ih _ shorter rest rfl)

theorem substitute_absent (absent : ¬ pattern <:+: text) (value : List Char) :
    substitute pattern value text = text := by
  induction text with
  | nil => rfl
  | cons c rest ih =>
      rw [List.infix_cons_iff, not_or] at absent
      rw [substitute_miss absent.1, ih absent.2]

theorem timesIn_eq_zero_iff (filled : pattern ≠ []) :
    timesIn pattern text = 0 ↔ ¬ pattern <:+: text := by
  induction text with
  | nil => simp [timesIn, filled]
  | cons c rest ih =>
      rw [timesIn, Nat.add_eq_zero_iff, ih, List.infix_cons_iff, not_or, and_comm,
        ← List.isPrefixOf_iff_prefix]
      simp

namespace Braced

-- Nothing begins where there is no brace.
theorem misses (braced : Braced pattern) (plain : c ≠ '\x7b') : ¬ pattern <+: c :: rest := by
  obtain ⟨inside, rfl, -⟩ := braced
  rw [List.cons_prefix_cons]
  exact fun begins => plain begins.1.symm

-- What begins in front of a brace ends in front of it.
theorem misses_append (braced : Braced pattern) (miss : ¬ pattern <+: c :: front)
    (rest : List Char) : ¬ pattern <+: c :: (front ++ '\x7b' :: rest) := by
  rintro ⟨behind, whole⟩
  obtain ⟨inside, rfl, plain⟩ := braced
  rw [List.cons_append, List.cons.injEq] at whole
  obtain ⟨rfl, same⟩ := whole
  rcases List.append_eq_append_iff.mp same with ⟨between, longer, -⟩ | ⟨between, shorter, opens⟩
  · exact miss ⟨between, by rw [List.cons_append, ← longer]⟩
  · rcases between with _ | ⟨d, between⟩
    · rw [List.append_nil] at shorter
      exact miss ⟨[], by rw [List.append_nil, shorter]⟩
    · obtain ⟨rfl, -⟩ := List.cons.inj opens
      exact plain (shorter ▸ List.mem_append_right _ List.mem_cons_self)

theorem substitute_append (braced : Braced pattern) (value front rest : List Char) :
    substitute pattern value (front ++ '\x7b' :: rest) =
      substitute pattern value front ++ substitute pattern value ('\x7b' :: rest) := by
  induction front using pattern_induction braced.ne_nil with
  | nil => rfl
  | hit behind ih =>
      rw [List.append_assoc, substitute_hit braced.ne_nil, substitute_hit braced.ne_nil, ih,
        List.append_assoc]
  | miss c behind miss ih =>
      rw [List.cons_append, substitute_miss (braced.misses_append miss rest), substitute_miss miss,
        ih, List.cons_append]

theorem timesIn_append (braced : Braced pattern) (front rest : List Char) :
    timesIn pattern (front ++ '\x7b' :: rest) =
      timesIn pattern front + timesIn pattern ('\x7b' :: rest) := by
  induction front with
  | nil => exact (Nat.zero_add _).symm
  | cons c behind ih =>
      rw [List.cons_append, timesIn, timesIn, ih]
      have same : pattern.isPrefixOf (c :: (behind ++ '\x7b' :: rest)) =
          pattern.isPrefixOf (c :: behind) := by
        rw [Bool.eq_iff_iff, List.isPrefixOf_iff_prefix, List.isPrefixOf_iff_prefix]
        constructor
        · intro begins
          by_contra miss
          exact braced.misses_append miss rest begins
        · intro begins
          exact begins.trans (List.prefix_append (c :: behind) _)
      rw [same]
      omega

-- A text without a brace is passed over.
theorem substitute_plain (braced : Braced pattern) (plain : '\x7b' ∉ front) (value rest : List Char) :
    substitute pattern value (front ++ rest) = front ++ substitute pattern value rest := by
  induction front with
  | nil => rfl
  | cons c behind ih =>
      rw [List.mem_cons, not_or] at plain
      rw [List.cons_append, substitute_miss (braced.misses (Ne.symm plain.1)), ih plain.2,
        List.cons_append]

theorem timesIn_plain (braced : Braced pattern) (plain : '\x7b' ∉ front) (rest : List Char) :
    timesIn pattern (front ++ rest) = timesIn pattern rest := by
  induction front with
  | nil => rfl
  | cons c behind ih =>
      rw [List.mem_cons, not_or] at plain
      rw [List.cons_append, timesIn_miss (braced.misses (Ne.symm plain.1)), ih plain.2]

theorem timesIn_hit (braced : Braced pattern) (rest : List Char) :
    timesIn pattern (pattern ++ rest) = timesIn pattern rest + 1 := by
  have hit := List.prefix_append pattern rest
  obtain ⟨inside, same, plain⟩ := id braced
  rw [same, List.cons_append] at hit ⊢
  rw [← same] at hit ⊢
  rw [timesIn, braced.timesIn_plain plain, if_pos (List.isPrefixOf_iff_prefix.mpr hit)]

-- Of two patterns of which none begins the other, none begins inside the other.
theorem misses_other (apart : ¬ pattern <+: other) (apart' : ¬ other <+: pattern) :
    ¬ pattern <+: other ++ rest := by
  intro begins
  rcases List.prefix_or_prefix_of_prefix begins (List.prefix_append other rest) with within | within
  · exact apart within
  · exact apart' within

theorem substitute_other (braced : Braced pattern) (braced' : Braced other)
    (apart : ¬ pattern <+: other) (apart' : ¬ other <+: pattern) (value rest : List Char) :
    substitute pattern value (other ++ rest) = other ++ substitute pattern value rest := by
  have miss := @misses_other _ _ rest apart apart'
  obtain ⟨inside, rfl, plain⟩ := braced'
  rw [List.cons_append] at miss ⊢
  rw [substitute_miss miss, braced.substitute_plain plain, List.cons_append]

theorem timesIn_other (braced : Braced pattern) (braced' : Braced other)
    (apart : ¬ pattern <+: other) (apart' : ¬ other <+: pattern) (rest : List Char) :
    timesIn pattern (other ++ rest) = timesIn pattern rest := by
  have miss := @misses_other _ _ rest apart apart'
  obtain ⟨inside, rfl, plain⟩ := braced'
  rw [List.cons_append] at miss ⊢
  rw [timesIn_miss miss, braced.timesIn_plain plain]

-- What is replaced leaves the other patterns of a text where they are.
theorem substitute_around (braced : Braced pattern) (braced' : Braced other)
    (apart : ¬ pattern <+: other) (apart' : ¬ other <+: pattern) (value front rest : List Char) :
    substitute pattern value (front ++ (other ++ rest)) =
      substitute pattern value front ++ (other ++ substitute pattern value rest) := by
  have passed := braced.substitute_other braced' apart apart' value rest
  obtain ⟨within, rfl, -⟩ := braced'
  rw [List.cons_append] at passed ⊢
  rw [braced.substitute_append, passed]

end Braced

end Text

/-! Texts with gaps. -/

namespace Text

/-- A text with gaps of some kinds. -/
abbrev Gapped (κ : Type) := List (Char ⊕ κ)

namespace Gapped

def fillOne {κ : Type} (value : κ → List Char) : Char ⊕ κ → List Char
  | .inl c => [c]
  | .inr kind => value kind

def fill {κ : Type} (value : κ → List Char) (text : Gapped κ) : List Char :=
  text.flatMap (fillOne value)

def gaps {κ : Type} [DecidableEq κ] (kind : κ) (text : Gapped κ) : Nat :=
  text.countP (· = .inr kind)

def only {κ : Type} [DecidableEq κ] (kind : κ) (value : κ → List Char) (text : Gapped κ) :
    Gapped Unit :=
  text.flatMap fun mark =>
    if mark = .inr kind then [.inr ()] else (fillOne value mark).map .inl

section Kinds

variable {κ : Type} (value : κ → List Char) (mark : Char ⊕ κ) (text rest : Gapped κ)

@[simp] theorem fill_nil : fill value [] = [] := rfl

@[simp] theorem fill_cons : fill value (mark :: rest) = fillOne value mark ++ fill value rest :=
  List.flatMap_cons

@[simp] theorem fill_append : fill value (text ++ rest) = fill value text ++ fill value rest :=
  List.flatMap_append

@[simp] theorem fill_chars (front : List Char) : fill value (front.map .inl) = front := by
  induction front with
  | nil => rfl
  | cons c behind ih => rw [List.map_cons, fill_cons, ih]; rfl

variable [DecidableEq κ] (kind : κ)

theorem fill_only (filling : List Char) :
    fill (fun _ => filling) (only kind value text) =
      fill (Function.update value kind filling) text := by
  induction text with
  | nil => rfl
  | cons mark rest ih =>
      rw [only, List.flatMap_cons, fill_append, fill_cons, ← ih, only]
      congr 1
      rcases mark with c | other
      · simp [fillOne]
      · by_cases same : other = kind
        · simp [same, fillOne]
        · simp [same, fillOne]

@[simp] theorem gaps_nil : gaps kind [] = 0 := rfl

theorem gaps_append : gaps kind (text ++ rest) = gaps kind text + gaps kind rest :=
  List.countP_append

@[simp] theorem gaps_cons_char (c : Char) : gaps kind (.inl c :: rest) = gaps kind rest :=
  List.countP_cons_of_neg (by simp)

@[simp] theorem gaps_cons_gap : gaps kind (.inr kind :: rest) = gaps kind rest + 1 :=
  List.countP_cons_of_pos (by simp)

theorem gaps_cons_other {other : κ} (differ : other ≠ kind) :
    gaps kind (.inr other :: rest) = gaps kind rest :=
  List.countP_cons_of_neg (by simpa using differ)

theorem gaps_chars (front : List Char) : gaps kind (front.map .inl) = 0 := by
  induction front with
  | nil => rfl
  | cons c behind ih => rw [List.map_cons, gaps_cons_char, ih]

theorem gaps_only : gaps () (only kind value text) = gaps kind text := by
  induction text with
  | nil => rfl
  | cons mark rest ih =>
      rw [only, List.flatMap_cons, gaps_append, ← only, ih]
      rcases mark with c | other
      · rw [if_neg (by simp), gaps_chars, gaps_cons_char, Nat.zero_add]
      · by_cases same : other = kind
        · rw [same, if_pos rfl, gaps_cons_gap, gaps_cons_gap, gaps_nil, Nat.zero_add, Nat.add_comm]
        · rw [if_neg (by simpa using same), gaps_chars, gaps_cons_other _ _ same, Nat.zero_add]

end Kinds

variable {pattern value : List Char} {text other : Gapped Unit}

-- A text is gone through from gap to gap.
theorem gap_induction {motive : Gapped Unit → Prop}
    (chars : ∀ front : List Char, motive (front.map .inl))
    (gap : ∀ (front : List Char) rest, motive rest → motive (front.map .inl ++ .inr () :: rest))
    (text : Gapped Unit) : motive text := by
  suffices ∀ front : List Char, motive (front.map .inl ++ text) from this []
  induction text with
  | nil =>
      intro front
      rw [List.append_nil]
      exact chars front
  | cons mark rest ih =>
      intro front
      rcases mark with c | ⟨⟩
      · have longer := ih (front ++ [c])
        rwa [List.map_append, List.append_assoc] at longer
      · exact gap front rest (ih [])

theorem length_fill (value : List Char) (text : Gapped Unit) :
    (fill (fun _ => value) text).length + gaps () text =
      text.length + gaps () text * value.length := by
  induction text with
  | nil => rw [fill_nil, gaps_nil, Nat.zero_mul]; rfl
  | cons mark rest ih =>
      rw [fill_cons, List.length_append]
      rcases mark with c | ⟨⟩
      · rw [gaps_cons_char, fillOne, List.length_singleton, List.length_cons]
        omega
      · rw [gaps_cons_gap, fillOne, List.length_cons, Nat.add_one_mul]
        omega

-- The value is found again in the first gap.
theorem fill_value_inj {second : List Char} (some : 0 < gaps () text)
    (same : fill (fun _ => value) text = fill (fun _ => second) text) : value = second := by
  have long : value.length = second.length := by
    have lengths := length_fill value text
    rw [same, length_fill second text, Nat.add_left_cancel_iff] at lengths
    exact (Nat.eq_of_mul_eq_mul_left some lengths).symm
  induction text with
  | nil => cases some
  | cons mark rest ih =>
      rw [fill_cons, fill_cons] at same
      rcases mark with c | ⟨⟩
      · exact ih some (List.cons.inj same).2
      · exact (List.append_inj same long).1

-- Of two values that begin differently only one can stand for a character.
theorem fill_text_inj {c d : Char} {second : List Char} (differ : c ≠ d)
    (same : fill (fun _ => c :: value) text = fill (fun _ => c :: value) other)
    (same' : fill (fun _ => d :: second) text = fill (fun _ => d :: second) other) :
    text = other := by
  induction text generalizing other with
  | nil =>
      rcases other with _ | ⟨a | ⟨⟩, others⟩
      · rfl
      · cases same
      · cases same
  | cons mark rest ih =>
      rcases mark with a | ⟨⟩
      · rcases other with _ | ⟨b | ⟨⟩, others⟩
        · cases same
        · obtain ⟨rfl, here⟩ := List.cons.inj same
          rw [ih here (List.cons.inj same').2]
        · exact absurd ((List.cons.inj same).1.symm.trans (List.cons.inj same').1) differ
      · rcases other with _ | ⟨b | ⟨⟩, others⟩
        · cases same
        · exact absurd ((List.cons.inj same).1.trans (List.cons.inj same').1.symm) differ
        · rw [fill_cons, fill_cons] at same same'
          rw [ih (List.append_cancel_left same) (List.append_cancel_left same')]

/-! The gaps that a pattern leaves. -/

theorem exists_gaps (braced : Braced pattern) (text : List Char) :
    ∃ gapped : Gapped Unit, fill (fun _ => pattern) gapped = text ∧
      gaps () gapped = timesIn pattern text ∧
      ∀ value, substitute pattern value text = fill (fun _ => value) gapped := by
  induction text using pattern_induction braced.ne_nil with
  | nil => exact ⟨[], rfl, rfl, fun _ => rfl⟩
  | hit rest ih =>
      obtain ⟨gapped, whole, count, put⟩ := ih
      refine ⟨.inr () :: gapped, ?_, ?_, ?_⟩
      · rw [fill_cons, whole]
        rfl
      · rw [gaps_cons_gap, braced.timesIn_hit, count]
      · intro value
        rw [substitute_hit braced.ne_nil, put]
        rfl
  | miss c rest miss ih =>
      obtain ⟨gapped, whole, count, put⟩ := ih
      refine ⟨.inl c :: gapped, ?_, ?_, ?_⟩
      · rw [fill_cons, whole]
        rfl
      · rw [gaps_cons_char, timesIn_miss miss, count]
      · intro value
        rw [substitute_miss miss, put]
        rfl

theorem length_substitute (braced : Braced pattern) (value text : List Char) :
    (substitute pattern value text).length + timesIn pattern text * pattern.length =
      text.length + timesIn pattern text * value.length := by
  obtain ⟨gapped, whole, count, put⟩ := exists_gaps braced text
  have before := length_fill pattern gapped
  have after := length_fill value gapped
  rw [whole] at before
  rw [← put] at after
  rw [← count]
  omega

theorem substitute_self (braced : Braced pattern) (text : List Char) :
    substitute pattern pattern text = text := by
  obtain ⟨gapped, whole, -, put⟩ := exists_gaps braced text
  rw [put, whole]

-- A replacement of the same length leaves a text as it was only if there is nothing to replace.
theorem timesIn_of_substitute_eq {text : List Char} (braced : Braced pattern) (other : value ≠ pattern)
    (long : value.length = pattern.length) (same : substitute pattern value text = text) :
    timesIn pattern text = 0 := by
  induction text using pattern_induction braced.ne_nil with
  | nil => rfl
  | hit rest _ =>
      rw [substitute_hit braced.ne_nil] at same
      exact absurd (List.append_inj same long).1 other
  | miss c rest miss ih =>
      rw [substitute_miss miss] at same
      rw [timesIn_miss miss, ih (List.cons.inj same).2]

-- What is in front of a gap and what is behind it are replaced apart, and counted apart.
theorem substitute_gap (braced : Braced pattern) (value front rest : List Char) :
    substitute pattern value (front ++ (pattern ++ rest)) =
      substitute pattern value front ++ (value ++ substitute pattern value rest) := by
  have hit := substitute_hit braced.ne_nil value rest
  obtain ⟨inside, rfl, plain⟩ := id braced
  rw [List.cons_append] at hit ⊢
  rw [braced.substitute_append, hit]

theorem timesIn_gap (braced : Braced pattern) (front rest : List Char) :
    timesIn pattern (front ++ (pattern ++ rest)) =
      timesIn pattern front + (timesIn pattern rest + 1) := by
  have hit := braced.timesIn_hit rest
  obtain ⟨inside, rfl, plain⟩ := id braced
  rw [List.cons_append] at hit ⊢
  rw [braced.timesIn_append, hit]

theorem gaps_gap (front : List Char) (rest : Gapped Unit) :
    gaps () (front.map .inl ++ .inr () :: rest) = gaps () rest + 1 := by
  rw [gaps_append, gaps_chars, Nat.zero_add, gaps_cons_gap]

theorem fill_gap (value front : List Char) (rest : Gapped Unit) :
    fill (fun _ => value) (front.map .inl ++ .inr () :: rest) =
      front ++ (value ++ fill (fun _ => value) rest) := by
  rw [fill_append, fill_chars, fill_cons]
  rfl

-- The pattern may come into being between the gaps as well.
theorem gaps_le_timesIn (braced : Braced pattern) (text : Gapped Unit) :
    gaps () text ≤ timesIn pattern (fill (fun _ => pattern) text) := by
  induction text using gap_induction with
  | chars front => rw [gaps_chars]; exact Nat.zero_le _
  | gap front rest ih =>
      rw [gaps_gap, fill_gap, timesIn_gap braced]
      omega

theorem substitute_fill (braced : Braced pattern)
    (none : timesIn pattern (fill (fun _ => pattern) text) = gaps () text) (value : List Char) :
    substitute pattern value (fill (fun _ => pattern) text) = fill (fun _ => value) text := by
  induction text using gap_induction with
  | chars front =>
      rw [fill_chars, gaps_chars, timesIn_eq_zero_iff braced.ne_nil] at none
      rw [fill_chars, fill_chars, substitute_absent none]
  | gap front rest ih =>
      have more := gaps_le_timesIn braced rest
      rw [gaps_gap, fill_gap, timesIn_gap braced] at none
      have here : timesIn pattern front = 0 := by omega
      rw [timesIn_eq_zero_iff braced.ne_nil] at here
      rw [fill_gap, fill_gap, substitute_gap braced, substitute_absent here, ih (by omega)]

theorem timesIn_of_substitute_fill (braced : Braced pattern) (other : value ≠ pattern)
    (long : value.length = pattern.length)
    (same : substitute pattern value (fill (fun _ => pattern) text) = fill (fun _ => value) text) :
    timesIn pattern (fill (fun _ => pattern) text) = gaps () text := by
  induction text using gap_induction with
  | chars front =>
      rw [fill_chars, fill_chars] at same
      rw [fill_chars, gaps_chars, timesIn_of_substitute_eq braced other long same]
  | gap front rest ih =>
      rw [fill_gap, fill_gap, substitute_gap braced] at same
      have kept : (substitute pattern value front).length = front.length := by
        have lengths := length_substitute braced value front
        rw [long] at lengths
        omega
      obtain ⟨here, later⟩ := List.append_inj same kept
      rw [fill_gap, timesIn_gap braced, gaps_gap, ih (List.append_cancel_left later),
        timesIn_of_substitute_eq braced other long here, Nat.zero_add]

/-- Replacing a pattern fills the gaps that it stands in and nothing else, exactly if it does not occur
more often than there are gaps, or is replaced by itself. -/
theorem substitute_fill_iff (braced : Braced pattern) :
    substitute pattern value (fill (fun _ => pattern) text) = fill (fun _ => value) text ↔
      timesIn pattern (fill (fun _ => pattern) text) = gaps () text ∨ value = pattern := by
  constructor
  · intro same
    by_cases self : value = pattern
    · exact .inr self
    · left
      have lengths := length_substitute braced value (fill (fun _ => pattern) text)
      have before := length_fill pattern text
      have after := length_fill value text
      have more := gaps_le_timesIn braced text
      rw [same] at lengths
      obtain ⟨extra, count⟩ := Nat.exists_eq_add_of_le more
      rw [count, Nat.add_mul, Nat.add_mul] at lengths
      have balance : extra * value.length = extra * pattern.length := by omega
      rcases Nat.eq_zero_or_pos extra with none | some
      · rw [count, none, Nat.add_zero]
      · have long := Nat.eq_of_mul_eq_mul_left some balance
        exact timesIn_of_substitute_fill braced self long same
  · rintro (none | rfl)
    · exact substitute_fill braced none value
    · exact substitute_self braced _

section Kinds

variable {κ : Type} [DecidableEq κ] {kind : κ} {values : κ → List Char} {filling : List Char}

-- The same where the gaps of other kinds are filled with anything.
theorem substitute_kind_iff (braced : Braced (values kind)) (text : Gapped κ) :
    substitute (values kind) filling (fill values text) =
        fill (Function.update values kind filling) text ↔
      timesIn (values kind) (fill values text) = gaps kind text ∨ filling = values kind := by
  have whole : fill (fun _ => values kind) (only kind values text) = fill values text := by
    rw [fill_only, Function.update_eq_self]
  rw [← fill_only, ← gaps_only values, ← whole]
  exact substitute_fill_iff braced

end Kinds

end Gapped

end Text

end MoteCapture

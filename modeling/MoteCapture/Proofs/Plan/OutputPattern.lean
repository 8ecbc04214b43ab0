import MoteCapture.Plan
import MoteCapture.Proofs.Text.Basic
import MoteCapture.Proofs.Text.Substitute

/-!
What a path says of its pattern. A pattern is a text with gaps for its placeholders; `atOnce` fills them
all in one pass. The placeholders are replaced one kind after the other instead, which comes to the same
exactly if no placeholder comes into being on the way. The place of the mote is never lost on the way, so
paths of a pattern with it are different for different motes.
-/

namespace MoteCapture

open Text Text.Gapped

inductive Placeholder where
  | run
  | file
  | mote
  deriving DecidableEq, Repr

namespace Placeholder

def text : Placeholder → List Char
  | .run => OutputPattern.runPlace
  | .file => OutputPattern.filePlace
  | .mote => OutputPattern.motePlace

def isAt (whole : List Char) (place : Placeholder) : Bool :=
  place.text.isPrefixOf whole

def at? (whole : List Char) : Option Placeholder :=
  [.run, .file, .mote].find? (isAt whole)

variable {place other : Placeholder} {whole : List Char}

theorem braced (place : Placeholder) : Braced place.text := by
  cases place
  · exact ⟨_, rfl, by decide⟩
  · exact ⟨_, rfl, by decide⟩
  · exact ⟨_, rfl, by decide⟩

theorem eq_of_begins (begins : place.text <+: other.text) : place = other := by
  revert begins
  cases place <;> cases other <;> decide

theorem timesIn_other (differ : other ≠ place) (rest : List Char) :
    timesIn place.text (other.text ++ rest) = timesIn place.text rest :=
  place.braced.timesIn_other other.braced (fun begins => differ (eq_of_begins begins).symm)
    (fun begins => differ (eq_of_begins begins)) rest

-- What is put for one placeholder leaves the others where they are.
theorem substitute_around (differ : other ≠ place) (value front rest : List Char) :
    substitute place.text value (front ++ (other.text ++ rest)) =
      substitute place.text value front ++ (other.text ++ substitute place.text value rest) :=
  place.braced.substitute_around other.braced (fun begins => differ (eq_of_begins begins).symm)
    (fun begins => differ (eq_of_begins begins)) value front rest

theorem infix_substitute (place : Placeholder) (differ : other ≠ place) (value : List Char)
    (inside : other.text <:+: whole) : other.text <:+: substitute place.text value whole := by
  obtain ⟨front, rest, rfl⟩ := inside
  rw [List.append_assoc, substitute_around differ]
  exact ⟨_, _, List.append_assoc _ _ _⟩

theorem suffix_substitute (place : Placeholder) (differ : other ≠ place) (value : List Char)
    (ends : other.text <:+ whole) : other.text <:+ substitute place.text value whole := by
  obtain ⟨front, rfl⟩ := ends
  have around := substitute_around differ value front []
  rw [List.append_nil] at around
  rw [around]
  exact ⟨_, congrArg _ (List.append_nil _).symm⟩

theorem isAt_iff : isAt whole place = true ↔ place.text <+: whole :=
  List.isPrefixOf_iff_prefix

theorem at?_eq_some_iff : at? whole = some place ↔ place.text <+: whole := by
  constructor
  · intro found
    exact isAt_iff.mp (List.find?_some found)
  · intro begins
    have listed : place ∈ [Placeholder.run, .file, .mote] := by cases place <;> decide
    have hits := List.find?_isSome.mpr ⟨place, listed, isAt_iff.mpr begins⟩
    obtain ⟨first, found⟩ := Option.isSome_iff_exists.mp hits
    have begins' := isAt_iff.mp (List.find?_some found)
    rcases List.prefix_or_prefix_of_prefix begins begins' with within | within
    · rw [eq_of_begins within]
      exact found
    · rw [← eq_of_begins within]
      exact found

theorem at?_eq_none_iff : at? whole = none ↔ ∀ place : Placeholder, ¬ place.text <+: whole := by
  simp only [Option.eq_none_iff_forall_ne_some, ne_eq, at?_eq_some_iff]

end Placeholder

namespace OutputPattern

def gapsFrom : Nat → List Char → Gapped Placeholder
  | _, [] => []
  | skip + 1, _ :: rest => gapsFrom skip rest
  | 0, c :: rest =>
      match Placeholder.at? (c :: rest) with
      | some place => .inr place :: gapsFrom (place.text.length - 1) rest
      | none => .inl c :: gapsFrom 0 rest

def gapped (output : OutputPattern) : Gapped Placeholder :=
  gapsFrom 0 output.pattern.toList

def value (output : OutputPattern) (mote : MoteId) : Placeholder → List Char
  | .run => output.runId.toList
  | .file => output.fileId.toList
  | .mote => Numeral.write mote.toNat

def atOnce (output : OutputPattern) (mote : MoteId) : String :=
  String.ofList (fill (output.value mote) output.gapped)

example : atOnce ⟨"a\x7brun_id\x7d/\x7bnode\x7d", "\x7bfile_id\x7d", "f"⟩ 7 = "a\x7bfile_id\x7d/7" := by
  decide +kernel

section Gaps

variable {c : Char} {rest : List Char}

theorem gapsFrom_eq (skip : Nat) (text : List Char) :
    gapsFrom skip text = gapsFrom 0 (text.drop skip) := by
  induction text generalizing skip with
  | nil => cases skip <;> simp [gapsFrom]
  | cons c rest ih =>
      cases skip with
      | zero => rfl
      | succ skip => exact ih skip

theorem gapsFrom_place (place : Placeholder) (rest : List Char) :
    gapsFrom 0 (place.text ++ rest) = .inr place :: gapsFrom 0 rest := by
  have found := Placeholder.at?_eq_some_iff.mpr (List.prefix_append place.text rest)
  obtain ⟨c, others, same⟩ := List.exists_cons_of_ne_nil place.braced.ne_nil
  have skipped : gapsFrom (place.text.length - 1) (others ++ rest) = gapsFrom 0 rest := by
    rw [gapsFrom_eq, same, List.length_cons, Nat.add_sub_cancel, List.drop_left]
  rw [same, List.cons_append] at found ⊢
  simp only [gapsFrom, found, skipped]

theorem gapsFrom_char (none : ∀ place : Placeholder, ¬ place.text <+: c :: rest) :
    gapsFrom 0 (c :: rest) = .inl c :: gapsFrom 0 rest := by
  rw [gapsFrom, Placeholder.at?_eq_none_iff.mpr none]

-- A pattern is gone through from left to right, past a placeholder or past one character.
theorem place_induction {motive : List Char → Prop} (nil : motive [])
    (place : ∀ (place : Placeholder) rest, motive rest → motive (place.text ++ rest))
    (char : ∀ c rest, (∀ place : Placeholder, ¬ place.text <+: c :: rest) → motive rest →
      motive (c :: rest))
    (text : List Char) : motive text := by
  induction long : text.length using Nat.strongRecOn generalizing text with
  | ind length ih =>
    rcases text with _ | ⟨c, rest⟩
    · exact nil
    · by_cases none : ∀ place : Placeholder, ¬ place.text <+: c :: rest
      · exact char c rest none (ih _ (by simp [← long]) rest rfl)
      · obtain ⟨first, begins⟩ := not_forall.mp none
        obtain ⟨behind, whole⟩ := not_not.mp begins
        have shorter : behind.length < length := by
          have some := List.length_pos_of_ne_nil first.braced.ne_nil
          rw [← long, ← whole, List.length_append]
          omega
        rw [← whole]
        exact place first behind (ih _ shorter behind rfl)

theorem fill_gapsFrom (text : List Char) : fill Placeholder.text (gapsFrom 0 text) = text := by
  induction text using place_induction with
  | nil => rfl
  | place place rest ih => rw [gapsFrom_place, fill_cons, ih]; rfl
  | char c rest none ih => rw [gapsFrom_char none, fill_cons, ih]; rfl

theorem gaps_gapsFrom (place : Placeholder) (text : List Char) :
    gaps place (gapsFrom 0 text) = timesIn place.text text := by
  induction text using place_induction with
  | nil => rfl
  | place other rest ih =>
      rw [gapsFrom_place]
      by_cases same : other = place
      · rw [same, gaps_cons_gap, place.braced.timesIn_hit, ih]
      · rw [gaps_cons_other _ _ same, Placeholder.timesIn_other same, ih]
  | char c rest none ih => rw [gapsFrom_char none, gaps_cons_char, timesIn_miss (none place), ih]

end Gaps

/-! The replacing, one kind after the other. -/

variable (output : OutputPattern) {mote other : MoteId}

def withRun : List Char :=
  substitute runPlace output.runId.toList output.pattern.toList

theorem withIds_eq : output.withIds = substitute filePlace output.fileId.toList output.withRun := rfl

theorem gaps_gapped (place : Placeholder) :
    gaps place output.gapped = timesIn place.text output.pattern.toList :=
  gaps_gapsFrom place _

def runValue : Placeholder → List Char :=
  Function.update Placeholder.text .run output.runId.toList

def idValue : Placeholder → List Char :=
  Function.update output.runValue .file output.fileId.toList

theorem value_eq (mote : MoteId) :
    output.value mote = Function.update output.idValue .mote (Numeral.write mote.toNat) := by
  funext place
  cases place <;> rfl

theorem withRun_eq : output.withRun = fill output.runValue output.gapped := by
  have whole : fill Placeholder.text output.gapped = output.pattern.toList := fill_gapsFrom _
  rw [withRun, runValue, ← whole]
  refine (substitute_kind_iff (Placeholder.braced .run) output.gapped).mpr (.inl ?_)
  rw [whole, gaps_gapped]

theorem withIds_eq_fill_iff :
    output.withIds = fill output.idValue output.gapped ↔
      timesIn filePlace output.withRun = timesIn filePlace output.pattern.toList ∨
        output.fileId.toList = filePlace := by
  have braced : Braced (output.runValue .file) := Placeholder.braced .file
  have count : gaps .file output.gapped = timesIn filePlace output.pattern.toList :=
    output.gaps_gapped .file
  rw [← count, withIds_eq, withRun_eq]
  exact substitute_kind_iff braced output.gapped

theorem withIds_holes : ∃ holes : Gapped Unit,
    fill (fun _ => motePlace) holes = output.withIds ∧
      gaps () holes = timesIn motePlace output.withIds ∧
      ∀ mote, output.path mote = String.ofList (fill (fun _ => Numeral.write mote.toNat) holes) := by
  obtain ⟨holes, whole, count, put⟩ := exists_gaps (Placeholder.braced .mote) output.withIds
  exact ⟨holes, whole, count, fun mote => congrArg String.ofList (put _)⟩

/-! What the path tells of the mote. -/

variable {a b : MoteId}

theorem isPerMote_iff : output.isPerMote = true ↔ motePlace <:+: output.pattern.toList :=
  occurs_iff

-- Putting the identifiers in cannot break up a place of the mote.
theorem withIds_names_mote (perMote : output.isPerMote = true) : motePlace <:+: output.withIds := by
  have inside : Placeholder.mote.text <:+: output.pattern.toList := output.isPerMote_iff.mp perMote
  have kept := Placeholder.infix_substitute .run (by decide) output.runId.toList inside
  exact Placeholder.infix_substitute .file (by decide) output.fileId.toList kept

theorem eq_of_write_eq (same : Numeral.write a.toNat = Numeral.write b.toNat) : a = b := by
  have read := Numeral.readUInt32?_write a
  rw [same, Numeral.readUInt32?_write] at read
  exact (Option.some.inj read).symm

theorem no_motePlace_iff {text : List Char} : timesIn motePlace text = 0 ↔ ¬ motePlace <:+: text :=
  timesIn_eq_zero_iff (Placeholder.braced .mote).ne_nil

-- If two motes share a path, then the path has no place for a mote, and all motes share it.
theorem path_eq_path_iff (differ : a ≠ b) :
    output.path a = output.path b ↔ ¬ motePlace <:+: output.withIds := by
  constructor
  · intro same
    obtain ⟨holes, -, count, put⟩ := output.withIds_holes
    rw [← no_motePlace_iff, ← count]
    by_contra some
    rw [put, put, String.ofList_inj] at same
    exact differ (eq_of_write_eq (fill_value_inj (Nat.pos_of_ne_zero some) same))
  · intro none
    rw [path, path, substitute_absent none, substitute_absent none]

theorem path_ne_path (perMote : output.isPerMote = true) (differ : a ≠ b) :
    output.path a ≠ output.path b := by
  rw [Ne, path_eq_path_iff output differ, not_not]
  exact output.withIds_names_mote perMote

theorem path_eq_atOnce (ids : output.withIds = fill output.idValue output.gapped)
    (count : timesIn motePlace output.withIds = timesIn motePlace output.pattern.toList)
    (mote : MoteId) : output.path mote = output.atOnce mote := by
  have braced : Braced (output.idValue .mote) := Placeholder.braced .mote
  have same : gaps .mote output.gapped = timesIn motePlace output.pattern.toList :=
    output.gaps_gapped .mote
  rw [ids, ← same] at count
  rw [path, atOnce, value_eq, ids]
  exact congrArg String.ofList ((substitute_kind_iff braced output.gapped).mpr (.inl count))

-- Numerals that begin differently tell where a path has them.
theorem atOnce_holes (all : ∀ mote, output.path mote = output.atOnce mote) :
    output.withIds = fill output.idValue output.gapped ∧
      timesIn motePlace output.withIds = timesIn motePlace output.pattern.toList := by
  obtain ⟨holes, whole, count, put⟩ := output.withIds_holes
  have fills : ∀ mote : MoteId, fill (fun _ => Numeral.write mote.toNat) holes =
      fill (fun _ => Numeral.write mote.toNat) (only .mote output.idValue output.gapped) := by
    intro mote
    have same := all mote
    rw [put, atOnce, String.ofList_inj, value_eq, ← fill_only] at same
    exact same
  have first := fills 1
  have second := fills 2
  have one : Numeral.write (1 : MoteId).toNat = ['1'] := by rw [Numeral.write, if_pos (by decide)]; rfl
  have two : Numeral.write (2 : MoteId).toNat = ['2'] := by rw [Numeral.write, if_pos (by decide)]; rfl
  rw [one] at first
  rw [two] at second
  have differ : '1' ≠ '2' := by decide
  have holes_eq : holes = only .mote output.idValue output.gapped := fill_text_inj differ first second
  constructor
  · rw [← whole, holes_eq, fill_only]
    exact congrArg (fill · output.gapped) (Function.update_eq_self Placeholder.mote output.idValue)
  · rw [← count, holes_eq, gaps_only]
    exact output.gaps_gapped .mote

/-- Opening braces stand in front of placeholders only, and in no identifier. -/
structure IsPlain : Prop where
  pattern : .inl '\x7b' ∉ output.gapped
  run : '\x7b' ∉ output.runId.toList
  file : '\x7b' ∉ output.fileId.toList

-- No placeholder comes into being where nothing opens one.
theorem timesIn_fill {values : Placeholder → List Char} {place : Placeholder}
    (own : values place = place.text)
    (plain : ∀ other, values other = other.text ∨ '\x7b' ∉ values other) {text : Gapped Placeholder}
    (chars : .inl '\x7b' ∉ text) : timesIn place.text (fill values text) = gaps place text := by
  induction text with
  | nil => rfl
  | cons mark rest ih =>
      rw [List.mem_cons, not_or] at chars
      have braced := place.braced
      rw [fill_cons]
      rcases mark with c | other
      · have outside : '\x7b' ∉ [c] := by
          intro opens
          rw [List.mem_singleton.mp opens] at chars
          exact chars.1 rfl
        rw [gaps_cons_char, fillOne, braced.timesIn_plain outside, ih chars.2]
      · by_cases same : other = place
        · rw [same, gaps_cons_gap, fillOne, own, braced.timesIn_hit, ih chars.2]
        · rw [gaps_cons_other _ _ same, fillOne, ← ih chars.2]
          rcases plain other with text | outside
          · rw [text, Placeholder.timesIn_other same]
          · rw [braced.timesIn_plain outside]

theorem IsPlain.path_eq_atOnce {output : OutputPattern} (plain : output.IsPlain) (mote : MoteId) :
    output.path mote = output.atOnce mote := by
  have runs : ∀ other, output.runValue other = other.text ∨ '\x7b' ∉ output.runValue other := by
    rintro (_ | _ | _)
    · exact .inr plain.run
    · exact .inl rfl
    · exact .inl rfl
  have ids : ∀ other, output.idValue other = other.text ∨ '\x7b' ∉ output.idValue other := by
    rintro (_ | _ | _)
    · exact .inr plain.run
    · exact .inr plain.file
    · exact .inl rfl
  have files : output.runValue .file = Placeholder.file.text := rfl
  have count := timesIn_fill files runs plain.pattern
  rw [← withRun_eq, gaps_gapped] at count
  have filled := output.withIds_eq_fill_iff.mpr (.inl count)
  have motes : output.idValue .mote = Placeholder.mote.text := rfl
  have count' := timesIn_fill motes ids plain.pattern
  rw [← filled, gaps_gapped] at count'
  exact output.path_eq_atOnce filled count' mote

/-- The placeholders are filled in at once exactly if none comes into being on the way: putting in the
identifier of the run makes no new place for the one of the file, unless that is a placeholder itself,
and neither makes a new place for the mote. This is so if braces are used for placeholders only. If it
is, then the path depends on the mote exactly if the pattern names it; otherwise it may also depend on
the mote because of the identifiers. -/
theorem path_is_filled_at_once_iff (output : OutputPattern) :
    ((∀ mote, output.path mote = output.atOnce mote) ↔
      (timesIn filePlace output.withRun = timesIn filePlace output.pattern.toList ∨
          output.fileId.toList = filePlace) ∧
        timesIn motePlace output.withIds = timesIn motePlace output.pattern.toList) ∧
    (output.IsPlain → ∀ mote, output.path mote = output.atOnce mote) ∧
    ((∀ mote, output.path mote = output.atOnce mote) →
      ∀ a b, a ≠ b → (output.path a ≠ output.path b ↔ output.isPerMote = true)) ∧
    ∀ a b, a ≠ b → (output.path a ≠ output.path b ↔ motePlace <:+: output.withIds) := by
  have differ_iff : ∀ a b, a ≠ b → (output.path a ≠ output.path b ↔ motePlace <:+: output.withIds) := by
    intro a b differ
    rw [Ne, path_eq_path_iff output differ, not_not]
  refine ⟨⟨?_, ?_⟩, fun plain => plain.path_eq_atOnce, ?_, differ_iff⟩
  · intro all
    obtain ⟨filled, count⟩ := output.atOnce_holes all
    exact ⟨output.withIds_eq_fill_iff.mp filled, count⟩
  · rintro ⟨files, count⟩
    exact output.path_eq_atOnce (output.withIds_eq_fill_iff.mpr files) count
  · intro all a b differ
    have count := (output.atOnce_holes all).2
    rw [differ_iff a b differ, isPerMote_iff, ← not_iff_not, ← no_motePlace_iff, ← no_motePlace_iff,
      count]

/-- A run named like the place of a mote makes the path depend on the mote, which the pattern does not
name. -/
theorem run_named_like_a_placeholder :
    let output : OutputPattern := ⟨"\x7brun_id\x7d", "\x7bnode\x7d", "x"⟩
    output.atOnce 1 = "\x7bnode\x7d" ∧ output.path 1 = "1" ∧ output.path 2 = "2" ∧
      output.isPerMote = false ∧
      ¬ ((∀ mote, output.path mote = output.atOnce mote) ∧
        ∀ a b, a ≠ b → (output.path a ≠ output.path b ↔ output.isPerMote = true)) := by
  intro output
  have unfilled : output.atOnce 1 = "\x7bnode\x7d" := by decide +kernel
  have first : output.path 1 = "1" := by decide +kernel
  have second : output.path 2 = "2" := by decide +kernel
  refine ⟨unfilled, first, second, by decide, ?_⟩
  rintro ⟨all, -⟩
  have same := all 1
  rw [unfilled, first] at same
  exact absurd same (by decide)

end OutputPattern

end MoteCapture

import Mathlib.Data.List.Destutter
import Mathlib.Data.List.Nodup
import Mathlib.Data.List.Sort
import MoteCapture.CommandLine.Run
import MoteCapture.Proofs.Options.Check
import MoteCapture.Proofs.Plan.OutputPattern

/-!
The motes of a capture and their paths. Different motes have different paths. Whether a path names a file
is the same for all motes; but the check looks at the pattern before the identifiers are put in, and they
may be all that stands behind the last separator.

The motes of a capture are a set. Options may list them in any order and as often as they like: what
counts is the ascending list of the members. Options whose lists have the same members break the same
rules, amount to the same plan and run alike.
-/

namespace MoteCapture

open Text Text.Gapped OutputPattern

def Names (text : List Char) : Prop :=
  (∃ c ∈ text, isBlank c = false) ∧ text.getLast? ≠ some '/' ∧ text.getLast? ≠ some '\\'

section Names

variable {text front pattern value : List Char} {c : Char}

theorem namesFile_ofList : NamesFile (String.ofList text) ↔ Names text := by
  rw [NamesFile, String.toList_ofList, Names]

theorem Names.ne_nil (named : Names text) : text ≠ [] := by
  rintro rfl
  obtain ⟨⟨c, none, -⟩, -⟩ := named
  cases none

theorem Names.append (named : Names text) (front : List Char) : Names (front ++ text) := by
  have last := List.getLast?_append_of_ne_nil front named.ne_nil
  obtain ⟨⟨c, member, solid⟩, ends⟩ := named
  rw [Names, last]
  exact ⟨⟨c, List.mem_append_right front member, solid⟩, ends⟩

theorem names_concat_iff : Names (front ++ [c]) ↔
    (isBlank c = false ∨ ∃ d ∈ front, isBlank d = false) ∧ c ≠ '/' ∧ c ≠ '\\' := by
  simp [Names, or_and_right, exists_or, or_comm]

theorem names_of_last (last : text.getLast? = some c) (solid : isBlank c = false) (slash : c ≠ '/')
    (backslash : c ≠ '\\') : Names text := by
  obtain ⟨front, rfl⟩ := List.getLast?_eq_some_iff.mp last
  exact names_concat_iff.mpr ⟨.inl solid, slash, backslash⟩

theorem names_place (place : Placeholder) : Names place.text := by
  have closed : place.text.getLast? = some '\x7d' := by cases place <;> rfl
  exact names_of_last closed (by decide) (by decide) (by decide)

theorem names_numeral (n : Nat) : Names (Numeral.write n) := by
  have last := List.getLast?_eq_some_getLast (Numeral.write_ne_nil n)
  have digit := Numeral.all_write n _ (List.getLast_mem (Numeral.write_ne_nil n))
  refine names_of_last last (Numeral.isBlank_digit digit) ?_ ?_
  · intro same
    rw [same] at digit
    cases digit
  · intro same
    rw [same] at digit
    cases digit

variable {second : List Char} {holes : Gapped Unit}

theorem solid_fill (names : .inr () ∈ holes → Names second)
    (solid : ∃ c ∈ fill (fun _ => value) holes, isBlank c = false) :
    ∃ c ∈ fill (fun _ => second) holes, isBlank c = false := by
  obtain ⟨c, member, solid⟩ := solid
  obtain ⟨mark, listed, own⟩ := List.mem_flatMap.mp member
  rcases mark with d | ⟨⟩
  · exact ⟨c, List.mem_flatMap.mpr ⟨.inl d, listed, own⟩, solid⟩
  · obtain ⟨⟨e, own, solid⟩, -⟩ := names listed
    exact ⟨e, List.mem_flatMap.mpr ⟨.inr (), listed, own⟩, solid⟩

-- Another filling leaves the name a name if it is one itself. By the last mark: a gap there ends as its
-- filling does, and a character there stays.
theorem names_fill (names : .inr () ∈ holes → Names second)
    (named : Names (fill (fun _ => value) holes)) : Names (fill (fun _ => second) holes) := by
  rcases List.eq_nil_or_concat holes with rfl | ⟨front, mark, rfl⟩
  · exact named
  · rw [List.concat_eq_append] at names named ⊢
    rw [fill_append, fill_cons, fill_nil, List.append_nil] at named ⊢
    rcases mark with c | ⟨⟩
    · obtain ⟨solid, ends⟩ := names_concat_iff.mp named
      refine names_concat_iff.mpr ⟨?_, ends⟩
      exact solid.imp_right (solid_fill fun gap => names (List.mem_append_left _ gap))
    · have own := names (List.mem_append_right _ List.mem_cons_self)
      exact own.append _

theorem names_substitute (place : Placeholder) (named : Names text)
    (names : place.text <:+: text → Names value) : Names (substitute place.text value text) := by
  obtain ⟨holes, whole, count, put⟩ := exists_gaps place.braced text
  rw [put]
  rw [← whole] at named
  refine names_fill ?_ named
  intro gap
  refine names ?_
  by_contra absent
  rw [← timesIn_eq_zero_iff place.braced.ne_nil, ← count] at absent
  have none := List.countP_eq_zero.mp absent _ gap
  simp at none

-- What does not end a placeholder stays at the end.
theorem getLast?_substitute (place : Placeholder) (value : List Char) (last : text.getLast? = some c)
    (outside : c ≠ '\x7d') : (substitute place.text value text).getLast? = some c := by
  obtain ⟨holes, rfl, -, put⟩ := exists_gaps place.braced text
  rw [put]
  rcases List.eq_nil_or_concat holes with rfl | ⟨front, mark, rfl⟩
  · cases last
  · rw [List.concat_eq_append, fill_append, fill_cons, fill_nil, List.append_nil] at last ⊢
    rcases mark with d | ⟨⟩
    · rw [fillOne, List.getLast?_concat] at last ⊢
      exact last
    · have closed : place.text.getLast? = some '\x7d' := by cases place <;> rfl
      rw [fillOne, List.getLast?_append_of_ne_nil _ place.braced.ne_nil, closed] at last
      exact absurd (Option.some.inj last).symm outside

end Names

namespace OutputPattern

variable (output : OutputPattern) {mote : MoteId} {c : Char}

-- The numeral of a mote names a file wherever it stands, and so does its place.
theorem names_path_iff : NamesFile (output.path mote) ↔ Names output.withIds := by
  obtain ⟨holes, whole, -, put⟩ := output.withIds_holes
  rw [put, namesFile_ofList, ← whole]
  constructor
  · exact names_fill fun _ => names_place .mote
  · exact names_fill fun _ => names_numeral _

theorem names_withIds (named : NamesFile output.pattern)
    (run : runPlace <:+: output.pattern.toList → NamesFile output.runId)
    (file : filePlace <:+: output.withRun → NamesFile output.fileId) : Names output.withIds :=
  names_substitute .file (names_substitute .run named run) file

theorem getLast?_withIds (last : output.pattern.toList.getLast? = some c) (outside : c ≠ '\x7d') :
    output.withIds.getLast? = some c :=
  getLast?_substitute .file _ (getLast?_substitute .run _ last outside) outside

theorem names_withIds_of_mote (ends : motePlace <:+ output.pattern.toList) : Names output.withIds := by
  have ends : Placeholder.mote.text <:+ output.pattern.toList := ends
  have kept := Placeholder.suffix_substitute .run (by decide) output.runId.toList ends
  have kept' := Placeholder.suffix_substitute .file (by decide) output.fileId.toList kept
  obtain ⟨front, whole⟩ := kept'
  have named := (names_place .mote).append front
  rw [whole] at named
  exact named

end OutputPattern

/-! The paths of checked options. -/

namespace Options

variable {options : Options}

theorem valid_of_check (checked : options.check = []) : options.Valid := by
  rw [check_eq_nil_iff, fieldComplaints_eq_nil_iff] at checked
  exact valid_iff.mpr checked

def withOutput (pattern runId fileId : String) (motes : List MoteId) : Options where
  capture :=
    { CaptureOptions.standard with pattern := pattern, runId := runId, fileId := fileId, motes := motes }
  telemetry := .standard

/-- Different motes have different paths wherever the pattern names the mote, whatever the identifiers
are. So the motes that checked options capture, which are those that are listed, in ascending order and
each once, have different paths. -/
theorem motes_have_own_paths :
    (∀ output : OutputPattern, motePlace <:+: output.pattern.toList →
      ∀ a b, a ≠ b → output.path a ≠ output.path b) ∧
    ∀ options : Options, options.check = [] →
      options.capture.plan.motes.Pairwise (· < ·) ∧
      (∀ mote, mote ∈ options.capture.plan.motes ↔ mote ∈ options.capture.motes) ∧
      (options.capture.plan.motes.map options.capture.plan.path).Nodup := by
  have apart : ∀ output : OutputPattern, motePlace <:+: output.pattern.toList →
      ∀ a b, a ≠ b → output.path a ≠ output.path b := by
    intro output perMote a b differ
    exact output.path_ne_path (output.isPerMote_iff.mpr perMote) differ
  refine ⟨apart, fun options checked => ⟨pairwise_ascending _, fun mote => mem_ascending, ?_⟩⟩
  have distinct : options.capture.plan.motes.Nodup :=
    (pairwise_ascending _).imp fun below => UInt32.ne_of_lt below
  refine distinct.map_on ?_
  intro a captured b captured' same
  by_contra differ
  have perMote := (valid_of_check checked).layout
    ⟨a, mem_ascending.mp captured, b, mem_ascending.mp captured', differ⟩
  exact apart options.capture.plan.output perMote a b differ same

def oddRun : Options :=
  withOutput "\x7brun_id\x7dde\x7d/\x7bnode\x7d" "\x7bno" "x" [3, 11, 3]

theorem motes_of_odd_run_have_own_paths :
    oddRun.check = [] ∧ oddRun.capture.plan.motes = [3, 11] ∧
      oddRun.capture.plan.path 11 = "11/11" ∧
      (oddRun.capture.plan.motes.map oddRun.capture.plan.path).Nodup := by
  have checked : oddRun.check = [] := by decide +kernel
  have path : oddRun.capture.plan.path 11 = "11/11" := by decide +kernel
  exact ⟨checked, by decide, path, (motes_have_own_paths.2 oddRun checked).2.2⟩

/-- Whether a path of checked options names a file is the same for all motes, and it is so exactly if
the pattern names one with the identifiers put in. That is so if the identifiers that are put in name
files themselves; and it is so whatever they are if something else stands behind them, be it a character
or the mote. -/
theorem checked_path_names_file_iff (checked : options.check = []) (mote : MoteId) :
    let output := options.capture.plan.output
    (NamesFile (options.capture.plan.path mote) ↔ NamesFile (String.ofList output.withIds)) ∧
    ((runPlace <:+: output.pattern.toList → NamesFile output.runId) →
      (filePlace <:+: output.withRun → NamesFile output.fileId) →
        NamesFile (options.capture.plan.path mote)) ∧
    (∀ c, output.pattern.toList.getLast? = some c → c ≠ '\x7d' → isBlank c = false →
      NamesFile (options.capture.plan.path mote)) ∧
    (motePlace <:+ output.pattern.toList → NamesFile (options.capture.plan.path mote)) := by
  intro output
  have named : NamesFile output.pattern := (valid_of_check checked).named
  have path_iff : NamesFile (options.capture.plan.path mote) ↔ Names output.withIds :=
    output.names_path_iff
  rw [namesFile_ofList, path_iff]
  refine ⟨Iff.rfl, output.names_withIds named, ?_, output.names_withIds_of_mote⟩
  intro c last outside solid
  refine names_of_last (output.getLast?_withIds last outside) solid ?_ ?_
  · rintro rfl
    exact named.2.1 last
  · rintro rfl
    exact named.2.2 last

theorem numbered_path_names_file :
    (withOutput "csv/\x7brun_id\x7d\x7bnode\x7d" "" "x" [3, 1]).check = [] ∧
      NamesFile ((withOutput "csv/\x7brun_id\x7d\x7bnode\x7d" "" "x" [3, 1]).capture.plan.path 3) := by
  have checked : (withOutput "csv/\x7brun_id\x7d\x7bnode\x7d" "" "x" [3, 1]).check = [] := by
    decide +kernel
  have named := (checked_path_names_file_iff checked 3).2.2.2
  exact ⟨checked, named (by decide)⟩

/-- The check accepts options whose path is that of a folder. -/
theorem empty_run_leaves_folder :
    (withOutput "csv/\x7brun_id\x7d" "" "x" [1]).check = [] ∧
      (withOutput "csv/\x7brun_id\x7d" "" "x" [1]).capture.plan.path 1 = "csv/" ∧
      ¬ ∀ options : Options, options.check = [] → ∀ mote ∈ options.capture.plan.motes,
        NamesFile (options.capture.plan.path mote) := by
  have checked : (withOutput "csv/\x7brun_id\x7d" "" "x" [1]).check = [] := by decide +kernel
  have folder : (withOutput "csv/\x7brun_id\x7d" "" "x" [1]).capture.plan.path 1 = "csv/" := by
    decide +kernel
  refine ⟨checked, folder, ?_⟩
  intro all
  have named := all _ checked 1 (by decide)
  rw [folder] at named
  exact named.2.1 (by decide)

end Options

section

section Ascending

variable {mote first : MoteId} {motes others : List MoteId}

theorem ascending_congr (same : ∀ mote, mote ∈ motes ↔ mote ∈ others) :
    ascending motes = ascending others := by
  apply (pairwise_ascending motes).eq_of_mem_iff (pairwise_ascending others)
  intro mote
  rw [mem_ascending, mem_ascending]
  exact same mote

theorem mem_destutter' : mote ∈ motes.destutter' (· ≠ ·) first ↔ mote = first ∨ mote ∈ motes := by
  induction motes generalizing first with
  | nil => simp
  | cons next rest ih =>
      by_cases new : first ≠ next
      · simp [new, ih]
      · have same : first = next := not_not.mp new
        simp [same, ih]

theorem mem_destutter : mote ∈ motes.destutter (· ≠ ·) ↔ mote ∈ motes := by
  cases motes with
  | nil => rfl
  | cons first rest => rw [List.destutter_cons', mem_destutter', List.mem_cons]

-- An ascending list in which no two neighbours are alike has no repetitions at all.
theorem pairwise_destutter (sorted : motes.Pairwise (· ≤ ·)) :
    (motes.destutter (· ≠ ·)).Pairwise (· < ·) := by
  have ordered := List.isChain_iff_pairwise.mpr (sorted.sublist (motes.destutter_sublist (· ≠ ·)))
  have apart := motes.isChain_destutter (· ≠ ·)
  apply List.isChain_iff_pairwise.mp
  generalize motes.destutter (· ≠ ·) = left at ordered apart
  induction left using List.twoStepInduction with
  | nil => exact .nil
  | singleton mote => exact .singleton mote
  | cons_cons one two rest _ ih =>
      rw [List.isChain_cons_cons] at ordered apart ⊢
      exact ⟨UInt32.lt_of_le_of_ne ordered.1 apart.1, ih two ordered.2 apart.2⟩

/-- Sorting a list and then leaving out what stands behind its like makes the ascending list of its members. -/
theorem ascending_eq_destutter (motes : List MoteId) :
    ascending motes = (motes.mergeSort fun a b => decide (a ≤ b)).destutter (· ≠ ·) := by
  have sorted : (motes.mergeSort fun a b => decide (a ≤ b)).Pairwise (· ≤ ·) := by
    have ordered := @List.pairwise_mergeSort MoteId (fun a b => decide (a ≤ b))
      (by simpa using fun a b c => UInt32.le_trans) (by simpa using UInt32.le_total) motes
    simpa using ordered
  apply (pairwise_ascending motes).eq_of_mem_iff (pairwise_destutter sorted)
  intro mote
  rw [mem_ascending, mem_destutter, List.mem_mergeSort]

end Ascending

def Options.capturing (options : Options) (motes : List MoteId) : Options :=
  { options with capture := { options.capture with motes } }

variable {options : Options} {motes others : List MoteId}

theorem Options.plan_capturing (same : ∀ mote, mote ∈ motes ↔ mote ∈ others) :
    (options.capturing motes).capture.plan = (options.capturing others).capture.plan := by
  simp only [capturing, CaptureOptions.plan, ascending_congr same]

theorem isEmpty_congr (same : ∀ mote, mote ∈ motes ↔ mote ∈ others) : motes.isEmpty = others.isEmpty := by
  rw [Bool.eq_iff_iff, List.isEmpty_iff, List.isEmpty_iff, List.eq_nil_iff_forall_not_mem,
    List.eq_nil_iff_forall_not_mem]
  exact forall_congr' fun mote => not_congr (same mote)

-- The rules see the list itself only where they ask whether there is any mote.
theorem Options.check_capturing (same : ∀ mote, mote ∈ motes ↔ mote ∈ others) :
    (options.capturing motes).check = (options.capturing others).check := by
  have empty : (options.capturing motes).capture.motes.isEmpty =
      (options.capturing others).capture.motes.isEmpty := isEmpty_congr same
  have listed : ascending (options.capturing motes).capture.motes =
      ascending (options.capturing others).capture.motes := ascending_congr same
  have fields : (options.capturing motes).capture.complaints =
      (options.capturing others).capture.complaints := by
    unfold CaptureOptions.complaints
    rw [empty]
    rfl
  have layout : (options.capturing motes).capture.layoutComplaints =
      (options.capturing others).capture.layoutComplaints := by
    unfold CaptureOptions.layoutComplaints
    rw [listed, plan_capturing same]
  unfold check fieldComplaints
  rw [fields, layout]
  rfl

theorem Capture.run_capturing (same : ∀ mote, mote ∈ motes ↔ mote ∈ others) :
    Capture.run (options.capturing motes) = Capture.run (options.capturing others) := by
  have begins : session (options.capturing motes) = session (options.capturing others) := by
    funext flag alarms site
    simp only [session]
    rw [Options.plan_capturing same]
    rfl
  funext input standard flag alarms site
  simp only [run, runFeed, begins]
  rfl

namespace Options

/-- Only the set of the captured motes counts. Options that differ in their motes alone, and list the same
ones in any order and with any repetitions, break the same rules, amount to the same plan, which has the
motes in order and each of them once, and lead to the same capture of every input. -/
theorem captured_motes_are_a_set (options : Options) (motes others : List MoteId)
    (same : ∀ mote, mote ∈ motes ↔ mote ∈ others) :
    let one := options.capturing motes
    let other := options.capturing others
    one.check = other.check ∧
    one.capture.plan = other.capture.plan ∧
    one.capture.plan.motes = (motes.mergeSort fun a b => decide (a ≤ b)).destutter (· ≠ ·) ∧
    Capture.run one = Capture.run other ∧
    CommandLine.capture one = CommandLine.capture other := by
  intro one other
  have runs : Capture.run one = Capture.run other := Capture.run_capturing same
  refine ⟨check_capturing same, plan_capturing same, ascending_eq_destutter motes, runs, ?_⟩
  funext input standard alarms site
  unfold CommandLine.capture
  rw [runs]
  rfl

theorem repeated_motes_count_once :
    let one := Options.standard.capturing [3, 1, 3, 1]
    let other := Options.standard.capturing [1, 3]
    one.check = [.flaws "output" [.sharedFile]] ∧ other.check = one.check ∧
      other.capture.plan = one.capture.plan ∧ one.capture.plan.motes = [1, 3] := by
  intro one other
  have same : ∀ mote : MoteId, mote ∈ [3, 1, 3, 1] ↔ mote ∈ [1, 3] := by
    intro mote
    simp only [List.mem_cons, List.not_mem_nil, or_false]
    grind
  obtain ⟨checks, plans, -⟩ := captured_motes_are_a_set .standard [3, 1, 3, 1] [1, 3] same
  have refused : one.check = [.flaws "output" [.sharedFile]] := by decide +kernel
  exact ⟨refused, checks.symm, plans.symm, by decide⟩

end Options

end

end MoteCapture

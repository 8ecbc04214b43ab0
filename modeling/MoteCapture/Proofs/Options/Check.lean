import Mathlib.Data.List.Nodup
import MoteCapture.Options.Basic
import MoteCapture.Options.Schema
import MoteCapture.Proofs.Report.Line
import MoteCapture.Proofs.Text.Basic

/-!
The rules for options as they are documented, field by field, and what the check makes of them: it finds
nothing exactly if all rules are kept, and otherwise it names every field that fails one. The text of
complaints has a line for each flaw, the lines are in ascending order, and it does not matter in which
order the complaints come, on whatever level.
-/

namespace MoteCapture

namespace Complaint

/-- The same complaints, which may come in another order inside every section and item. -/
inductive Reordered : List Complaint → List Complaint → Prop where
  | shuffled {complaints others : List Complaint} (perm : complaints.Perm others) :
      Reordered complaints others
  | inside {complaints others : List Complaint} (field : String) (index : Option Nat)
      (rest : List Complaint) (inner : Reordered complaints others) :
      Reordered (.inside field index complaints :: rest) (.inside field index others :: rest)
  | trans {complaints others last : List Complaint} (first : Reordered complaints others)
      (later : Reordered others last) : Reordered complaints last

variable {complaints others : List Complaint} {lines sorted : List String}

theorem linesOf_eq (lead : String) (complaints : List Complaint) :
    linesOf lead complaints = complaints.flatMap (Complaint.lines lead) := by
  induction complaints with
  | nil => rfl
  | cons complaint rest ih => rw [linesOf, List.flatMap_cons, ih]

theorem linesOf_append (lead : String) (complaints others : List Complaint) :
    linesOf lead (complaints ++ others) = linesOf lead complaints ++ linesOf lead others := by
  rw [linesOf_eq, linesOf_eq, linesOf_eq, List.flatMap_append]

theorem Reordered.linesOf_perm (reordered : Reordered complaints others) (lead : String) :
    (linesOf lead complaints).Perm (linesOf lead others) := by
  induction reordered generalizing lead with
  | shuffled perm =>
      rw [linesOf_eq, linesOf_eq]
      exact perm.flatMap_right _
  | inside field index rest _ ih =>
      rw [linesOf, linesOf, Complaint.lines, Complaint.lines]
      exact (ih (itemPath lead field index)).append_right _
  | trans _ _ first later => exact (first lead).trans (later lead)

theorem pairwise_mergeSort (lines : List String) : lines.mergeSort.Pairwise (· ≤ ·) := by
  have sorted : lines.mergeSort.Pairwise fun line other => decide (line ≤ other) = true :=
    List.pairwise_mergeSort (by simpa using fun _ _ _ => String.le_trans)
      (by simpa using String.le_total) lines
  simpa using sorted

-- There is one ascending order of some lines only.
theorem mergeSort_eq (perm : lines.Perm sorted) (ascending : sorted.Pairwise (· ≤ ·)) :
    lines.mergeSort = sorted :=
  List.Perm.eq_of_pairwise (fun _ _ _ _ => String.le_antisymm) (pairwise_mergeSort lines) ascending
    ((List.mergeSort_perm lines _).trans perm)

/-- However the complaints come, the text is made of their lines, in the one order that they have. -/
theorem describe_eq (reordered : Reordered complaints others)
    (perm : (linesOf "" complaints).Perm sorted) (ascending : sorted.Pairwise (· ≤ ·)) :
    describe others = String.join (sorted.map fun line => "  " ++ line ++ "\n") := by
  have same : (linesOf "" others).Perm sorted := (reordered.linesOf_perm "").symm.trans perm
  rw [describe, mergeSort_eq same ascending]

end Complaint

section

open Text

def HasGroup (text before inside : List Char) : Prop :=
  ∃ behind, text = before ++ '\x7b' :: (inside ++ '\x7d' :: behind) ∧ ∀ c ∈ inside, noBrace c = true

variable {c : Char} {text rest before inside : List Char}

theorem groupAt?_eq_some_iff : groupAt? text = some inside ↔ HasGroup text [] inside := by
  constructor
  · intro found
    unfold groupAt? at found
    split at found
    · next rest =>
      split at found
      · next behind closed =>
        cases found
        refine ⟨behind, ?_, List.all_eq_true.mp List.all_takeWhile⟩
        rw [← closed, List.takeWhile_append_dropWhile]
        rfl
      · cases found
    · cases found
  · rintro ⟨behind, rfl, plain⟩
    have taken : (inside ++ '\x7d' :: behind).takeWhile noBrace = inside := by
      rw [List.takeWhile_append_of_pos plain]
      exact List.append_nil _
    have dropped : (inside ++ '\x7d' :: behind).dropWhile noBrace = '\x7d' :: behind := by
      rw [List.dropWhile_append_of_pos plain]
      rfl
    rw [List.nil_append, groupAt?, dropped, taken]
    rfl

theorem hasGroup_cons_iff {d : Char} :
    HasGroup (c :: rest) (d :: before) inside ↔ c = d ∧ HasGroup rest before inside := by
  simp [HasGroup, and_assoc]

theorem HasGroup.inside_eq {found : List Char} (group : HasGroup text [] inside)
    (first : HasGroup text [] found) : inside = found := by
  have same := (groupAt?_eq_some_iff.mpr group).symm.trans (groupAt?_eq_some_iff.mpr first)
  exact Option.some.inj same

-- No group begins inside the group that a text begins with.
theorem HasGroup.behind_first {found : List Char} (group : HasGroup (c :: rest) (c :: before) inside)
    (first : HasGroup (c :: rest) [] found) : found.length + 1 ≤ before.length := by
  obtain ⟨behind, whole, _⟩ := (hasGroup_cons_iff.mp group).2
  obtain ⟨others, start, plain⟩ := first
  have same : rest = found ++ '\x7d' :: others := (List.cons.inj start).2
  rw [same] at whole
  rcases List.append_eq_append_iff.mp whole with ⟨between, longer, closes⟩ | ⟨between, shorter, opens⟩
  · cases between with
    | nil => simp at closes
    | cons d between =>
        rw [longer, List.length_append, List.length_cons]
        omega
  · cases between with
    | nil => simp at opens
    | cons d between =>
        have brace : d = '\x7b' := (List.cons.inj opens).1.symm
        have member : d ∈ found := shorter ▸ List.mem_append_right _ List.mem_cons_self
        have outside := plain d member
        rw [brace] at outside
        cases outside

/-- The groups are found from left to right, and none is missed. -/
theorem mem_groupsFrom_iff {skip : Nat} : inside ∈ groupsFrom skip text ↔
    ∃ before, skip ≤ before.length ∧ HasGroup text before inside := by
  -- By the text: a group begins with the first character or is one of the rest.
  induction text generalizing skip with
  | nil => simp [groupsFrom, HasGroup]
  | cons c rest ih =>
      have later : ∀ {skip}, (∃ before, skip + 1 ≤ before.length ∧ HasGroup (c :: rest) before inside) ↔
          inside ∈ groupsFrom skip rest := by
        intro skip
        rw [ih]
        constructor
        · rintro ⟨_ | ⟨d, before⟩, long, group⟩
          · cases long
          · exact ⟨before, Nat.le_of_succ_le_succ long, (hasGroup_cons_iff.mp group).2⟩
        · rintro ⟨before, long, group⟩
          exact ⟨c :: before, Nat.succ_le_succ long, hasGroup_cons_iff.mpr ⟨rfl, group⟩⟩
      cases skip with
      | succ skip => exact later.symm
      | zero =>
          simp only [groupsFrom]
          cases found : groupAt? (c :: rest) with
          | none =>
              rw [← later]
              constructor
              · rintro ⟨before, _, group⟩
                exact ⟨before, Nat.zero_le _, group⟩
              · rintro ⟨_ | ⟨d, before⟩, _, group⟩
                · rw [groupAt?_eq_some_iff.mpr group] at found
                  cases found
                · exact ⟨d :: before, by simp, group⟩
          | some first =>
              have start := groupAt?_eq_some_iff.mp found
              rw [List.mem_cons, ← later]
              constructor
              · rintro (rfl | ⟨before, _, group⟩)
                · exact ⟨[], Nat.zero_le _, start⟩
                · exact ⟨before, Nat.zero_le _, group⟩
              · rintro ⟨_ | ⟨d, before⟩, _, group⟩
                · exact Or.inl (group.inside_eq start)
                · obtain ⟨rfl, _⟩ := hasGroup_cons_iff.mp group
                  exact Or.inr ⟨c :: before, Nat.succ_le_succ (group.behind_first start), group⟩

theorem mem_groups_iff : inside ∈ groups text ↔ ∃ before, HasGroup text before inside := by
  simp [groups, mem_groupsFrom_iff]

example : groups "\x7ba\x7bnode\x7d\x7d\x7bx\x7b\x7d".toList = ["node".toList, []] := by decide

section Motes

variable {mote other : MoteId} {motes : List MoteId}

theorem mem_insertMote : other ∈ insertMote mote motes ↔ other = mote ∨ other ∈ motes := by
  induction motes with
  | nil => simp [insertMote]
  | cons first rest ih =>
      rw [insertMote]
      split
      · exact List.mem_cons
      · split
        · next same =>
          have hit : mote = first := beq_iff_eq.mp same
          simp [hit]
        · simp [ih, or_left_comm]

theorem mem_ascending : other ∈ ascending motes ↔ other ∈ motes := by
  induction motes with
  | nil => rfl
  | cons mote rest ih => rw [ascending, List.foldr_cons, mem_insertMote, List.mem_cons, ← ih, ascending]

theorem pairwise_insertMote (sorted : motes.Pairwise (· < ·)) (mote : MoteId) :
    (insertMote mote motes).Pairwise (· < ·) := by
  induction motes with
  | nil => exact List.pairwise_singleton _ mote
  | cons first rest ih =>
      obtain ⟨below, others⟩ := List.pairwise_cons.mp sorted
      rw [insertMote]
      split
      · next before =>
        refine List.pairwise_cons.mpr ⟨fun later member => ?_, sorted⟩
        rcases List.mem_cons.mp member with rfl | deeper
        · exact before
        · exact UInt32.lt_trans before (below later deeper)
      · next notBefore =>
        split
        · exact sorted
        · next different =>
          have apart : mote ≠ first := by simpa using different
          refine List.pairwise_cons.mpr ⟨fun later member => ?_, ih others⟩
          rcases mem_insertMote.mp member with rfl | old
          · exact (UInt32.lt_or_lt_of_ne apart).resolve_left notBefore
          · exact below later old

theorem pairwise_ascending (motes : List MoteId) : (ascending motes).Pairwise (· < ·) := by
  induction motes with
  | nil => exact List.Pairwise.nil
  | cons mote rest ih => exact pairwise_insertMote ih mote

-- Motes that are listed several times count once.
theorem one_lt_length_ascending :
    1 < (ascending motes).length ↔ ∃ mote ∈ motes, ∃ other ∈ motes, mote ≠ other := by
  have sorted := pairwise_ascending motes
  have members : ∀ mote, mote ∈ ascending motes ↔ mote ∈ motes := fun _ => mem_ascending
  simp only [← members]
  generalize ascending motes = ordered at sorted ⊢
  rcases ordered with _ | ⟨first, _ | ⟨second, rest⟩⟩
  · simp
  · simp
  · have below : first < second := List.rel_of_pairwise_cons sorted List.mem_cons_self
    refine iff_of_true (by simp) ⟨first, by simp, second, by simp, ?_⟩
    exact UInt32.ne_of_lt below

end Motes

/-! The rules. -/

def IsHeader (header : String) : Prop :=
  header ≠ "" ∧ '\r' ∉ header.toList ∧ '\n' ∉ header.toList

def NamesFile (pattern : String) : Prop :=
  (∃ c ∈ pattern.toList, isBlank c = false) ∧ pattern.toList.getLast? ≠ some '/' ∧
    pattern.toList.getLast? ≠ some '\\'

/-- Whatever stands between an opening brace and the next brace, if that is a closing one, is the name
of a placeholder. -/
def KnowsPlaceholders (pattern : String) : Prop :=
  ∀ before inside behind, pattern.toList = before ++ '\x7b' :: (inside ++ '\x7d' :: behind) →
    '\x7b' ∉ inside → '\x7d' ∉ inside → String.ofList inside ∈ ["run_id", "file_id", "node"]

def IsLevel (level : String) : Prop :=
  level.map Char.toLower ∈ ["trace", "debug", "info", "warn", "error"]

namespace Options

/-- The rules for single fields that options break, by the paths of the fields and the codes under which
the rules are reported. -/
inductive Breaks (options : Options) : String → String → Prop where
  | marker (empty : options.capture.marker = "") : Breaks options "capture.start_marker" "length"
  | motes (none : options.capture.motes = []) : Breaks options "capture.nodes" "length"
  | header (broken : ¬ IsHeader options.capture.header) :
      Breaks options "capture.header" "invalid_header"
  | pattern (nameless : ¬ NamesFile options.capture.pattern) :
      Breaks options "capture.output" "invalid_output_template"
  | placeholder (named : NamesFile options.capture.pattern)
      (unknown : ¬ KnowsPlaceholders options.capture.pattern) :
      Breaks options "capture.output" "unknown_placeholder"
  | timeout (outside : ¬ (1 ≤ options.capture.timeoutMs ∧ options.capture.timeoutMs ≤ 86400000)) :
      Breaks options "capture.timeout_ms" "range"
  | level (unknown : ¬ IsLevel options.telemetry.logLevel) :
      Breaks options "telemetry.log_level" "invalid_log_level"

structure Valid (options : Options) : Prop where
  marker : options.capture.marker ≠ ""
  motes : options.capture.motes ≠ []
  header : IsHeader options.capture.header
  named : NamesFile options.capture.pattern
  placeholders : KnowsPlaceholders options.capture.pattern
  timeout : 1 ≤ options.capture.timeoutMs ∧ options.capture.timeoutMs ≤ 86400000
  level : IsLevel options.telemetry.logLevel
  layout : (∃ mote ∈ options.capture.motes, ∃ other ∈ options.capture.motes, mote ≠ other) →
    ['\x7b', 'n', 'o', 'd', 'e', '\x7d'] <:+: options.capture.pattern.toList

end Options

/-! The check of each field. -/

section Fields

variable {flaw : Flaw} {header pattern level : String} {timeoutMs : UInt64}

theorem isHeader_iff :
    IsHeader header ↔ ¬ (header.toList.isEmpty || header.toList.any isLineEnd) = true := by
  have lineEnd : header.toList.any isLineEnd = true ↔ '\r' ∈ header.toList ∨ '\n' ∈ header.toList := by
    simp [List.any_eq_true, isLineEnd, and_or_left, exists_or]
  rw [Bool.or_eq_true, lineEnd, not_or, not_or, IsHeader]
  simp

theorem headerFlaw?_eq_some_iff :
    CaptureOptions.headerFlaw? header.toList = some flaw ↔ ¬ IsHeader header ∧ .header = flaw := by
  rw [CaptureOptions.headerFlaw?, isHeader_iff, Decidable.not_not, Option.ite_none_right_eq_some,
    Option.some.injEq]

theorem namesFile_iff :
    NamesFile pattern ↔ ¬ ((trim pattern.toList).isEmpty || pattern.toList.getLast? == some '/' ||
      pattern.toList.getLast? == some '\\') = true := by
  rw [isEmpty_trim]
  simp [NamesFile, and_assoc]

theorem isPlaceholder_iff {inside : List Char} : placeholders.contains inside = true ↔
    String.ofList inside ∈ ["run_id", "file_id", "node"] := by
  have names : ["run_id", "file_id", "node"] = placeholders.map String.ofList := rfl
  simp only [names, List.contains_iff_mem, List.mem_map, String.ofList_inj, exists_eq_right]

theorem knowsPlaceholders_iff :
    KnowsPlaceholders pattern ↔ (groups pattern.toList).all placeholders.contains = true := by
  rw [List.all_eq_true]
  constructor
  · intro known inside member
    obtain ⟨before, behind, whole, plain⟩ := mem_groups_iff.mp member
    refine isPlaceholder_iff.mpr (known before inside behind whole ?_ ?_)
    · intro brace
      exact absurd (plain _ brace) (by decide)
    · intro brace
      exact absurd (plain _ brace) (by decide)
  · intro all before inside behind whole opened closed
    have plain : ∀ c ∈ inside, noBrace c = true := by
      intro c member
      have first : c ≠ '\x7b' := fun same => opened (same ▸ member)
      have second : c ≠ '\x7d' := fun same => closed (same ▸ member)
      simp [noBrace, first, second]
    exact isPlaceholder_iff.mp (all inside (mem_groups_iff.mpr ⟨before, behind, whole, plain⟩))

theorem patternFlaw?_eq_some_iff :
    CaptureOptions.patternFlaw? pattern.toList = some flaw ↔
      ¬ NamesFile pattern ∧ .pattern = flaw ∨
        NamesFile pattern ∧ ¬ KnowsPlaceholders pattern ∧ .placeholder = flaw := by
  rw [CaptureOptions.patternFlaw?, namesFile_iff, knowsPlaceholders_iff]
  split
  · next nameless => simp [nameless]
  · next named => simp [named, Option.ite_none_left_eq_some]

theorem timeoutFlaw?_eq_some_iff :
    CaptureOptions.timeoutFlaw? timeoutMs = some flaw ↔
      ¬ (1 ≤ timeoutMs ∧ timeoutMs ≤ 86400000) ∧ .range = flaw := by
  rw [CaptureOptions.timeoutFlaw?, Option.ite_none_left_eq_some, Option.some.injEq, Bool.and_eq_true,
    decide_eq_true_eq, decide_eq_true_eq]
  rfl

theorem isLevel_iff :
    IsLevel level ↔ logLevels.contains (.ofList (LowerCase.ofText level.toList)) = true := by
  have all : (logLevels.all fun name => name.toList.all fun c => c.toNat < 128 ∧ c ≠ 'k') := by
    decide +kernel
  have plain : ∀ name ∈ logLevels, ∀ c ∈ name.toList, c.toNat < 128 ∧ c ≠ 'k' := by
    simpa only [List.all_eq_true, decide_eq_true_eq] using all
  have same : ∀ name ∈ logLevels,
      (level.map Char.toLower = name ↔ String.ofList (LowerCase.ofText level.toList) = name) := by
    intro name member
    rw [← String.toList_inj, String.toList_map, ← LowerCase.ofText_eq_iff (plain name member),
      ← String.toList_inj, String.toList_ofList]
  rw [List.contains_iff_mem]
  constructor
  · intro member
    rw [(same _ member).mp rfl]
    exact member
  · intro member
    have lower := (same _ member).mpr rfl
    rw [IsLevel, lower]
    exact member

theorem levelFlaw?_eq_some_iff :
    TelemetryOptions.levelFlaw? level = some flaw ↔ ¬ IsLevel level ∧ .logLevel = flaw := by
  rw [TelemetryOptions.levelFlaw?, isLevel_iff, Option.ite_none_left_eq_some, Option.some.injEq]

end Fields

/-! The check as a whole. -/

theorem complain_eq_nil_iff {field : String} {flaw : Option Flaw} :
    complain field flaw = [] ↔ flaw = none := by
  cases flaw <;> simp [complain]

theorem complainInside_eq_nil_iff {field : String} {complaints : List Complaint} :
    complainInside field complaints = [] ↔ complaints = [] := by
  cases complaints <;> simp [complainInside]

theorem linesOf_complain (lead field : String) (flaw : Option Flaw) :
    Complaint.linesOf lead (complain field flaw) =
      (flaw.map fun flaw => Complaint.path lead field ++ ": " ++ flaw.reason).toList := by
  cases flaw <;> rfl

theorem linesOf_complainInside (field : String) (complaints : List Complaint) :
    Complaint.linesOf "" (complainInside field complaints) =
      Complaint.linesOf field complaints := by
  cases complaints with
  | nil => rfl
  | cons complaint rest =>
      rw [complainInside, List.isEmpty_cons, if_neg Bool.false_ne_true, Complaint.linesOf,
        Complaint.lines, Complaint.linesOf, List.append_nil]
      rfl

namespace Options

def flaws (options : Options) : List (String × Option Flaw) :=
  let capture := options.capture
  [("capture.start_marker", if capture.marker.isEmpty then some .length else none),
    ("capture.nodes", if capture.motes.isEmpty then some .length else none),
    ("capture.header", CaptureOptions.headerFlaw? capture.header.toList),
    ("capture.output", CaptureOptions.patternFlaw? capture.pattern.toList),
    ("capture.timeout_ms", CaptureOptions.timeoutFlaw? capture.timeoutMs),
    ("telemetry.log_level", TelemetryOptions.levelFlaw? options.telemetry.logLevel)]

def line? (entry : String × Option Flaw) : Option String :=
  entry.2.map fun flaw => entry.1 ++ ": " ++ flaw.reason

variable {options : Options} {path code : String}

theorem linesOf_fieldComplaints (options : Options) :
    Complaint.linesOf "" options.fieldComplaints = options.flaws.filterMap line? := by
  have paths : ["start_marker", "nodes", "header", "output", "timeout_ms"].map
        (Complaint.path "capture") = ["capture.start_marker", "capture.nodes", "capture.header",
          "capture.output", "capture.timeout_ms"] ∧
      Complaint.path "telemetry" "log_level" = "telemetry.log_level" := by decide
  simp only [List.map_cons, List.map_nil, List.cons.injEq, and_true] at paths
  simp only [fieldComplaints, CaptureOptions.complaints, TelemetryOptions.complaints,
    Complaint.linesOf_append, linesOf_complainInside, linesOf_complain, paths, flaws,
    List.filterMap_eq_flatMap_toList, List.flatMap_cons, List.flatMap_nil, line?,
    List.append_assoc, List.append_nil]

-- A rule that is broken is a flaw of its field, and the other way round.
theorem breaks_iff : options.Breaks path code ↔
    ∃ flaw, (path, some flaw) ∈ options.flaws ∧ flaw.reason = code := by
  constructor
  · intro breaks
    cases breaks with
    | marker empty => exact ⟨.length, by simp [flaws, empty], rfl⟩
    | motes none => exact ⟨.length, by simp [flaws, none], rfl⟩
    | header broken =>
        have found := headerFlaw?_eq_some_iff.mpr ⟨broken, rfl⟩
        exact ⟨.header, by simp [flaws, found], rfl⟩
    | pattern nameless =>
        have found := patternFlaw?_eq_some_iff.mpr (Or.inl ⟨nameless, rfl⟩)
        exact ⟨.pattern, by simp [flaws, found], rfl⟩
    | placeholder named unknown =>
        have found := patternFlaw?_eq_some_iff.mpr (Or.inr ⟨named, unknown, rfl⟩)
        exact ⟨.placeholder, by simp [flaws, found], rfl⟩
    | timeout outside =>
        have found := timeoutFlaw?_eq_some_iff.mpr ⟨outside, rfl⟩
        exact ⟨.range, by simp [flaws, found], rfl⟩
    | level unknown =>
        have found := levelFlaw?_eq_some_iff.mpr ⟨unknown, rfl⟩
        exact ⟨.logLevel, by simp [flaws, found], rfl⟩
  · rintro ⟨flaw, member, rfl⟩
    simp only [flaws, List.mem_cons, Prod.mk.injEq, List.not_mem_nil, or_false] at member
    rcases member with ⟨rfl, found⟩ | ⟨rfl, found⟩ | ⟨rfl, found⟩ | ⟨rfl, found⟩ | ⟨rfl, found⟩ |
      ⟨rfl, found⟩
    · rw [eq_comm, Option.ite_none_right_eq_some, Option.some.injEq, String.isEmpty_iff] at found
      obtain ⟨empty, rfl⟩ := found
      exact .marker empty
    · rw [eq_comm, Option.ite_none_right_eq_some, Option.some.injEq, List.isEmpty_iff] at found
      obtain ⟨none, rfl⟩ := found
      exact .motes none
    · obtain ⟨broken, rfl⟩ := headerFlaw?_eq_some_iff.mp found.symm
      exact .header broken
    · rcases patternFlaw?_eq_some_iff.mp found.symm with ⟨nameless, rfl⟩ | ⟨named, unknown, rfl⟩
      · exact .pattern nameless
      · exact .placeholder named unknown
    · obtain ⟨outside, rfl⟩ := timeoutFlaw?_eq_some_iff.mp found.symm
      exact .timeout outside
    · obtain ⟨unknown, rfl⟩ := levelFlaw?_eq_some_iff.mp found.symm
      exact .level unknown

theorem fieldComplaints_eq_nil_iff :
    options.fieldComplaints = [] ↔ ∀ path code, ¬ options.Breaks path code := by
  have fields : options.fieldComplaints = [] ↔ ∀ entry ∈ options.flaws, entry.2 = none := by
    simp [fieldComplaints, CaptureOptions.complaints, TelemetryOptions.complaints,
      complain_eq_nil_iff, complainInside_eq_nil_iff, flaws, and_assoc]
  rw [fields]
  constructor
  · intro fine path code breaks
    obtain ⟨flaw, member, _⟩ := breaks_iff.mp breaks
    cases fine _ member
  · rintro keeps ⟨path, _ | flaw⟩ member
    · rfl
    · exact absurd (breaks_iff.mpr ⟨flaw, member, rfl⟩) (keeps path flaw.reason)

theorem layoutComplaints_eq_nil_iff : options.capture.layoutComplaints = [] ↔
    ((∃ mote ∈ options.capture.motes, ∃ other ∈ options.capture.motes, mote ≠ other) →
      OutputPattern.motePlace <:+: options.capture.pattern.toList) := by
  rw [← one_lt_length_ascending, ← occurs_iff]
  simp [CaptureOptions.layoutComplaints, OutputPattern.isPerMote, CaptureOptions.plan]

theorem check_eq_nil_iff :
    options.check = [] ↔ options.fieldComplaints = [] ∧ options.capture.layoutComplaints = [] := by
  by_cases fine : options.fieldComplaints = []
  · simp [check, fine]
  · simp [check, fine]

theorem valid_iff : options.Valid ↔ (∀ path code, ¬ options.Breaks path code) ∧
    options.capture.layoutComplaints = [] := by
  rw [layoutComplaints_eq_nil_iff]
  constructor
  · intro valid
    refine ⟨?_, valid.layout⟩
    intro path code breaks
    cases breaks with
    | marker empty => exact valid.marker empty
    | motes none => exact valid.motes none
    | header broken => exact broken valid.header
    | pattern nameless => exact nameless valid.named
    | placeholder _ unknown => exact unknown valid.placeholders
    | timeout outside => exact outside valid.timeout
    | level unknown => exact unknown valid.level
  · rintro ⟨keeps, layout⟩
    have named : NamesFile options.capture.pattern :=
      Classical.not_not.mp fun nameless => keeps _ _ (.pattern nameless)
    constructor
    · exact fun empty => keeps _ _ (.marker empty)
    · exact fun none => keeps _ _ (.motes none)
    · exact Classical.not_not.mp fun broken => keeps _ _ (.header broken)
    · exact named
    · exact Classical.not_not.mp fun unknown => keeps _ _ (.placeholder named unknown)
    · exact Classical.not_not.mp fun outside => keeps _ _ (.timeout outside)
    · exact Classical.not_not.mp fun unknown => keeps _ _ (.level unknown)
    · exact layout

theorem nodup_paths (options : Options) : (options.flaws.map Prod.fst).Nodup := by
  simp [flaws]

-- A field has one flaw at most.
theorem Breaks.code_eq {other : String} (breaks : options.Breaks path code)
    (again : options.Breaks path other) : code = other := by
  obtain ⟨flaw, member, rfl⟩ := breaks_iff.mp breaks
  obtain ⟨flaw', member', rfl⟩ := breaks_iff.mp again
  have same := List.inj_on_of_nodup_map (nodup_paths options) member member' rfl
  cases same
  rfl

-- The path of a line ends at its first colon.
theorem cutAt?_line {entry : String × Option Flaw} {line : String} (plain : ':' ∉ entry.1.toList)
    (told : line? entry = some line) :
    (cutAt? (· == ':') line.toList).map Prod.fst = some entry.1.toList := by
  obtain ⟨flaw, _, rfl⟩ := Option.map_eq_some_iff.mp told
  have outside : ∀ c ∈ entry.1.toList, (c == ':') = false := by
    intro c member
    have other : c ≠ ':' := fun same => plain (same ▸ member)
    simp [other]
  have whole : (entry.1 ++ ": " ++ flaw.reason).toList =
      entry.1.toList ++ ':' :: ' ' :: flaw.reason.toList := by
    simp
  rw [whole, cutAt?_append outside (beq_self_eq_true ':')]
  rfl

theorem nodup_lines (options : Options) : (options.flaws.filterMap line?).Nodup := by
  have apart := List.pairwise_map.mp (nodup_paths options)
  have plain : ∀ entry ∈ options.flaws, ':' ∉ entry.1.toList := by simp [flaws]
  refine List.pairwise_filterMap.mpr (apart.imp_of_mem ?_)
  rintro entry later listed listed' differ line told _ told' rfl
  have first := cutAt?_line (plain entry listed) told
  rw [cutAt?_line (plain later listed') told', Option.some.injEq, String.toList_inj] at first
  exact differ first.symm

-- The lines about single fields are those of the rules that are broken.
theorem mem_lines_iff {line : String} : line ∈ options.flaws.filterMap line? ↔
    ∃ path code, options.Breaks path code ∧ line = path ++ ": " ++ code := by
  rw [List.mem_filterMap]
  constructor
  · rintro ⟨⟨path, flaw?⟩, member, told⟩
    obtain ⟨flaw, rfl, rfl⟩ := Option.map_eq_some_iff.mp told
    exact ⟨path, flaw.reason, breaks_iff.mpr ⟨flaw, member, rfl⟩, rfl⟩
  · rintro ⟨path, code, breaks, rfl⟩
    obtain ⟨flaw, member, rfl⟩ := breaks_iff.mp breaks
    exact ⟨_, member, rfl⟩

theorem message_invalid (told : List Complaint) : (OptionsError.invalid told).message =
    "Invalid capture configuration:\n" ++ Complaint.describe told := rfl

/-- The check accepts exactly the options that keep all documented rules. Of others it reports all that
is wrong with single fields: the heading, and one line for each field that breaks a rule, in ascending
order, whatever order the complaints come in. If nothing is, it reports the files that motes would
share. -/
theorem check_is_documented (options : Options) :
    (options.check = [] ↔ options.Valid) ∧
    (∀ path code other, options.Breaks path code → options.Breaks path other → code = other) ∧
    ∀ told, Complaint.Reordered options.check told →
      ((∃ path code, options.Breaks path code) → ∃ lines : List String,
        (OptionsError.invalid told).message = "Invalid capture configuration:\n" ++
          String.join (lines.map fun line => "  " ++ line ++ "\n") ∧
        lines.Pairwise (· < ·) ∧
        ∀ line, line ∈ lines ↔ ∃ path code, options.Breaks path code ∧ line = path ++ ": " ++ code) ∧
      ((∀ path code, ¬ options.Breaks path code) → options.check ≠ [] →
        (OptionsError.invalid told).message = "Invalid capture configuration:\n" ++
          "  output: several nodes are captured but output has no \x7bnode\x7d\n") := by
  refine ⟨?_, fun path code other => Breaks.code_eq, fun told reordered => ⟨?_, ?_⟩⟩
  · rw [check_eq_nil_iff, fieldComplaints_eq_nil_iff, valid_iff]
  · rintro ⟨path, code, breaks⟩
    have flawed : options.check = options.fieldComplaints := by
      rw [check, if_neg]
      rw [List.isEmpty_iff]
      exact fun fine => fieldComplaints_eq_nil_iff.mp fine path code breaks
    rw [flawed] at reordered
    let lines := (options.flaws.filterMap line?).mergeSort
    have perm : lines.Perm (options.flaws.filterMap line?) := List.mergeSort_perm _ _
    refine ⟨lines, ?_, ?_, fun line => perm.mem_iff.trans mem_lines_iff⟩
    · have own : (Complaint.linesOf "" options.fieldComplaints).Perm lines :=
        linesOf_fieldComplaints options ▸ perm.symm
      rw [message_invalid, Complaint.describe_eq reordered own (Complaint.pairwise_mergeSort _)]
    · have distinct : lines.Nodup := perm.nodup_iff.mpr (nodup_lines options)
      refine ((Complaint.pairwise_mergeSort _).and distinct).imp ?_
      rintro line other ⟨below, differ⟩
      by_contra notBelow
      exact differ (String.le_antisymm below (String.not_lt.mp notBelow))
  · intro keeps broken
    have fine := fieldComplaints_eq_nil_iff.mpr keeps
    have shared : options.check = [.flaws "output" [.sharedFile]] := by
      rw [check, fine, List.isEmpty_nil, if_pos rfl] at broken ⊢
      rw [CaptureOptions.layoutComplaints] at broken ⊢
      split at broken
      · next shares => rw [if_pos shares]
      · exact absurd rfl broken
    rw [shared] at reordered
    have own : (Complaint.linesOf "" [.flaws "output" [.sharedFile]]).Perm
        ["output: several nodes are captured but output has no \x7bnode\x7d"] := by decide
    rw [message_invalid, Complaint.describe_eq reordered own (List.pairwise_singleton _ _)]
    rfl

end Options

end

end MoteCapture

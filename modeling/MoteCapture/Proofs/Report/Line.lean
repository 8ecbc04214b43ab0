import MoteCapture.Proofs.Report.ClockTime
import MoteCapture.Proofs.Text.Basic
import MoteCapture.Report
import MoteCapture.Text.Basic

/-!
Lines and the reports that they give. A line without a report is blank throughout, and the message of a
report is the end of its line, without the line end. A report that is written with tabs between its fields
is read back as it is, whatever its message holds and however the line ends; and every line that gives a
report, in either layout, stands for the same report as this written form.

A report that is written with blanks is read back, with the tabs of its message, unless the first of these
stands before what looks like a mote field. The line is then taken for one with tabs between the fields,
and everything before that tab for its time.
-/

namespace MoteCapture

namespace Text

variable {p : Char → Bool} {text : List Char}

theorem cutAt?_suffix {halves : List Char × List Char} (cut : cutAt? p text = some halves) :
    halves.2 <:+ text := by
  induction text generalizing halves with
  | nil => cases cut
  | cons c rest ih =>
      rw [cutAt?] at cut
      split at cut
      · cases cut
        exact List.suffix_cons c rest
      · obtain ⟨others, found, rfl⟩ := Option.map_eq_some_iff.mp cut
        exact (ih found).trans (List.suffix_cons c rest)

-- What is behind a cut, or nothing if there is none.
theorem behind_suffix (p : Char → Bool) (text before : List Char) :
    ((cutAt? p text).getD (before, [])).2 <:+ text := by
  cases cut : cutAt? p text with
  | none => exact List.nil_suffix
  | some halves => exact cutAt?_suffix cut

theorem dropEnd_prefix (p : Char → Bool) (text : List Char) : dropEnd p text <+: text := by
  rw [dropEnd, ← List.reverse_suffix, List.reverse_reverse]
  exact List.dropWhile_suffix p

theorem getLast?_dropEnd {c : Char} (last : (dropEnd p text).getLast? = some c) : p c = false := by
  rw [dropEnd, List.getLast?_reverse] at last
  cases rest : text.reverse.dropWhile p with
  | nil =>
      rw [rest] at last
      cases last
  | cons d others =>
      rw [rest] at last
      cases last
      have stops := List.head?_dropWhile_not p text.reverse
      rw [rest] at stops
      simpa using stops

-- A text with no line feed but at its end has none when the line end is dropped.
theorem dropEnd_line (single : '\n' ∉ text.dropLast) : '\n' ∉ dropEnd isLineEnd text := by
  obtain ⟨tail, whole⟩ := dropEnd_prefix isLineEnd text
  intro member
  rcases List.eq_nil_or_concat (dropEnd isLineEnd text) with bare | ⟨start, c, split⟩
  · rw [bare] at member
    cases member
  · rw [List.concat_eq_append] at split
    have other : isLineEnd c = false := by
      have last : (dropEnd isLineEnd text).getLast? = some c := by
        rw [split, List.getLast?_concat]
      exact getLast?_dropEnd last
    rw [split, List.mem_append, List.mem_singleton] at member
    rcases member with inner | rfl
    · apply single
      rw [← whole, split, List.append_assoc, List.dropLast_append_of_ne_nil (by simp)]
      exact List.mem_append_left _ inner
    · cases other

theorem isEmpty_dropWhile (p : Char → Bool) (text : List Char) :
    (text.dropWhile p).isEmpty = text.all p := by
  induction text with
  | nil => rfl
  | cons c rest ih =>
      rw [List.dropWhile_cons, List.all_cons]
      cases first : p c with
      | true => simpa using ih
      | false => simp

-- Nothing is left of a text that is blank, and only of such a text.
theorem isEmpty_trim (text : List Char) : (trim text).isEmpty = text.all isBlank := by
  have start : (text.takeWhile isBlank).all isBlank = true := List.all_takeWhile
  have whole := congrArg (List.all · isBlank)
    (List.takeWhile_append_dropWhile (p := isBlank) (l := text))
  rw [List.all_append, start, Bool.true_and] at whole
  rw [trim, trimEnd, dropEnd, List.isEmpty_reverse, isEmpty_dropWhile, List.all_reverse, trimStart,
    whole]

end Text

namespace Report

open Text

theorem fields?_message {line : List Char} {fields : Fields} (found : fields? line = some fields) :
    fields.message <:+ line := by
  rw [fields?] at found
  split at found
  · cases found
    exact (behind_suffix _ _ _).trans (behind_suffix _ _ _)
  · obtain ⟨first, cut, rfl⟩ := Option.map_eq_some_iff.mp found
    have rest : first.2 <:+ line := (cutAt?_suffix cut).trans (List.dropWhile_suffix _)
    exact (behind_suffix _ _ _).trans ((List.dropWhile_suffix _).trans rest)

theorem ofChars_message {line : List Char} {report : Report}
    (read : ofChars line = .ok (some report)) :
    report.message.toList <:+ dropEnd isLineEnd line := by
  rw [ofChars] at read
  split at read
  · cases read
  · split at read
    · cases read
    · next fields found =>
      rw [ofFields] at read
      split at read
      · cases read
      · split at read
        · cases read
        · cases read
          rw [String.toList_ofList]
          exact fields?_message found

-- A line with no line feed but at its end gives a message without one, and without a line end.
theorem ofLine_message {line : String} {report : Report} (single : '\n' ∉ line.toList.dropLast)
    (read : ofLine line = .ok (some report)) :
    '\n' ∉ report.message.toList ∧ report.message.toList.getLast? ≠ some '\r' := by
  have behind := ofChars_message read
  constructor
  · intro member
    exact dropEnd_line single (behind.subset member)
  · intro last
    obtain ⟨start, whole⟩ := behind
    have same : (dropEnd isLineEnd line.toList).getLast? = some '\r' := by
      rw [← whole, List.getLast?_append, last]
      rfl
    cases getLast?_dropEnd same

end Report

namespace Text

variable {p : Char → Bool} {text : List Char}

theorem dropEnd_same (stays : ∀ c, text.getLast? = some c → p c = false) :
    dropEnd p text = text := by
  cases reversed : text.reverse with
  | nil => simp_all [dropEnd]
  | cons c rest =>
      have last : text.getLast? = some c := by simp [List.getLast?_eq_head?_reverse, reversed]
      rw [dropEnd, reversed, List.dropWhile_cons_of_neg (by simp [stays c last]), ← reversed,
        List.reverse_reverse]

theorem dropEnd_append {ends : List Char} (own : ends.all p = true) :
    dropEnd p (text ++ ends) = dropEnd p text := by
  have all : ∀ c ∈ ends.reverse, p c = true := by
    intro c member
    exact List.all_eq_true.mp own c (List.mem_reverse.mp member)
  rw [dropEnd, List.reverse_append, List.dropWhile_append_of_pos all]
  rfl

theorem trim_solid (solid : ∀ c ∈ text, isBlank c = false) : trim text = text := by
  have start : trimStart text = text := by
    cases text with
    | nil => rfl
    | cons c rest => simp [trimStart, solid c List.mem_cons_self]
  rw [trim, start]
  apply dropEnd_same
  intro c last
  exact solid c (List.mem_of_getLast? last)

theorem dropLead?_append (lead text : List Char) : dropLead? lead (lead ++ text) = some text := by
  induction lead with
  | nil => rfl
  | cons c rest ih => simp [dropLead?, ih]

def EndsOpen (text : List Char) : Prop :=
  ∀ c, text.getLast? = some c → isLineEnd c = false

theorem EndsOpen.of_last {c : Char} (last : text.getLast? = some c) (stays : isLineEnd c = false) :
    EndsOpen text := by
  intro d found
  rw [last] at found
  cases found
  exact stays

theorem EndsOpen.behind {c : Char} (endsOpen : EndsOpen text) (other : isLineEnd c = false)
    (front : List Char) : EndsOpen (front ++ c :: text) := by
  intro d last
  have same : (front ++ c :: text).getLast? = some (text.getLast?.getD c) := by
    simp [List.getLast?_append, List.getLast?_cons]
  rw [same] at last
  cases found : text.getLast? with
  | none => simp_all
  | some e => exact endsOpen d (by simp_all)

end Text

namespace Report

open Text

def timeField (report : Report) : List Char :=
  Numeral.write report.time.toNat

def moteField (report : Report) : List Char :=
  moteLead ++ Numeral.write report.mote.toNat

def tabbedLine (report : Report) : String :=
  .ofList (report.timeField ++ '\t' :: (report.moteField ++ '\t' :: report.message.toList))

theorem timeField_solid (report : Report) : ∀ c ∈ report.timeField, isBlank c = false := by
  intro c member
  exact Numeral.isBlank_digit (Numeral.all_write _ c member)

theorem moteField_solid (report : Report) : ∀ c ∈ report.moteField, isBlank c = false := by
  intro c member
  rcases List.mem_append.mp member with lead | number
  · have all : moteLead.all (fun c => !isBlank c) = true := by decide
    simpa using List.all_eq_true.mp all c lead
  · exact Numeral.isBlank_digit (Numeral.all_write _ c number)

theorem read?_timeField (report : Report) :
    ClockTime.read? report.timeField = some report.time := by
  have plain : ':' ∉ report.timeField := Numeral.not_mem_write rfl report.time.toNat
  have value : Numeral.readUInt64? report.timeField = some report.time :=
    Numeral.readUInt64?_write report.time
  simp [ClockTime.read?, plain, value]

theorem readMote?_moteField (report : Report) : readMote? report.moteField = some report.mote := by
  simp [readMote?, moteField, dropLead?_append, Numeral.readUInt32?_write]

-- The fields of a report, cut from whatever line, give the report.
theorem ofFields_written (report : Report) :
    ofFields ⟨report.timeField, report.moteField, report.message.toList⟩ = .ok report := by
  simp [ofFields, read?_timeField, readMote?_moteField]

-- A line that starts with a solid text is not blank, so it is cut into its fields.
theorem ofChars_fields {line ends : List Char} {fields : Fields} {first : Char}
    (endsOpen : EndsOpen line) (terminated : ends.all isLineEnd = true) (member : first ∈ line)
    (solid : isBlank first = false) (found : fields? line = some fields) :
    ofChars (line ++ ends) = (ofFields fields).map some := by
  have same : dropEnd isLineEnd (line ++ ends) = line := by
    rw [dropEnd_append terminated, dropEnd_same endsOpen]
  have filled : line.all isBlank = false := by
    rw [List.all_eq_false]
    exact ⟨first, member, by simp [solid]⟩
  simp [ofChars, same, isEmpty_trim, filled, found]

-- The mote field behind the first tab gives the layout away, whatever the message holds.
theorem fields?_tabbed (report : Report) (message : List Char) :
    fields? (report.timeField ++ '\t' :: (report.moteField ++ '\t' :: message)) =
      some ⟨report.timeField, report.moteField, message⟩ := by
  have untabbed : ∀ {field : List Char}, (∀ c ∈ field, isBlank c = false) →
      ∀ c ∈ field, (c == '\t') = false := by
    intro field solid c member
    by_cases tab : c = '\t'
    · subst tab
      exact absurd (solid _ member) (by decide)
    · simpa using tab
  have first := cutAt?_append (untabbed report.timeField_solid) (beq_self_eq_true '\t')
    (report.moteField ++ '\t' :: message)
  have second := cutAt?_append (untabbed report.moteField_solid) (beq_self_eq_true '\t') message
  have tabbed : isTabbed (report.timeField ++ '\t' :: (report.moteField ++ '\t' :: message)) =
      true := by
    simp only [isTabbed, first]
    rfl
  simp [fields?, tabbed, tabbedFields, first, second, trim_solid report.timeField_solid,
    trim_solid report.moteField_solid]

theorem ofLine_tabbed {report : Report} {ends : String} (endsOpen : EndsOpen report.message.toList)
    (terminated : ends.toList.all isLineEnd = true) :
    ofLine (report.tabbedLine ++ ends) = .ok (some report) := by
  have lineOpen : EndsOpen report.tabbedLine.toList := by
    have behind := endsOpen.behind (c := '\t') rfl (report.timeField ++ '\t' :: report.moteField)
    simpa [tabbedLine] using behind
  have found : fields? report.tabbedLine.toList =
      some ⟨report.timeField, report.moteField, report.message.toList⟩ := by
    rw [tabbedLine, String.toList_ofList]
    exact fields?_tabbed report report.message.toList
  have lead : 'I' ∈ report.tabbedLine.toList := by simp [tabbedLine, moteField, moteLead]
  have read := ofChars_fields lineOpen terminated lead rfl found
  rw [ofLine, String.toList_append, read, ofFields_written]
  rfl

/-- A report is read back from its tabbed line, with any line end behind it, if only its message does
not end in a line end itself. All reports that lines give are of this kind: the message is the end of
the line as it stands, and the tabbed line is another way to write the same report. -/
theorem tabbed_line_is_normal_form :
    (∀ (report : Report) (ends : String), EndsOpen report.message.toList →
      ends.toList.all isLineEnd = true →
      ofLine (report.tabbedLine ++ ends) = .ok (some report)) ∧
    ∀ (line : String) (report : Report), ofLine line = .ok (some report) →
      EndsOpen report.message.toList ∧
        report.message.toList <:+ dropEnd isLineEnd line.toList ∧
        ofLine report.tabbedLine = .ok (some report) := by
  constructor
  · intro report ends endsOpen terminated
    exact ofLine_tabbed endsOpen terminated
  · intro line report read
    have behind := ofChars_message read
    have endsOpen : EndsOpen report.message.toList := by
      intro c last
      obtain ⟨start, whole⟩ := behind
      have same : (dropEnd isLineEnd line.toList).getLast? = some c := by
        rw [← whole, List.getLast?_append, last]
        rfl
      exact getLast?_dropEnd same
    have again : ofLine (report.tabbedLine ++ "") = .ok (some report) := ofLine_tabbed endsOpen rfl
    rw [String.append_empty] at again
    exact ⟨endsOpen, behind, again⟩

theorem inner_tabs_are_kept :
    let report : Report := ⟨18446744073709551615, 4294967295, " ID:7\t\n5\t"⟩
    let line := "  5 \t  ID:+07\u2003\t\t7 \r\n"
    EndsOpen report.message.toList ∧ ofLine (report.tabbedLine ++ "\r\n\n") = .ok (some report) ∧
      ofLine line = .ok (some ⟨5, 7, "\t7 "⟩) ∧
      ofLine (tabbedLine ⟨5, 7, "\t7 "⟩) = .ok (some ⟨5, 7, "\t7 "⟩) := by
  intro report line
  have endsOpen : EndsOpen report.message.toList := by
    intro c last
    have same : report.message.toList.getLast? = some '\t' := by decide +kernel
    rw [same] at last
    cases last
    rfl
  have read : ofLine line = .ok (some ⟨5, 7, "\t7 "⟩) := by
    have told : (ofLine line).toOption = some (some ⟨5, 7, "\t7 "⟩) := by decide +kernel
    cases outcome : ofLine line with
    | error e => rw [outcome] at told; cases told
    | ok found => rw [outcome] at told; cases told; rfl
  have kept := tabbed_line_is_normal_form.1 report "\r\n\n" endsOpen (by decide +kernel)
  have normal := (tabbed_line_is_normal_form.2 line ⟨5, 7, "\t7 "⟩ read).2.2
  exact ⟨endsOpen, kept, read, normal⟩

end Report

namespace Text

variable {p : Char → Bool} {text : List Char}

-- What is dropped at the end does not reach over a character that stays.
theorem dropEnd_behind {c : Char} (stays : p c = false) (front text : List Char) :
    dropEnd p (front ++ c :: text) = front ++ c :: dropEnd p text := by
  have stops : (c :: front.reverse).dropWhile p = c :: front.reverse :=
    List.dropWhile_cons_of_neg (by simp [stays])
  rw [dropEnd, List.reverse_append, List.reverse_cons, List.append_assoc, List.singleton_append,
    List.dropWhile_append, stops]
  split
  · next nothing => simp_all [dropEnd]
  · simp [dropEnd]

end Text

namespace Report

open Text

/-- A report with a row of spaces between time and mote, and one before the message. -/
def spacedLine (more : Nat) (report : Report) : String :=
  .ofList (report.timeField ++ List.replicate (more + 1) ' ' ++ report.moteField ++
    ' ' :: report.message.toList)

/-- The text has a tab, and behind the first one, perhaps after blanks, stands what a mote field starts
with. -/
def MimicsTabs (text : List Char) : Prop :=
  ∃ before gap after, text = before ++ '\t' :: (gap ++ moteLead ++ after) ∧ '\t' ∉ before ∧
    ∀ c ∈ gap, isBlank c = true

theorem isTabbed_iff {text : List Char} : isTabbed text = true ↔ MimicsTabs text := by
  constructor
  · intro tabbed
    rw [isTabbed] at tabbed
    split at tabbed
    · next halves cut =>
      obtain ⟨c, whole, hit, outside⟩ := cutAt?_eq_some cut
      rw [beq_iff_eq] at hit
      subst hit
      rw [List.isPrefixOf_iff_prefix] at tabbed
      obtain ⟨after, behind⟩ := tabbed
      refine ⟨halves.1, halves.2.takeWhile isBlank, after, ?_, ?_, ?_⟩
      · rw [List.append_assoc, behind, trimStart, List.takeWhile_append_dropWhile, whole]
      · intro member
        cases outside _ member
      · intro c member
        exact List.all_eq_true.mp List.all_takeWhile c member
    · cases tabbed
  · rintro ⟨before, gap, after, rfl, absent, blank⟩
    have outside : ∀ c ∈ before, (c == '\t') = false := by
      intro c member
      rw [beq_eq_false_iff_ne]
      rintro rfl
      exact absent member
    have start : trimStart (gap ++ moteLead ++ after) = moteLead ++ after := by
      rw [trimStart, List.append_assoc, List.dropWhile_append_of_pos blank]
      rfl
    rw [isTabbed, cutAt?_append outside (beq_self_eq_true '\t')]
    dsimp only
    rw [start, List.isPrefixOf_iff_prefix]
    exact List.prefix_append moteLead after

instance : DecidablePred MimicsTabs :=
  fun text => decidable_of_iff (isTabbed text = true) isTabbed_iff

section Line

variable (report : Report) (more : Nat)

def spacedLead : List Char :=
  report.timeField ++ ' ' :: (List.replicate more ' ' ++ (report.moteField ++ [' ']))

theorem toList_spacedLine :
    (report.spacedLine more).toList = report.spacedLead more ++ report.message.toList := by
  simp [spacedLine, spacedLead, List.replicate_succ]

theorem untabbed_spacedLead : ∀ c ∈ report.spacedLead more, (c == '\t') = false := by
  have solid : ∀ c, isBlank c = false → (c == '\t') = false := by
    intro c own
    rw [beq_eq_false_iff_ne]
    rintro rfl
    cases own
  intro c member
  simp only [spacedLead, List.mem_append, List.mem_cons, List.mem_replicate, List.not_mem_nil,
    or_false] at member
  rcases member with time | rfl | ⟨-, rfl⟩ | mote | rfl
  · exact solid c (report.timeField_solid c time)
  · rfl
  · rfl
  · exact solid c (report.moteField_solid c mote)
  · rfl

-- Tabs count only in the message, as none stands before it.
theorem isTabbed_spaced (message : List Char) :
    isTabbed (report.spacedLead more ++ message) = isTabbed message := by
  rw [isTabbed, cutAt?_behind (report.untabbed_spacedLead more), isTabbed]
  cases cutAt? (· == '\t') message <;> rfl

theorem timeField_cons : ∃ c rest, report.timeField = c :: rest ∧ isBlank c = false := by
  obtain ⟨c, rest, split⟩ := List.exists_cons_of_ne_nil (Numeral.write_ne_nil report.time.toNat)
  refine ⟨c, rest, split, report.timeField_solid c ?_⟩
  rw [timeField, split]
  exact List.mem_cons_self

theorem trimStart_timeField (text : List Char) :
    trimStart (report.timeField ++ text) = report.timeField ++ text := by
  obtain ⟨c, rest, split, solid⟩ := report.timeField_cons
  rw [split, List.cons_append, trimStart, List.dropWhile_cons_of_neg (by simp [solid])]

theorem spacedFields?_spaced (message : List Char) :
    spacedFields? (report.spacedLead more ++ message) =
      some ⟨report.timeField, report.moteField, message⟩ := by
  have blanks : ∀ c ∈ List.replicate more ' ', isBlank c = true := by
    intro c member
    rw [(List.mem_replicate.mp member).2]
    rfl
  have rest : trimStart (List.replicate more ' ' ++ (report.moteField ++ ' ' :: message)) =
      report.moteField ++ ' ' :: message := by
    rw [trimStart, List.dropWhile_append_of_pos blanks]
    rfl
  have line : report.spacedLead more ++ message = report.timeField ++
      ' ' :: (List.replicate more ' ' ++ (report.moteField ++ ' ' :: message)) := by
    simp [spacedLead]
  rw [line, spacedFields?, trimStart_timeField, cutAt?_append report.timeField_solid rfl]
  simp only [Option.map_some, rest, cutAt?_append report.moteField_solid (show isBlank ' ' = true
    from rfl), Option.getD_some]

-- What stands before a tab in the message has a blank behind its time, so it is no time as a whole.
theorem read?_misread (before : List Char) :
    ClockTime.read? (trim (report.spacedLead more ++ before)) = none := by
  have whole : report.spacedLead more ++ before =
      (report.timeField ++ ' ' :: List.replicate more ' ') ++
        'I' :: ('D' :: ':' :: (Numeral.write report.mote.toNat ++ ' ' :: before)) := by
    simp [spacedLead, moteField, moteLead]
  have inner : ' ' ∈ trim (report.spacedLead more ++ before) := by
    rw [whole, trim, List.append_assoc, trimStart_timeField, ← List.append_assoc, trimEnd,
      dropEnd_behind rfl]
    simp
  cases read : ClockTime.read? (trim (report.spacedLead more ++ before)) with
  | none => rfl
  | some time => cases (ClockTime.read?_eq_some_iff.mp read).solid ' ' inner

theorem fields?_spaced {message : List Char} (plain : ¬ MimicsTabs message) :
    fields? (report.spacedLead more ++ message) =
      some ⟨report.timeField, report.moteField, message⟩ := by
  rw [← isTabbed_iff, Bool.not_eq_true] at plain
  simp [fields?, isTabbed_spaced, plain, spacedFields?_spaced]

theorem fields?_mimics {before behind : List Char}
    (cut : cutAt? (· == '\t') report.message.toList = some (before, behind))
    (mimics : MimicsTabs report.message.toList) :
    ∃ fields, fields? (report.spacedLead more ++ report.message.toList) = some fields ∧
      fields.time = trim (report.spacedLead more ++ before) := by
  rw [← isTabbed_iff] at mimics
  refine ⟨tabbedFields (report.spacedLead more ++ report.message.toList), ?_, ?_⟩
  · simp [fields?, isTabbed_spaced, mimics]
  · rw [tabbedFields, cutAt?_behind (report.untabbed_spacedLead more), cut]
    rfl

theorem endsOpen_spaced (endsOpen : EndsOpen report.message.toList) :
    EndsOpen (report.spacedLead more ++ report.message.toList) := by
  have behind := endsOpen.behind (c := ' ') rfl
    (report.timeField ++ ' ' :: (List.replicate more ' ' ++ report.moteField))
  simpa [spacedLead] using behind

theorem ofLine_spaced {ends : String} {fields : Fields} (endsOpen : EndsOpen report.message.toList)
    (terminated : ends.toList.all isLineEnd = true)
    (found : fields? (report.spacedLead more ++ report.message.toList) = some fields) :
    ofLine (report.spacedLine more ++ ends) = (ofFields fields).map some := by
  obtain ⟨c, rest, split, solid⟩ := report.timeField_cons
  have member : c ∈ report.spacedLead more ++ report.message.toList := by
    simp [spacedLead, split]
  rw [ofLine, String.toList_append, toList_spacedLine]
  exact ofChars_fields (report.endsOpen_spaced more endsOpen) terminated member solid found

end Line

/-- A report is read back from its line with blanks, with any line end behind it, if its message does
not end in a line end itself and does not mimic the layout with tabs. If it does, the line is taken for
one with tabs, and everything before the first tab is blamed for being no time. -/
theorem spaced_line_is_read_back (report : Report) (more : Nat) (ends : String)
    (endsOpen : EndsOpen report.message.toList) (terminated : ends.toList.all isLineEnd = true) :
    (¬ MimicsTabs report.message.toList →
      ofLine (report.spacedLine more ++ ends) = .ok (some report)) ∧
    ∀ before behind, cutAt? (· == '\t') report.message.toList = some (before, behind) →
      MimicsTabs report.message.toList →
      ofLine (report.spacedLine more ++ ends) =
        .error (.badTime (String.ofList (trim (report.spacedLead more ++ before)))) := by
  constructor
  · intro plain
    rw [report.ofLine_spaced more endsOpen terminated (report.fields?_spaced more plain),
      ofFields_written]
    rfl
  · intro before behind cut mimics
    obtain ⟨fields, found, time⟩ := report.fields?_mimics more cut mimics
    rw [report.ofLine_spaced more endsOpen terminated found, ofFields, time, read?_misread]
    rfl

theorem tab_in_spaced_line_is_kept :
    let report : Report := ⟨18446744073709551615, 4294967295, "a\tID 7\tID:9\t"⟩
    let other : Report := ⟨5, 0, " 1\t ID:9"⟩
    EndsOpen report.message.toList ∧ ¬ MimicsTabs report.message.toList ∧
      ofLine (report.spacedLine 2 ++ "\r\n") = .ok (some report) ∧
      EndsOpen other.message.toList ∧ MimicsTabs other.message.toList ∧
      ofLine (other.spacedLine 0 ++ "") = .error (.badTime "5 ID:0  1") := by
  intro report other
  have endsOpen : EndsOpen report.message.toList :=
    .of_last (c := '\t') (by decide +kernel) rfl
  have plain : ¬ MimicsTabs report.message.toList := by decide +kernel
  have kept := (spaced_line_is_read_back report 2 "\r\n" endsOpen (by decide +kernel)).1 plain
  have endsOpen' : EndsOpen other.message.toList := .of_last (c := '9') (by decide +kernel) rfl
  have mimics : MimicsTabs other.message.toList := by decide +kernel
  have misread := (spaced_line_is_read_back other 0 "" endsOpen' rfl).2 [' ', '1'] " ID:9".toList
    (by decide +kernel) mimics
  have field : String.ofList (trim (other.spacedLead 0 ++ [' ', '1'])) = "5 ID:0  1" := by
    decide +kernel
  rw [field] at misread
  exact ⟨endsOpen, plain, kept, endsOpen', mimics, misread⟩

/-- Not every message is kept in a line with blanks. -/
theorem mote_lead_behind_tab_is_misread :
    ¬ ∀ (report : Report) (more : Nat) (ends : String), EndsOpen report.message.toList →
      ends.toList.all isLineEnd = true →
      ofLine (report.spacedLine more ++ ends) = .ok (some report) := by
  intro kept
  have endsOpen : EndsOpen "\tID:9\t7".toList := .of_last (c := '7') (by decide +kernel) rfl
  have read := kept ⟨5, 0, "\tID:9\t7"⟩ 0 "" endsOpen rfl
  have misread : (ofLine (spacedLine 0 ⟨5, 0, "\tID:9\t7"⟩ ++ "")).toOption = none := by
    decide +kernel
  rw [read] at misread
  cases misread

end Report

end MoteCapture

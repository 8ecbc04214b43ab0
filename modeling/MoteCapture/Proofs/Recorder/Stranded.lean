import MoteCapture.Proofs.Feed.Lines
import MoteCapture.Proofs.Recorder.Books
import MoteCapture.Proofs.Text.Basic

/-!
The open sheets beside the sheets that were counted as opened. A sheet is counted together with its
first row, so a sheet whose first row is refused stands open and is never counted, whatever becomes of
the later rows of its mote.
-/

namespace MoteCapture

open Text

namespace Recorder

variable {plan : CapturePlan} {recorder later : Recorder} {site : Site} {report : Report}
  {outcome : Except CaptureError Verdict} {disk : Disk}

def afterCalls (recorder : Recorder) : List (Site × Call) → Recorder
  | [] => recorder
  | (met, call) :: rest => (recorder.answer met call).2.1.afterCalls rest

/-- Whether a report breaks over a file and yet leaves its mote with a sheet that it did not have. -/
def strands (recorder : Recorder) (met : Site) : Call → Bool
  | .take report =>
      isBreak (recorder.take met report).1 && !recorder.opened.contains report.mote &&
        (recorder.take met report).2.1.opened.contains report.mote
  | _ => false

def stranded (recorder : Recorder) : List (Site × Call) → Nat
  | [] => 0
  | (met, call) :: rest =>
      (recorder.answer met call).2.1.stranded rest + if recorder.strands met call then 1 else 0

theorem stranded_append (recorder : Recorder) (before behind : List (Site × Call)) :
    recorder.stranded (before ++ behind) =
      (recorder.afterCalls before).stranded behind + recorder.stranded before := by
  induction before generalizing recorder with
  | nil => rfl
  | cons first rest ih =>
      rw [List.cons_append, stranded, ih, stranded, afterCalls, Nat.add_assoc]

-- These calls are a run like any other.
theorem runs_afterCalls (recorder : Recorder) (site : Site) (calls : List (Site × Call)) :
    ∃ log last, Runs (fun _ _ => True) recorder site log (recorder.afterCalls calls) last := by
  induction calls generalizing recorder site with
  | nil => exact ⟨[], site, .done recorder site⟩
  | cons first rest ih =>
      obtain ⟨met, call⟩ := first
      obtain ⟨log, last, run⟩ := ih (recorder.answer met call).2.1 (recorder.answer met call).2.2
      exact ⟨_, last, .call call trivial run⟩

theorem afterCalls_plan (recorder : Recorder) (calls : List (Site × Call)) :
    (recorder.afterCalls calls).plan = recorder.plan := by
  obtain ⟨log, last, run⟩ := recorder.runs_afterCalls ⟨.blank, .empty⟩ calls
  exact run.plan_eq

theorem afterCalls_stopped {reason : StopReason} (phase : recorder.phase = .stopped reason)
    (calls : List (Site × Call)) : recorder.afterCalls calls = recorder := by
  obtain ⟨log, last, run⟩ := recorder.runs_afterCalls ⟨.blank, .empty⟩ calls
  exact (run.stopped phase).1

theorem Obtained.isNew_eq {sheet : Sheet} {isNew : Bool} {ready : Site}
    (obtained : recorder.Obtained report.mote site sheet isNew ready) :
    (!recorder.opened.contains report.mote) = isNew := by
  rcases obtained with ⟨rfl, found, _⟩ | ⟨rfl, missing, _⟩
  · simp [OpenSheets.contains, found]
  · simp [OpenSheets.contains, missing]

-- What a report adds to the open sheets and to the count of them.
theorem Took.size (took : recorder.Took site report outcome later disk)
    (ascending : recorder.opened.Ascending) :
    later.opened.size + recorder.tally.opened = recorder.opened.size + later.tally.opened +
      if isBreak outcome && !recorder.opened.contains report.mote &&
        later.opened.contains report.mote then 1 else 0 := by
  cases took with
  | refused _ => rfl
  | early _ _ => rfl
  | start _ _ => rfl
  | skipped _ _ => rfl
  | unopened _ missing _ _ =>
      simp [countReport, OpenSheets.contains, missing]
  | @broken _ next _ _ _ _ _ _ obtained _ =>
      simp only [obtained.size ascending next, obtained.isNew_eq, OpenSheets.contains_insert, isBreak,
        countReport, Bool.true_and, Bool.and_true]
      omega
  | @kept _ next _ _ _ _ _ obtained _ =>
      simp only [obtained.size ascending next, isBreak, countReport, countRow, Bool.false_and,
        Bool.false_eq_true, if_false]
      omega

theorem answer_size (booked : recorder.Booked plan) (met : Site) (call : Call)
    (running : ∀ reason, (recorder.answer met call).2.1.phase ≠ .stopped reason) :
    (recorder.answer met call).2.1.opened.size + recorder.tally.opened =
      recorder.opened.size + (recorder.answer met call).2.1.tally.opened +
        if recorder.strands met call then 1 else 0 := by
  rcases call with report | flag | reason
  · exact (recorder.take_took met report).size booked.ascending
  · rcases recorder.answer_left met (.pause flag) with ⟨report, other⟩ | same | ⟨reason, stops⟩
    · cases other
    · rw [same]
      rfl
    · obtain ⟨first, phase⟩ := recorder.stop_stops met reason
      rw [stops] at running
      exact absurd phase (running first)
  · obtain ⟨first, phase⟩ := recorder.stop_stops met reason
    exact absurd phase (running first)

-- As long as the recorder is not stopped, the sheets without a row are all that the count lacks.
theorem Booked.size (booked : recorder.Booked plan) (calls : List (Site × Call))
    (running : ∀ reason, (recorder.afterCalls calls).phase ≠ .stopped reason) :
    (recorder.afterCalls calls).opened.size + recorder.tally.opened =
      recorder.opened.size + (recorder.afterCalls calls).tally.opened + recorder.stranded calls := by
  induction calls generalizing recorder with
  | nil => rfl
  | cons first rest ih =>
      obtain ⟨met, call⟩ := first
      have goesOn : ∀ reason, (recorder.answer met call).2.1.phase ≠ .stopped reason := by
        intro reason phase
        apply running reason
        rw [afterCalls, afterCalls_stopped phase, phase]
      have now := answer_size booked met call goesOn
      have later := ih (booked.answer met call) running
      rw [afterCalls, stranded]
      omega

-- A report strands a sheet exactly if the sheet is opened for its row and the row is then refused.
theorem strands_iff : recorder.strands site (.take report) = true ↔
    recorder.phase = .capturing ∧ recorder.plan.keeps report = true ∧
      ∃ sheet ready e left, recorder.Obtained report.mote site sheet true ready ∧
        sheet.writeRow ready.disk (recorder.plan.row report) = (.error e, left) := by
  constructor
  · intro stranded
    have took := recorder.take_took site report
    rw [strands] at stranded
    generalize recorder.take site report = outcome at took stranded
    obtain ⟨outcome, later, disk, journal⟩ := outcome
    simp only [Bool.and_eq_true] at stranded took
    obtain ⟨⟨broke, missing⟩, found⟩ := stranded
    cases took with
    | unopened _ _ _ _ =>
        rw [show recorder.countReport.opened = recorder.opened from rfl] at found
        rw [found] at missing
        cases missing
    | broken phase keeps obtained failed =>
        rw [obtained.isNew_eq] at missing
        subst missing
        exact ⟨phase, keeps, _, _, _, _, obtained, failed⟩
    | _ => cases broke
  · rintro ⟨phase, keeps, sheet, ready, e, ⟨next, disk⟩, obtained, failed⟩
    rw [strands, take_capturing phase keeps, keep_broken obtained failed, obtained.isNew_eq,
      OpenSheets.contains_insert]
    rfl

theorem stranded_eq_zero_iff {calls : List (Site × Call)} : recorder.stranded calls = 0 ↔
    ∀ before met call behind, calls = before ++ (met, call) :: behind →
      (recorder.afterCalls before).strands met call = false := by
  constructor
  · rintro none before met call behind rfl
    rw [stranded_append, stranded] at none
    split at none
    · omega
    · next safe => exact Bool.eq_false_iff.mpr safe
  · intro safe
    induction calls generalizing recorder with
    | nil => rfl
    | cons first rest ih =>
        obtain ⟨met, call⟩ := first
        have now : recorder.strands met call = false := safe [] met call rest rfl
        rw [stranded, now, ih]
        · rfl
        · rintro before met' call' behind rfl
          exact safe ((met, call) :: before) met' call' behind rfl

/-- Wherever calls lead before the stop, there are as many open sheets as were counted, and one more for
each report that broke over a file and yet left its mote with a new sheet. So the two numbers agree if and
only if no row was refused for which a sheet had just been opened. -/
theorem opened_sheets_counted_with_their_rows (plan : CapturePlan) (echoes : Bool)
    (calls : List (Site × Call))
    (running : ∀ reason, ((new plan echoes).afterCalls calls).phase ≠ .stopped reason) :
    ((new plan echoes).afterCalls calls).opened.size =
      ((new plan echoes).afterCalls calls).tally.opened + (new plan echoes).stranded calls ∧
    (((new plan echoes).afterCalls calls).opened.size =
        ((new plan echoes).afterCalls calls).tally.opened ↔
      ∀ before met report behind, calls = before ++ (met, .take report) :: behind →
        ((new plan echoes).afterCalls before).phase = .capturing → plan.keeps report = true →
        ∀ sheet ready, ((new plan echoes).afterCalls before).Obtained report.mote met sheet true ready →
          (sheet.writeRow ready.disk (plan.row report)).1 = .ok ()) := by
  have size := (booked_new plan echoes).size calls running
  rw [show (new plan echoes).tally.opened = 0 from rfl, show (new plan echoes).opened.size = 0 from rfl,
    Nat.add_zero, Nat.zero_add] at size
  refine ⟨size, ?_⟩
  rw [size, Nat.add_eq_left, stranded_eq_zero_iff]
  have follows (before : List (Site × Call)) : ((new plan echoes).afterCalls before).plan = plan :=
    afterCalls_plan _ before
  constructor
  · rintro safe before met report behind rfl phase keeps sheet ready obtained
    rcases written : sheet.writeRow ready.disk (plan.row report) with ⟨e | ⟨⟩, left⟩
    · have strands : ((new plan echoes).afterCalls before).strands met (.take report) = true := by
        rw [strands_iff, follows]
        exact ⟨phase, keeps, sheet, ready, e, left, obtained, written⟩
      rw [safe before met (.take report) behind rfl] at strands
      cases strands
    · rfl
  · rintro safe before met call behind rfl
    cases call with
    | pause flag => rfl
    | stop reason => rfl
    | take report =>
        rw [Bool.eq_false_iff, Ne, strands_iff, follows]
        rintro ⟨phase, keeps, sheet, ready, e, left, obtained, failed⟩
        have well := safe before met report behind rfl phase keeps sheet ready obtained
        rw [failed] at well
        cases well

theorem sheet_counted_after_failed_opening :
    let blocked : Site := ⟨Disk.blank.withFile (.ofString "csv") [], .empty⟩
    let calls := [(⟨.blank, .empty⟩, .take ⟨0, 1, CapturePlan.standardMarker⟩),
      (blocked, .take ⟨5, 1, "6"⟩), (⟨.blank, .empty⟩, .take ⟨6, 1, "7"⟩)]
    let recorder := (new .standard true).afterCalls calls
    (∀ reason, recorder.phase ≠ .stopped reason) ∧
      recorder.opened.size = recorder.tally.opened + (new .standard true).stranded calls ∧
      recorder.opened.size = 1 ∧ recorder.tally.opened = 1 := by
  intro blocked calls recorder
  have phase : recorder.phase = .capturing := by decide +kernel
  have running : ∀ reason, recorder.phase ≠ .stopped reason := by simp [phase]
  obtain ⟨size, _⟩ := opened_sheets_counted_with_their_rows .standard true calls running
  exact ⟨running, size, by decide +kernel, by decide +kernel⟩

/-! A device takes the header into the buffer and refuses the first row that is as long as the buffer. -/

theorem take_overflows {sheet : Sheet} {ready : Site} (phase : recorder.phase = .capturing)
    (keeps : recorder.plan.keeps report = true) (missing : recorder.opened.get? report.mote = none)
    (made : openSheet recorder.plan report.mote site = (.ok sheet, ready))
    (clogged : sheet.Clogged ready.disk)
    (long : Sheet.capacity ≤ (encode (recorder.plan.row report)).length) :
    (recorder.take site report).2.1 =
      { recorder.countReport with opened := recorder.opened.insert report.mote sheet } := by
  have waits : 0 < sheet.newestPending.length := List.length_pos_iff.mpr clogged.2
  have failed := Sheet.writeRow_overflows clogged (Nat.lt_of_le_of_lt long (Nat.lt_add_of_pos_left waits))
  have obtained : recorder.Obtained report.mote site sheet true ready := Or.inr ⟨rfl, missing, made⟩
  rw [take_capturing phase keeps, keep_broken obtained failed]

def fullPlan : CapturePlan :=
  { CapturePlan.standard with layout := .messageOnly, output := ⟨"/dev/full", "", ""⟩ }

theorem opens_full : ∃ sheet ready, openSheet fullPlan 1 ⟨.blank, .empty⟩ = (.ok sheet, ready) ∧
    sheet.Clogged ready.disk := by
  have well : (openSheet fullPlan 1 ⟨.blank, .empty⟩).1.toOption.any fun sheet =>
      (openSheet fullPlan 1 ⟨.blank, .empty⟩).2.disk.node? sheet.place == some .full &&
        !sheet.newestPending.isEmpty := by
    decide +kernel
  rcases opening : openSheet fullPlan 1 ⟨.blank, .empty⟩ with ⟨e | sheet, ready⟩
  · rw [opening] at well
    cases well
  · rw [opening, Except.toOption, Option.any_some, Bool.and_eq_true, beq_iff_eq, Bool.not_eq_true',
      List.isEmpty_eq_false_iff] at well
    exact ⟨sheet, ready, rfl, well⟩

-- Where the only file is a device, a first message that is as long as the buffer strands its sheet.
theorem long_message_strands {message : String}
    (unmarked : occurs CapturePlan.standardMarker.toList message.toList = false)
    (long : Sheet.capacity ≤ (encode message).length) :
    let site : Site := ⟨.blank, .empty⟩
    let recorder := (new fullPlan true).afterCalls
      [(site, .take ⟨0, 1, CapturePlan.standardMarker⟩), (site, .take ⟨5, 1, message⟩)]
    recorder.phase = .capturing ∧ recorder.opened.size = 1 ∧ recorder.tally.opened = 0 := by
  intro site
  let started := { (new fullPlan true).countReport with phase := .capturing }
  have first : ((new fullPlan true).take site ⟨0, 1, CapturePlan.standardMarker⟩).2.1 = started := by
    have starts : (new fullPlan true).plan.starts ⟨0, 1, CapturePlan.standardMarker⟩ = true := by
      decide +kernel
    have phase : (new fullPlan true).phase = .waiting := rfl
    simp only [take, phase, starts, if_true]
    rfl
  have keeps : started.plan.keeps ⟨5, 1, message⟩ = true := by
    rw [CapturePlan.keeps, CapturePlan.isMarked]
    rw [show started.plan.marker = CapturePlan.standardMarker from rfl, unmarked]
    rfl
  obtain ⟨sheet, ready, made, clogged⟩ := opens_full
  have later : (started.take site ⟨5, 1, message⟩).2.1 =
      { started.countReport with opened := started.opened.insert 1 sheet } :=
    take_overflows rfl keeps rfl made clogged long
  simp only [afterCalls, answer]
  rw [first, later]
  exact ⟨rfl, rfl, rfl⟩

-- So a sheet can be open and not counted.
theorem refused_row_hides_sheet :
    let site : Site := ⟨.blank, .empty⟩
    let recorder := (new fullPlan true).afterCalls
      [(site, .take ⟨0, 1, CapturePlan.standardMarker⟩),
        (site, .take ⟨5, 1, String.ofList (List.replicate Sheet.capacity 'x')⟩)]
    recorder.phase = .capturing ∧ recorder.opened.size = 1 ∧ recorder.tally.opened = 0 := by
  apply long_message_strands
  · rw [← Bool.not_eq_true, occurs_iff, String.toList_ofList]
    intro inside
    have first : 'S' ∈ List.replicate Sheet.capacity 'x' := inside.subset (by decide)
    simp at first
  · rw [encode_ofList, List.length_flatMap]
    simp [show 'x'.utf8Size = 1 from rfl]

end Recorder

end MoteCapture

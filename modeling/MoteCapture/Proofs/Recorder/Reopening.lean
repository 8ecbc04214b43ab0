import MoteCapture.Proofs.Recorder.Books
import MoteCapture.Proofs.Sheet.Closing

/-!
A sheet that cannot be opened. The report that it was to be opened for is counted and lost, and nothing
else shows of it: the recorder goes on as it would have without, and the next report of the mote opens the
sheet anew.
-/

namespace MoteCapture

namespace Sheet

-- What is not made is not noted.
theorem journal_create_error {site left : Site} {path header : String} {e : IoError}
    (failed : create site path header = (.error e, left)) : left.journal = site.journal := by
  unfold create at failed
  split at failed
  · cases failed
    rfl
  · split at failed
    · cases failed
      rfl
    · split at failed
      · cases failed
        rfl
      · cases failed

end Sheet

namespace Recorder

open Sheet (page)

variable {recorder later : Recorder} {site other left : Site} {report : Report} {e : IoError}

@[simp] theorem plan_countReport (recorder : Recorder) : recorder.countReport.plan = recorder.plan :=
  rfl

@[simp] theorem phase_countReport (recorder : Recorder) : recorder.countReport.phase = recorder.phase :=
  rfl

@[simp] theorem opened_countReport (recorder : Recorder) :
    recorder.countReport.opened = recorder.opened :=
  rfl

theorem keep_countReport (recorder : Recorder) (site : Site) (report : Report) :
    recorder.countReport.keep site report = ((recorder.keep site report).1,
      (recorder.keep site report).2.1.countReport, (recorder.keep site report).2.2) := by
  simp only [keep, opened_countReport, plan_countReport]
  rcases recorder.opened.obtain report.mote site (openSheet recorder.plan report.mote)
    with ⟨e | sheet, isNew, opened, ready⟩
  · rfl
  · simp only
    rcases opened.writeRow report.mote ready.disk (recorder.plan.row report) with ⟨e | rows, left, disk⟩
    · rfl
    · rfl

-- How many reports were counted makes no difference to what becomes of the next one.
theorem take_countReport (recorder : Recorder) (site : Site) (report : Report) :
    recorder.countReport.take site report = ((recorder.take site report).1,
      (recorder.take site report).2.1.countReport, (recorder.take site report).2.2) := by
  cases phase : recorder.phase with
  | stopped reason => simp only [take, phase_countReport, phase]
  | closing reason => simp only [take, phase_countReport, phase]
  | waiting =>
      by_cases starts : recorder.plan.starts report
      · simp only [take, phase_countReport, phase, plan_countReport, starts, if_true]
        rfl
      · simp only [take, phase_countReport, phase, plan_countReport, starts]
        rfl
  | capturing =>
      by_cases keeps : recorder.plan.keeps report
      · simp only [take, phase_countReport, phase, plan_countReport, keeps, if_true]
        exact keep_countReport recorder.countReport site report
      · simp only [take, phase_countReport, phase, plan_countReport, keeps]
        rfl

theorem stop_countReport (recorder : Recorder) (site : Site) (reason : StopReason) :
    recorder.countReport.stop site reason = ((recorder.stop site reason).1,
      (recorder.stop site reason).2.1.countReport, (recorder.stop site reason).2.2) := by
  simp only [stop, phase_countReport, opened_countReport]
  split
  · rfl
  · rcases recorder.opened.closeAll (site.info ("Shutting down capture: " ++ reason.text))
      with ⟨e | closed, left⟩
    · rfl
    · rfl

theorem answer_countReport (recorder : Recorder) (site : Site) (call : Call) :
    recorder.countReport.answer site call = ((recorder.answer site call).1,
      (recorder.answer site call).2.1.countReport, (recorder.answer site call).2.2) := by
  cases call with
  | take report => rw [answer, take_countReport, answer]
  | stop reason => rw [answer, stop_countReport, answer]
  | pause flag =>
      cases raised : flag.reason with
      | none => rw [answer, pause_clear raised, answer, pause_clear raised]
      | some reason =>
          simp only [answer, pause, raised, stop_countReport]
          rcases recorder.stop site reason with ⟨e | ⟨⟩, left⟩
          · rfl
          · rfl

/-- No sheet has to be opened for the call while the capture runs. -/
def Call.Served (recorder : Recorder) (call : Call) : Prop :=
  recorder.phase = .capturing → ∀ report, call = .take report → recorder.plan.keeps report = true →
    recorder.opened.contains report.mote = true

structure Agree {α : Type} (one other : α × Recorder × Site) : Prop where
  answer : other.1 = one.1
  recorder : other.2.1 = one.2.1
  files : one.2.2.disk.SameFiles other.2.2.disk

theorem agree_same {α : Type} (answer : α) (recorder : Recorder)
    (same : site.disk.SameFiles other.disk) : Agree (answer, recorder, site) (answer, recorder, other) :=
  ⟨rfl, rfl, same⟩

theorem keep_agree (served : recorder.opened.contains report.mote = true)
    (same : site.disk.SameFiles other.disk) :
    Agree (recorder.keep site report) (recorder.keep other report) := by
  obtain ⟨sheet, found⟩ := Option.isSome_iff_exists.mp served
  obtain ⟨outcome, next, left, left', here, there, still⟩ :=
    Sheet.writeRow_agree sheet same (recorder.plan.row report)
  simp only [keep, OpenSheets.obtain, OpenSheets.writeRow, found, here, there]
  cases outcome with
  | error e => exact agree_same _ _ still
  | ok done => exact ⟨rfl, rfl, by simpa only [disk_echo] using still⟩

theorem take_agree (served : (Call.take report).Served recorder)
    (same : site.disk.SameFiles other.disk) :
    Agree (recorder.take site report) (recorder.take other report) := by
  unfold take
  split
  · exact agree_same _ _ same
  · exact agree_same _ _ same
  · split
    · exact agree_same _ _ same
    · exact agree_same _ _ same
  · next phase =>
    split
    · next keeps => exact keep_agree (served phase report rfl keeps) same
    · exact agree_same _ _ same

theorem stop_agree (recorder : Recorder) (same : site.disk.SameFiles other.disk)
    (reason : StopReason) : Agree (recorder.stop site reason) (recorder.stop other reason) := by
  rcases recorder.stopped_or_running with ⟨earlier, phase⟩ | running
  · rw [stop_again phase, stop_again phase]
    exact agree_same _ _ same
  · have informed : (site.info ("Shutting down capture: " ++ reason.text)).disk.SameFiles
        (other.info ("Shutting down capture: " ++ reason.text)).disk := same
    obtain ⟨outcome, still⟩ := OpenSheets.closeEach_agree recorder.opened.sheets informed
    rw [stop_first running, stop_first running]
    rcases here : OpenSheets.closeEach (site.info ("Shutting down capture: " ++ reason.text))
      recorder.opened.sheets with ⟨closed, left⟩
    rcases there : OpenSheets.closeEach (other.info ("Shutting down capture: " ++ reason.text))
      recorder.opened.sheets with ⟨closed', left'⟩
    rw [here, there] at outcome still
    cases outcome
    cases closed with
    | error e => exact agree_same _ _ still
    | ok listed => exact agree_same _ _ still

theorem answer_agree {call : Call} (served : call.Served recorder)
    (same : site.disk.SameFiles other.disk) :
    Agree (recorder.answer site call) (recorder.answer other call) := by
  cases call with
  | take report =>
      obtain ⟨outcome, left, still⟩ := take_agree served same
      exact ⟨congrArg Answer.taken outcome, left, still⟩
  | stop reason =>
      obtain ⟨outcome, left, still⟩ := stop_agree recorder same reason
      exact ⟨congrArg Answer.done outcome, left, still⟩
  | pause flag =>
      cases raised : flag.reason with
      | none =>
          simp only [answer, pause_clear raised]
          exact agree_same _ _ same
      | some reason =>
          obtain ⟨outcome, left, still⟩ := stop_agree recorder same reason
          rcases here : recorder.stop site reason with ⟨done, stopped, closed⟩
          rcases there : recorder.stop other reason with ⟨done', stopped', closed'⟩
          rw [here, there] at outcome left still
          cases outcome
          cases left
          simp only [answer, pause, raised, here, there]
          cases done with
          | error e => exact agree_same _ _ still
          | ok done => exact agree_same _ _ still

theorem Took.contains {mote : MoteId} {outcome : Except CaptureError Verdict} {disk : Disk}
    (took : recorder.Took site report outcome later disk)
    (found : recorder.opened.contains mote = true) : later.opened.contains mote = true := by
  have still : ∀ next, (recorder.opened.insert report.mote next).contains mote = true := by
    intro next
    rw [OpenSheets.contains, OpenSheets.get?_insert]
    split
    · rfl
    · exact found
  cases took with
  | broken _ _ _ _ => exact still _
  | kept _ _ _ _ => exact still _
  | _ => exact found

-- An open sheet stays open while the capture runs.
theorem Call.Served.answer {call : Call} (served : call.Served recorder)
    (moved : recorder.phase ≠ .waiting) (site : Site) (other : Call) :
    call.Served (recorder.answer site other).2.1 := by
  intro phase report same keeps
  rw [answer_plan] at keeps
  rcases recorder.answer_left site other with ⟨taken, rfl⟩ | left | ⟨reason, stops⟩
  · have took := recorder.take_took site taken
    rcases took.phase_eq with before | ⟨waiting, _⟩
    · exact took.contains (served (before.symm.trans phase) report same keeps)
    · exact absurd waiting moved
  · rw [left] at phase ⊢
    exact served phase report same keeps
  · obtain ⟨first, stopped⟩ := recorder.stop_stops site reason
    rw [stops, stopped] at phase
    cases phase

def carryOut (recorder : Recorder) (site : Site) :
    List ((Site → Site) × Call) → List Answer × Recorder × Site
  | [] => ([], recorder, site)
  | (world, call) :: rest =>
      let first := recorder.answer (world site) call
      let later := first.2.1.carryOut first.2.2 rest
      (first.1 :: later.1, later.2)

/-- What the world does to sites with the same files leaves the same files. -/
def Steady (world : Site → Site) : Prop :=
  ∀ one other, one.disk.SameFiles other.disk → (world one).disk.SameFiles (world other).disk

theorem carryOut_countReport (recorder : Recorder) (site : Site)
    (calls : List ((Site → Site) × Call)) :
    recorder.countReport.carryOut site calls = ((recorder.carryOut site calls).1,
      (recorder.carryOut site calls).2.1.countReport, (recorder.carryOut site calls).2.2) := by
  induction calls generalizing recorder site with
  | nil => rfl
  | cons first rest ih => simp only [carryOut, answer_countReport, ih]

theorem carryOut_agree {calls : List ((Site → Site) × Call)} (moved : recorder.phase ≠ .waiting)
    (steady : ∀ entry ∈ calls, Steady entry.1) (served : ∀ entry ∈ calls, entry.2.Served recorder)
    (same : site.disk.SameFiles other.disk) :
    Agree (recorder.carryOut site calls) (recorder.carryOut other calls) := by
  induction calls generalizing recorder site other with
  | nil => exact agree_same _ _ same
  | cons first rest ih =>
      obtain ⟨world, call⟩ := first
      have met := steady _ List.mem_cons_self site other same
      obtain ⟨answer, left, still⟩ := answer_agree (served _ List.mem_cons_self) met
      have later := ih (answer_moved moved (world site) call)
        (fun entry member => steady entry (List.mem_cons_of_mem _ member))
        (fun entry member => (served entry (List.mem_cons_of_mem _ member)).answer moved _ call) still
      simp only [carryOut, answer, left]
      exact ⟨by rw [later.answer], later.recorder, later.files⟩

/-! Opening anew. -/

-- A mote that has no sheet gets none from the reports of others.
theorem Took.missing {mote : MoteId} {outcome : Except CaptureError Verdict} {disk : Disk}
    (took : recorder.Took site report outcome later disk)
    (missing : recorder.opened.get? mote = none)
    (others : recorder.plan.keeps report = true → report.mote ≠ mote) :
    later.opened.get? mote = none := by
  have still : recorder.plan.keeps report = true → ∀ next,
      (recorder.opened.insert report.mote next).get? mote = none := by
    intro keeps next
    rw [OpenSheets.get?_insert, if_neg (others keeps).symm]
    exact missing
  cases took with
  | broken _ keeps _ _ => exact still keeps _
  | kept _ keeps _ _ => exact still keeps _
  | _ => exact missing

theorem answer_missing {mote : MoteId} {call : Call} (missing : recorder.opened.get? mote = none)
    (others : ∀ report, call = .take report → recorder.plan.keeps report = true → report.mote ≠ mote)
    (site : Site) : (recorder.answer site call).2.1.opened.get? mote = none := by
  rcases recorder.answer_left site call with ⟨report, rfl⟩ | same | ⟨reason, stops⟩
  · exact (recorder.take_took site report).missing missing (others report rfl)
  · rw [same]
    exact missing
  · rw [stops]
    rcases recorder.stopped_or_running with ⟨earlier, phase⟩ | running
    · rw [stop_again phase]
      exact missing
    · obtain ⟨closed, left⟩ := stop_leaves running site reason
      rw [left]
      rfl

theorem Runs.missing {between : Site → Site → Prop} {last : Site} {log : List (Call × Answer)}
    {mote : MoteId} (run : Runs between recorder site log later last)
    (missing : recorder.opened.get? mote = none)
    (others : ∀ entry ∈ log, ∀ report, entry.1 = .take report → recorder.plan.keeps report = true →
      report.mote ≠ mote) : later.opened.get? mote = none := by
  induction run with
  | done => exact missing
  | call call meanwhile rest ih =>
      apply ih
      · exact answer_missing missing (others _ List.mem_cons_self) _
      · intro entry member report same keeps
        rw [answer_plan] at keeps
        exact others entry (List.mem_cons_of_mem _ member) report same keeps

/-- What becomes of a report whose mote has no sheet rests with the opening: if it fails then the report
fails in the same way, and else the report is the first row of the sheet. -/
structure OpensFor (recorder : Recorder) (met : Site) (report : Report) : Prop where
  fails : ∀ e left, openSheet recorder.plan report.mote met = (.error e, left) →
    recorder.take met report = (.error (.io e), recorder.countReport, left)
  kept : ∀ sheet ready, openSheet recorder.plan report.mote met = (.ok sheet, ready) →
    sheet.OnFile ready.disk → (recorder.take met report).1 = .ok .kept
  first : ∀ sheet ready, openSheet recorder.plan report.mote met = (.ok sheet, ready) →
    (recorder.take met report).1 = .ok .kept →
      ∃ next, (recorder.take met report).2.1.opened.get? report.mote = some next ∧
        next.path = recorder.plan.path report.mote ∧ next.rows = 1 ∧
        next.Holds (recorder.take met report).2.2.disk
          (page [recorder.plan.header, recorder.plan.row report])

theorem opensFor (phase : recorder.phase = .capturing) (keeps : recorder.plan.keeps report = true)
    (missing : recorder.opened.get? report.mote = none) (met : Site) :
    recorder.OpensFor met report where
  fails e left failed := by
    rw [take_capturing phase keeps, keep_unopened missing failed]
  kept sheet ready made file := by
    have obtained : recorder.Obtained report.mote met sheet true ready := Or.inr ⟨rfl, missing, made⟩
    have well := (sheet.writeRow_appended ready.disk (recorder.plan.row report)).succeeds file
    rcases written : sheet.writeRow ready.disk (recorder.plan.row report) with ⟨outcome, next, disk⟩
    rw [written] at well
    cases well
    rw [take_capturing phase keeps]
    exact (keep_kept obtained written).1
  first sheet ready made kept := by
    have obtained : recorder.Obtained report.mote met sheet true ready := Or.inr ⟨rfl, missing, made⟩
    obtain ⟨path, _, rows, _, held⟩ := Sheet.create_ok made
    have appended := sheet.writeRow_appended ready.disk (recorder.plan.row report)
    rw [take_capturing phase keeps] at kept ⊢
    rcases written : sheet.writeRow ready.disk (recorder.plan.row report)
      with ⟨e | ⟨⟩, next, disk⟩
    · rw [keep_broken obtained written] at kept
      cases kept
    · obtain ⟨_, later, left⟩ := keep_kept obtained written
      rw [written] at appended
      refine ⟨next, ?_, appended.path.trans path, ?_, ?_⟩
      · rw [later, OpenSheets.get?_insert, if_pos rfl]
      · rw [Sheet.rows_writeRow written, rows]
      · have more := appended.holds _ held rfl
        rw [← Sheet.page_append] at more
        rw [left]
        exact more

/-- A report whose sheet cannot be opened fails in the same way, whatever the reason, and leaves the
recorder as it was but for the count of reports, and every file as it was. All calls for which no sheet has
to be opened are then answered as without it, whatever the world does meanwhile, and leave the same recorder
but for this count, and the same files. The next report of the mote that is to be kept tries the opening
again and becomes the first row of the sheet if this goes well. -/
theorem failed_opening_leaves_no_trace (phase : recorder.phase = .capturing)
    (keeps : recorder.plan.keeps report = true)
    (missing : recorder.opened.get? report.mote = none)
    (failed : openSheet recorder.plan report.mote site = (.error e, left)) :
    recorder.take site report = (.error (.io e), recorder.countReport, left) ∧
    left.journal = site.journal.info ("Opening " ++ recorder.plan.path report.mote ++ " for node " ++
      toString report.mote.toNat) ∧
    site.disk.SameFiles left.disk ∧
    (∀ calls, (∀ entry ∈ calls, Steady entry.1) → (∀ entry ∈ calls, entry.2.Served recorder) →
      let without := recorder.carryOut site calls
      let after := recorder.countReport.carryOut left calls
      after.1 = without.1 ∧ after.2.1 = without.2.1.countReport ∧
        without.2.2.disk.SameFiles after.2.2.disk) ∧
    ∀ log later last, Runs (fun _ _ => True) recorder.countReport left log later last →
      later.phase = .capturing →
      (∀ entry ∈ log, ∀ other, entry.1 = .take other → recorder.plan.keeps other = true →
        other.mote ≠ report.mote) →
      ∀ next met, next.mote = report.mote → recorder.plan.keeps next = true →
        later.plan = recorder.plan ∧ later.opened.get? report.mote = none ∧ later.OpensFor met next := by
  have same : site.disk.SameFiles left.disk := (Sheet.changed_create_error failed).sameFiles
  refine ⟨(opensFor phase keeps missing site).fails e left failed, Sheet.journal_create_error failed,
    same, ?_, ?_⟩
  · intro calls steady served without after
    have moved : recorder.phase ≠ .waiting := by simp [phase]
    obtain ⟨answers, recorders, files⟩ := carryOut_agree moved steady served same
    refine ⟨?_, ?_, ?_⟩
    · simp only [after, carryOut_countReport, answers, without]
    · simp only [after, carryOut_countReport, recorders, without]
    · simp only [after, carryOut_countReport]
      exact files
  · intro log later last run capturing others next met own keptNext
    have follows : later.plan = recorder.plan := run.plan_eq
    have none := run.missing missing others
    refine ⟨follows, none, opensFor capturing ?_ ?_ met⟩
    · rw [follows]
      exact keptNext
    · rw [own]
      exact none

-- A file stands in the place of the folder of mote 1, and later it is gone.
theorem blocked_sheet_opened_later :
    let plan : CapturePlan :=
      { CapturePlan.standard with motes := [1, 2], output := ⟨"\x7bnode\x7d/log.csv", "", ""⟩ }
    let blocked : Site := ⟨Disk.blank.withFile (.ofString "1") [], .empty⟩
    let free : Site := ⟨.blank, .empty⟩
    let started := (new plan true).take blocked ⟨0, 1, CapturePlan.standardMarker⟩
    let ready := started.2.1.take started.2.2 ⟨5, 2, "6"⟩
    let lost := ready.2.1.take ready.2.2 ⟨6, 1, "7"⟩
    let other := lost.2.1.take lost.2.2 ⟨7, 2, "8"⟩
    lost.2.1 = ready.2.1.countReport ∧
      other.2.1 = (ready.2.1.take ready.2.2 ⟨7, 2, "8"⟩).2.1.countReport ∧
      (other.2.1.take free ⟨8, 1, "9"⟩).1 = .ok .kept := by
  intro plan blocked free started ready lost other
  have phase : ready.2.1.phase = .capturing := by decide +kernel
  have keeps : ready.2.1.plan.keeps ⟨6, 1, "7"⟩ = true := by decide +kernel
  have missing : ready.2.1.opened.get? 1 = none := by decide +kernel
  have served : ready.2.1.opened.contains 2 = true := by decide +kernel
  rcases opening : openSheet ready.2.1.plan 1 ready.2.2 with ⟨e | sheet, left⟩
  · obtain ⟨fails, _, _, goesOn, again⟩ := failed_opening_leaves_no_trace phase keeps missing opening
    have lost_eq : lost = (.error (.io e), ready.2.1.countReport, left) := fails
    have other_eq : other = ready.2.1.countReport.take left ⟨7, 2, "8"⟩ := by
      simp only [other, lost_eq]
    have without := (goesOn [(id, .take ⟨7, 2, "8"⟩)] (by simp [Steady])
      (by simp [Call.Served, served])).2.1
    have run : Runs (fun _ _ => True) ready.2.1.countReport left [(.take ⟨7, 2, "8"⟩, .taken other.1)]
        other.2.1 other.2.2 := by
      rw [other_eq]
      exact .call (.take ⟨7, 2, "8"⟩) trivial (.done _ _)
    obtain ⟨_, _, opens⟩ := again _ other.2.1 other.2.2 run (by decide +kernel) (by simp)
      ⟨8, 1, "9"⟩ free rfl (by decide +kernel)
    refine ⟨by rw [lost_eq], ?_, ?_⟩
    · rw [other_eq]
      exact without
    · have file : (openSheet other.2.1.plan 1 free).1.toOption.any fun sheet =>
          (openSheet other.2.1.plan 1 free).2.disk.node? sheet.place == some (.file []) := by
        decide +kernel
      rcases opened : openSheet other.2.1.plan 1 free with ⟨e | sheet, made⟩
      · rw [opened] at file
        cases file
      · rw [opened] at file
        exact opens.kept sheet made opened ⟨[], beq_iff_eq.mp file⟩
  · have well : (openSheet ready.2.1.plan 1 ready.2.2).1.isOk = false := by decide +kernel
    rw [opening] at well
    cases well

end Recorder

end MoteCapture

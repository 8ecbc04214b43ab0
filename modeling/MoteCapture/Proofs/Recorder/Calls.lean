import MoteCapture.Proofs.Sheet.Open
import MoteCapture.Recorder

/-!
Everything that can be asked of a recorder, what a single call does to it, and runs of calls. The site may
become another one before each call, as far as a run allows it; nothing else touches the recorder. On any
sites whatever, so that every opening, write and flush on the way may go well or fail, a recorder waits,
captures and stops, in this order, and may stop while it waits.
-/

namespace MoteCapture

namespace Recorder

inductive Call where
  | take (report : Report)
  | pause (flag : StopFlag)
  | stop (reason : StopReason)

inductive Answer where
  | taken (outcome : Except CaptureError Verdict)
  | done (outcome : Except CaptureError Unit)

def answer (recorder : Recorder) (site : Site) : Call → Answer × Recorder × Site
  | .take report =>
      let outcome := recorder.take site report
      (.taken outcome.1, outcome.2)
  | .pause flag =>
      let outcome := recorder.pause site flag
      (.done outcome.1, outcome.2)
  | .stop reason =>
      let outcome := recorder.stop site reason
      (.done outcome.1, outcome.2)

/-- Runs of calls with their answers. Before each call `between` tells what may have become of the
site since the last one. -/
inductive Runs (between : Site → Site → Prop) :
    Recorder → Site → List (Call × Answer) → Recorder → Site → Prop where
  | done (recorder : Recorder) (site : Site) : Runs between recorder site [] recorder site
  | call {recorder final : Recorder} {site met last : Site} {log : List (Call × Answer)}
      (call : Call) (meanwhile : between site met)
      (rest : Runs between (recorder.answer met call).2.1 (recorder.answer met call).2.2 log
        final last) :
      Runs between recorder site ((call, (recorder.answer met call).1) :: log) final last

variable {between : Site → Site → Prop} {recorder middle final : Recorder}
  {site halfway last : Site} {before after log : List (Call × Answer)}

theorem Runs.append (earlier : Runs between recorder site before middle halfway)
    (later : Runs between middle halfway after final last) :
    Runs between recorder site (before ++ after) final last := by
  induction earlier with
  | done => exact later
  | call call meanwhile _ ih => exact .call call meanwhile (ih later)

-- What every call and every change between two calls keeps, a run keeps.
theorem Runs.keeps (Inv : Recorder → Site → Prop)
    (waits : ∀ recorder site met, between site met → Inv recorder site → Inv recorder met)
    (calls : ∀ recorder site call, Inv recorder site →
      Inv (recorder.answer site call).2.1 (recorder.answer site call).2.2)
    (run : Runs between recorder site log final last) (start : Inv recorder site) :
    Inv final last := by
  induction run with
  | done => exact start
  | call call meanwhile _ ih => exact ih (calls _ _ call (waits _ _ _ meanwhile start))

theorem take_stopped {reason : StopReason} (phase : recorder.phase = .stopped reason)
    (site : Site) (report : Report) :
    recorder.take site report = (.error (.stopped reason), recorder, site) := by
  simp [take, phase]

def Obtained (recorder : Recorder) (mote : MoteId) (site : Site) (sheet : Sheet) (isNew : Bool)
    (ready : Site) : Prop :=
  (isNew = false ∧ recorder.opened.get? mote = some sheet ∧ ready = site) ∨
    (isNew = true ∧ recorder.opened.get? mote = none ∧
      openSheet recorder.plan mote site = (.ok sheet, ready))

/-- Everything that taking a report can come to. Only the last three have to do with sheets: none
could be opened, or the row was refused, or it was written. -/
inductive Took (recorder : Recorder) (site : Site) (report : Report) :
    Except CaptureError Verdict → Recorder → Disk → Prop where
  | refused {reason : StopReason}
      (phase : recorder.phase = .stopped reason ∨ recorder.phase = .closing reason) :
      Took recorder site report (.error (.stopped reason)) recorder site.disk
  | early (phase : recorder.phase = .waiting) (starts : recorder.plan.starts report = false) :
      Took recorder site report (.ok .early) recorder.countReport site.disk
  | start (phase : recorder.phase = .waiting) (starts : recorder.plan.starts report = true) :
      Took recorder site report (.ok .start) { recorder.countReport with phase := .capturing }
        site.disk
  | skipped (phase : recorder.phase = .capturing) (keeps : recorder.plan.keeps report = false) :
      Took recorder site report (.ok .skipped) recorder.countReport.countSkipped site.disk
  | unopened {e : IoError} {left : Site} (phase : recorder.phase = .capturing)
      (missing : recorder.opened.get? report.mote = none)
      (keeps : recorder.plan.keeps report = true)
      (failed : openSheet recorder.plan report.mote site = (.error e, left)) :
      Took recorder site report (.error (.io e)) recorder.countReport left.disk
  | broken {sheet next : Sheet} {isNew : Bool} {ready : Site} {e : IoError} {disk : Disk}
      (phase : recorder.phase = .capturing) (keeps : recorder.plan.keeps report = true)
      (obtained : recorder.Obtained report.mote site sheet isNew ready)
      (failed : sheet.writeRow ready.disk (recorder.plan.row report) = (.error e, next, disk)) :
      Took recorder site report (.error (.io e))
        { recorder.countReport with opened := recorder.opened.insert report.mote next } disk
  | kept {sheet next : Sheet} {isNew : Bool} {ready : Site} {disk : Disk}
      (phase : recorder.phase = .capturing) (keeps : recorder.plan.keeps report = true)
      (obtained : recorder.Obtained report.mote site sheet isNew ready)
      (written : sheet.writeRow ready.disk (recorder.plan.row report) = (.ok (), next, disk)) :
      Took recorder site report (.ok .kept)
        { recorder.countReport.countRow isNew with
          opened := recorder.opened.insert report.mote next
          newestRows := (report.mote, recorder.plan.row report) :: recorder.newestRows } disk

theorem disk_echo (recorder : Recorder) (site : Site) (mote : MoteId) (row : String) :
    (recorder.echo site mote row).2.disk = site.disk := by
  unfold echo
  split <;> rfl

-- The sheet of a mote is put back where it was found, so the others are as before.
theorem obtained_insert {opened : OpenSheets} {mote : MoteId} {site ready : Site} {sheet : Sheet}
    {isNew : Bool}
    (obtained : recorder.opened.obtain mote site (openSheet recorder.plan mote) =
      (.ok sheet, isNew, opened, ready)) :
    recorder.Obtained mote site sheet isNew ready ∧ opened.get? mote = some sheet ∧
      ∀ next, opened.insert mote next = recorder.opened.insert mote next := by
  rcases OpenSheets.obtain_ok obtained with ⟨old, found, same, stays⟩ | ⟨new, missing, made, put⟩
  · rw [same]
    exact ⟨Or.inl ⟨old, found, stays⟩, found, fun _ => rfl⟩
  · rw [put]
    refine ⟨Or.inr ⟨new, missing, made⟩, ?_, fun next => OpenSheets.insert_insert ..⟩
    rw [OpenSheets.get?_insert, if_pos rfl]

theorem Obtained.obtain {mote : MoteId} {sheet : Sheet} {isNew : Bool} {ready : Site}
    (obtained : recorder.Obtained mote site sheet isNew ready) :
    ∃ opened, recorder.opened.obtain mote site (openSheet recorder.plan mote) =
      (.ok sheet, isNew, opened, ready) := by
  rcases obtained with ⟨rfl, found, rfl⟩ | ⟨rfl, missing, made⟩
  · exact ⟨recorder.opened, by simp only [OpenSheets.obtain, found]⟩
  · exact ⟨recorder.opened.insert mote sheet, by simp only [OpenSheets.obtain, missing, made]⟩

-- A sheet is put in its place, and it makes one more exactly if it is new.
theorem Obtained.size {mote : MoteId} {sheet : Sheet} {isNew : Bool} {ready : Site}
    (obtained : recorder.Obtained mote site sheet isNew ready)
    (ascending : recorder.opened.Ascending) (next : Sheet) :
    (recorder.opened.insert mote next).size = recorder.opened.size + if isNew then 1 else 0 := by
  rcases obtained with ⟨rfl, found, _⟩ | ⟨rfl, missing, _⟩
  · exact OpenSheets.size_insert_old ascending found next
  · exact OpenSheets.size_insert_new missing next

section Keep

variable {report : Report} {sheet next : Sheet} {isNew : Bool} {ready left : Site} {disk : Disk}
  {e : IoError}

theorem keep_unopened (missing : recorder.opened.get? report.mote = none)
    (failed : openSheet recorder.plan report.mote site = (.error e, left)) :
    recorder.countReport.keep site report = (.error (.io e), recorder.countReport, left) := by
  have missed : recorder.countReport.opened.get? report.mote = none := missing
  have refused : openSheet recorder.countReport.plan report.mote site = (.error e, left) := failed
  simp only [keep, OpenSheets.obtain, missed, refused]

theorem keep_broken (obtained : recorder.Obtained report.mote site sheet isNew ready)
    (failed : sheet.writeRow ready.disk (recorder.plan.row report) = (.error e, next, disk)) :
    recorder.countReport.keep site report = (.error (.io e),
      { recorder.countReport with opened := recorder.opened.insert report.mote next },
      { ready with disk }) := by
  have counted : recorder.countReport.Obtained report.mote site sheet isNew ready := obtained
  obtain ⟨opened, obtains⟩ := counted.obtain
  obtain ⟨_, found, inserts⟩ := obtained_insert obtains
  rw [show recorder.plan = recorder.countReport.plan from rfl] at failed
  simp only [keep, obtains, OpenSheets.writeRow, found, failed, inserts]
  rfl

theorem keep_kept (obtained : recorder.Obtained report.mote site sheet isNew ready)
    (written : sheet.writeRow ready.disk (recorder.plan.row report) = (.ok (), next, disk)) :
    (recorder.countReport.keep site report).1 = .ok .kept ∧
      (recorder.countReport.keep site report).2.1 =
        { recorder.countReport.countRow isNew with
          opened := recorder.opened.insert report.mote next
          newestRows := (report.mote, recorder.plan.row report) :: recorder.newestRows } ∧
      (recorder.countReport.keep site report).2.2.disk = disk := by
  have counted : recorder.countReport.Obtained report.mote site sheet isNew ready := obtained
  obtain ⟨opened, obtains⟩ := counted.obtain
  obtain ⟨_, found, inserts⟩ := obtained_insert obtains
  rw [show recorder.plan = recorder.countReport.plan from rfl] at written
  simp only [keep, obtains, OpenSheets.writeRow, found, written, inserts, disk_echo]
  exact ⟨trivial, rfl, trivial⟩

end Keep

theorem keep_took {report : Report} (phase : recorder.phase = .capturing)
    (keeps : recorder.plan.keeps report = true) (site : Site) :
    recorder.Took site report (recorder.countReport.keep site report).1
      (recorder.countReport.keep site report).2.1
      (recorder.countReport.keep site report).2.2.disk := by
  rcases obtained : recorder.opened.obtain report.mote site (openSheet recorder.plan report.mote)
    with ⟨e | sheet, isNew, opened, ready⟩
  · obtain ⟨missing, failed, _⟩ := OpenSheets.obtain_error obtained
    rw [keep_unopened missing failed]
    exact .unopened phase missing keeps failed
  · have got := (obtained_insert obtained).1
    rcases written : sheet.writeRow ready.disk (recorder.plan.row report) with ⟨e | ⟨⟩, next, disk⟩
    · rw [keep_broken got written]
      exact .broken phase keeps got written
    · obtain ⟨outcome, later, left⟩ := keep_kept got written
      rw [outcome, later, left]
      exact .kept phase keeps got written

theorem take_took (recorder : Recorder) (site : Site) (report : Report) :
    recorder.Took site report (recorder.take site report).1 (recorder.take site report).2.1
      (recorder.take site report).2.2.disk := by
  unfold take
  split
  · next reason phase => exact .refused (Or.inl phase)
  · next reason phase => exact .refused (Or.inr phase)
  · next phase =>
    split
    · next starts => exact .start phase starts
    · next starts => exact .early phase (by simpa using starts)
  · next phase =>
    split
    · next keeps => exact keep_took phase keeps site
    · next keeps => exact .skipped phase (by simpa using keeps)

-- While the capture runs, a report that the plan keeps is counted and becomes a row.
theorem take_capturing {report : Report} (phase : recorder.phase = .capturing)
    (keeps : recorder.plan.keeps report = true) (site : Site) :
    recorder.take site report = recorder.countReport.keep site report := by
  simp only [take, phase, keeps, if_true]

theorem openSheet_alike (plan : CapturePlan) (mote : MoteId) {site other : Site}
    (same : site.disk = other.disk) :
    (openSheet plan mote site).1 = (openSheet plan mote other).1 ∧
      (openSheet plan mote site).2.disk = (openSheet plan mote other).2.disk := by
  unfold openSheet
  apply Sheet.create_alike
  exact same

theorem keep_alike (recorder : Recorder) {site other : Site} (same : site.disk = other.disk)
    (report : Report) :
    (recorder.keep site report).1 = (recorder.keep other report).1 ∧
      (recorder.keep site report).2.1 = (recorder.keep other report).2.1 ∧
      (recorder.keep site report).2.2.disk = (recorder.keep other report).2.2.disk := by
  obtain ⟨outcome, isNew, opened, here, there, one, two, disks⟩ :=
    OpenSheets.obtain_alike recorder.opened report.mote same
      (openSheet_alike recorder.plan report.mote same)
  simp only [keep, one, two]
  cases outcome with
  | error e => exact ⟨rfl, rfl, disks⟩
  | ok sheet =>
      simp only [disks]
      rcases opened.writeRow report.mote there.disk (recorder.plan.row report) with
        ⟨e | rows, left, disk⟩
      · exact ⟨rfl, rfl, rfl⟩
      · exact ⟨rfl, rfl, by simp only [disk_echo]⟩

-- The journal does not show in what becomes of a report.
theorem take_alike (recorder : Recorder) {site other : Site} (same : site.disk = other.disk)
    (report : Report) :
    (recorder.take site report).1 = (recorder.take other report).1 ∧
      (recorder.take site report).2.1 = (recorder.take other report).2.1 ∧
      (recorder.take site report).2.2.disk = (recorder.take other report).2.2.disk := by
  unfold take
  split
  · exact ⟨rfl, rfl, same⟩
  · exact ⟨rfl, rfl, same⟩
  · split
    · exact ⟨rfl, rfl, same⟩
    · exact ⟨rfl, rfl, same⟩
  · simp only
    split
    · exact keep_alike recorder.countReport same report
    · exact ⟨rfl, rfl, same⟩

theorem Took.plan_eq {report : Report} {outcome : Except CaptureError Verdict} {later : Recorder}
    {disk : Disk} (took : recorder.Took site report outcome later disk) :
    later.plan = recorder.plan := by
  cases took <;> rfl

-- Whatever becomes of a report, if it breaks nothing it is counted.
theorem Took.reports {report : Report} {verdict : Verdict} {later : Recorder} {disk : Disk}
    (took : recorder.Took site report (.ok verdict) later disk) :
    later.tally.reports = recorder.tally.reports + 1 := by
  cases took <;> rfl

-- A report is refused and changes nothing, or it breaks over a file and is counted as well.
theorem Took.error_cases {report : Report} {e : CaptureError} {later : Recorder} {disk : Disk}
    (took : recorder.Took site report (.error e) later disk) :
    (∃ reason, e = .stopped reason ∧ later = recorder ∧ disk = site.disk) ∨
      ∃ cause, e = .io cause ∧ recorder.phase = .capturing ∧
        later = { recorder.countReport with opened := later.opened } := by
  cases took with
  | refused _ => exact Or.inl ⟨_, rfl, rfl, rfl⟩
  | unopened phase _ _ _ => exact Or.inr ⟨_, rfl, phase, rfl⟩
  | broken phase _ _ _ => exact Or.inr ⟨_, rfl, phase, rfl⟩

/-! Stopping. -/

theorem stopped_or_running (recorder : Recorder) :
    (∃ reason, recorder.phase = .stopped reason) ∨
      ∀ reason, recorder.phase ≠ .stopped reason := by
  cases phase : recorder.phase with
  | stopped reason => exact Or.inl ⟨reason, rfl⟩
  | waiting => exact Or.inr fun _ same => by cases same
  | capturing => exact Or.inr fun _ same => by cases same
  | closing earlier => exact Or.inr fun _ same => by cases same

theorem stop_again {reason : StopReason} (phase : recorder.phase = .stopped reason) (site : Site)
    (again : StopReason) :
    recorder.stop site again = (.ok (), recorder,
      site.debug ("Shutdown requested again (" ++ again.text ++ "), already terminated")) := by
  simp [stop, phase]

theorem stop_first (running : ∀ reason, recorder.phase ≠ .stopped reason) (site : Site)
    (reason : StopReason) :
    recorder.stop site reason =
      match OpenSheets.closeEach (site.info ("Shutting down capture: " ++ reason.text))
        recorder.opened.sheets with
      | (.ok closed, left) =>
          (.ok (), { recorder with
            phase := .stopped reason, opened := .empty, closed := recorder.closed ++ closed }, left)
      | (.error e, left) =>
          (.error (.io e), { recorder with phase := .stopped reason, opened := .empty }, left) := by
  unfold stop
  split
  · next earlier phase => exact absurd phase (running earlier)
  · rcases closing : OpenSheets.closeEach
      (site.info ("Shutting down capture: " ++ reason.text)) recorder.opened.sheets
      with ⟨e | closed, left⟩ <;> simp [OpenSheets.closeAll, closing]

theorem stop_error {e : CaptureError} {reason : StopReason} {left : Recorder} {after : Site}
    (failed : recorder.stop site reason = (.error e, left, after)) : ∃ cause, e = .io cause := by
  simp only [stop] at failed
  split at failed
  · cases failed
  · split at failed
    · cases failed
    · next cause _ =>
      cases failed
      exact ⟨cause, rfl⟩

-- Stopping leaves no sheet open, even if one of them could not be flushed.
theorem stop_leaves (running : ∀ reason, recorder.phase ≠ .stopped reason) (site : Site)
    (reason : StopReason) :
    ∃ closed, (recorder.stop site reason).2.1 =
      { recorder with phase := .stopped reason, opened := .empty, closed } := by
  rw [stop_first running]
  split
  · exact ⟨_, rfl⟩
  · exact ⟨recorder.closed, rfl⟩

theorem stop_stops (recorder : Recorder) (site : Site) (reason : StopReason) :
    ∃ first, (recorder.stop site reason).2.1.phase = .stopped first := by
  rcases recorder.stopped_or_running with ⟨earlier, phase⟩ | running
  · rw [stop_again phase]
    exact ⟨earlier, phase⟩
  · obtain ⟨closed, left⟩ := stop_leaves running site reason
    rw [left]
    exact ⟨reason, rfl⟩

-- Stopping touches neither what was counted nor the rows.
theorem stop_frame (recorder : Recorder) (site : Site) (reason : StopReason) :
    (recorder.stop site reason).2.1.plan = recorder.plan ∧
      (recorder.stop site reason).2.1.tally = recorder.tally ∧
      (recorder.stop site reason).2.1.rows = recorder.rows := by
  rcases recorder.stopped_or_running with ⟨earlier, phase⟩ | running
  · rw [stop_again phase]
    exact ⟨rfl, rfl, rfl⟩
  · obtain ⟨closed, left⟩ := stop_leaves running site reason
    rw [left]
    exact ⟨rfl, rfl, rfl⟩

theorem stop_disk (running : ∀ reason, recorder.phase ≠ .stopped reason) (site : Site)
    (reason : StopReason) :
    (recorder.stop site reason).2.2.disk =
      (OpenSheets.closeEach site recorder.opened.sheets).2.disk := by
  have same : (site.info ("Shutting down capture: " ++ reason.text)).disk = site.disk := rfl
  rw [← (OpenSheets.closeEach_alike same recorder.opened.sheets).2, stop_first running]
  split
  · next closing => rw [closing]
  · next closing => rw [closing]

-- Only the phase tells for which reason a recorder was stopped.
theorem stop_alike (running : ∀ reason, recorder.phase ≠ .stopped reason) {site other : Site}
    (same : site.disk = other.disk) (first second : StopReason) :
    (recorder.stop site first).1 = (recorder.stop other second).1 ∧
      (recorder.stop site first).2.1 =
        { (recorder.stop other second).2.1 with phase := .stopped first } ∧
      (recorder.stop site first).2.2.disk = (recorder.stop other second).2.2.disk := by
  have disks : (site.info ("Shutting down capture: " ++ first.text)).disk =
      (other.info ("Shutting down capture: " ++ second.text)).disk := same
  obtain ⟨outcomes, left⟩ := OpenSheets.closeEach_alike disks recorder.opened.sheets
  rw [stop_first running, stop_first running]
  generalize OpenSheets.closeEach (site.info ("Shutting down capture: " ++ first.text))
    recorder.opened.sheets = one at outcomes left
  generalize OpenSheets.closeEach (other.info ("Shutting down capture: " ++ second.text))
    recorder.opened.sheets = two at outcomes left
  obtain ⟨outcome, here⟩ := one
  obtain ⟨outcome', there⟩ := two
  cases outcomes
  cases outcome with
  | error e => exact ⟨rfl, rfl, left⟩
  | ok closed => exact ⟨rfl, rfl, left⟩

-- What giving a recorder up leaves on the disk; that the sheets are listed nowhere makes no
-- difference to it.
theorem discard_disk (recorder : Recorder) (site : Site) :
    (recorder.discard site).disk = (OpenSheets.closeEach site recorder.opened.sheets).2.disk := by
  unfold discard
  split
  · next bare =>
    rw [OpenSheets.isEmpty_iff] at bare
    rw [bare]
    rfl
  · have same : (site.debug ("Capturer dropped with " ++ toString recorder.opened.size ++
        " open sinks")).disk = site.disk := rfl
    rw [← (OpenSheets.closeEach_alike same recorder.opened.sheets).2]
    simp only [OpenSheets.closeAll]
    split
    · rfl
    · rfl

theorem changed_stop (recorder : Recorder) (site : Site) (reason : StopReason) :
    site.disk.Changed (OpenSheets.Places recorder.opened.sheets)
      (recorder.stop site reason).2.2.disk := by
  rcases recorder.stopped_or_running with ⟨earlier, phase⟩ | running
  · rw [stop_again phase]
    exact .refl _
  · rw [stop_disk running]
    exact OpenSheets.changed_closeEach site recorder.opened.sheets

theorem pause_clear {flag : StopFlag} (clear : flag.reason = none) (site : Site) :
    recorder.pause site flag = (.ok (), recorder, site) := by
  simp [pause, clear]

-- A pause on a raised flag does to the recorder what stopping does.
theorem pause_raised {flag : StopFlag} {reason : StopReason} (raised : flag.reason = some reason)
    (site : Site) : (recorder.pause site flag).2 = (recorder.stop site reason).2 := by
  simp only [pause, raised]
  split
  · next stopped left outcome => rw [outcome]
  · rfl

-- A call takes a report, or stops the recorder, or does nothing to it.
theorem answer_left (recorder : Recorder) (site : Site) (call : Call) :
    (∃ report, call = .take report) ∨ (recorder.answer site call).2 = (recorder, site) ∨
      ∃ reason, (recorder.answer site call).2 = (recorder.stop site reason).2 := by
  cases call with
  | take report => exact Or.inl ⟨report, rfl⟩
  | stop reason => exact Or.inr (Or.inr ⟨reason, rfl⟩)
  | pause flag =>
      right
      cases raised : flag.reason with
      | none => exact Or.inl (by rw [answer, pause_clear raised])
      | some reason => exact Or.inr ⟨reason, by rw [answer, pause_raised raised]⟩

theorem answer_plan (recorder : Recorder) (site : Site) (call : Call) :
    (recorder.answer site call).2.1.plan = recorder.plan := by
  rcases recorder.answer_left site call with ⟨report, rfl⟩ | same | ⟨reason, stops⟩
  · exact (take_took recorder site report).plan_eq
  · rw [same]
  · rw [stops]
    exact (stop_frame recorder site reason).1

theorem Runs.plan_eq (run : Runs between recorder site log final last) :
    final.plan = recorder.plan :=
  run.keeps (fun other _ => other.plan = recorder.plan) (fun _ _ _ _ same => same)
    (fun other met call same => (answer_plan other met call).trans same) rfl

end Recorder

/-! The life of a recorder. -/

namespace Recorder

inductive Moves : Phase → Phase → Prop where
  | stays (phase : Phase) : Moves phase phase
  | starts : Moves .waiting .capturing
  | stopsEarly (reason : StopReason) : Moves .waiting (.stopped reason)
  | stops (reason : StopReason) : Moves .capturing (.stopped reason)

structure Orderly (recorder : Recorder) : Prop where
  notClosing : ∀ reason, recorder.phase ≠ .closing reason
  waiting : recorder.phase = .waiting → recorder.opened = .empty ∧ recorder.closed = [] ∧
    recorder.tally.rows = 0 ∧ recorder.tally.skipped = 0 ∧ recorder.tally.opened = 0 ∧
    recorder.rows = []
  stopped : ∀ reason, recorder.phase = .stopped reason → recorder.opened = .empty

variable {recorder later : Recorder} {site : Site} {report : Report}
  {outcome : Except CaptureError Verdict} {disk : Disk}

theorem orderly_new (plan : CapturePlan) (echoes : Bool) : (new plan echoes).Orderly := by
  constructor
  · intro reason closing
    cases closing
  · intro _
    exact ⟨rfl, rfl, rfl, rfl, rfl, rfl⟩
  · intro reason stopped
    cases stopped

theorem orderly_capturing (phase : recorder.phase = .capturing) : recorder.Orderly := by
  constructor <;> simp [phase]

-- A report can start a capture; no report moves the phase in any other way.
theorem Took.phase_eq (took : recorder.Took site report outcome later disk) :
    later.phase = recorder.phase ∨ recorder.phase = .waiting ∧ later.phase = .capturing := by
  cases took with
  | start phase _ => exact Or.inr ⟨phase, rfl⟩
  | _ => exact Or.inl rfl

-- No report stops a recorder.
theorem Took.running (took : recorder.Took site report outcome later disk)
    (running : ∀ reason, recorder.phase ≠ .stopped reason) (reason : StopReason) :
    later.phase ≠ .stopped reason := by
  rcases took.phase_eq with same | ⟨_, started⟩
  · rw [same]
    exact running reason
  · simp [started]

-- A recorder that runs breaks over a file or not at all.
theorem Took.error_io {e : CaptureError} (took : recorder.Took site report (.error e) later disk)
    (orderly : recorder.Orderly) (running : ∀ reason, recorder.phase ≠ .stopped reason) :
    ∃ cause, e = .io cause := by
  generalize same : Except.error e = outcome at took
  cases took with
  | refused phase =>
      rcases phase with stopped | closing
      · exact absurd stopped (running _)
      · exact absurd closing (orderly.notClosing _)
  | unopened _ _ _ _ => cases same; exact ⟨_, rfl⟩
  | broken _ _ _ _ => cases same; exact ⟨_, rfl⟩
  | _ => cases same

theorem Took.orderly (took : recorder.Took site report outcome later disk)
    (orderly : recorder.Orderly) : later.Orderly := by
  cases took with
  | refused _ => exact orderly
  | early _ _ => exact ⟨orderly.notClosing, orderly.waiting, orderly.stopped⟩
  | start _ _ => exact orderly_capturing rfl
  | skipped phase _ => exact orderly_capturing phase
  | unopened phase _ _ _ => exact orderly_capturing phase
  | broken phase _ _ _ => exact orderly_capturing phase
  | kept phase _ _ _ => exact orderly_capturing phase

-- Once a recorder is stopped, no call changes it.
theorem answer_stopped {reason : StopReason} (phase : recorder.phase = .stopped reason)
    (site : Site) (call : Call) :
    (recorder.answer site call).2.1 = recorder ∧
      (∀ report, call = .take report →
        (recorder.answer site call).1 = .taken (.error (.stopped reason))) ∧
      ∀ again, call = .stop again → (recorder.answer site call).1 = .done (.ok ()) := by
  cases call with
  | take report =>
      rw [answer, take_stopped phase]
      exact ⟨rfl, fun _ _ => rfl, fun _ other => by cases other⟩
  | stop again =>
      rw [answer, stop_again phase]
      exact ⟨rfl, fun _ other => by (cases other), fun _ _ => rfl⟩
  | pause flag =>
      refine ⟨?_, fun _ other => by (cases other), fun _ other => by cases other⟩
      cases raised : flag.reason with
      | none => rw [answer, pause_clear raised]
      | some again =>
          rw [answer, pause_raised raised, stop_again phase]

theorem stop_moves (running : ∀ reason, recorder.phase ≠ .stopped reason)
    (notClosing : ∀ reason, recorder.phase ≠ .closing reason) (site : Site) (reason : StopReason) :
    Moves recorder.phase (recorder.stop site reason).2.1.phase := by
  obtain ⟨closed, left⟩ := stop_leaves running site reason
  rw [left]
  cases phase : recorder.phase with
  | waiting => exact .stopsEarly reason
  | capturing => exact .stops reason
  | closing earlier => exact absurd phase (notClosing earlier)
  | stopped earlier => exact absurd phase (running earlier)

-- Each call moves the phase forward, if at all.
theorem answer_moves (orderly : recorder.Orderly) (site : Site) (call : Call) :
    Moves recorder.phase (recorder.answer site call).2.1.phase := by
  rcases recorder.stopped_or_running with ⟨reason, phase⟩ | running
  · rw [(answer_stopped phase site call).1]
    exact .stays _
  rcases recorder.answer_left site call with ⟨report, rfl⟩ | same | ⟨reason, stops⟩
  · rcases (take_took recorder site report).phase_eq with same | ⟨waiting, started⟩
    · rw [answer, same]
      exact .stays _
    · rw [answer, waiting, started]
      exact .starts
  · rw [same]
    exact .stays _
  · rw [stops]
    exact stop_moves running orderly.notClosing site reason

theorem orderly_answer (orderly : recorder.Orderly) (site : Site) (call : Call) :
    (recorder.answer site call).2.1.Orderly := by
  rcases recorder.answer_left site call with ⟨report, rfl⟩ | same | ⟨reason, stops⟩
  · exact (take_took recorder site report).orderly orderly
  · rw [same]
    exact orderly
  · rw [stops]
    rcases recorder.stopped_or_running with ⟨earlier, phase⟩ | running
    · rw [stop_again phase]
      exact orderly
    · obtain ⟨closed, left⟩ := stop_leaves running site reason
      rw [left]
      constructor <;> simp

section Runs

variable {between : Site → Site → Prop} {final : Recorder} {site last : Site}
  {log : List (Call × Answer)}

theorem Runs.orderly (run : Runs between recorder site log final last)
    (orderly : recorder.Orderly) : final.Orderly :=
  run.keeps (fun recorder _ => recorder.Orderly) (fun _ _ _ _ orderly => orderly)
    (fun _ site call orderly => orderly_answer orderly site call) orderly

-- Whatever is asked of a stopped recorder, it stays as it is.
theorem Runs.stopped (run : Runs between recorder site log final last) {reason : StopReason}
    (phase : recorder.phase = .stopped reason) :
    final = recorder ∧ ∀ entry ∈ log,
      (∀ report, entry.1 = .take report → entry.2 = .taken (.error (.stopped reason))) ∧
      ∀ again, entry.1 = .stop again → entry.2 = .done (.ok ()) := by
  induction run with
  | done => exact ⟨rfl, fun _ member => by cases member⟩
  | call call meanwhile rest ih =>
      obtain ⟨same, refuses, agrees⟩ := answer_stopped phase _ call
      obtain ⟨still, answers⟩ := ih (by rw [same]; exact phase)
      refine ⟨still.trans same, fun entry member => ?_⟩
      rcases List.mem_cons.mp member with rfl | later
      · exact ⟨refuses, agrees⟩
      · exact answers entry later

/-- Wherever a run of calls leads, the phase and the rest of the recorder are in order, the next
call moves the phase forward if at all, and a recorder that is stopped stays as it is for good:
it refuses every report and agrees to every stop. -/
theorem runs_in_order (plan : CapturePlan) (echoes : Bool)
    (run : Runs (fun _ _ => True) (new plan echoes) site log recorder last) :
    recorder.Orderly ∧
      (∀ met call, Moves recorder.phase (recorder.answer met call).2.1.phase) ∧
      ∀ reason, recorder.phase = .stopped reason →
        ∀ later final latest, Runs (fun _ _ => True) recorder last later final latest →
          final = recorder ∧ ∀ entry ∈ later,
            (∀ report, entry.1 = .take report → entry.2 = .taken (.error (.stopped reason))) ∧
            ∀ again, entry.1 = .stop again → entry.2 = .done (.ok ()) := by
  have orderly := run.orderly (orderly_new plan echoes)
  refine ⟨orderly, answer_moves orderly, ?_⟩
  intro reason phase later final latest goesOn
  exact goesOn.stopped phase

theorem start_and_stop_in_order :
    let started := (new .standard true).answer ⟨.blank, .empty⟩
      (.take ⟨0, 1, CapturePlan.standardMarker⟩)
    let stopped := started.2.1.answer started.2.2 (.stop .interrupted)
    started.2.1.phase = .capturing ∧ stopped.2.1.phase = .stopped .interrupted ∧
      stopped.2.1.Orderly := by
  intro started stopped
  refine ⟨by decide +kernel, by decide +kernel, ?_⟩
  have run : Runs (fun _ _ => True) (new .standard true) ⟨.blank, .empty⟩ _ stopped.2.1
      stopped.2.2 := .call _ trivial (.call _ trivial (.done _ _))
  exact (runs_in_order .standard true run).1

end Runs

end Recorder

end MoteCapture

import MoteCapture.CommandLine.Run
import MoteCapture.Proofs.Session.Course
import MoteCapture.Proofs.Session.Milestones
import MoteCapture.Proofs.Session.Notes

/-!
The warning that nothing was captured. It says that the marker was never printed, but what it goes by is
that there are no files; so it is also given when the marker was printed and no report to keep came after
it. When the marker was not printed it is always given.
-/

namespace MoteCapture

namespace CapturePlan

variable {plan : CapturePlan} {reports : List Report}

theorem keptMotes_eq_nil : plan.keptMotes reports = [] ↔ plan.kept reports = [] := by
  simp only [List.eq_nil_iff_forall_not_mem, mem_keptMotes]
  constructor
  · intro none report member
    exact none report.mote ⟨report, member, rfl⟩
  · rintro none mote ⟨report, member, -⟩
    exact none report member

end CapturePlan

namespace Session

variable {σ : Type} [Feed σ]

-- A session that finishes shows a file for each mote with rows.
theorem files_eq_nil {plan : CapturePlan} {echoes : Bool} {flag : StopFlag} {alarms : List Alarm}
    {site : Site} {feed : σ} {summary : Summary}
    (finished : ((new plan echoes flag alarms site).run feed).1 = .finished summary) :
    summary.files = [] ↔
      plan.kept ((new plan echoes flag alarms site).begun.handed feed) = [] := by
  let start := new plan echoes flag alarms site
  have begins : Logged σ plan site.journal.milestones [] start.begun.recorder start.begun.site := by
    refine ⟨Recorder.hasSeen_new plan echoes, [], [], ?_, .none, nofun⟩
    exact (site.journal.milestones_line .info _).trans (List.append_nil _).symm
  have stops := (lasts_logged σ plan site.journal.milestones).loop start.begun feed begins
  have told : (start.begun.loop feed).1.stopReason? = some summary.reason :=
    congrArg Ending.stopReason? finished
  rcases stops with silent | ⟨met, raised, logged, raise, outcome⟩
  · rw [told] at silent
    cases silent
  have course := loop_course start.begun feed
  rw [show (start.begun.loop feed).1 = .finished summary from finished] at course
  obtain ⟨-, shows⟩ := course.finished
  have stopped := @stopNow_milestones plan _ met raised summary.reason logged.has raise
  rw [← outcome] at stopped
  have size := (stopped told).2.2.length_eq
  rw [List.length_map, List.length_map] at size
  rw [shows, ← CapturePlan.keptMotes_eq_nil, ← List.length_eq_zero_iff, ← List.length_eq_zero_iff]
  exact iff_of_eq (congrArg (· = 0) size)

end Session

namespace CommandLine

def nothingCaptured (options : Options) : Entry :=
  .line .warn ("Input ended before node " ++ toString options.capture.trigger.toNat ++
    " printed '" ++ options.capture.marker ++ "', nothing captured")

-- It is told apart from all other warnings by the letters that it begins with.
theorem nothingCaptured_ne (options : Options) {lead : String} (tail : String)
    (long : 3 ≤ lead.toList.length) (begins : lead.toList.take 3 ≠ "Inp".toList) :
    nothingCaptured options ≠ .line .warn (lead ++ tail) := by
  have take {lead : String} (tail : String) (long : 3 ≤ lead.toList.length) :
      (lead ++ tail).toList.take 3 = lead.toList.take 3 := by
    rw [String.toList_append, List.take_append_of_le_length long]
  intro same
  injection same with _ texts
  apply begins
  rw [← take tail long, ← texts]
  simp only [String.append_assoc]
  exact take _ (by decide)

-- Nobody but the command gives the warning.
theorem notes_ne_nothingCaptured {σ : Type} [Feed σ] (skips : NotesSkips σ) {ms : Nat}
    {presses : List Nat} {entry : Entry}
    (notes : Session.Notes σ (.timeout ms :: presses.map Alarm.interrupt) entry) (options : Options) :
    nothingCaptured options ≠ entry := by
  cases notes with
  | recorder notes =>
    cases notes with
    | line calm =>
        rintro ⟨⟩
        exact calm rfl
    | row mote text => exact nofun
    | unflushed path cause =>
        simp only [String.append_assoc]
        exact nothingCaptured_ne options _ (by decide) (by decide)
  | milestone name facts => exact nofun
  | heard disk feed told =>
      obtain ⟨number, cause, rfl⟩ := skips disk feed entry told
      unfold skipNote
      simp only [String.append_assoc]
      exact nothingCaptured_ne options _ (by decide) (by decide)
  | notice set =>
      rcases List.mem_cons.mp set with rfl | press
      · simp only [Alarm.timeout, String.append_assoc]
        exact nothingCaptured_ne options _ (by decide) (by decide)
      · obtain ⟨moment, -, rfl⟩ := List.mem_map.mp press
        have notice : (Alarm.interrupt moment).notice = Alarm.interruptNotice ++ "" := by
          rw [String.append_empty, Alarm.interrupt]
        rw [notice]
        exact nothingCaptured_ne options _ (by decide) (by decide)

-- It is given if there are no files to show, and then at once.
theorem mem_report {options : Options} {summary : Summary} {site : Site}
    (fresh : nothingCaptured options ∉ site.journal.toList) :
    nothingCaptured options ∈ (report options summary site).journal.toList ↔ summary.files = [] := by
  have shown (files : List (MoteId × ClosedSheet)) (site : Site) :
      nothingCaptured options ∈ (files.foldl (fun site entry =>
        site.info ("Node " ++ toString entry.1.toNat ++ ": " ++ toString entry.2.rows ++
          " rows in " ++ entry.2.path)) site).journal.toList ↔
        nothingCaptured options ∈ site.journal.toList := by
    induction files generalizing site with
    | nil => rfl
    | cons entry rest ih =>
        rw [List.foldl_cons, ih]
        simp [Site.info, Journal.info, nothingCaptured]
  rw [report, shown]
  cases files : summary.files with
  | nil => simp [Site.warn, Journal.warn, nothingCaptured]
  | cons entry rest => simpa using fresh

end CommandLine

namespace Capture

open CommandLine (nothingCaptured mem_report notes_ne_nothingCaptured report)

section Feeds

variable {σ : Type} [Feed σ] {options : Options} {feed : σ} {presses : List Nat} {site left : Site}
  {summary : Summary}

-- Up to the report nobody has given it, and the files are those of the motes with rows.
theorem runFeed_warns (skips : NotesSkips σ) (fresh : nothingCaptured options ∉ site.journal.toList)
    (finished : runFeed options feed .clear (presses.map Alarm.interrupt) site =
      (.finished summary, left)) :
    nothingCaptured options ∈ (report options summary left).journal.toList ↔
      options.capture.plan.kept
        ((session options .clear (presses.map Alarm.interrupt) site).begun.handed feed) = [] := by
  let alarms := Alarm.timeout options.capture.timeoutMs.toNat :: presses.map Alarm.interrupt
  let session := session options .clear (presses.map Alarm.interrupt) site
  rw [runFeed, Prod.mk.injEq] at finished
  obtain ⟨ends, rfl⟩ := finished
  have configured : site.Adds (Session.Notes σ alarms) session.site :=
    site.adds_note _ (.milestone _ _)
  have ran := Session.adds_run session feed (fun alarm set => set)
  have closed : (session.run feed).2.1.site.Adds (Session.Notes σ alarms)
      (close options (session.run feed).2.1) := by
    have discards (recorder : Recorder) (site : Site) :=
      (recorder.adds_discard site).mono fun _ => @Session.Notes.recorder σ _ alarms _
    rw [close]
    split
    · have counted : (session.run feed).2.1.site.Adds (Session.Notes σ alarms)
          ((session.run feed).2.1.site.info
            ("Capture metrics:\n" ++ (session.run feed).2.1.counters.exposition)) :=
        Site.adds_note _ _ (.recorder (.line nofun))
      exact counted.trans (discards _ _)
    · exact discards _ _
  have fresh_left : nothingCaptured options ∉
      (close options (session.run feed).2.1).journal.toList := by
    intro given
    rcases ((configured.trans ran).trans closed).mem given with old | new
    · exact fresh old
    · exact notes_ne_nothingCaptured skips new options rfl
  rw [mem_report fresh_left]
  exact Session.files_eq_nil ends

-- A feed that tells some reports, on whatever the capture may make of the disk, has handed them over.
theorem runFeed_handed {steady : Disk → Prop} {reports : List Report}
    (stays : ∀ seen recorder disk,
      Recorder.Framed options.capture.plan site.disk seen recorder disk → steady disk)
    (tells : Tells steady reports feed)
    (finished : runFeed options feed .clear (presses.map Alarm.interrupt) site =
      (.finished summary, left)) :
    (session options .clear (presses.map Alarm.interrupt) site).begun.handed feed = reports := by
  rw [runFeed, Prod.mk.injEq] at finished
  have framed := Recorder.framed_new options.capture.plan true site.disk
  exact Session.handed_told stays framed rfl tells finished.1

end Feeds

def handed (options : Options) (input : String) (standard : LineFeed) (alarms : List Alarm)
    (site : Site) : List Report :=
  match openInput site input options.capture.header standard with
  | (.error _, _) => []
  | (.ok (.lines feed), opened) => (session options .clear alarms opened).begun.handed feed
  | (.ok (.file feed), opened) => (session options .clear alarms opened).begun.handed feed

def reportsOf (disk : Disk) (input : String) (standard : LineFeed) : List Report :=
  if isStandardInput (.ofString input) then standard.lines.filterMap reportOf?
  else reportsIn ((disk.file? (.ofString input)).getD [])

/-- The input is none of the files that a capture may write. -/
def Apart (plan : CapturePlan) (disk : Disk) (input : String) : Prop :=
  isStandardInput (.ofString input) = false → ∀ place node,
    disk.find (.ofString input) = .ok (place, node) →
      ∀ mote ∈ plan.motes, plan.place disk.here mote ≠ place

variable {options : Options} {input : String} {standard : LineFeed} {presses : List Nat}
  {disk : Disk} {left : Site} {summary : Summary}

theorem run_warns
    (finished : run options input standard .clear (presses.map Alarm.interrupt) ⟨disk, .empty⟩ =
      (.finished summary, left)) :
    nothingCaptured options ∈ (report options summary left).journal.toList ↔
      options.capture.plan.kept
        (handed options input standard (presses.map Alarm.interrupt) ⟨disk, .empty⟩) = [] := by
  have opens : nothingCaptured options ∉
      (openInput ⟨disk, .empty⟩ input options.capture.header standard).2.journal.toList := by
    unfold openInput
    dsimp only
    split <;> simp [Site.debug, Journal.debug, nothingCaptured]
  unfold run at finished
  unfold handed
  rcases opened : openInput ⟨disk, .empty⟩ input options.capture.header standard
    with ⟨e | feed | feed, site⟩
  · simp only [opened] at finished
    cases finished
  · simp only [opened] at opens finished ⊢
    exact runFeed_warns LineFeed.notesSkips opens finished
  · simp only [opened] at opens finished ⊢
    exact runFeed_warns FileFeed.notesSkips opens finished

-- A file that is none of the capture's own stays as it is.
theorem content_framed {plan : CapturePlan} {start : Disk} {place : Place} {bytes : Text.Bytes}
    {seen : List Report} {recorder : Recorder}
    (apart : ∀ mote ∈ plan.motes, plan.place start.here mote ≠ place)
    (isFile : start.node? place = some (.file bytes))
    (framed : Recorder.Framed plan start seen recorder disk) : FileFeed.content disk place = bytes := by
  have foreign : ¬plan.Owns start.here seen place := by
    rintro ⟨report, kept, same⟩
    have keeps := (List.mem_filter.mp kept).2
    simp only [CapturePlan.keeps, Bool.and_eq_true, List.contains_iff_mem] at keeps
    exact apart report.mote keeps.1 same
  have still := (framed.spared.others place foreign (.file bytes) (by simp)).mpr isFile
  rw [FileFeed.content, still]

theorem le_reportBound (bytes : Text.Bytes) (header : String) :
    bytes.length ≤ reportBound bytes header := by
  unfold reportBound
  omega

theorem run_handed (apart : Apart options.capture.plan disk input)
    (finished : run options input standard .clear (presses.map Alarm.interrupt) ⟨disk, .empty⟩ =
      (.finished summary, left)) :
    handed options input standard (presses.map Alarm.interrupt) ⟨disk, .empty⟩ =
      reportsOf disk input standard := by
  unfold run openInput at finished
  unfold handed openInput reportsOf
  cases stands : isStandardInput (.ofString input) with
  | true =>
      simp only [stands] at finished ⊢
      exact runFeed_handed (fun _ _ _ _ => trivial) (LineFeed.tells (fun _ => True) _) finished
  | false =>
      have outside := apart stands
      have bare : reportsIn [] = [] := by simp [reportsIn, Text.splitAll]
      simp only [stands, openFile, Bool.false_eq_true, if_false] at finished ⊢
      rcases found : disk.find (.ofString input) with e | ⟨place, _ | bytes | _⟩
      · simp only [found] at finished
        cases finished
      · simp only [found, Disk.file?, Option.getD_none, bare] at finished ⊢
        have tells := LineFeed.tells (fun _ => True) (.unreadable .isADirectory)
        exact runFeed_handed (fun _ _ _ _ => trivial) tells finished
      · simp only [found, Disk.file?] at finished ⊢
        have isFile := Disk.find_ok found
        have stays := fun seen recorder later =>
          @content_framed later options.capture.plan disk place bytes seen recorder
            (outside place (.file bytes) found) isFile
        exact runFeed_handed stays (FileFeed.tells_start (le_reportBound _ _)) finished
      · simp only [found, Disk.file?, Option.getD_none, bare] at finished ⊢
        have tells := LineFeed.tells (fun _ => True) (.ofBytes [])
        exact runFeed_handed (fun _ _ _ _ => trivial) tells finished

end Capture

namespace CommandLine

theorem capture_done {options : Options} {input : String} {standard : LineFeed} {alarms : List Alarm}
    {site : Site} (done : (capture options input standard alarms site).outcome = .done) :
    ∃ summary left, Capture.run options input standard .clear alarms site =
        (.finished summary, left) ∧
      (capture options input standard alarms site).site = report options summary left := by
  unfold capture at done ⊢
  rcases ran : Capture.run options input standard .clear alarms site with ⟨summary | e | _, left⟩
  · exact ⟨summary, left, rfl, rfl⟩
  · rw [ran] at done
    cases done
  · rw [ran] at done
    cases done

/-- When a command has captured its input up to the end, it warns that the marker was never printed just
if no report to keep came after the start. So the warning is always given when no report started the
capture; it is given as well when one did and none was kept. The reports are those of the input, as
long as this is no file of the capture itself. -/
theorem warns_iff_nothing_kept {line : CommandLine} {disk : Disk} {vars : List (String × String)}
    {standard : LineFeed} {presses : List Nat} {options : Options} {input : String}
    (checked : line.options disk vars = .ok options) (job : line.job = .capture input)
    (done : (line.run disk vars standard (presses.map Alarm.interrupt)).outcome = .done) :
    let plan := options.capture.plan
    let journal := (line.run disk vars standard (presses.map Alarm.interrupt)).site.journal.toList
    let reports := Capture.handed options input standard (presses.map Alarm.interrupt) ⟨disk, .empty⟩
    (nothingCaptured options ∈ journal ↔ plan.kept reports = []) ∧
      ((∀ report ∈ reports, plan.starts report = false) → nothingCaptured options ∈ journal) ∧
      (Capture.Apart plan disk input → reports = Capture.reportsOf disk input standard) := by
  intro plan journal reports
  have same : line.run disk vars standard (presses.map Alarm.interrupt) =
      capture options input standard (presses.map Alarm.interrupt) ⟨disk, .empty⟩ := by
    simp only [run, checked, job]
  rw [same] at done
  obtain ⟨summary, left, finished, site⟩ := capture_done done
  have warns : nothingCaptured options ∈ journal ↔ plan.kept reports = [] := by
    have whole := Capture.run_warns finished
    rwa [← site, ← same] at whole
  refine ⟨warns, ?_, fun apart => Capture.run_handed apart finished⟩
  intro unstarted
  exact warns.mpr (CapturePlan.kept_unstarted unstarted)

def captureStandard : CommandLine := ⟨.capture "-", none, .none⟩

def captureLines (lines : String) (presses : List Nat) : Result :=
  captureStandard.run .blank [] (.ofBytes (Text.encode lines)) (presses.map Alarm.interrupt)

-- The second report is kept, so there is a file and no warning.
theorem not_warned_of_row :
    let lines := "10\tID:1\tStarting to sense\n11\tID:1\t7\n"
    captureStandard.options .blank [] = .ok .standard ∧ (captureLines lines []).outcome = .done ∧
      nothingCaptured .standard ∉ (captureLines lines []).site.journal.toList ∧
      Capture.handed .standard "-" (.ofBytes (Text.encode lines)) [] ⟨.blank, .empty⟩ =
        [⟨10, 1, "Starting to sense"⟩, ⟨11, 1, "7"⟩] := by
  intro lines
  have checked : captureStandard.options .blank [] = .ok .standard := by decide +kernel
  have done : (captureLines lines []).outcome = .done := by decide +kernel
  obtain ⟨warns, -, same⟩ := warns_iff_nothing_kept checked rfl done
  have handed := same (fun file => absurd file (by decide +kernel))
  have told : Capture.reportsOf .blank "-" (.ofBytes (Text.encode lines)) =
      [⟨10, 1, "Starting to sense"⟩, ⟨11, 1, "7"⟩] := by decide +kernel
  refine ⟨checked, done, ?_, handed.trans told⟩
  rw [handed, told] at warns
  exact mt warns.mp (by decide +kernel)

-- The marker was printed, but the input ends with it, and the warning says that it was not.
theorem warned_though_printed :
    let lines := "10\tID:1\tStarting to sense\n"
    captureStandard.options .blank [] = .ok .standard ∧ (captureLines lines []).outcome = .done ∧
      (∃ report ∈ Capture.reportsOf .blank "-" (.ofBytes (Text.encode lines)),
        Options.standard.capture.plan.starts report = true) ∧
      nothingCaptured .standard ∈ (captureLines lines []).site.journal.toList := by
  decide +kernel

end CommandLine

end MoteCapture

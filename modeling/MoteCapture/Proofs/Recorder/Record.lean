import MoteCapture.Proofs.Recorder.Durability

/-!
What a recorder has made of the reports that it took, as long as none failed: which of them became rows,
how they were counted and which sheets are open for them. Nothing but the files of these rows, and folders
around them, has come to the disk. Whatever becomes of the reports, and whenever a capture is stopped or
given up, it touches no file but those of the motes that a report was to be kept for, and as long as there
is none it touches nothing.
-/

namespace MoteCapture

open Sheet (page)

namespace CapturePlan

def afterStart (plan : CapturePlan) (reports : List Report) : List Report :=
  (reports.dropWhile fun report => !plan.starts report).tail

def kept (plan : CapturePlan) (reports : List Report) : List Report :=
  (plan.afterStart reports).filter plan.keeps

def rowsOf (plan : CapturePlan) (reports : List Report) (mote : MoteId) : List String :=
  ((plan.kept reports).filter fun report => report.mote == mote).map plan.row

theorem afterStart_append (plan : CapturePlan) (seen : List Report) (report : Report) :
    plan.afterStart (seen ++ [report]) =
      plan.afterStart seen ++ if seen.any plan.starts then [report] else [] := by
  induction seen with
  | nil =>
      by_cases starts : plan.starts report = true
      · simp [afterStart, starts]
      · simp [afterStart, starts]
  | cons first rest ih =>
      by_cases starts : plan.starts first = true
      · simp [afterStart, starts]
      · simpa [afterStart, starts] using ih

theorem kept_append (plan : CapturePlan) (seen : List Report) (report : Report) :
    plan.kept (seen ++ [report]) =
      plan.kept seen ++ if seen.any plan.starts ∧ plan.keeps report then [report] else [] := by
  rw [kept, afterStart_append, List.filter_append, kept]
  congr 1
  by_cases started : seen.any plan.starts = true
  · by_cases keeps : plan.keeps report = true
    · simp [started, keeps]
    · simp [started, keeps]
  · simp [started]

theorem afterStart_unstarted {plan : CapturePlan} {reports : List Report}
    (unstarted : ∀ report ∈ reports, plan.starts report = false) :
    plan.afterStart reports = [] := by
  induction reports with
  | nil => rfl
  | cons report rest ih =>
      have early : plan.starts report = false := unstarted report List.mem_cons_self
      have others := ih fun other member => unstarted other (List.mem_cons_of_mem _ member)
      simpa [afterStart, early] using others

theorem kept_unstarted {plan : CapturePlan} {reports : List Report}
    (unstarted : ∀ report ∈ reports, plan.starts report = false) : plan.kept reports = [] := by
  rw [kept, afterStart_unstarted unstarted]
  rfl

theorem kept_length_le (plan : CapturePlan) (reports : List Report) :
    (plan.kept reports).length ≤ (plan.afterStart reports).length :=
  List.length_filter_le ..

end CapturePlan

namespace Recorder

structure Recorded (plan : CapturePlan) (start : Disk) (seen : List Report) (recorder : Recorder)
    (site : Site) : Prop where
  tidy : Tidy plan start.here recorder site
  phase : recorder.phase = if seen.any plan.starts then .capturing else .waiting
  tally : recorder.tally = ⟨seen.length, (plan.kept seen).length,
    (plan.afterStart seen).length - (plan.kept seen).length, recorder.opened.size⟩
  rows : recorder.rows = (plan.kept seen).map fun report => (report.mote, plan.row report)
  closed : recorder.closed = []
  opened : ∀ mote, (∃ sheet, recorder.opened.get? mote = some sheet) ↔
    ∃ report ∈ plan.kept seen, report.mote = mote
  leads : ∀ mote sheet, recorder.opened.get? mote = some sheet →
    site.disk.Leads (.ofString (plan.path mote)) (plan.place start.here mote)
  untouched : plan.kept seen = [] → site.disk = start
  changed : start.Changed
    (fun place => ∃ report ∈ plan.kept seen, place = plan.place start.here report.mote) site.disk

theorem recorded_new (plan : CapturePlan) (echoes : Bool) (site : Site) :
    Recorded plan site.disk [] (new plan echoes) site where
  tidy := tidy_new plan echoes site
  phase := rfl
  tally := rfl
  rows := rfl
  closed := rfl
  opened mote := by
    constructor
    · rintro ⟨sheet, found⟩
      cases found
    · rintro ⟨report, member, _⟩
      cases member
  leads mote sheet found := by cases found
  untouched _ := rfl
  changed := .refl _

variable {plan : CapturePlan} {start : Disk} {seen : List Report} {recorder later : Recorder}
  {site left : Site} {report : Report} {verdict : Verdict}

-- A report that becomes no row moves nothing but the phase and the counts.
theorem Recorded.passed (recorded : Recorded plan start seen recorder site)
    (tidy : Tidy plan start.here later left) (rows : later.rows = recorder.rows)
    (closed : later.closed = recorder.closed) (opened : later.opened = recorder.opened)
    (disk : left.disk = site.disk) (kept : plan.kept (seen ++ [report]) = plan.kept seen)
    (phase : later.phase = if (seen ++ [report]).any plan.starts then .capturing else .waiting)
    (tally : later.tally = ⟨(seen ++ [report]).length, recorder.tally.rows,
      (plan.afterStart (seen ++ [report])).length - recorder.tally.rows, recorder.tally.opened⟩) :
    Recorded plan start (seen ++ [report]) later left where
  tidy := tidy
  phase := phase
  tally := by rw [tally, recorded.tally, kept, opened]
  rows := by rw [rows, recorded.rows, kept]
  closed := closed.trans recorded.closed
  opened mote := by rw [opened, kept]; exact recorded.opened mote
  leads mote sheet found := by rw [disk]; exact recorded.leads mote sheet (opened ▸ found)
  untouched nothing := disk.trans (recorded.untouched (kept ▸ nothing))
  changed := by rw [kept, disk]; exact recorded.changed

-- The path of the sheet that a row was written to still leads to it.
theorem Recorded.leads_kept (recorded : Recorded plan start seen recorder site) {sheet next : Sheet}
    {isNew : Bool} {ready : Site} {disk : Disk}
    (running : ∀ reason, recorder.phase ≠ .stopped reason)
    (obtained : recorder.Obtained report.mote site sheet isNew ready)
    (written : sheet.writeRow ready.disk (recorder.plan.row report) = (.ok (), next, disk)) :
    disk.Leads (.ofString (plan.path report.mote)) (plan.place start.here report.mote) := by
  obtain ⟨bears, opening⟩ := recorded.tidy.obtained running obtained
  have writing := (bears.writeRow_ok written).2
  rcases obtained with ⟨_, found, _⟩ | ⟨_, _, made⟩
  · exact ((recorded.leads _ sheet found).changed opening).changed writing
  · rw [openSheet, recorded.tidy.follows] at made
    have leads := (Sheet.create_ok made).2.2.2.1
    rw [bears.place] at leads
    exact leads.changed writing

theorem Recorded.waits (recorded : Recorded plan start seen recorder site)
    (phase : recorder.phase = .waiting) : seen.any plan.starts = false := by
  have told := recorded.phase
  rw [phase] at told
  split at told
  · cases told
  · next no => simpa using no

theorem Recorded.started (recorded : Recorded plan start seen recorder site)
    (phase : recorder.phase = .capturing) : seen.any plan.starts = true := by
  have told := recorded.phase
  rw [phase] at told
  split at told
  · next yes => exact yes
  · cases told

-- A row changes no file but that of a mote with rows.
theorem Recorded.wrote (recorded : Recorded plan start seen recorder site) {disk : Disk}
    (kept : plan.kept (seen ++ [report]) = plan.kept seen ++ [report])
    (writing : site.disk.Changed (· = plan.place start.here report.mote) disk) :
    start.Changed (fun place => ∃ kept ∈ plan.kept (seen ++ [report]),
      place = plan.place start.here kept.mote) disk := by
  rw [kept]
  have before := recorded.changed.mono fun place (mine : ∃ kept ∈ plan.kept seen, _) =>
    mine.imp fun _ (held : _ ∧ place = _) =>
      And.intro (List.mem_append_left [report] held.1) held.2
  apply before.trans
  apply writing.mono
  intro place here
  exact ⟨report, List.mem_append_right _ (List.mem_singleton_self report), here⟩

-- A report that becomes a row is the last one that does so, and has the only sheet that is new.
theorem Recorded.tookRow (recorded : Recorded plan start seen recorder site)
    {sheet next : Sheet} {isNew : Bool} {ready : Site}
    (phase : recorder.phase = .capturing) (keeps : plan.keeps report = true)
    (obtained : recorder.Obtained report.mote site sheet isNew ready)
    (written : sheet.writeRow ready.disk (recorder.plan.row report) = (.ok (), next, left.disk))
    (tidy : Tidy plan start.here
      { recorder.countReport.countRow isNew with
        opened := recorder.opened.insert report.mote next
        newestRows := (report.mote, recorder.plan.row report) :: recorder.newestRows } left) :
    Recorded plan start (seen ++ [report])
      { recorder.countReport.countRow isNew with
        opened := recorder.opened.insert report.mote next
        newestRows := (report.mote, recorder.plan.row report) :: recorder.newestRows } left := by
  have follows := recorded.tidy.follows
  have started := recorded.started phase
  have running : ∀ reason, recorder.phase ≠ .stopped reason := by simp [phase]
  obtain ⟨bears, opening⟩ := recorded.tidy.obtained running obtained
  have writing := opening.trans (bears.writeRow_ok written).2
  have kept : plan.kept (seen ++ [report]) = plan.kept seen ++ [report] := by
    simp [plan.kept_append, started, keeps]
  have size := obtained.size recorded.tidy.ascending next
  constructor
  case tidy => exact tidy
  case phase => simp [started, countReport, countRow, phase]
  case tally =>
    simp [countReport, countRow, recorded.tally, kept, size, plan.afterStart_append, started]
  case rows =>
    have rows := recorded.rows
    simp only [Recorder.rows, List.reverse_cons] at rows ⊢
    rw [rows, kept, List.map_append, follows]
    rfl
  case closed => exact recorded.closed
  case opened =>
    intro mote
    rw [OpenSheets.get?_insert, kept]
    by_cases same : mote = report.mote
    · simp [same]
    · rw [if_neg same, recorded.opened mote]
      simp [Ne.symm same]
  case leads =>
    intro mote other found
    rw [OpenSheets.get?_insert] at found
    by_cases same : mote = report.mote
    · rw [same]
      exact recorded.leads_kept running obtained written
    · rw [if_neg same] at found
      exact (recorded.leads mote other found).changed writing
  case untouched => simp [kept]
  case changed => exact recorded.wrote kept writing

-- A report that breaks nothing is recorded like the ones before it.
theorem Recorded.took (recorded : Recorded plan start seen recorder site)
    (apart : plan.Apart start.here)
    (took : recorder.Took site report (.ok verdict) later left.disk) :
    Recorded plan start (seen ++ [report]) later left := by
  have tidy := recorded.tidy.took apart took
  have follows := recorded.tidy.follows
  have counts := recorded.tally
  have fewer := plan.kept_length_le seen
  generalize saved : left.disk = disk at took
  cases took with
  | early phase starts =>
      rw [follows] at starts
      have waits := recorded.waits phase
      apply recorded.passed tidy rfl rfl rfl saved
      · simp [plan.kept_append, waits]
      · simp [waits, starts, countReport, phase]
      · simp [plan.afterStart_append, waits, countReport, counts]
  | start phase starts =>
      rw [follows] at starts
      have waits := recorded.waits phase
      apply recorded.passed tidy rfl rfl rfl saved
      · simp [plan.kept_append, waits]
      · simp [starts]
      · simp [plan.afterStart_append, waits, countReport, counts]
  | skipped phase keeps =>
      rw [follows] at keeps
      have started := recorded.started phase
      apply recorded.passed tidy rfl rfl rfl saved
      · simp [plan.kept_append, keeps]
      · simp [started, countReport, countSkipped, phase]
      · simp [plan.afterStart_append, started, countReport, countSkipped, counts]
        omega
  | @kept sheet next isNew ready _ phase keeps obtained written =>
      rw [← saved] at written
      exact recorded.tookRow phase (follows ▸ keeps) obtained written tidy

theorem Recorded.met {met : Site} (recorded : Recorded plan start seen recorder site)
    (disk : met.disk = site.disk) : Recorded plan start seen recorder met :=
  { recorded with
    tidy := recorded.tidy.congr rfl rfl rfl id disk
    leads := disk ▸ recorded.leads
    untouched := disk ▸ recorded.untouched
    changed := disk ▸ recorded.changed }

/-! The end of a capture. -/

theorem Recorded.rowsOf_eq (recorded : Recorded plan start seen recorder site) (mote : MoteId) :
    recorder.rowsOf mote = plan.rowsOf seen mote := by
  simp only [rowsOf, CapturePlan.rowsOf, recorded.rows, List.filter_map, List.map_map]
  rfl

/-- A plan's capture of some reports: what it leaves on the disk that it began with, and which files
it lists. -/
structure Captured (plan : CapturePlan) (start : Disk) (reports : List Report)
    (files : List (MoteId × ClosedSheet)) (left : Disk) : Prop where
  unstarted : (∀ report ∈ reports, plan.starts report = false) → left = start ∧ files = []
  untouched : plan.kept reports = [] → left = start ∧ files = []
  written : ∀ mote, (∃ report ∈ plan.kept reports, report.mote = mote) →
    left.file? (.ofString (plan.path mote)) =
      some (page (plan.header :: plan.rowsOf reports mote))
  changed : start.Changed
    (fun place => ∃ report ∈ plan.kept reports, place = plan.place start.here report.mote) left
  ascending : files.Pairwise fun earlier later => earlier.1 < later.1
  listed : ∀ entry, entry ∈ files ↔
    ∃ mote, (∃ report ∈ plan.kept reports, report.mote = mote) ∧
      entry = (mote, ⟨plan.path mote, (plan.rowsOf reports mote).length⟩)

-- An open sheet belongs to a mote with rows, and says how many there are.
theorem Recorded.sheet (recorded : Recorded plan start seen recorder site)
    {entry : MoteId × Sheet} (member : entry ∈ recorder.opened.sheets) :
    recorder.opened.get? entry.1 = some entry.2 ∧
      (∃ report ∈ plan.kept seen, report.mote = entry.1) ∧
      entry.2.Bears plan start.here entry.1 (plan.rowsOf seen entry.1) site.disk := by
  have found : recorder.opened.get? entry.1 = some entry.2 :=
    (OpenSheets.get?_eq_some_iff recorded.tidy.ascending _ _).mpr member
  refine ⟨found, (recorded.opened entry.1).mp ⟨_, found⟩, ?_⟩
  rw [← recorded.rowsOf_eq]
  exact (recorded.tidy.sheets _ _ found).2

-- A sheet that is closed without an error leaves all its rows in its file.
theorem Recorded.written (recorded : Recorded plan start seen recorder site)
    (apart : plan.Apart start.here) {files : List (MoteId × ClosedSheet)}
    (well : (OpenSheets.closeEach site recorder.opened.sheets).1 = .ok files) {mote : MoteId}
    (some : ∃ report ∈ plan.kept seen, report.mote = mote) :
    (OpenSheets.closeEach site recorder.opened.sheets).2.disk.file? (.ofString (plan.path mote)) =
      .some (page (plan.header :: plan.rowsOf seen mote)) := by
  obtain ⟨sheet, found⟩ := (recorded.opened mote).mpr some
  have member := (OpenSheets.get?_eq_some_iff recorded.tidy.ascending mote sheet).mp found
  have file : sheet.OnFile site.disk := by
    rcases (recorded.tidy.sheets mote sheet found).2.kept with ⟨file, _⟩ | clogged
    · exact file
    · exact absurd well (OpenSheets.closeEach_clogged member clogged files)
  have node := recorded.tidy.closes apart found file
  rw [recorded.rowsOf_eq] at node
  have closing := OpenSheets.changed_closeEach site recorder.opened.sheets
  exact ((recorded.leads mote sheet found).changed closing).file?_eq node

-- Closing the sheets one by one, none of which fails, completes the capture.
theorem Recorded.closes (recorded : Recorded plan start seen recorder site)
    (apart : plan.Apart start.here) {files : List (MoteId × ClosedSheet)}
    (well : (OpenSheets.closeEach site recorder.opened.sheets).1 = .ok files) :
    Captured plan start seen files
      (OpenSheets.closeEach site recorder.opened.sheets).2.disk := by
  have listed := OpenSheets.closeEach_ok well
  have untouched : plan.kept seen = [] →
      (OpenSheets.closeEach site recorder.opened.sheets).2.disk = start ∧ files = [] := by
    intro nothing
    cases sheets : recorder.opened.sheets with
    | nil => exact ⟨recorded.untouched nothing, by rw [listed, sheets]; rfl⟩
    | cons entry rest =>
        obtain ⟨_, ⟨report, member, _⟩, _⟩ :=
          recorded.sheet (sheets ▸ List.mem_cons_self : entry ∈ recorder.opened.sheets)
        rw [nothing] at member
        cases member
  constructor
  · intro unstarted
    exact untouched (CapturePlan.kept_unstarted unstarted)
  · exact untouched
  · intro mote some
    exact recorded.written apart well some
  · refine recorded.changed.trans ?_
    refine (OpenSheets.changed_closeEach site recorder.opened.sheets).mono ?_
    rintro place ⟨entry, member, rfl⟩
    obtain ⟨_, ⟨report, kept, same⟩, bears⟩ := recorded.sheet member
    exact ⟨report, kept, by rw [bears.place, same]⟩
  · rw [listed, List.pairwise_map]
    exact recorded.tidy.ascending
  · intro file
    rw [listed, List.mem_map]
    constructor
    · rintro ⟨entry, member, rfl⟩
      obtain ⟨_, some, bears⟩ := recorded.sheet member
      exact ⟨entry.1, some, by rw [bears.path, bears.counted]⟩
    · rintro ⟨mote, some, rfl⟩
      obtain ⟨sheet, found⟩ := (recorded.opened mote).mpr some
      have member := (OpenSheets.get?_eq_some_iff recorded.tidy.ascending mote sheet).mp found
      obtain ⟨_, _, bears⟩ := recorded.sheet member
      exact ⟨(mote, sheet), member, by rw [bears.path, bears.counted]⟩

-- A stop that goes well completes the capture, and lists a file for each sheet that was opened.
theorem Recorded.stops {reason : StopReason} {final : Recorder} {last : Site}
    (recorded : Recorded plan start seen recorder site) (apart : plan.Apart start.here)
    (stop : recorder.stop site reason = (.ok (), final, last)) :
    Captured plan start seen final.closed last.disk ∧
      final.rows = (plan.kept seen).map (fun report => (report.mote, plan.row report)) ∧
      final.tally = ⟨seen.length, (plan.kept seen).length,
        (plan.afterStart seen).length - (plan.kept seen).length, final.closed.length⟩ := by
  have running : ∀ earlier, recorder.phase ≠ .stopped earlier := by
    intro earlier phase
    have told := recorded.phase
    rw [phase] at told
    split at told <;> cases told
  have informed : Recorded plan start seen recorder
      (site.info ("Shutting down capture: " ++ reason.text)) := recorded.met rfl
  rw [stop_first running] at stop
  rcases closing : OpenSheets.closeEach (site.info ("Shutting down capture: " ++ reason.text))
    recorder.opened.sheets with ⟨e | files, left⟩
  · rw [closing] at stop
    cases stop
  · have well : (OpenSheets.closeEach (site.info ("Shutting down capture: " ++ reason.text))
        recorder.opened.sheets).1 = .ok files := by rw [closing]
    have captured := informed.closes apart well
    have count := congrArg List.length (OpenSheets.closeEach_ok well)
    rw [List.length_map] at count
    rw [closing] at stop captured
    cases stop
    rw [recorded.closed, List.nil_append]
    refine ⟨captured, recorded.rows, ?_⟩
    rw [recorded.tally, count]
    rfl

end Recorder

namespace CapturePlan

variable {plan : CapturePlan} {here place : Place} {seen : List Report}

def Owns (plan : CapturePlan) (here : Place) (reports : List Report) (place : Place) : Prop :=
  ∃ report ∈ plan.kept reports, plan.place here report.mote = place

/-- What is left of a disk when a capture was handed some reports: all that is no folder is where it was
and as it was, except at the places of the files that the capture owns; and the whole disk is as it was if
the capture has no report to keep. -/
structure Spared (plan : CapturePlan) (start : Disk) (reports : List Report) (left : Disk) : Prop where
  others : ∀ place, ¬ plan.Owns start.here reports place → ∀ node, node ≠ .folder →
    (left.node? place = some node ↔ start.node? place = some node)
  untouched : plan.kept reports = [] → left = start

theorem mem_kept_append {report : Report} (kept : report ∈ plan.kept seen) (next : Report) :
    report ∈ plan.kept (seen ++ [next]) := by
  rw [kept_append]
  exact List.mem_append_left _ kept

theorem Owns.append (owns : plan.Owns here seen place) (next : Report) :
    plan.Owns here (seen ++ [next]) place := by
  obtain ⟨report, kept, same⟩ := owns
  exact ⟨report, mem_kept_append kept next, same⟩

theorem owns_last {report : Report} (started : seen.any plan.starts = true)
    (keeps : plan.keeps report = true) (here : Place) :
    plan.Owns here (seen ++ [report]) (plan.place here report.mote) := by
  refine ⟨report, ?_, rfl⟩
  rw [kept_append, if_pos ⟨started, keeps⟩]
  exact List.mem_append_right _ (List.mem_singleton_self report)

theorem Owns.kept_ne_nil (owns : plan.Owns here seen place) : plan.kept seen ≠ [] := by
  obtain ⟨report, kept, _⟩ := owns
  exact List.ne_nil_of_mem kept

end CapturePlan

namespace Recorder

open OpenSheets (Places)

structure Framed (plan : CapturePlan) (start : Disk) (seen : List Report) (recorder : Recorder)
    (disk : Disk) : Prop where
  follows : recorder.plan = plan
  started : recorder.phase = .capturing → seen.any plan.starts = true
  sheets : ∀ place, Places recorder.opened.sheets place → plan.Owns start.here seen place
  changed : start.Changed (plan.Owns start.here seen) disk
  untouched : plan.kept seen = [] → disk = start

variable {plan : CapturePlan} {start disk : Disk} {seen : List Report} {recorder later : Recorder}
  {site left : Site} {report : Report}

theorem framed_new (plan : CapturePlan) (echoes : Bool) (start : Disk) :
    Framed plan start [] (new plan echoes) start where
  follows := rfl
  started phase := by cases phase
  sheets place own := by
    obtain ⟨entry, member, _⟩ := own
    cases member
  changed := .refl _
  untouched _ := rfl

theorem Framed.spared (framed : Framed plan start seen recorder disk) :
    plan.Spared start seen disk where
  others place foreign node solid := by
    constructor
    · intro found
      rcases before : start.node? place with _ | old
      · rcases framed.changed.fresh place before with absent | folder | ⟨own, _⟩
        · rw [found] at absent
          cases absent
        · rw [found] at folder
          cases folder
          exact absurd rfl solid
        · exact absurd own foreign
      · rcases framed.changed.stays place old before with same | ⟨own, _⟩
        · rw [← same, found]
        · exact absurd own foreign
    · intro found
      rcases framed.changed.stays place node found with same | ⟨own, _⟩
      · exact same
      · exact absurd own foreign
  untouched := framed.untouched

-- A report that has nothing to do with sheets is one more, and that is all.
theorem Framed.passed (framed : Framed plan start seen recorder disk) (follows : later.plan = plan)
    (started : later.phase = .capturing → (seen ++ [report]).any plan.starts = true)
    (sheets : later.opened = recorder.opened) :
    Framed plan start (seen ++ [report]) later disk where
  follows := follows
  started := started
  sheets place own := (framed.sheets place (sheets ▸ own)).append report
  changed := framed.changed.mono fun _ owns => owns.append report
  untouched nothing := by
    apply framed.untouched
    rw [CapturePlan.kept_append, List.append_eq_nil_iff] at nothing
    exact nothing.1

-- A report that is to be kept makes the file of its mote one of the capture's own.
theorem Framed.row {newer : Disk} (framed : Framed plan start seen recorder disk)
    (follows : later.plan = plan) (phase : recorder.phase = .capturing)
    (keeps : plan.keeps report = true)
    (changed : disk.Changed
      (fun place => Places recorder.opened.sheets place ∨ place = plan.place disk.here report.mote)
      newer)
    (sheets : ∀ place, Places later.opened.sheets place →
      Places recorder.opened.sheets place ∨ place = plan.place disk.here report.mote) :
    Framed plan start (seen ++ [report]) later newer := by
  have started := framed.started phase
  have last := CapturePlan.owns_last started keeps start.here
  have owns : ∀ place,
      Places recorder.opened.sheets place ∨ place = plan.place disk.here report.mote →
        plan.Owns start.here (seen ++ [report]) place := by
    intro place wider
    rcases wider with old | same
    · exact (framed.sheets place old).append report
    · rw [same, framed.changed.here]
      exact last
  refine ⟨follows, ?_, fun place own => owns place (sheets place own), ?_, ?_⟩
  · intro _
    rw [List.any_append, started, Bool.true_or]
  · exact (framed.changed.mono fun _ owns => owns.append report).trans (changed.mono owns)
  · intro nothing
    exact absurd nothing last.kept_ne_nil

-- Getting hold of a sheet touches the file of its mote at most, and so does writing to it.
theorem Obtained.frame {sheet : Sheet} {isNew : Bool} {mote : MoteId} {ready : Site}
    (obtained : recorder.Obtained mote site sheet isNew ready) :
    (Places recorder.opened.sheets sheet.place ∨
        sheet.place = recorder.plan.place site.disk.here mote) ∧
      site.disk.Changed (· = sheet.place) ready.disk := by
  rcases obtained with ⟨_, found, rfl⟩ | ⟨_, _, made⟩
  · exact ⟨Or.inl (OpenSheets.places_of_get? found), .refl _⟩
  · have opening := Sheet.changed_create
      (site.info ("Opening " ++ recorder.plan.path mote ++ " for node " ++ toString mote.toNat))
      (recorder.plan.path mote) recorder.plan.header
    rw [openSheet] at made
    have place := (Sheet.create_ok made).2.1
    rw [made, ← place] at opening
    exact ⟨Or.inr place, opening⟩

theorem Framed.wrote {sheet next : Sheet} {isNew : Bool} {ready : Site} {newer : Disk}
    {outcome : Except IoError Unit} (framed : Framed plan start seen recorder site.disk)
    (follows : later.plan = plan) (phase : recorder.phase = .capturing)
    (keeps : recorder.plan.keeps report = true)
    (obtained : recorder.Obtained report.mote site sheet isNew ready)
    (written : sheet.writeRow ready.disk (recorder.plan.row report) = (outcome, next, newer))
    (put : later.opened = recorder.opened.insert report.mote next) :
    Framed plan start (seen ++ [report]) later newer := by
  obtain ⟨own, opening⟩ := obtained.frame
  have appended := sheet.writeRow_appended ready.disk (recorder.plan.row report)
  rw [written] at appended
  rw [framed.follows] at keeps own
  refine framed.row follows phase keeps ?_ ?_
  · exact (opening.trans appended.changed).mono fun place same => same ▸ own
  · intro place here
    rw [put] at here
    rcases OpenSheets.places_insert here with same | old
    · rw [← same, appended.place]
      exact own
    · exact Or.inl old

theorem Framed.took {outcome : Except CaptureError Verdict}
    (framed : Framed plan start seen recorder site.disk)
    (took : recorder.Took site report outcome later disk) :
    Framed plan start (seen ++ [report]) later disk := by
  have follows := took.plan_eq.trans framed.follows
  cases took with
  | refused phase =>
      refine framed.passed follows ?_ rfl
      intro capturing
      rw [capturing] at phase
      rcases phase with phase | phase
      · cases phase
      · cases phase
  | early phase _ =>
      refine framed.passed follows ?_ rfl
      intro capturing
      cases phase.symm.trans capturing
  | start _ starts =>
      refine framed.passed follows ?_ rfl
      intro _
      rw [framed.follows] at starts
      simp [starts]
  | skipped phase _ =>
      refine framed.passed follows ?_ rfl
      intro _
      simp [framed.started phase]
  | unopened phase _ keeps failed =>
      rw [framed.follows] at keeps
      have around := Sheet.changed_create_error failed
      refine framed.row follows phase keeps (around.mono fun _ => False.elim) ?_
      intro place own
      exact Or.inl own
  | broken phase keeps obtained failed =>
      exact framed.wrote follows phase keeps obtained failed rfl
  | kept phase keeps obtained written =>
      exact framed.wrote follows phase keeps obtained written rfl

-- Closing the sheets touches their files, and if there is none then nothing.
theorem Framed.closes (framed : Framed plan start seen recorder site.disk)
    (follows : later.plan = plan) (phase : later.phase ≠ .capturing)
    (bare : later.opened = .empty) :
    Framed plan start seen later (OpenSheets.closeEach site recorder.opened.sheets).2.disk where
  follows := follows
  started capturing := absurd capturing phase
  sheets place own := by
    rw [bare] at own
    obtain ⟨entry, member, _⟩ := own
    cases member
  changed := framed.changed.trans
    ((OpenSheets.changed_closeEach site recorder.opened.sheets).mono framed.sheets)
  untouched nothing := by
    cases sheets : recorder.opened.sheets with
    | nil => exact framed.untouched nothing
    | cons entry rest =>
        have own : Places recorder.opened.sheets entry.2.place :=
          ⟨entry, by rw [sheets]; exact List.mem_cons_self, rfl⟩
        exact absurd nothing (framed.sheets _ own).kept_ne_nil

theorem Framed.stop (framed : Framed plan start seen recorder site.disk) (reason : StopReason) :
    Framed plan start seen (recorder.stop site reason).2.1 (recorder.stop site reason).2.2.disk := by
  rcases recorder.stopped_or_running with ⟨earlier, phase⟩ | running
  · rw [stop_again phase]
    exact framed
  · obtain ⟨closed, left⟩ := stop_leaves running site reason
    rw [left, stop_disk running]
    exact framed.closes framed.follows nofun rfl

theorem Framed.discard (framed : Framed plan start seen recorder site.disk) :
    plan.Spared start seen (recorder.discard site).disk := by
  rw [discard_disk]
  have given : Framed plan start seen { recorder with phase := .waiting, opened := .empty }
      (OpenSheets.closeEach site recorder.opened.sheets).2.disk :=
    framed.closes framed.follows nofun rfl
  exact given.spared

def handed (log : List (Call × Answer)) : List Report :=
  log.filterMap fun entry =>
    match entry.1 with
    | .take report => some report
    | _ => none

theorem Framed.answer (framed : Framed plan start seen recorder site.disk) (call : Call) :
    Framed plan start (seen ++ handed [(call, (recorder.answer site call).1)])
      (recorder.answer site call).2.1 (recorder.answer site call).2.2.disk := by
  cases call with
  | take report => exact framed.took (recorder.take_took site report)
  | stop reason =>
      rw [show handed _ = [] from rfl, List.append_nil]
      exact framed.stop reason
  | pause flag =>
      rw [show handed _ = [] from rfl, List.append_nil]
      rcases raised : flag.reason with _ | reason
      · rw [Recorder.answer, pause_clear raised]
        exact framed
      · rw [Recorder.answer, pause_raised raised]
        exact framed.stop reason

theorem Runs.framed {final : Recorder} {last : Site} {log : List (Call × Answer)}
    (run : Runs (fun site met => met.disk = site.disk) recorder site log final last)
    (framed : Framed plan start seen recorder site.disk) :
    Framed plan start (seen ++ handed log) final last.disk := by
  induction run generalizing seen with
  | done => rwa [show handed [] = [] from rfl, List.append_nil]
  | @call recorder _ site met _ log call meanwhile _ ih =>
      rw [← meanwhile] at framed
      have next := ih (framed.answer call)
      rwa [List.append_assoc, handed, handed, ← List.filterMap_append] at next

end Recorder

end MoteCapture

import MoteCapture.Feed.Script
import MoteCapture.Proofs.Recorder.Books
import MoteCapture.Proofs.Session.Course

/-!
The counters of a session beside the counts of its recorder. A report is counted by the recorder when it
comes, and by the session once the recorder is done with it; so a report that breaks a session over a file
is missing in the counters from then on, and nothing else ever is.

What a session answers for when it finishes, be it its first run or a later one: as long as no run was
stopped with a sheet that could not be flushed, every row is in a file that is listed. After such a run
the sheets are gone, and the session finishes all the same when it is run again.
-/

namespace MoteCapture

namespace Session

structure Shows (missed : Nat) (session : Session) : Prop where
  reports : session.counters.reports + .ofNat missed = .ofNat session.recorder.tally.reports
  rows : session.counters.rows = .ofNat session.recorder.tally.rows
  skipped : session.counters.skipped = .ofNat session.recorder.tally.skipped
  opened : session.counters.opened = .ofNat session.recorder.tally.opened

/-- A run that was broken over a file in the middle of a report, and goes on capturing if it is run
again. -/
def brokeOff (ended : Ending × Session) : Bool :=
  ended.1.overFile && ended.2.recorder.phase == .capturing

variable {missed : Nat} {session met after last : Session} {report : Report}

theorem Shows.congr (shows : session.Shows missed) (counters : met.counters = session.counters)
    (tally : met.recorder.tally = session.recorder.tally) : met.Shows missed := by
  constructor
  · rw [counters, tally]
    exact shows.reports
  · rw [counters, tally]
    exact shows.rows
  · rw [counters, tally]
    exact shows.skipped
  · rw [counters, tally]
    exact shows.opened

-- A report that both sides count leaves the difference as it is.
theorem Shows.counts (shows : session.Shows missed) :
    session.counters.reports + 1 + .ofNat missed =
      UInt64.ofNat (session.recorder.tally.reports + 1) := by
  rw [UInt64.ofNat_add, ← shows.reports, UInt64.add_assoc, UInt64.add_comm 1, ← UInt64.add_assoc]
  rfl

theorem countRow_old {before : Nat} (session : Session) (report : Report)
    (old : session.recorder.tally.opened = before) :
    session.countRow before report = session.count .rows :=
  if_neg (old ▸ Nat.lt_irrefl before)

theorem countRow_new {before : Nat} (session : Session) (report : Report)
    (new : session.recorder.tally.opened = before + 1) :
    session.countRow before report = ((session.count .rows).count .opened).mark "sink_opened"
      [.ofNat "node" report.mote.toNat, .ofText "path" (session.recorder.plan.path report.mote)] :=
  if_pos (new ▸ Nat.lt_succ_self before)

-- The counters keep up with the recorder.
theorem Shows.process (shows : session.Shows missed)
    (processed : session.process report = (.ok (), after)) : after.Shows missed := by
  obtain ⟨verdict, recorder, site, took, rfl⟩ := process_ok processed
  generalize site.disk = disk at took
  cases took with
  | early => exact ⟨shows.counts, shows.rows, shows.skipped, shows.opened⟩
  | start => exact ⟨shows.counts, shows.rows, shows.skipped, shows.opened⟩
  | skipped =>
      have more : session.counters.skipped + 1 = .ofNat (session.recorder.tally.skipped + 1) := by
        rw [shows.skipped, UInt64.ofNat_add]
        rfl
      exact ⟨shows.counts, shows.rows, more, shows.opened⟩
  | @kept sheet next isNew ready _ =>
      have more : session.counters.rows + 1 = .ofNat (session.recorder.tally.rows + 1) := by
        rw [shows.rows, UInt64.ofNat_add]
        rfl
      cases isNew with
      | false =>
          rw [countVerdict, countRow_old]
          · exact ⟨shows.counts, more, shows.skipped, shows.opened⟩
          · rfl
      | true =>
          have first : session.counters.opened + 1 = .ofNat (session.recorder.tally.opened + 1) := by
            rw [shows.opened, UInt64.ofNat_add]
            rfl
          rw [countVerdict, countRow_new]
          · exact ⟨shows.counts, more, shows.skipped, first⟩
          · rfl

theorem brokeOff_stopped {reason : StopReason} (phase : last.recorder.phase = .stopped reason)
    (ending : Ending) : brokeOff (ending, last) = false := by
  simp [brokeOff, phase]

theorem Shows.stops {reason : StopReason} (shows : session.Shows missed)
    (raised : session.flag.reason = some reason) :
    session.stopNow.2.Shows missed ∧ brokeOff session.stopNow = false := by
  obtain ⟨held, counters, _⟩ := stopNow_left raised
  obtain ⟨_, tally, _⟩ := session.recorder.stop_frame session.site reason
  obtain ⟨first, phase⟩ := session.recorder.stop_stops session.site reason
  rw [← held] at tally phase
  exact ⟨shows.congr counters tally, brokeOff_stopped phase _⟩

-- A report that breaks a session over a file is counted by the recorder alone.
theorem Shows.breaks {e : CaptureError} (shows : session.Shows missed)
    (failed : session.process report = (.error e, last)) :
    last.Shows (missed + if brokeOff (.failed (.capture e), last) then 1 else 0) := by
  obtain ⟨took, counters⟩ := process_error failed
  rcases took.error_cases with ⟨reason, rfl, same, _⟩ | ⟨cause, rfl, phase, left⟩
  · exact shows.congr counters (congrArg Recorder.tally same)
  · have still : last.recorder.phase = .capturing := by
      rw [left]
      exact phase
    have broke : brokeOff (.failed (.capture (.io cause)), last) = true := by
      simp [brokeOff, still, Ending.overFile]
    have tally : last.recorder.tally = session.recorder.countReport.tally := by rw [left]
    rw [if_pos broke]
    constructor
    · rw [counters, tally, UInt64.ofNat_add, ← UInt64.add_assoc, shows.reports]
      exact (UInt64.ofNat_add ..).symm
    · rw [counters, tally]
      exact shows.rows
    · rw [counters, tally]
      exact shows.skipped
    · rw [counters, tally]
      exact shows.opened

theorem Course.shows {reports : List Report} {ending : Ending}
    (course : session.Course reports ending last) (shows : session.Shows missed) :
    last.Shows (missed + if brokeOff (ending, last) then 1 else 0) := by
  induction course generalizing missed with
  | waits waited => exact shows.congr waited.counters (congrArg Recorder.tally waited.recorder)
  | fails waited => exact shows.congr waited.counters (congrArg Recorder.tally waited.recorder)
  | stops waited raised =>
      have met := shows.congr waited.counters (congrArg Recorder.tally waited.recorder)
      obtain ⟨left, none⟩ := met.stops raised
      rw [if_neg (by rw [none]; exact Bool.false_ne_true)]
      exact left
  | breaks waited failed =>
      exact (shows.congr waited.counters (congrArg Recorder.tally waited.recorder)).breaks failed
  | takes waited well _ ih =>
      exact ih ((shows.congr waited.counters (congrArg Recorder.tally waited.recorder)).process well)

section Runs

variable {σ : Type} [Feed σ] {plan : CapturePlan} {echoes : Bool} {flag : StopFlag}
  {alarms : List Alarm} {site : Site} {feed rest : σ} {log : List (Ending × Session)}

def Kept (session met : Session) : Prop :=
  met.recorder = session.recorder ∧ met.counters = session.counters

/-- After any number of runs, however they ended, the counters show what the recorder counted, save
that each run which was broken over a file in the middle of a report kept this one report from the
counter of reports. -/
theorem counters_show_tally
    (runs : Runs Kept (new plan echoes flag alarms site) feed log session rest) :
    session.Shows (log.countP brokeOff) := by
  apply runs.keeps (fun log session => session.Shows (log.countP brokeOff))
  · intro log session met same shows
    exact shows.congr same.2 (congrArg Recorder.tally same.1)
  · intro log session reports ending last course shows
    rw [List.countP_append, List.countP_singleton]
    exact course.shows shows
  · exact ⟨rfl, rfl, rfl, rfl⟩

end Runs

def blockedPlan : CapturePlan :=
  { CapturePlan.standard with output := { CapturePlan.standardOutput with pattern := "blk/x.csv" } }

def blocked : Session :=
  new blockedPlan true .clear [] ⟨Disk.blank.withFile (.ofString "blk") [], .empty⟩

def blockedFeed : ScriptFeed :=
  .ofList [⟨0, 1, CapturePlan.standardMarker⟩, ⟨5, 1, "7"⟩, ⟨6, 1, "8"⟩]

-- Two runs are broken by the two rows, and a third one comes to the end of the feed.
theorem two_reports_missing :
    let first := blocked.run blockedFeed
    let second := first.2.1.run first.2.2
    let third := second.2.1.run second.2.2
    third.2.1.Shows 2 ∧ third.2.1.recorder.tally = ⟨3, 0, 0, 0⟩ := by
  intro first second third
  have runs : Runs Kept blocked blockedFeed _ third.2.1 third.2.2 :=
    .run (.run (.run .none ⟨rfl, rfl⟩) ⟨rfl, rfl⟩) ⟨rfl, rfl⟩
  have shows := counters_show_tally runs
  have broken : List.countP brokeOff ((([] ++ [(first.1, first.2.1)]) ++ [(second.1, second.2.1)]) ++
      [(third.1, third.2.1)]) = 2 := by decide +kernel
  refine ⟨?_, by decide +kernel⟩
  rw [← broken]
  exact shows

-- So the counters and the counts are not always the same.
theorem broken_report_is_not_counted :
    let ended := blocked.run blockedFeed
    ended.1 = .failed (.capture (.io .alreadyExists)) ∧
      ended.2.1.recorder.tally.reports = 2 ∧ ended.2.1.counters.reports = 1 := by
  decide +kernel

end Session

/-! What a session answers for when it finishes. -/

namespace Session

def unflushed (ended : Ending × Session) : Bool :=
  match ended.2.recorder.phase with
  | .stopped _ => ended.1.overFile
  | _ => false

structure Accounts (plan : CapturePlan) (here : Place) (log : List (Ending × Session))
    (session : Session) : Prop where
  booked : session.recorder.Booked plan
  tidy : plan.Apart here → session.recorder.Tidy plan here session.site
  running : (∀ reason, session.recorder.phase ≠ .stopped reason) → log.any unflushed = false
  lost : log.any unflushed = true → session.recorder.closed = []
  listed : ∀ reason, session.recorder.phase = .stopped reason → log.any unflushed = false →
    session.recorder.Listed plan ∧
      (plan.Apart here → session.recorder.Filed plan here session.site.disk)

variable {plan : CapturePlan} {here : Place} {log : List (Ending × Session)}
  {session met last : Session} {reports : List Report} {ending : Ending}

theorem accounts_new (plan : CapturePlan) (echoes : Bool) (flag : StopFlag) (alarms : List Alarm)
    (site : Site) : Accounts plan site.disk.here [] (new plan echoes flag alarms site) where
  booked := Recorder.booked_new plan echoes
  tidy _ := Recorder.tidy_new plan echoes site
  running _ := rfl
  lost none := by cases none
  listed _ stopped := by cases stopped

def Unattended (plan : CapturePlan) (session met : Session) : Prop :=
  met.recorder = session.recorder ∧ Recorder.Undisturbed plan session.site met.site

theorem Accounts.waits (accounts : Accounts plan here log session)
    (left : Unattended plan session met) : Accounts plan here log met := by
  obtain ⟨same, quiet⟩ := left
  constructor
  · rw [same]
    exact accounts.booked
  · intro apart
    rw [same]
    exact (accounts.tidy apart).waits quiet
  · rw [same]
    exact accounts.running
  · rw [same]
    exact accounts.lost
  · rw [same]
    intro reason phase kept
    obtain ⟨listed, files⟩ := accounts.listed reason phase kept
    refine ⟨listed, fun apart => ?_⟩
    have stands := (accounts.tidy apart).stands
    have filed := files apart
    rw [← stands] at filed ⊢
    exact filed.waits quiet

theorem unflushed_running {ending : Ending}
    (running : ∀ reason, last.recorder.phase ≠ .stopped reason) :
    unflushed (ending, last) = false := by
  unfold unflushed
  split
  · next reason phase => exact absurd phase (running reason)
  · rfl

theorem unflushed_stopped {reason : StopReason} (phase : last.recorder.phase = .stopped reason)
    (ending : Ending) : unflushed (ending, last) = ending.overFile := by
  simp only [unflushed, phase]

-- A run after the stop adds nothing to what was lost or kept.
theorem Accounts.stopped {reason : StopReason} (accounts : Accounts plan here log session)
    (phase : session.recorder.phase = .stopped reason)
    (course : session.Course reports ending last) :
    Accounts plan here (log ++ [(ending, last)]) last := by
  obtain ⟨alike, none⟩ := course.stopped phase
  have still : last.recorder.phase = .stopped reason := by rw [alike.recorder, phase]
  have same : (log ++ [(ending, last)]).any unflushed = log.any unflushed := by
    rw [List.any_append, List.any_cons, unflushed_stopped still, none]
    simp
  have quiet : Unattended plan session last :=
    ⟨alike.recorder, by rw [Recorder.Undisturbed, alike.disk]; exact ⟨rfl, fun _ _ => rfl⟩⟩
  have left := accounts.waits quiet
  exact ⟨left.booked, left.tidy, same ▸ left.running, same ▸ left.lost, same ▸ left.listed⟩

-- A stop lists all sheets with all rows, or it fails and lists none.
theorem Accounts.stop {reason : StopReason} (kept : log.any unflushed = false)
    (running : ∀ earlier, met.recorder.phase ≠ .stopped earlier)
    (booked : met.recorder.Booked plan)
    (tidy : plan.Apart here → met.recorder.Tidy plan here met.site)
    (raised : met.flag.reason = some reason) :
    Accounts plan here (log ++ [met.stopNow]) met.stopNow.2 := by
  obtain ⟨held, _, disk⟩ := stopNow_left raised
  have ends := stopNow_ending raised
  obtain ⟨first, phase⟩ := met.recorder.stop_stops met.site reason
  have stays : (met.recorder.stop met.site reason).2.1.Booked plan := booked.stop reason
  have still : plan.Apart here → met.stopNow.2.recorder.Tidy plan here met.stopNow.2.site := by
    intro apart
    rw [held]
    exact ((tidy apart).stop reason).congr rfl rfl rfl id disk
  rw [← held] at phase stays
  have added : (log ++ [met.stopNow]).any unflushed = met.stopNow.1.overFile := by
    rw [List.any_append, kept, List.any_cons, unflushed_stopped phase]
    simp
  have halted : ¬ ∀ reason, met.stopNow.2.recorder.phase ≠ .stopped reason := fun goesOn =>
    goesOn first phase
  rcases stop : met.recorder.stop met.site reason with ⟨e | ⟨⟩, later, left⟩
  · -- The sheets are closed, but nothing is listed.
    obtain ⟨cause, rfl⟩ := Recorder.stop_error stop
    rw [stop] at held ends
    have broke : met.stopNow.1.overFile = true := by rw [ends]; rfl
    rw [broke] at added
    refine ⟨stays, still, fun goesOn => absurd goesOn halted, fun _ => ?_, fun _ _ none => ?_⟩
    · rw [held]
      exact booked.drops running stop
    · rw [added] at none
      cases none
  · rw [stop] at held ends disk
    have well : met.stopNow.1.overFile = false := by
      rw [ends]
      by_cases ended : reason = .endOfInput
      · simp [ended, Ending.overFile]
      · simp [ended, Ending.overFile]
    rw [well] at added
    refine ⟨stays, still, fun _ => added, fun lost => ?_, fun _ _ _ => ⟨?_, fun apart => ?_⟩⟩
    · rw [added] at lost
      cases lost
    · rw [held]
      exact booked.lists running stop
    · rw [held, disk]
      exact (tidy apart).files apart running stop

theorem Accounts.course (accounts : Accounts plan here log session)
    (course : session.Course reports ending last) :
    Accounts plan here (log ++ [(ending, last)]) last := by
  rcases session.recorder.stopped_or_running with ⟨reason, phase⟩ | running
  · exact accounts.stopped phase course
  have kept := accounts.running running
  rcases course.running
      (fun recorder site => recorder.Booked plan ∧ (plan.Apart here → recorder.Tidy plan here site))
      (fun recorder site met same inv =>
        ⟨inv.1, fun apart => (inv.2 apart).congr rfl rfl rfl id same⟩)
      (fun recorder site report outcome later left took inv =>
        ⟨inv.1.took took, fun apart => (inv.2 apart).took apart took⟩)
      running ⟨accounts.booked, accounts.tidy⟩ with
    ⟨still, ⟨booked, tidy⟩, _⟩ | ⟨met, reason, running, ⟨booked, tidy⟩, raised, same⟩
  · have none : (log ++ [(ending, last)]).any unflushed = false := by
      rw [List.any_append, kept, List.any_cons, unflushed_running still]
      rfl
    refine ⟨booked, tidy, fun _ => none, fun lost => ?_, fun reason phase => ?_⟩
    · rw [none] at lost
      cases lost
    · exact absurd phase (still reason)
  · rw [same, show last = met.stopNow.2 from congrArg Prod.snd same]
    exact Accounts.stop kept running booked tidy raised

section Runs

variable {σ : Type} [Feed σ]

/-- When a session finishes, after any number of runs that ended in whatever way, the rows it counted
are the rows it kept. If no run before was stopped with a sheet that could not be flushed, the listed
files add up to these rows, and the file of every row is listed and holds the header and all rows of
its mote. Else nothing is listed, however many rows there were. -/
theorem finished_run_accounts_for_rows (plan : CapturePlan) (echoes : Bool) (flag : StopFlag)
    (alarms : List Alarm) (site : Site) {feed rest : σ} {summary : Summary}
    (runs : Runs (Unattended plan) (new plan echoes flag alarms site) feed log session rest)
    (meanwhile : Unattended plan session met) :
    let ended := met.run rest
    let recorder := ended.2.1.recorder
    ended.1 = .finished summary →
      summary.tally.rows = recorder.rows.length ∧
      (log.any unflushed = false →
        (summary.files.map fun entry => entry.2.rows).sum = summary.tally.rows ∧
        ∀ row ∈ recorder.rows,
          (row.1, ⟨plan.path row.1, (recorder.rowsOf row.1).length⟩) ∈ summary.files ∧
          row.2 ∈ recorder.rowsOf row.1 ∧
          (plan.Apart site.disk.here →
            ended.2.1.site.disk.node? (plan.place site.disk.here row.1) =
              some (.file (Sheet.page (plan.header :: recorder.rowsOf row.1))))) ∧
      (log.any unflushed = true → summary.files = []) := by
  intro ended recorder finished
  have before : Accounts plan site.disk.here log session :=
    runs.keeps (Accounts plan site.disk.here) (fun _ _ _ left accounts => accounts.waits left)
      (fun _ _ _ _ _ course accounts => accounts.course course)
      (accounts_new plan echoes flag alarms site)
  obtain ⟨reports, course⟩ := run_course met rest
  have after := (before.waits meanwhile).course course
  replace course : met.Course reports (.finished summary) ended.2.1 := finished ▸ course
  obtain ⟨⟨reason, phase⟩, rfl⟩ := course.finished
  have same : (log ++ [(ended.1, ended.2.1)]).any unflushed = log.any unflushed := by
    rw [List.any_append, List.any_cons, unflushed_stopped phase, finished]
    simp [Ending.overFile]
  refine ⟨after.booked.counted, fun kept => ?_, fun lost => after.lost (same.trans lost)⟩
  obtain ⟨listed, files⟩ := after.listed reason phase (same.trans kept)
  refine ⟨listed.sum.trans after.booked.counted.symm, fun row member => ?_⟩
  have own := Recorder.mem_rowsOf member
  have filled := List.ne_nil_of_mem own
  obtain ⟨sheet, inside⟩ := listed.covers row.1 filled
  refine ⟨?_, own, fun apart => (files apart row.1 filled).2⟩
  rw [← (listed.entries row.1 sheet inside).2]
  exact inside

end Runs

def devicePlan : CapturePlan :=
  { CapturePlan.standard with output := { CapturePlan.standardOutput with pattern := "/dev/full" } }

def oneRow : ScriptFeed :=
  .ofList [⟨0, 1, CapturePlan.standardMarker⟩, ⟨5, 1, "7"⟩]

theorem one_row_on_file_and_device :
    let site : Site := ⟨.blank, .empty⟩
    let ended := (new .standard true .clear [] site).run oneRow
    let first := (new devicePlan true .clear [] site).run oneRow
    let again := first.2.1.run first.2.2
    ended.1 = .finished ⟨.endOfInput, ⟨2, 1, 0, 1⟩, [(1, ⟨"csv/log_1-5-duty-cycle.csv", 1⟩)]⟩ ∧
      ended.2.1.site.disk.node? (CapturePlan.standard.place site.disk.here 1) =
        some (.file (Sheet.page [CapturePlan.standardHeader, "5,7"])) ∧
      ∃ summary, again.1 = .finished summary ∧ summary.tally.rows = 1 ∧ summary.files = [] := by
  intro site ended first again
  have quiet (plan : CapturePlan) (session : Session) : Unattended plan session session :=
    ⟨rfl, .refl plan session.site⟩
  have finished : ended.1 =
      .finished ⟨.endOfInput, ⟨2, 1, 0, 1⟩, [(1, ⟨"csv/log_1-5-duty-cycle.csv", 1⟩)]⟩ := by
    decide +kernel
  have row : (1, "5,7") ∈ ended.2.1.recorder.rows := by decide +kernel
  have rows : ended.2.1.recorder.rowsOf 1 = ["5,7"] := by decide +kernel
  have apart : CapturePlan.standard.Apart site.disk.here := CapturePlan.apart_single rfl _
  have kept := (finished_run_accounts_for_rows .standard true .clear [] site (.none) (quiet _ _)
    finished).2.1 rfl
  have file := (kept.2 (1, "5,7") row).2.2 apart
  rw [rows] at file
  -- The device takes no row, and the second run does not know of it.
  have finished' : again.1 = .finished ⟨.endOfInput, ⟨2, 1, 0, 1⟩, []⟩ := by decide +kernel
  have lost := (finished_run_accounts_for_rows devicePlan true .clear [] site (.run .none (quiet _ _))
    (quiet _ _) finished').2.2 (by decide +kernel)
  exact ⟨finished, file, _, finished', rfl, lost⟩

-- So a session can finish without its rows.
theorem finished_without_rows :
    let first := (new devicePlan true .clear [] ⟨.blank, .empty⟩).run oneRow
    let again := first.2.1.run first.2.2
    first.1 = .failed (.capture (.io .storageFull)) ∧
      again.1 = .finished ⟨.endOfInput, ⟨2, 1, 0, 1⟩, []⟩ := by
  decide +kernel

end Session

end MoteCapture

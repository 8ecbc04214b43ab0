import MoteCapture.Proofs.Recorder.Calls
import MoteCapture.Session.Basic

/-!
One round of the loop of a session, for every feed: what the loop does on a flag that is raised, on a
delivery that comes at once or after a wait, on an alarm that comes first, and on a feed that stays
silent. From it follows what a session does with a row of reports, and how it ends. The flag is of no
concern to the reports, and the reason of a stop is of no concern to the sheets.
-/

namespace MoteCapture

theorem Clock.wait_zero (clock : Clock) : clock.wait 0 = (clock, none) := by
  unfold wait
  split <;> rfl

theorem Clock.earliest?_mem {alarms : List Alarm} {alarm : Alarm}
    (first : Clock.earliest? alarms = some alarm) : alarm ∈ alarms := by
  induction alarms generalizing alarm with
  | nil => cases first
  | cons head rest ih =>
      rw [earliest?] at first
      split at first
      · next other found =>
        split at first
        · cases first
          exact List.mem_cons_of_mem head (ih found)
        · cases first
          exact List.mem_cons_self
      · cases first
        exact List.mem_cons_self

-- Alarms are set before a wait, those that are left after it as well as the one that ended it.
theorem Clock.mem_wait {clock : Clock} {ms : Nat} {alarm : Alarm} :
    (alarm ∈ (clock.wait ms).1.alarms → alarm ∈ clock.alarms) ∧
      ((clock.wait ms).2 = some alarm → alarm ∈ clock.alarms) := by
  unfold wait
  split
  · next first found =>
    split
    · refine ⟨List.mem_of_mem_erase, ?_⟩
      intro ended
      cases ended
      exact earliest?_mem found
    · exact ⟨id, nofun⟩
  · exact ⟨id, nofun⟩

theorem Clock.mem_waitForAlarm {clock later : Clock} {alarm : Alarm}
    (rings : clock.waitForAlarm = some (later, alarm)) : alarm ∈ clock.alarms := by
  obtain ⟨first, found, same⟩ := Option.map_eq_some_iff.mp rings
  cases same
  exact earliest?_mem found

namespace Session

def begun (session : Session) : Session :=
  { session with
    site := session.site.info
      ("Waiting for '" ++ session.recorder.plan.marker ++ "' from node " ++
        toString session.recorder.plan.trigger.toNat) }

-- An alarm ends a session as its flag stands then, and nobody else's stop is lost.
theorem ring_stops (session : Session) (clock : Clock) (alarm : Alarm) :
    ∃ site, site.disk = session.site.disk ∧ session.ring clock alarm =
      stopNow { session with clock, site, flag := (session.flag.raise alarm.reason).2 } := by
  refine ⟨_, ?_, rfl⟩
  rfl

variable {σ : Type} [Feed σ] {session : Session} {feed rest : σ} {pull : Pull σ}

theorem loop_raised {reason : StopReason} (raised : session.flag.reason = some reason) (feed : σ) :
    session.loop feed = ((session.callOff reason).1, (session.callOff reason).2, feed) := by
  rw [loop]
  split
  · next other found =>
    rw [raised] at found
    cases found
    rfl
  · next clear => rw [raised] at clear; cases clear

def receive (session : Session) (rest : σ) : Delivery → Ending × Session × σ
  | .ended =>
      let ended := (session.raise .endOfInput).stopNow
      (ended.1, ended.2, rest)
  | .failed e => (.failed (.feed e), session, rest)
  | .report report =>
      match session.process report with
      | (.error e, broken) => (.failed (.capture e), broken, rest)
      | (.ok (), taken) =>
          match taken.pause with
          | (some ending, stopped) => (ending, stopped, rest)
          | (none, paused) => loop paused rest

theorem loop_comes {ms : Nat} {delivery : Delivery} (clear : session.flag.reason = none)
    (asked : Feed.pull session.site.disk feed = pull) (comes : pull.turn = .comes ms delivery rest) :
    session.loop feed =
      match (session.hear pull).clock.wait ms with
      | (clock, some alarm) =>
          let ended := (session.hear pull).ring clock alarm
          (ended.1, ended.2, feed)
      | (clock, none) => receive { session.hear pull with clock } rest delivery := by
  subst asked
  rw [loop]
  split
  · next reason raised => rw [clear] at raised; cases raised
  · split
    · next other found => rw [comes] at found; cases found
    · next ms delivery other found =>
      rw [comes] at found
      cases found
      cases delivery <;> rfl

theorem loop_never (clear : session.flag.reason = none)
    (asked : Feed.pull session.site.disk feed = pull) (silent : pull.turn = .never rest) :
    session.loop feed =
      match (session.hear pull).clock.waitForAlarm with
      | some (clock, alarm) =>
          let ended := (session.hear pull).ring clock alarm
          (ended.1, ended.2, rest)
      | none => (.waiting, session.hear pull, rest) := by
  subst asked
  rw [loop]
  split
  · next reason raised => rw [clear] at raised; cases raised
  · split
    · next other found =>
      rw [silent] at found
      cases found
      rfl
    · next ms delivery other found => rw [silent] at found; cases found

theorem loop_ended (clear : session.flag.reason = none)
    (asked : Feed.pull session.site.disk feed = pull) (comes : pull.turn = .comes 0 .ended rest) :
    session.loop feed =
      let ended := ((session.hear pull).raise .endOfInput).stopNow
      (ended.1, ended.2, rest) := by
  rw [loop_comes clear asked comes, Clock.wait_zero]
  rfl

theorem loop_report {report : Report} (clear : session.flag.reason = none)
    (asked : Feed.pull session.site.disk feed = pull)
    (comes : pull.turn = .comes 0 (.report report) rest) :
    session.loop feed =
      match (session.hear pull).process report with
      | (.error e, broken) => (.failed (.capture e), broken, rest)
      | (.ok (), taken) =>
          match taken.pause with
          | (some ending, stopped) => (ending, stopped, rest)
          | (none, paused) => loop paused rest := by
  rw [loop_comes clear asked comes, Clock.wait_zero]
  rfl

end Session

/-! Rows of reports. -/

namespace Session

def takeAll (session : Session) : List Report → Except CaptureError Unit × Session
  | [] => (.ok (), session)
  | report :: rest =>
      match session.process report with
      | (.ok (), taken) => taken.takeAll rest
      | failed => failed

def endOn (reason : StopReason) : Except CaptureError Unit × Session → Ending × Session
  | (.error e, broken) => (.failed (.capture e), broken)
  | (.ok (), taken) => (taken.raise reason).stopNow

/-- The sessions differ in their flags, their clocks and their journals, if at all. -/
structure Alike (session other : Session) : Prop where
  recorder : other.recorder = session.recorder
  counters : other.counters = session.counters
  disk : other.site.disk = session.site.disk

variable {session taken : Session} {report : Report} {reason : StopReason}

theorem Alike.refl (session : Session) : session.Alike session := ⟨rfl, rfl, rfl⟩

theorem Alike.trans {other third : Session} (first : session.Alike other)
    (second : other.Alike third) : session.Alike third where
  recorder := second.recorder.trans first.recorder
  counters := second.counters.trans first.counters
  disk := second.disk.trans first.disk

-- What became of a report shows in the counters and the journal, and nowhere else.
theorem countVerdict_eq (session : Session) (opened : Nat) (report : Report) (verdict : Verdict) :
    ∃ counters journal, session.countVerdict opened report verdict =
      { session with counters, site := { session.site with journal } } := by
  cases verdict with
  | kept =>
      simp only [countVerdict, countRow]
      split
      · exact ⟨_, _, rfl⟩
      · exact ⟨_, _, rfl⟩
  | early => exact ⟨_, _, rfl⟩
  | start => exact ⟨_, _, rfl⟩
  | skipped => exact ⟨_, _, rfl⟩

@[simp] theorem flag_countVerdict (session : Session) (opened : Nat) (report : Report)
    (verdict : Verdict) : (session.countVerdict opened report verdict).flag = session.flag := by
  obtain ⟨counters, journal, same⟩ := session.countVerdict_eq opened report verdict
  rw [same]

@[simp] theorem clock_countVerdict (session : Session) (opened : Nat) (report : Report)
    (verdict : Verdict) : (session.countVerdict opened report verdict).clock = session.clock := by
  obtain ⟨counters, journal, same⟩ := session.countVerdict_eq opened report verdict
  rw [same]

@[simp] theorem recorder_countVerdict (session : Session) (opened : Nat) (report : Report)
    (verdict : Verdict) :
    (session.countVerdict opened report verdict).recorder = session.recorder := by
  obtain ⟨counters, journal, same⟩ := session.countVerdict_eq opened report verdict
  rw [same]

@[simp] theorem disk_countVerdict (session : Session) (opened : Nat) (report : Report)
    (verdict : Verdict) :
    (session.countVerdict opened report verdict).site.disk = session.site.disk := by
  obtain ⟨counters, journal, same⟩ := session.countVerdict_eq opened report verdict
  rw [same]

-- A report is processed by one call of the recorder.
theorem process_recorder (session : Session) (report : Report) :
    (session.process report).2.recorder = (session.recorder.take session.site report).2.1 ∧
      (session.process report).2.site.disk =
        (session.recorder.take session.site report).2.2.disk ∧
      (session.process report).2.flag = session.flag := by
  unfold process
  split
  · next e recorder site outcome => simp [outcome]
  · next verdict recorder site outcome => simp [outcome, count]

theorem process_clock (session : Session) (report : Report) :
    (session.process report).2.clock = session.clock := by
  unfold process
  split
  · rfl
  · next verdict recorder site outcome => simp [count]

theorem countVerdict_apart (session : Session) (flag : StopFlag) (clock : Clock) (opened : Nat)
    (report : Report) (verdict : Verdict) :
    ({ session with flag, clock } : Session).countVerdict opened report verdict =
      { session.countVerdict opened report verdict with flag, clock } := by
  cases verdict with
  | kept =>
      by_cases fresh : opened < session.recorder.tally.opened
      · simp [countVerdict, countRow, count, mark, fresh]
      · simp [countVerdict, countRow, count, fresh]
  | early => rfl
  | start => rfl
  | skipped => rfl

-- Neither a flag that is raised meanwhile nor the time shows in what becomes of a report.
theorem process_apart (session : Session) (flag : StopFlag) (clock : Clock) (report : Report) :
    ({ session with flag, clock } : Session).process report =
      ((session.process report).1, { (session.process report).2 with flag, clock }) := by
  simp only [process]
  rcases session.recorder.take session.site report with ⟨e | verdict, recorder, site⟩
  · rfl
  · have counted := countVerdict_apart (({ session with recorder, site } : Session).count .reports)
      flag clock session.recorder.tally.opened report verdict
    exact congrArg (Prod.mk _) counted

theorem process_raise (session : Session) (flag : StopFlag) (report : Report) :
    ({ session with flag } : Session).process report =
      ((session.process report).1, { (session.process report).2 with flag }) := by
  rw [process_apart session flag session.clock, ← process_clock session report]

theorem process_wait (session : Session) (clock : Clock) (report : Report) :
    ({ session with clock } : Session).process report =
      ((session.process report).1, { (session.process report).2 with clock }) := by
  rw [process_apart session session.flag clock, ← (process_recorder session report).2.2]

-- What a report leaves that is processed: what the recorder made of it, and the counters after it.
theorem process_ok (processed : session.process report = (.ok (), taken)) :
    ∃ verdict recorder site,
      session.recorder.Took session.site report (.ok verdict) recorder site.disk ∧
      taken = (({ session with recorder, site } : Session).count .reports).countVerdict
        session.recorder.tally.opened report verdict := by
  unfold process at processed
  split at processed
  · cases processed
  · next verdict recorder site outcome =>
    cases processed
    have took := session.recorder.take_took session.site report
    rw [outcome] at took
    exact ⟨verdict, recorder, site, took, rfl⟩

-- A report that breaks a session leaves the counters as they were.
theorem process_error {e : CaptureError} {broken : Session}
    (failed : session.process report = (.error e, broken)) :
    session.recorder.Took session.site report (.error e) broken.recorder broken.site.disk ∧
      broken.counters = session.counters := by
  have took := session.recorder.take_took session.site report
  unfold process at failed
  split at failed
  · next cause recorder site outcome =>
    cases failed
    rw [outcome] at took
    exact ⟨took, rfl⟩
  · cases failed

theorem process_stopped (phase : session.recorder.phase = .stopped reason) (report : Report) :
    session.process report = (.error (.stopped reason), session) := by
  simp only [process, Recorder.take_stopped phase]

theorem raise_clear (clear : session.flag.reason = none) (reason : StopReason) :
    session.raise reason = { session with flag := ⟨some reason⟩ } := by
  simp only [raise, StopFlag.raise, clear]

theorem pause_clear (clear : session.flag.reason = none) : session.pause = (none, session) := by
  simp only [pause, Recorder.pause_clear clear]

-- On a flag that stays clear a report leads to the next round, or breaks the session.
theorem loop_next {σ : Type} [Feed σ] {feed rest : σ} {pull : Pull σ}
    (clear : session.flag.reason = none) (asked : Feed.pull session.site.disk feed = pull)
    (comes : pull.turn = .comes 0 (.report report) rest) (silent : pull.raises = none) :
    session.loop feed =
      match (session.hear pull).process report with
      | (.error e, broken) => (.failed (.capture e), broken, rest)
      | (.ok (), taken) => taken.loop rest := by
  have heard : (session.hear pull).flag.reason = none := by
    simp only [hear, silent]
    exact clear
  rw [loop_report clear asked comes]
  have flag := (process_recorder (session.hear pull) report).2.2
  rcases outcome : (session.hear pull).process report with ⟨e | ⟨⟩, taken⟩
  · rfl
  · rw [outcome] at flag
    have still : taken.flag.reason = none := by rw [flag]; exact heard
    simp only [pause_clear still]

theorem takeAll_clear (clear : session.flag.reason = none) (reports : List Report) :
    (session.takeAll reports).2.flag.reason = none := by
  induction reports generalizing session with
  | nil => exact clear
  | cons report rest ih =>
      have flag := (process_recorder session report).2.2
      rw [takeAll]
      split
      · next after outcome =>
        rw [outcome] at flag
        exact ih (by rw [flag]; exact clear)
      · rw [flag]
        exact clear

theorem takeAll_append (session : Session) (first second : List Report) :
    session.takeAll (first ++ second) =
      match session.takeAll first with
      | (.ok (), taken) => taken.takeAll second
      | failed => failed := by
  induction first generalizing session with
  | nil => rfl
  | cons report rest ih =>
      rw [List.cons_append, takeAll, takeAll]
      rcases session.process report with ⟨e | ⟨⟩, taken⟩
      · rfl
      · exact ih taken

-- The last of some reports is taken after all others were.
theorem takeAll_concat {first : List Report}
    (well : session.takeAll (first ++ [report]) = (.ok (), taken)) :
    ∃ before, session.takeAll first = (.ok (), before) ∧ before.process report = (.ok (), taken) := by
  rw [takeAll_append] at well
  rcases outcome : session.takeAll first with ⟨e | ⟨⟩, before⟩
  · rw [outcome] at well
    cases well
  · rw [outcome] at well
    replace well : before.takeAll [report] = (.ok (), taken) := well
    refine ⟨before, rfl, ?_⟩
    rw [takeAll] at well
    rcases last : before.process report with ⟨e | ⟨⟩, after⟩
    · rw [last] at well
      cases well
    · rw [last] at well
      exact well

-- The time does not show in what becomes of the reports.
theorem takeAll_wait (session : Session) (clock : Clock) (reports : List Report) :
    ({ session with clock } : Session).takeAll reports =
      ((session.takeAll reports).1, { (session.takeAll reports).2 with clock }) := by
  induction reports generalizing session with
  | nil => rfl
  | cons report rest ih =>
      rw [takeAll, takeAll, process_wait]
      rcases session.process report with ⟨e | ⟨⟩, taken⟩
      · rfl
      · exact ih taken

-- Sessions that are alike stay so over every report.
theorem Alike.countVerdict {other : Session} (alike : session.Alike other) (opened : Nat) (report : Report)
    (verdict : Verdict) :
    (session.countVerdict opened report verdict).Alike (other.countVerdict opened report verdict) := by
  refine ⟨by simpa using alike.recorder, ?_, by simpa using alike.disk⟩
  cases verdict with
  | kept =>
      by_cases fresh : opened < session.recorder.tally.opened
      · simp [Session.countVerdict, countRow, count, mark, alike.recorder, alike.counters, fresh]
      · simp [Session.countVerdict, countRow, count, alike.recorder, alike.counters, fresh]
  | early => exact alike.counters
  | start => exact alike.counters
  | skipped => simp [Session.countVerdict, count, alike.counters]

theorem Alike.process {other : Session} (alike : session.Alike other) (report : Report) :
    (other.process report).1 = (session.process report).1 ∧
      (session.process report).2.Alike (other.process report).2 := by
  obtain ⟨outcome, recorders, disks⟩ := session.recorder.take_alike alike.disk.symm report
  simp only [Session.process, alike.recorder]
  rcases one : session.recorder.take session.site report with ⟨verdict, recorder, site⟩
  rcases two : session.recorder.take other.site report with ⟨verdict', recorder', site'⟩
  rw [one, two] at outcome recorders disks
  cases outcome
  cases recorders
  cases verdict with
  | error e => exact ⟨rfl, rfl, alike.counters, disks.symm⟩
  | ok verdict =>
      have counted : (({ session with recorder, site } : Session).count .reports).Alike
          (({ other with recorder, site := site' } : Session).count .reports) :=
        ⟨rfl, by simp only [count, alike.counters], disks.symm⟩
      exact ⟨rfl, counted.countVerdict _ report verdict⟩

theorem Alike.takeAll {other : Session} (alike : session.Alike other) (reports : List Report) :
    (other.takeAll reports).1 = (session.takeAll reports).1 ∧
      (session.takeAll reports).2.Alike (other.takeAll reports).2 := by
  induction reports generalizing session other with
  | nil => exact ⟨rfl, alike⟩
  | cons report rest ih =>
      obtain ⟨outcome, after⟩ := alike.process report
      simp only [Session.takeAll]
      rcases one : session.process report with ⟨e | ⟨⟩, taken⟩
      · rcases two : other.process report with ⟨e' | ⟨⟩, taken'⟩
        · rw [one, two] at outcome after
          exact ⟨outcome, after⟩
        · rw [one, two] at outcome
          cases outcome
      · rcases two : other.process report with ⟨e' | ⟨⟩, taken'⟩
        · rw [one, two] at outcome
          cases outcome
        · rw [one, two] at after
          exact ih after

-- Each report that is taken is counted once.
theorem takeAll_reports {reports : List Report} (well : session.takeAll reports = (.ok (), taken)) :
    taken.recorder.tally.reports = session.recorder.tally.reports + reports.length := by
  induction reports generalizing session with
  | nil =>
      cases well
      rfl
  | cons report rest ih =>
      rw [takeAll] at well
      rcases outcome : session.process report with ⟨e | ⟨⟩, after⟩
      · rw [outcome] at well
        cases well
      · rw [outcome] at well
        obtain ⟨verdict, recorder, site, took, rfl⟩ := process_ok outcome
        rw [ih well, recorder_countVerdict, List.length_cons, Nat.add_comm rest.length,
          ← Nat.add_assoc]
        exact congrArg (· + rest.length) took.reports

theorem takeAll_running (running : ∀ reason, session.recorder.phase ≠ .stopped reason)
    (reports : List Report) (reason : StopReason) :
    (session.takeAll reports).2.recorder.phase ≠ .stopped reason := by
  induction reports generalizing session with
  | nil => exact running reason
  | cons report rest ih =>
      have still : ∀ reason, (session.process report).2.recorder.phase ≠ .stopped reason := by
        rw [(process_recorder session report).1]
        exact (session.recorder.take_took session.site report).running running
      rw [takeAll]
      split
      · next after outcome =>
        rw [outcome] at still
        exact ih still
      · exact still reason

-- While the recorder runs, only a file can break a session.
theorem takeAll_error {e : CaptureError} {broken : Session} {reports : List Report}
    (orderly : session.recorder.Orderly)
    (running : ∀ reason, session.recorder.phase ≠ .stopped reason)
    (failed : session.takeAll reports = (.error e, broken)) : ∃ cause, e = .io cause := by
  induction reports generalizing session with
  | nil => cases failed
  | cons report rest ih =>
      have took := session.recorder.take_took session.site report
      rw [takeAll] at failed
      split at failed
      · next taken outcome =>
        have left := (process_recorder session report).1
        rw [outcome] at left
        apply ih _ _ failed
        · rw [left]
          exact took.orderly orderly
        · rw [left]
          exact took.running running
      · exact (process_error failed).1.error_io orderly running

-- What a raised flag does at the moment between two reports.
theorem pause_raised (raised : session.flag.reason = some reason) :
    session.pause = (some session.stopNow.1, session.stopNow.2) ∧
      session.stopNow =
        match session.recorder.stop session.site reason with
        | (.ok (), recorder, site) => ({ session with recorder, site } : Session).conclude reason
        | (.error e, recorder, site) =>
            (.failed (.capture e), { session with recorder, site }) := by
  simp only [stopNow, pause, Recorder.pause, raised]
  rcases stop : session.recorder.stop session.site reason with ⟨e | ⟨⟩, recorder, site⟩
  · obtain ⟨cause, rfl⟩ := Recorder.stop_error stop
    exact ⟨rfl, rfl⟩
  · exact ⟨rfl, rfl⟩

theorem conclude_eq (session : Session) (reason : StopReason) :
    (session.conclude reason).1 =
      (if reason = .endOfInput then .finished (session.summary reason)
        else .failed (.capture (.stopped reason))) ∧
      (session.conclude reason).2.recorder = session.recorder ∧
      (session.conclude reason).2.counters = session.counters ∧
      (session.conclude reason).2.site.disk = session.site.disk := by
  cases reason <;> exact ⟨rfl, rfl, rfl, rfl⟩

theorem flag_conclude (session : Session) (reason : StopReason) :
    (session.conclude reason).2.flag = session.flag := by
  cases reason <;> rfl

-- What a stop leaves of the sheets and the counts, whichever way it ends.
theorem stopNow_left (raised : session.flag.reason = some reason) :
    session.stopNow.2.recorder = (session.recorder.stop session.site reason).2.1 ∧
      session.stopNow.2.counters = session.counters ∧
      session.stopNow.2.site.disk = (session.recorder.stop session.site reason).2.2.disk := by
  rw [(pause_raised raised).2]
  rcases session.recorder.stop session.site reason with ⟨e | ⟨⟩, recorder, site⟩
  · exact ⟨rfl, rfl, rfl⟩
  · exact (conclude_eq _ reason).2

-- How a stop ends is up to the sheets, and then to its reason.
theorem stopNow_ending (raised : session.flag.reason = some reason) :
    session.stopNow.1 =
      match (session.recorder.stop session.site reason).1 with
      | .error e => .failed (.capture e)
      | .ok () =>
          if reason = .endOfInput then .finished (session.stopNow.2.summary reason)
          else .failed (.capture (.stopped reason)) := by
  rw [(pause_raised raised).2]
  rcases session.recorder.stop session.site reason with ⟨e | ⟨⟩, recorder, site⟩
  · rfl
  · obtain ⟨how, held, _⟩ := conclude_eq { session with recorder, site } reason
    simp only [how, summary, held]

def ending (session : Session) (reason : StopReason) : Ending :=
  if reason = .endOfInput then .finished (session.summary reason)
  else .failed (.capture (.stopped reason))

-- A second stop tells the same as the first one should, and does nothing.
theorem stopNow_again {again : StopReason} (phase : session.recorder.phase = .stopped reason)
    (raised : session.flag.reason = some again) :
    session.stopNow.1 = session.ending again ∧ session.Alike session.stopNow.2 := by
  obtain ⟨held, counters, disk⟩ := stopNow_left raised
  have ends := stopNow_ending raised
  rw [Recorder.stop_again phase] at held disk ends
  refine ⟨?_, held, counters, disk⟩
  rw [ends]
  simp only [Session.ending, summary, held]

theorem stopNow_wait (session : Session) (clock : Clock) :
    ({ session with clock } : Session).stopNow =
      (session.stopNow.1, { session.stopNow.2 with clock }) := by
  simp only [stopNow, pause]
  rcases session.recorder.pause session.site session.flag with ⟨e | ⟨⟩, recorder, site⟩
  · cases e with
    | stopped reason => cases reason <;> rfl
    | io e => rfl
    | line e => rfl
  · rfl

theorem stopNow_ok {session : Session} {reason : StopReason} {recorder : Recorder} {site : Site}
    (raised : session.flag.reason = some reason)
    (stop : session.recorder.stop session.site reason = (.ok (), recorder, site)) :
    session.stopNow = conclude { session with recorder, site } reason := by
  rw [(pause_raised raised).2, stop]

-- A session that finishes at the end of its feed has closed every sheet.
theorem stopNow_finished {summary : Summary} (clear : session.flag.reason = none)
    (finished : (session.raise .endOfInput).stopNow.1 = .finished summary) :
    ∃ recorder site, session.recorder.stop session.site .endOfInput = (.ok (), recorder, site) ∧
      (session.raise .endOfInput).stopNow = conclude
        { session with flag := ⟨some .endOfInput⟩, recorder, site } .endOfInput := by
  have raised : ({ session with flag := ⟨some .endOfInput⟩ } : Session).flag.reason =
      some .endOfInput := rfl
  rw [raise_clear clear, (pause_raised raised).2] at finished ⊢
  rcases stop : session.recorder.stop session.site .endOfInput with ⟨e | ⟨⟩, recorder, site⟩
  · simp only [stop] at finished
    cases finished
  · exact ⟨recorder, site, rfl, by simp only⟩

theorem endOn_finished {outcome : Except CaptureError Unit × Session} {summary : Summary}
    (clear : outcome.2.flag.reason = none)
    (finished : (endOn .endOfInput outcome).1 = .finished summary) :
    ∃ taken recorder site, outcome = (.ok (), taken) ∧
      taken.recorder.stop taken.site .endOfInput = (.ok (), recorder, site) ∧
      endOn .endOfInput outcome = conclude
        { taken with flag := ⟨some .endOfInput⟩, recorder, site } .endOfInput := by
  obtain ⟨e | ⟨⟩, taken⟩ := outcome
  · cases finished
  · obtain ⟨recorder, site, stop, ends⟩ := stopNow_finished clear finished
    exact ⟨taken, recorder, site, rfl, stop, ends⟩

-- Whatever does not break over a file comes to the end of its feed.
theorem endOn_sound {reports : List Report} (orderly : session.recorder.Orderly)
    (running : ∀ reason, session.recorder.phase ≠ .stopped reason)
    (clear : session.flag.reason = none)
    (sound : ∀ e, (endOn .endOfInput (session.takeAll reports)).1 ≠ .failed (.capture (.io e))) :
    ∃ taken summary left, session.takeAll reports = (.ok (), taken) ∧
      endOn .endOfInput (.ok (), taken) = (.finished summary, left) ∧
      summary.reason = .endOfInput := by
  have calm := takeAll_clear clear reports
  rcases outcome : session.takeAll reports with ⟨e | ⟨⟩, taken⟩
  · obtain ⟨cause, rfl⟩ := takeAll_error orderly running outcome
    rw [outcome] at sound
    exact absurd rfl (sound cause)
  rw [outcome] at sound calm
  have raised : ({ taken with flag := ⟨some .endOfInput⟩ } : Session).flag.reason =
      some .endOfInput := rfl
  rw [endOn, raise_clear calm, (pause_raised raised).2] at sound
  rcases stop : taken.recorder.stop taken.site .endOfInput with ⟨e | ⟨⟩, recorder, site⟩
  · obtain ⟨cause, rfl⟩ := Recorder.stop_error stop
    simp only [stop] at sound
    exact absurd rfl (sound cause)
  · have ends : endOn .endOfInput (.ok (), taken) = conclude
        { taken with flag := ⟨some .endOfInput⟩, recorder, site } .endOfInput := by
      rw [endOn, raise_clear calm]
      exact stopNow_ok raised stop
    exact ⟨taken, _, _, rfl, ends, rfl⟩

theorem ring_clear (clear : session.flag.reason = none) (clock : Clock) (alarm : Alarm) :
    ∃ met, session.Alike met ∧ met.flag.reason = some alarm.reason ∧
      session.ring clock alarm = met.stopNow := by
  obtain ⟨site, disk, stops⟩ := session.ring_stops clock alarm
  refine ⟨{ session with clock, site, flag := (session.flag.raise alarm.reason).2 },
    ⟨rfl, rfl, disk⟩, ?_, stops⟩
  simp only [StopFlag.raise, clear]

-- What the end of a feed leaves behind, any other stop leaves behind at the same point.
theorem stopNow_endOn {met left : Session} {summary : Summary}
    (running : ∀ earlier, taken.recorder.phase ≠ .stopped earlier)
    (clear : taken.flag.reason = none)
    (ends : endOn .endOfInput (.ok (), taken) = (.finished summary, left))
    (alike : taken.Alike met) (raised : met.flag.reason = some reason) :
    met.stopNow.1 = (if reason = .endOfInput then .finished summary
        else .failed (.capture (.stopped reason))) ∧
      met.stopNow.2.recorder = { left.recorder with phase := .stopped reason } ∧
      met.stopNow.2.counters = left.counters ∧
      met.stopNow.2.site.disk = left.site.disk ∧ met.stopNow.2.flag = met.flag := by
  obtain ⟨_, recorder, site, same, stop, concludes⟩ := endOn_finished clear (congrArg Prod.fst ends)
  cases same
  -- The same sheets are closed for one reason as for the other.
  obtain ⟨outcome, reworded, disks⟩ := Recorder.stop_alike running alike.disk reason .endOfInput
  rcases stop' : taken.recorder.stop met.site reason with ⟨outcome', recorder', site'⟩
  rw [stop, stop'] at outcome reworded disks
  cases outcome
  have stops := stopNow_ok raised (by rw [alike.recorder]; exact stop')
  obtain ⟨how, held, counted, saved⟩ := conclude_eq
    { met with recorder := recorder', site := site' } reason
  obtain ⟨how', held', counted', saved'⟩ := conclude_eq
    { taken with flag := ⟨some .endOfInput⟩, recorder, site } .endOfInput
  rw [← concludes, ends] at how' held' counted' saved'
  have recorders : recorder' = { recorder with phase := .stopped reason } := reworded
  rw [stops, how, held, counted, saved, held', counted', saved']
  refine ⟨?_, recorders, alike.counters, disks, flag_conclude _ reason⟩
  have same : Ending.finished summary = _ := how'
  rw [if_pos rfl] at same
  rw [same, recorders]
  by_cases ended : reason = .endOfInput
  · rw [if_pos ended, if_pos ended, ended]
    rfl
  · rw [if_neg ended, if_neg ended]

end Session

end MoteCapture

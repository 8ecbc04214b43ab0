import MoteCapture.Proofs.Feed.Lines
import MoteCapture.Proofs.Feed.Readings
import MoteCapture.Proofs.Options.Check
import MoteCapture.Proofs.Recorder.Record
import MoteCapture.Proofs.Report.Line
import MoteCapture.Proofs.Session.Accounts
import MoteCapture.Proofs.Session.Take

/-!
A capture from its input to its files. If a session on an input comes to its end, it leaves what the plan
makes of the reports of this input: the counts, the files and nothing else. What its feed notes on the way
shows in the journal only, and a session behind a buffer is the session on its lines, so all of this holds
however the lines come in.

A captured file can be read back. Cut at its line feeds it is the header and one line for each report that
was captured for its mote, as neither the header nor any message holds a line feed. In the layout with
times a line is cut at its first comma, and a time has none.
-/

namespace MoteCapture

namespace Session

def noting (session : Session) (journal : Journal) : Session :=
  { session with site := { session.site with journal } }

/-- A session takes reports, one after the other. Whatever is noted meanwhile, none fails. -/
inductive Takes : Session → List Report → Session → Prop where
  | done (session : Session) : Takes session [] session
  | report {session after final : Session} {report : Report} {rest : List Report}
      (journal : Journal) (well : (session.noting journal).process report = (.ok (), after))
      (later : Takes after rest final) : Takes session (report :: rest) final

theorem hear_noting {σ : Type} (session : Session) {pull : Pull σ} (silent : pull.raises = none) :
    session.hear pull = session.noting (session.site.journal.append pull.notes) := by
  simp only [hear, silent]
  rfl

end Session

open Session

-- A session that comes to the end of its lines has taken the report of each and closed its
-- sheets.
theorem LineFeed.loop_finished {session : Session} {feed : LineFeed} {summary : Summary}
    (clear : session.flag.reason = none) (ends : feed.tail = .ended)
    (finished : (session.loop feed).1 = .finished summary) :
    ∃ taken journal recorder site, Takes session (feed.lines.filterMap reportOf?) taken ∧
      taken.recorder.stop (taken.noting journal).site .endOfInput = (.ok (), recorder, site) ∧
      summary = ⟨.endOfInput, recorder.tally, recorder.closed⟩ ∧
      (session.loop feed).2.1.recorder = recorder ∧
      (session.loop feed).2.1.counters = taken.counters ∧
      (session.loop feed).2.1.site.disk = site.disk := by
  generalize found : feed.lines.filterMap reportOf? = reports
  have pulled : ∀ (session : Session) (feed : LineFeed), Feed.pull session.site.disk feed =
      seek feed.tail feed.lines feed.read feed.skipped .empty := fun _ _ => rfl
  -- By the reports that are left; the lines in between only add to the journal.
  induction reports generalizing session feed with
  | nil =>
      obtain ⟨silent, next⟩ := seek_reports feed.tail feed.lines feed.read feed.skipped .empty
      rw [found] at next
      obtain ⟨past, left, turn⟩ := next
      have told : atEnd feed.tail past left = .comes 0 .ended ⟨[], feed.tail, past, left⟩ := by
        rw [ends]
        rfl
      have looped := loop_ended clear (pulled session feed) (turn.trans told)
      rw [hear_noting session silent] at looped
      generalize session.site.journal.append _ = journal at looped
      have calm : (session.noting journal).flag.reason = none := clear
      rw [looped] at finished ⊢
      obtain ⟨recorder, site, stop, stops⟩ := stopNow_finished calm finished
      obtain ⟨how, held, counted, saved⟩ := conclude_eq
        { session.noting journal with flag := ⟨some .endOfInput⟩, recorder, site } .endOfInput
      simp only [stops] at finished ⊢
      rw [how, if_pos rfl] at finished
      cases finished
      exact ⟨session, journal, recorder, site, .done session, stop, rfl, held, counted, saved⟩
  | cons report rest ih =>
      obtain ⟨silent, next⟩ := seek_reports feed.tail feed.lines feed.read feed.skipped .empty
      rw [found] at next
      obtain ⟨others, turn, tail, later⟩ := next
      have looped := loop_next clear (pulled session feed) turn silent
      rw [hear_noting session silent] at looped
      generalize session.site.journal.append _ = journal at looped
      rw [looped] at finished ⊢
      have flag := (process_recorder (session.noting journal) report).2.2
      rcases outcome : (session.noting journal).process report with ⟨e | ⟨⟩, after⟩
      · rw [outcome] at finished
        cases finished
      · rw [outcome] at finished flag
        have calm : after.flag.reason = none := by
          rw [show after.flag = session.flag from flag]
          exact clear
        obtain ⟨taken, last, recorder, site, takes, rest⟩ := ih calm (tail.trans ends) finished later
        exact ⟨taken, last, recorder, site, .report journal outcome takes, rest⟩

namespace Session

theorem hear_map {σ τ : Type} (session : Session) (f : σ → τ) (pull : Pull σ) :
    session.hear (pull.map f) = session.hear pull := rfl

variable {σ τ : Type} [Feed σ] [Feed τ] {f : σ → τ}

-- By the size of the feed: a session goes on after a report only, which leaves less to read.
theorem loop_map (same : ∀ disk feed, (Feed.pull disk feed).map f = Feed.pull disk (f feed))
    (session : Session) (feed : σ) :
    session.loop (f feed) =
      ((session.loop feed).1, (session.loop feed).2.1, f (session.loop feed).2.2) := by
  induction size : Feed.size feed using Nat.strongRecOn generalizing session feed with
  | ind left ih =>
    cases raised : session.flag.reason with
    | some reason => rw [loop_raised raised, loop_raised raised]
    | none =>
      have asked := (same session.site.disk feed).symm
      cases turn : (Feed.pull session.site.disk feed).turn with
      | never rest =>
          have silent : ((Feed.pull session.site.disk feed).map f).turn = .never (f rest) := by
            rw [Pull.map, turn, Turn.map]
          rw [loop_never raised asked silent, loop_never raised rfl turn, hear_map]
          cases (session.hear _).clock.waitForAlarm <;> rfl
      | comes ms delivery rest =>
          have comes : ((Feed.pull session.site.disk feed).map f).turn =
              .comes ms delivery (f rest) := by
            rw [Pull.map, turn, Turn.map]
          rw [loop_comes raised asked comes, loop_comes raised rfl turn, hear_map]
          rcases (session.hear _).clock.wait ms with ⟨clock, _ | alarm⟩
          · cases delivery with
            | ended => rfl
            | failed e => rfl
            | report report =>
                have shorter : Feed.size rest < left := size ▸ Feed.size_lt turn
                simp only [receive]
                rcases process _ report with ⟨_ | ⟨⟩, taken⟩
                · rfl
                · dsimp only
                  rcases taken.pause with ⟨_ | ending, paused⟩
                  · exact ih _ shorter paused rest rfl
                  · rfl
          · rfl

/-- A session ends the same on every feed that gives the same, and leaves the feed at the same
place. -/
theorem run_map (same : ∀ disk feed, (Feed.pull disk feed).map f = Feed.pull disk (f feed))
    (session : Session) (feed : σ) :
    session.run (f feed) = ((session.run feed).1, (session.run feed).2.1, f (session.run feed).2.2) :=
  loop_map same session.begun feed

theorem run_buffered (session : Session) (feed : BufferedFeed) :
    session.run feed.lines =
      ((session.run feed).1, (session.run feed).2.1, (session.run feed).2.2.lines) :=
  run_map BufferedFeed.pull_lines session feed

end Session

def Tally.counters (tally : Tally) : Counters :=
  ⟨.ofNat tally.reports, .ofNat tally.rows, .ofNat tally.skipped, .ofNat tally.opened⟩

namespace Session

variable {plan : CapturePlan} {start : Disk} {seen reports : List Report}
  {session after final : Session} {report : Report}

theorem Shows.eq (shows : session.Shows 0) : session.counters = session.recorder.tally.counters := by
  have whole : session.counters.reports = .ofNat session.recorder.tally.reports := by
    rw [← shows.reports]
    exact (UInt64.add_zero _).symm
  rw [Tally.counters, ← whole, ← shows.rows, ← shows.skipped, ← shows.opened]

theorem process_recorded (processed : session.process report = (.ok (), after))
    (apart : plan.Apart start.here)
    (recorded : Recorder.Recorded plan start seen session.recorder session.site) :
    Recorder.Recorded plan start (seen ++ [report]) after.recorder after.site := by
  obtain ⟨verdict, recorder, site, took, rfl⟩ := process_ok processed
  rw [recorder_countVerdict]
  exact (recorded.took apart took).met (disk_countVerdict ..)

-- What was recorded of some reports and what is taken after them make one record.
theorem Takes.recorded (takes : session.Takes reports final) (apart : plan.Apart start.here)
    (recorded : Recorder.Recorded plan start seen session.recorder session.site)
    (shows : session.Shows 0) :
    Recorder.Recorded plan start (seen ++ reports) final.recorder final.site ∧ final.Shows 0 := by
  induction takes generalizing seen with
  | done => exact ⟨by rw [List.append_nil]; exact recorded, shows⟩
  | report journal well _ ih =>
      have noted : Recorder.Recorded plan start seen (noting _ journal).recorder
          (noting _ journal).site := recorded.met rfl
      have next := process_recorded well apart noted
      have met : (noting _ journal).Shows 0 := shows.congr rfl rfl
      obtain ⟨whole, shown⟩ := ih next (met.process well)
      rw [List.append_assoc] at whole
      exact ⟨whole, shown⟩

-- At the end of an input all its reports are recorded, and what is left to do is to stop.
theorem run_recorded {echoes : Bool} {alarms : List Alarm} {site : Site} {input : Text.Bytes}
    {summary : Summary} (apart : plan.Apart site.disk.here)
    (finished : ((new plan echoes .clear alarms site).run (LineFeed.ofBytes input)).1 =
      .finished summary) :
    let ended := (new plan echoes .clear alarms site).run (LineFeed.ofBytes input)
    ∃ (taken : Session) (met left : Site) (recorder : Recorder),
      Recorder.Recorded plan site.disk (reportsIn input) taken.recorder met ∧ taken.Shows 0 ∧
      taken.recorder.stop met .endOfInput = (.ok (), recorder, left) ∧
      summary = ⟨.endOfInput, recorder.tally, recorder.closed⟩ ∧
      ended.2.1.recorder = recorder ∧ ended.2.1.counters = taken.counters ∧
      ended.2.1.site.disk = left.disk := by
  intro ended
  obtain ⟨taken, journal, recorder, left, takes, stop, told, held, counted, saved⟩ :=
    LineFeed.loop_finished (rfl : (new plan echoes .clear alarms site).begun.flag.reason = none)
      rfl finished
  have lines : (LineFeed.ofBytes input).lines.filterMap reportOf? = reportsIn input :=
    filterMap_linesOf input
  rw [lines] at takes
  have begins : Recorder.Recorded plan site.disk [] (new plan echoes .clear alarms site).begun.recorder
      (new plan echoes .clear alarms site).begun.site := (Recorder.recorded_new plan echoes site).met rfl
  obtain ⟨recorded, shown⟩ := takes.recorded apart begins ⟨rfl, rfl, rfl, rfl⟩
  exact ⟨taken, (taken.noting journal).site, left, recorder, recorded.met rfl, shown, stop, told, held,
    counted, saved⟩

/-- A session on an input that comes to its end has made of it what the plan makes of the reports of
its lines, be they early, marked, foreign or kept, and has counted them so. -/
theorem finished_run_is_reference (plan : CapturePlan) (echoes : Bool) (alarms : List Alarm)
    (site : Site) (input : Text.Bytes) (apart : plan.Apart site.disk.here) {summary : Summary} :
    let reports := reportsIn input
    let ended := (new plan echoes .clear alarms site).run (LineFeed.ofBytes input)
    ended.1 = .finished summary →
      Recorder.Captured plan site.disk reports summary.files ended.2.1.site.disk ∧
      summary.reason = .endOfInput ∧
      summary.tally = ⟨reports.length, (plan.kept reports).length,
        (plan.afterStart reports).length - (plan.kept reports).length, summary.files.length⟩ ∧
      ended.2.1.counters = summary.tally.counters ∧
      ended.2.1.recorder.rows =
        (plan.kept reports).map fun report => (report.mote, plan.row report) := by
  intro reports ended finished
  obtain ⟨taken, met, left, recorder, recorded, shown, stop, rfl, held, counted, saved⟩ :=
    run_recorded apart finished
  obtain ⟨captured, rows, tally⟩ := recorded.stops apart stop
  have counts := (taken.recorder.stop_frame met .endOfInput).2.1
  rw [stop] at counts
  refine ⟨?_, rfl, tally, ?_, ?_⟩
  · rw [show ended.2.1.site.disk = left.disk from saved]
    exact captured
  · rw [show ended.2.1.counters = taken.counters from counted, shown.eq, ← counts]
  · rw [show ended.2.1.recorder = recorder from held]
    exact rows

theorem short_input_is_captured :
    let input := Text.encode "0\tID:1\tStarting to sense\n5\tID:1\t7\nnonsense\n"
    let ended := (new .standard true .clear [] ⟨.blank, .empty⟩).run (LineFeed.ofBytes input)
    ended.1 = .finished ⟨.endOfInput, ⟨2, 1, 0, 1⟩, [(1, ⟨"csv/log_1-5-duty-cycle.csv", 1⟩)]⟩ ∧
      ended.2.1.site.disk.file? (.ofString "csv/log_1-5-duty-cycle.csv") =
        some (Sheet.page [CapturePlan.standardHeader, "5,7"]) := by
  intro input ended
  have finished : ended.1 =
      .finished ⟨.endOfInput, ⟨2, 1, 0, 1⟩, [(1, ⟨"csv/log_1-5-duty-cycle.csv", 1⟩)]⟩ := by
    decide +kernel
  have apart : CapturePlan.standard.Apart (Site.mk .blank .empty).disk.here :=
    CapturePlan.apart_single rfl _
  have captured :=
    (finished_run_is_reference .standard true [] ⟨.blank, .empty⟩ input apart finished).1
  have kept : CapturePlan.standard.kept (reportsIn input) = [⟨5, 1, "7"⟩] := by decide +kernel
  have path : CapturePlan.standard.path 1 = "csv/log_1-5-duty-cycle.csv" := by decide +kernel
  have rows : CapturePlan.standard.rowsOf (reportsIn input) 1 = ["5,7"] := by decide +kernel
  have written := captured.written 1 ⟨_, by rw [kept]; exact List.mem_singleton_self _, rfl⟩
  rw [path, rows] at written
  exact ⟨finished, written⟩

end Session

open Text

theorem splitAll_page {lines : List String} (single : ∀ line ∈ lines, '\n' ∉ line.toList) :
    splitAll 10 (Sheet.page lines) = lines.map encode ++ [[]] := by
  induction lines with
  | nil => rfl
  | cons line rest ih =>
      have later := ih fun other member => single other (List.mem_cons_of_mem _ member)
      have absent : 10 ∉ encode line := fun member =>
        single line List.mem_cons_self (line_feed_mem_encode member)
      have next : Sheet.page (line :: rest) = encode line ++ 10 :: Sheet.page rest := by
        simp [Sheet.page]
      rw [splitAll_eq_splitOn] at later
      rw [next, splitAll_eq_splitOn, List.splitOn_append_cons_self_of_not_mem absent, later]
      rfl

def timedRow? (line : Bytes) : Option (UInt64 × String) :=
  match decode? line with
  | none => none
  | some text =>
      match cutAt? (· == ',') text.toList with
      | none => none
      | some halves =>
          (Numeral.readUInt64? halves.1).map fun time => (time, String.ofList halves.2)

theorem timedRow?_row (report : Report) :
    timedRow? (encode (RowLayout.timePrefixed.row report)) = some (report.time, report.message) := by
  have decoded : decode? (encode (RowLayout.timePrefixed.row report)) =
      some (RowLayout.timePrefixed.row report) := decode?_eq_some_iff.mpr rfl
  have whole : (RowLayout.timePrefixed.row report).toList =
      report.timeField ++ ',' :: report.message.toList := by
    simp [RowLayout.row, Report.timeField]
  have cut : cutAt? (· == ',') (report.timeField ++ ',' :: report.message.toList) =
      some (report.timeField, report.message.toList) := by
    apply cutAt?_append
    · intro c member
      by_cases comma : c = ','
      · subst comma
        exact absurd member (Numeral.not_mem_write rfl _)
      · simpa using comma
    · rfl
  have time : Numeral.readUInt64? report.timeField = some report.time :=
    Numeral.readUInt64?_write report.time
  simp only [timedRow?, decoded, whole, cut, time, Option.map_some, String.ofList_toList]

theorem message_single {input : Bytes} {report : Report} (member : report ∈ reportsIn input) :
    '\n' ∉ report.message.toList := by
  rw [← filterMap_linesOf] at member
  obtain ⟨line, listed, found⟩ := List.mem_filterMap.mp member
  exact (reportOf?_message ((linesOf_lines input).1 line listed) found).1

namespace CapturePlan

variable {plan : CapturePlan} {report : Report} {reports : List Report}

theorem mem_of_mem_kept (kept : report ∈ plan.kept reports) : report ∈ reports := by
  have after : report ∈ (reports.dropWhile fun report => !plan.starts report).tail :=
    (List.mem_filter.mp kept).1
  exact (List.dropWhile_sublist _).subset (List.mem_of_mem_tail after)

theorem row_single (plan : CapturePlan) (single : '\n' ∉ report.message.toList) :
    '\n' ∉ (plan.row report).toList := by
  rw [row]
  cases plan.layout with
  | timePrefixed =>
      have time : '\n' ∉ Numeral.write report.time.toNat := Numeral.not_mem_write rfl _
      simp [RowLayout.row, time, single]
  | messageOnly => exact single

theorem page_single (header : '\n' ∉ plan.header.toList) {own : List Report}
    (single : ∀ report ∈ own, '\n' ∉ report.message.toList) :
    ∀ line ∈ plan.header :: own.map plan.row, '\n' ∉ line.toList := by
  intro line listed
  rcases List.mem_cons.mp listed with rfl | listed
  · exact header
  · obtain ⟨report, member, rfl⟩ := List.mem_map.mp listed
    exact plan.row_single (single report member)

theorem timed_rows (layout : plan.layout = .timePrefixed) (own : List Report) :
    ((own.map plan.row).map encode).map timedRow? =
      own.map fun report => some (report.time, report.message) := by
  have read : ∀ report, timedRow? (encode (plan.row report)) =
      some (report.time, report.message) := by
    intro report
    rw [row, layout]
    exact timedRow?_row report
  simp [read]

theorem message_rows (layout : plan.layout = .messageOnly) (own : List Report) :
    (own.map plan.row).map encode = own.map fun report => encode report.message := by
  simp [row, layout, RowLayout.row]

end CapturePlan

/-- Options that the check accepts and that capture one mote lead to files that can be read back. -/
theorem Options.readable {options : Options} (fine : options.check = [])
    (only : ∀ mote ∈ options.capture.motes, ∀ other ∈ options.capture.motes, mote = other)
    (here : Place) :
    '\n' ∉ options.capture.plan.header.toList ∧ options.capture.plan.Apart here := by
  obtain ⟨fields, _⟩ := check_eq_nil_iff.mp fine
  have header : IsHeader options.capture.header := Classical.not_not.mp fun broken =>
    fieldComplaints_eq_nil_iff.mp fields _ _ (.header broken)
  refine ⟨header.2.2, ?_⟩
  intro mote listed other listed' _
  exact only mote (mem_ascending.mp listed) other (mem_ascending.mp listed')

namespace Session

-- However the bytes of an input come in, they are captured as its lines.
theorem run_captured {plan : CapturePlan} {echoes : Bool} {alarms : List Alarm} {site : Site}
    {shows : Nat → Nat} {input : Bytes} {summary : Summary} (apart : plan.Apart site.disk.here)
    (finished : ((new plan echoes .clear alarms site).run (BufferedFeed.ofBytes shows input)).1 =
      .finished summary) :
    Recorder.Captured plan site.disk (reportsIn input) summary.files
      ((new plan echoes .clear alarms site).run (BufferedFeed.ofBytes shows input)).2.1.site.disk := by
  have lined := run_buffered (new plan echoes .clear alarms site) (BufferedFeed.ofBytes shows input)
  have same : (BufferedFeed.ofBytes shows input).lines = LineFeed.ofBytes input := rfl
  rw [same] at lined
  have told : ((new plan echoes .clear alarms site).run (LineFeed.ofBytes input)).1 =
      .finished summary := by
    rw [lined]
    exact finished
  obtain ⟨_, _, _, _, recorded, _, stop, rfl, _, _, saved⟩ := run_recorded apart told
  rw [lined] at saved
  rw [saved]
  exact (recorded.stops apart stop).1

/-- What a session captured from an input to its end can be read back from its files. It is enough that
the check accepts the options and that these have one mote, or else that the header is without line feeds
and the files are apart. Cut at its line feeds, the file of a mote that reports were captured for is the
header, one line for each of these reports, in order, and an empty rest. A line tells the time and the
message of its report, or is the message, as the layout has it. -/
theorem captured_reports_are_read_back (plan : CapturePlan) (echoes : Bool) (alarms : List Alarm)
    (site : Site) (shows : Nat → Nat) (input : Bytes) {summary : Summary}
    (ready : (∃ options : Options, options.check = [] ∧
        (∀ mote ∈ options.capture.motes, ∀ other ∈ options.capture.motes, mote = other) ∧
        plan = options.capture.plan) ∨
      '\n' ∉ plan.header.toList ∧ plan.Apart site.disk.here) :
    let reports := reportsIn input
    let ended := (new plan echoes .clear alarms site).run (BufferedFeed.ofBytes shows input)
    ended.1 = .finished summary → ∀ mote,
      let own := (plan.kept reports).filter fun report => report.mote == mote
      own ≠ [] → ∃ bytes lines,
        ended.2.1.site.disk.file? (.ofString (plan.path mote)) = some bytes ∧
        splitAll 10 bytes = encode plan.header :: (lines ++ [[]]) ∧
        match plan.layout with
        | .timePrefixed =>
            lines.map timedRow? = own.map fun report => some (report.time, report.message)
        | .messageOnly => lines = own.map fun report => encode report.message := by
  intro reports ended finished mote own any
  obtain ⟨single, apart⟩ : '\n' ∉ plan.header.toList ∧ plan.Apart site.disk.here := by
    rcases ready with ⟨options, fine, only, rfl⟩ | ready
    · exact options.readable fine only site.disk.here
    · exact ready
  have captured := run_captured apart finished
  obtain ⟨report, member⟩ := List.exists_mem_of_ne_nil own any
  obtain ⟨kept, isOwn⟩ := List.mem_filter.mp member
  have written := captured.written mote ⟨report, kept, by simpa using isOwn⟩
  have messages : ∀ report ∈ own, '\n' ∉ report.message.toList := by
    intro report member
    exact message_single (CapturePlan.mem_of_mem_kept (List.mem_filter.mp member).1)
  refine ⟨_, (own.map plan.row).map encode, written, ?_, ?_⟩
  · exact splitAll_page (plan.page_single single messages)
  · cases layout : plan.layout with
    | timePrefixed => exact plan.timed_rows layout own
    | messageOnly => exact plan.message_rows layout own

theorem commas_are_read_back :
    let input := encode "0\tID:1\tStarting to sense\n5\tID:1\t7,8\r\n"
    let ended := (new Options.standard.capture.plan true .clear [] ⟨.blank, .empty⟩).run
      (BufferedFeed.ofBytes (fun _ => 3) input)
    ended.1 = .finished ⟨.endOfInput, ⟨2, 1, 0, 1⟩, [(1, ⟨"csv/log_1-5-duty-cycle.csv", 1⟩)]⟩ ∧
      ∃ bytes lines, ended.2.1.site.disk.file? (.ofString "csv/log_1-5-duty-cycle.csv") = some bytes ∧
        splitAll 10 bytes = encode CapturePlan.standardHeader :: (lines ++ [[]]) ∧
        lines.map timedRow? = [some (5, "7,8")] := by
  intro input ended
  have finished : ended.1 =
      .finished ⟨.endOfInput, ⟨2, 1, 0, 1⟩, [(1, ⟨"csv/log_1-5-duty-cycle.csv", 1⟩)]⟩ := by
    decide +kernel
  have only : ∀ mote ∈ Options.standard.capture.motes, ∀ other ∈ Options.standard.capture.motes,
      mote = other := by
    have motes : Options.standard.capture.motes = [1] := rfl
    simp only [motes, List.mem_singleton]
    rintro _ rfl _ rfl
    rfl
  have read := captured_reports_are_read_back Options.standard.capture.plan true [] ⟨.blank, .empty⟩
    (fun _ => 3) input (.inl ⟨.standard, by decide +kernel, only, rfl⟩) finished 1
  have own : ((Options.standard.capture.plan.kept (reportsIn input)).filter fun report =>
      report.mote == 1) = [⟨5, 1, "7,8"⟩] := by decide +kernel
  have path : Options.standard.capture.plan.path 1 = "csv/log_1-5-duty-cycle.csv" := by decide +kernel
  rw [own, path] at read
  obtain ⟨bytes, lines, file, cut, told⟩ := read (List.cons_ne_nil _ _)
  exact ⟨finished, bytes, lines, file, cut, told⟩

end Session

end MoteCapture

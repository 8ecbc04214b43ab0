import MoteCapture.Proofs.Feed.Lines
import MoteCapture.Proofs.Recorder.Record
import MoteCapture.Proofs.Session.Take

/-!
The course of a session, whatever feed it is run on: reports that are taken one after the other until one
of them breaks the session, or the feed fails, or the flag is found raised, or nothing comes any more. A
session can be run again on what is left of its feed, and each run takes such a course.

However often it is run, it touches no files but those of its capture, and none of these before there is a
report to keep. If it comes to the end of its feed it was handed all that the feed had to tell. What the
feed looks at on the disk has to stay meanwhile, so it must not be among the files of the capture.
-/

namespace MoteCapture

def Ending.overFile : Ending → Bool
  | .failed (.capture (.io _)) => true
  | _ => false

namespace Session

structure Waited (session met : Session) : Prop extends session.Alike met where
  flag : ∀ reason, session.flag.reason = some reason → met.flag.reason = some reason

inductive Course : Session → List Report → Ending → Session → Prop where
  | waits {session met : Session} (waited : session.Waited met) : Course session [] .waiting met
  | fails {session met : Session} {e : FeedError} (waited : session.Waited met) :
      Course session [] (.failed (.feed e)) met
  | stops {session met : Session} {reason : StopReason} (waited : session.Waited met)
      (raised : met.flag.reason = some reason) : Course session [] met.stopNow.1 met.stopNow.2
  | breaks {session met broken : Session} {report : Report} {e : CaptureError}
      (waited : session.Waited met) (failed : met.process report = (.error e, broken)) :
      Course session [report] (.failed (.capture e)) broken
  | takes {session met taken last : Session} {report : Report} {reports : List Report}
      {ending : Ending} (waited : session.Waited met)
      (well : met.process report = (.ok (), taken)) (rest : Course taken reports ending last) :
      Course session (report :: reports) ending last

variable {session met last : Session} {reports : List Report} {ending : Ending}

theorem Waited.refl (session : Session) : session.Waited session := ⟨.refl session, fun _ => id⟩

theorem Waited.trans (first : session.Waited met) (second : met.Waited last) :
    session.Waited last where
  toAlike := first.toAlike.trans second.toAlike
  flag reason raised := second.flag reason (first.flag reason raised)

theorem Waited.course (waited : session.Waited met) (course : met.Course reports ending last) :
    session.Course reports ending last := by
  cases course with
  | waits later => exact .waits (waited.trans later)
  | fails later => exact .fails (waited.trans later)
  | stops later raised => exact .stops (waited.trans later) raised
  | breaks later failed => exact .breaks (waited.trans later) failed
  | takes later well rest => exact .takes (waited.trans later) well rest

theorem waited_hear {σ : Type} (clear : session.flag.reason = none) (pull : Pull σ) (clock : Clock) :
    session.Waited { session.hear pull with clock } := by
  refine ⟨?_, fun reason raised => by rw [clear] at raised; cases raised⟩
  unfold hear
  split
  · exact ⟨rfl, rfl, rfl⟩
  · exact ⟨rfl, rfl, rfl⟩

theorem waited_raise (session : Session) (reason : StopReason) (clock : Clock) {site : Site}
    (same : site.disk = session.site.disk) :
    ∃ first, (session.flag.raise reason).2.reason = some first ∧
      session.Waited { session with clock, site, flag := (session.flag.raise reason).2 } := by
  unfold StopFlag.raise
  rcases before : session.flag.reason with _ | first
  · exact ⟨reason, rfl, ⟨rfl, rfl, same⟩, fun _ raised => by rw [before] at raised; cases raised⟩
  · exact ⟨first, before, ⟨rfl, rfl, same⟩, fun _ => id⟩

theorem course_ring (session : Session) (clock : Clock) (alarm : Alarm) :
    session.Course [] (session.ring clock alarm).1 (session.ring clock alarm).2 := by
  obtain ⟨site, same, stops⟩ := session.ring_stops clock alarm
  obtain ⟨first, raised, waited⟩ := session.waited_raise alarm.reason clock same
  rw [stops]
  exact .stops waited raised

-- On a recorder that is stopped no run changes anything, and no file is in its way.
theorem Course.stopped {reason : StopReason} (course : session.Course reports ending last)
    (phase : session.recorder.phase = .stopped reason) :
    session.Alike last ∧ ending.overFile = false := by
  cases course with
  | waits waited => exact ⟨waited.toAlike, rfl⟩
  | fails waited => exact ⟨waited.toAlike, rfl⟩
  | stops waited raised =>
      rw [← waited.recorder] at phase
      obtain ⟨ends, alike⟩ := stopNow_again phase raised
      refine ⟨waited.toAlike.trans alike, ?_⟩
      rw [ends, Session.ending]
      split
      · rfl
      · rfl
  | breaks waited failed =>
      rw [← waited.recorder] at phase
      rw [process_stopped phase] at failed
      cases failed
      exact ⟨waited.toAlike, rfl⟩
  | takes waited well _ =>
      rw [← waited.recorder] at phase
      rw [process_stopped phase] at well
      cases well

-- A session finishes with what its recorder shows after the stop.
theorem Course.finished {summary : Summary}
    (course : session.Course reports (.finished summary) last) :
    (∃ reason, last.recorder.phase = .stopped reason) ∧ summary = last.summary .endOfInput := by
  generalize same : Ending.finished summary = ending at course
  induction course with
  | waits _ => cases same
  | fails _ => cases same
  | breaks _ _ => cases same
  | takes _ _ _ ih => exact ih same
  | @stops _ met reason _ raised =>
      obtain ⟨first, phase⟩ := met.recorder.stop_stops met.site reason
      rw [← (stopNow_left raised).1] at phase
      refine ⟨⟨first, phase⟩, ?_⟩
      rw [stopNow_ending raised] at same
      split at same
      · cases same
      · by_cases ended : reason = .endOfInput
        · rw [if_pos ended, ended] at same
          exact Ending.finished.inj same
        · rw [if_neg ended] at same
          cases same

-- A session whose recorder runs leaves it running, or ends in a stop of a recorder that ran until
-- then. What the reports keep holds in either case up to there.
theorem Course.running (Inv : Recorder → Site → Prop)
    (waits : ∀ recorder site met, met.disk = site.disk → Inv recorder site → Inv recorder met)
    (takes : ∀ (recorder : Recorder) (site : Site) report outcome later (left : Site),
      recorder.Took site report outcome later left.disk → Inv recorder site → Inv later left)
    (course : session.Course reports ending last)
    (running : ∀ reason, session.recorder.phase ≠ .stopped reason)
    (start : Inv session.recorder session.site) :
    ((∀ reason, last.recorder.phase ≠ .stopped reason) ∧ Inv last.recorder last.site ∧
      ∀ summary, ending ≠ .finished summary) ∨
    ∃ (met : Session) (reason : StopReason), (∀ earlier, met.recorder.phase ≠ .stopped earlier) ∧
      Inv met.recorder met.site ∧ met.flag.reason = some reason ∧ (ending, last) = met.stopNow := by
  induction course with
  | waits waited =>
      left
      rw [waited.recorder]
      exact ⟨running, waits _ _ _ waited.disk start, nofun⟩
  | fails waited =>
      left
      rw [waited.recorder]
      exact ⟨running, waits _ _ _ waited.disk start, nofun⟩
  | @stops _ met reason waited raised =>
      right
      refine ⟨met, reason, ?_, ?_, raised, rfl⟩
      · rw [waited.recorder]
        exact running
      · rw [waited.recorder]
        exact waits _ _ _ waited.disk start
  | @breaks _ met broken report e waited failed =>
      left
      have took := (process_error failed).1
      rw [← waited.recorder] at running start
      refine ⟨took.running running, ?_, nofun⟩
      exact takes _ _ _ _ _ _ took (waits _ _ _ waited.disk start)
  | @takes session met taken last report reports ending waited well _ ih =>
      rw [← waited.recorder] at running start
      have took := met.recorder.take_took met.site report
      obtain ⟨held, disk, _⟩ := process_recorder met report
      rw [well] at held disk
      apply ih
      · rw [held]
        exact took.running running
      · rw [held]
        apply waits _ _ _ disk
        exact takes _ _ _ _ _ _ took (waits _ _ _ waited.disk start)

section Feeds

variable {σ : Type} [Feed σ]

/-- The reports of a run, in the order in which they are handed to the recorder. One that breaks the
session is the last of them. -/
def handed (session : Session) (feed : σ) : List Report :=
  match session.flag.reason with
  | some _ => []
  | none =>
      let heard := session.hear (Feed.pull session.site.disk feed)
      match _asked : (Feed.pull session.site.disk feed).turn with
      | .never _ => []
      | .comes ms delivery rest =>
          match heard.clock.wait ms with
          | (_, some _) => []
          | (clock, none) =>
              match delivery with
              | .ended => []
              | .failed _ => []
              | .report report =>
                  report ::
                    match ({ heard with clock } : Session).process report with
                    | (.error _, _) => []
                    | (.ok (), taken) =>
                        match taken.pause with
                        | (some _, _) => []
                        | (none, paused) => handed paused rest
termination_by Feed.size feed
decreasing_by exact Feed.size_lt _asked

def handedOn (session : Session) (rest : σ) : Delivery → List Report
  | .ended => []
  | .failed _ => []
  | .report report =>
      report ::
        match session.process report with
        | (.error _, _) => []
        | (.ok (), taken) =>
            match taken.pause with
            | (some _, _) => []
            | (none, paused) => handed paused rest

theorem handed_raised {reason : StopReason} (raised : session.flag.reason = some reason) (feed : σ) :
    session.handed feed = [] := by
  rw [handed]
  split
  · rfl
  · next clear => rw [raised] at clear; cases clear

variable {feed rest : σ}

theorem handed_never (silent : (Feed.pull session.site.disk feed).turn = .never rest) :
    session.handed feed = [] := by
  rw [handed]
  split
  · rfl
  · split
    · rfl
    · next other => rw [silent] at other; cases other

theorem handed_comes {ms : Nat} {delivery : Delivery} (clear : session.flag.reason = none)
    (comes : (Feed.pull session.site.disk feed).turn = .comes ms delivery rest) :
    session.handed feed =
      match (session.hear (Feed.pull session.site.disk feed)).clock.wait ms with
      | (_, some _) => []
      | (clock, none) => handedOn { session.hear (Feed.pull session.site.disk feed) with clock }
          rest delivery := by
  rw [handed]
  split
  · next reason raised => rw [clear] at raised; cases raised
  · split
    · next other => rw [comes] at other; cases other
    · next other =>
      rw [comes] at other
      cases other
      cases delivery <;> rfl

theorem receive_course (session : Session) (feed : σ) (delivery : Delivery)
    (later : ∀ taken : Session, ∀ report, delivery = .report report →
      taken.Course (taken.handed feed) (taken.loop feed).1 (taken.loop feed).2.1) :
    session.Course (session.handedOn feed delivery) (session.receive feed delivery).1
      (session.receive feed delivery).2.1 := by
  cases delivery with
  | ended =>
      obtain ⟨first, raised, waited⟩ := session.waited_raise .endOfInput session.clock rfl
      exact .stops waited raised
  | failed e => exact .fails (.refl session)
  | report report =>
      rcases outcome : session.process report with ⟨e | ⟨⟩, taken⟩
      · simp only [receive, handedOn, outcome]
        exact .breaks (.refl session) outcome
      · rcases flag : taken.flag.reason with _ | reason
        · simp only [receive, handedOn, outcome, pause_clear flag]
          exact .takes (.refl session) outcome (later taken report rfl)
        · simp only [receive, handedOn, outcome, (pause_raised flag).1]
          exact .takes (.refl session) outcome (.stops (.refl taken) flag)

-- However a feed goes about it, the loop takes a course; by the number of reports it may still give.
theorem loop_course (session : Session) (feed : σ) :
    session.Course (session.handed feed) (session.loop feed).1 (session.loop feed).2.1 := by
  induction size : Feed.size feed using Nat.strongRecOn generalizing session feed with
  | ind left ih =>
    rcases clear : session.flag.reason with _ | reason
    · rcases turn : (Feed.pull session.site.disk feed).turn with ⟨ms, delivery, rest⟩ | rest
      · rw [loop_comes clear rfl turn, handed_comes clear turn]
        rcases wait : (session.hear (Feed.pull session.site.disk feed)).clock.wait ms
          with ⟨clock, _ | alarm⟩
        · have later : ∀ taken report, delivery = .report report →
              Course taken (handed taken rest) (loop taken rest).1 (loop taken rest).2.1 := by
            rintro taken report rfl
            exact ih _ (size ▸ Feed.size_lt turn) taken rest rfl
          have course := receive_course
            { session.hear (Feed.pull session.site.disk feed) with clock } rest delivery later
          exact (waited_hear clear _ clock).course course
        · exact (waited_hear clear _ _).course (course_ring _ clock alarm)
      · rw [loop_never clear rfl turn, handed_never turn]
        rcases rings : (session.hear (Feed.pull session.site.disk feed)).clock.waitForAlarm
          with _ | ⟨clock, alarm⟩
        · exact .waits (waited_hear clear _ _)
        · exact (waited_hear clear _ _).course (course_ring _ clock alarm)
    · rw [loop_raised clear, handed_raised clear]
      exact .stops ⟨⟨rfl, rfl, rfl⟩, fun _ => id⟩ clear

theorem run_course (session : Session) (feed : σ) :
    ∃ reports, session.Course reports (session.run feed).1 (session.run feed).2.1 := by
  have begins : session.Waited session.begun := ⟨⟨rfl, rfl, rfl⟩, fun _ => id⟩
  exact ⟨_, begins.course (loop_course session.begun feed)⟩

/-- Runs of a session one after the other, each on what the last one left of the feed, with the
endings and the sessions they left. Before each run `between` tells what may have become of the
session since the last one. -/
inductive Runs (between : Session → Session → Prop) (start : Session) (feed : σ) :
    List (Ending × Session) → Session → σ → Prop where
  | none : Runs between start feed [] start feed
  | run {log : List (Ending × Session)} {session met : Session} {rest : σ}
      (earlier : Runs between start feed log session rest) (meanwhile : between session met) :
      Runs between start feed (log ++ [((met.run rest).1, (met.run rest).2.1)])
        (met.run rest).2.1 (met.run rest).2.2

-- What every course and every change between two runs keeps, with the endings so far in view.
theorem Runs.keeps {between : Session → Session → Prop} {start session : Session} {feed rest : σ}
    {log : List (Ending × Session)} (Inv : List (Ending × Session) → Session → Prop)
    (waits : ∀ log session met, between session met → Inv log session → Inv log met)
    (courses : ∀ log session reports ending last, Course session reports ending last →
      Inv log session → Inv (log ++ [(ending, last)]) last)
    (runs : Runs between start feed log session rest) (begins : Inv [] start) : Inv log session := by
  induction runs with
  | none => exact begins
  | @run log session met rest _ meanwhile ih =>
      obtain ⟨reports, course⟩ := run_course met rest
      exact courses log met reports _ _ course (waits log session met meanwhile ih)

end Feeds

end Session

/-! What a session leaves alone. -/

namespace Session

open Recorder (Framed)

variable {plan : CapturePlan} {start : Disk} {seen reports : List Report} {session last : Session}
  {ending : Ending}

-- Every way that a course can take is handed its reports and no others.
theorem Course.framed (course : session.Course reports ending last)
    (framed : Framed plan start seen session.recorder session.site.disk) :
    Framed plan start (seen ++ reports) last.recorder last.site.disk := by
  induction course generalizing seen with
  | waits waited =>
      rw [List.append_nil, waited.recorder, waited.disk]
      exact framed
  | fails waited =>
      rw [List.append_nil, waited.recorder, waited.disk]
      exact framed
  | stops waited raised =>
      rw [← waited.recorder, ← waited.disk] at framed
      obtain ⟨held, _, disk⟩ := stopNow_left raised
      rw [List.append_nil, held, disk]
      exact framed.stop _
  | breaks waited failed =>
      rw [← waited.recorder, ← waited.disk] at framed
      exact framed.took (process_error failed).1
  | @takes _ met taken _ report _ _ waited well _ ih =>
      rw [← waited.recorder, ← waited.disk] at framed
      obtain ⟨held, disk, _⟩ := process_recorder met report
      rw [well] at held disk
      have next := framed.took (met.recorder.take_took met.site report)
      rw [← held, ← disk] at next
      have whole := ih next
      rwa [List.append_assoc] at whole

/-- Runs of a session one after the other, each on what the last one left of the feed, with all reports
that were handed to the recorder. Between two runs neither the recorder nor the disk changes. -/
inductive Serves {σ : Type} [Feed σ] (start : Session) (feed : σ) : List Report → Session → σ → Prop where
  | none : Serves start feed [] start feed
  | run {reports : List Report} {session met : Session} {rest : σ}
      (earlier : Serves start feed reports session rest) (meanwhile : session.Alike met) :
      Serves start feed (reports ++ met.begun.handed rest) (met.run rest).2.1 (met.run rest).2.2

variable {σ : Type} [Feed σ] {feed rest : σ}

theorem Serves.framed {first : Session} (serves : Serves first feed reports session rest)
    (framed : Framed plan start [] first.recorder first.site.disk) :
    Framed plan start reports session.recorder session.site.disk := by
  induction serves with
  | none => exact framed
  | @run reports session met rest _ meanwhile ih =>
      rw [← meanwhile.recorder, ← meanwhile.disk] at ih
      have begun : Framed plan start reports met.begun.recorder met.begun.site.disk := ih
      exact (loop_course met.begun rest).framed begun

/-- A capture touches only its own files. Whatever a recorder is asked, and however often and on whatever
feed a session is run, however this ends and also if it is given up at any time: every file is as it was
and no other one comes into being, except the files of the motes that a report was to be kept for. If
there is no report to keep, as when none starts the capture, the disk is as it was. -/
theorem capture_touches_its_files_only (plan : CapturePlan) (echoes : Bool) :
    (∀ site log final last,
      Recorder.Runs (fun site met => met.disk = site.disk) (.new plan echoes) site log final last →
        plan.Spared site.disk (Recorder.handed log) last.disk ∧
        plan.Spared site.disk (Recorder.handed log) (final.discard last).disk) ∧
    (∀ flag alarms site feed reports session (rest : σ),
      Serves (new plan echoes flag alarms site) feed reports session rest →
        plan.Spared site.disk reports session.site.disk ∧
        plan.Spared site.disk reports (session.recorder.discard session.site).disk) ∧
    ∀ reports, (∀ report ∈ reports, plan.starts report = false) → plan.kept reports = [] := by
  refine ⟨?_, ?_, fun reports => CapturePlan.kept_unstarted⟩
  · intro site log final last run
    have framed := run.framed (Recorder.framed_new plan echoes site.disk)
    rw [List.nil_append] at framed
    exact ⟨framed.spared, framed.discard⟩
  · intro flag alarms site feed reports session rest serves
    have framed := serves.framed (Recorder.framed_new plan echoes site.disk)
    exact ⟨framed.spared, framed.discard⟩

end Session

/-! What a feed has told at its end. -/

namespace Session

open Recorder (Framed)

variable {σ : Type} [Feed σ] {plan : CapturePlan} {start : Disk} {seen : List Report}
  {session : Session} {feed rest : σ} {report : Report} {summary : Summary}

-- A feed that has no more reports hands none over, however it puts it.
theorem handed_none
    (nothing : ∀ ms report rest,
      (Feed.pull session.site.disk feed).turn ≠ .comes ms (.report report) rest) :
    session.handed feed = [] := by
  rcases clear : session.flag.reason with _ | reason
  · rcases turn : (Feed.pull session.site.disk feed).turn with ⟨ms, delivery, rest⟩ | rest
    · rw [handed_comes clear turn]
      rcases (session.hear (Feed.pull session.site.disk feed)).clock.wait ms with ⟨clock, _ | alarm⟩
      · cases delivery with
        | ended => rfl
        | failed e => rfl
        | report report => exact absurd turn (nothing ms report rest)
      · rfl
    · exact handed_never turn
  · exact handed_raised clear feed

-- A session that finishes went on after each report.
theorem handed_next (clear : session.flag.reason = none)
    (silent : (Feed.pull session.site.disk feed).raises = none)
    (turn : (Feed.pull session.site.disk feed).turn = .comes 0 (.report report) rest)
    (finished : (session.loop feed).1 = .finished summary) :
    ∃ taken, (session.hear (Feed.pull session.site.disk feed)).process report = (.ok (), taken) ∧
      taken.flag.reason = none ∧ (taken.loop rest).1 = .finished summary ∧
      session.handed feed = report :: taken.handed rest := by
  have heard : (session.hear (Feed.pull session.site.disk feed)).flag.reason = none := by
    simp only [hear, silent]
    exact clear
  have flag := (process_recorder (session.hear (Feed.pull session.site.disk feed)) report).2.2
  rw [loop_next clear rfl turn silent] at finished
  rw [handed_comes clear turn, Clock.wait_zero]
  rcases outcome : (session.hear (Feed.pull session.site.disk feed)).process report
    with ⟨e | ⟨⟩, taken⟩
  · rw [outcome] at finished
    cases finished
  · rw [outcome] at finished flag
    have still : taken.flag.reason = none := by
      rw [flag]
      exact heard
    refine ⟨taken, rfl, still, finished, ?_⟩
    simp only [handedOn, outcome, pause_clear still]

theorem handed_told {steady : Disk → Prop} {reports : List Report}
    (stays : ∀ seen recorder disk, Framed plan start seen recorder disk → steady disk)
    (framed : Framed plan start seen session.recorder session.site.disk)
    (clear : session.flag.reason = none) (tells : Tells steady reports feed)
    (finished : (session.loop feed).1 = .finished summary) : session.handed feed = reports := by
  induction reports generalizing seen session feed with
  | nil => exact handed_none (tells _ (stays _ _ _ framed))
  | cons report reports ih =>
      obtain ⟨silent, rest, turn, later⟩ := tells _ (stays _ _ _ framed)
      obtain ⟨taken, processed, still, ends, handed⟩ := handed_next clear silent turn finished
      let heard := session.hear (Feed.pull session.site.disk feed)
      have alike : session.Alike heard := (waited_hear clear _ heard.clock).toAlike
      obtain ⟨held, disk, -⟩ := process_recorder heard report
      rw [← alike.recorder, ← alike.disk] at framed
      have next := framed.took (heard.recorder.take_took heard.site report)
      rw [processed] at held disk
      rw [← held, ← disk] at next
      rw [handed, ih next still later ends]

end Session

end MoteCapture

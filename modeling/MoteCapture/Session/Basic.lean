import MoteCapture.Feed.Script
import MoteCapture.Feed.Timed
import MoteCapture.Numeric.Binary64
import MoteCapture.Options.Schema
import MoteCapture.Recorder

/-!
A session pulls reports from a feed and hands them to the recorder until a stop is raised. The end of the
feed is a stop like any other. A stop is looked for before every pull and after every report; whichever
way it comes, the sheets are closed before the session says how it ended.

The counters of a session are machine words that wrap around, and are shown as floating-point numbers in
the text exposition format.
-/

namespace MoteCapture

structure Counters where
  reports : UInt64
  rows : UInt64
  skipped : UInt64
  opened : UInt64
  deriving DecidableEq, Repr

namespace Counters

def zero : Counters := ⟨0, 0, 0, 0⟩

inductive Name where
  | reports
  | rows
  | skipped
  | opened
  deriving DecidableEq, Repr

def add (counters : Counters) (name : Name) (amount : UInt64) : Counters :=
  match name with
  | .reports => { counters with reports := counters.reports + amount }
  | .rows => { counters with rows := counters.rows + amount }
  | .skipped => { counters with skipped := counters.skipped + amount }
  | .opened => { counters with opened := counters.opened + amount }

def exposeOne (name help : String) (value : UInt64) : String :=
  "# HELP " ++ name ++ " " ++ help ++ "\n# TYPE " ++ name ++ " counter\n" ++ name ++ " " ++
    (Binary64.ofNat value.toNat).write ++ "\n"

def exposition (counters : Counters) : String :=
  exposeOne "senselog_events_total" "Mote log events delivered by the host" counters.reports ++
    exposeOne "senselog_ignored_total" "Events seen while capturing that produced no row"
      counters.skipped ++
    exposeOne "senselog_rows_total" "CSV data rows written" counters.rows ++
    exposeOne "senselog_sinks_opened_total" "CSV files opened" counters.opened

end Counters

/-- Everything that a session works on, its feed apart. -/
structure Session where
  recorder : Recorder
  flag : StopFlag
  clock : Clock
  counters : Counters
  site : Site

structure Summary where
  reason : StopReason
  tally : Tally
  files : List (MoteId × ClosedSheet)
  deriving DecidableEq, Repr

inductive SessionError where
  | options (error : OptionsError)
  | capture (error : CaptureError)
  | feed (error : FeedError)
  deriving DecidableEq, Repr

namespace FeedError

def message : FeedError → String
  | .io error => "I/O error: " ++ error.message
  | .processing text => "Event processing error: " ++ text

end FeedError

namespace SessionError

def message : SessionError → String
  | .options error => "Configuration error: " ++ error.message
  | .capture error => error.message
  | .feed error => error.message

def stopReason? : SessionError → Option StopReason
  | .capture error => error.stopReason?
  | _ => none

def exitStatus (error : SessionError) : Nat :=
  match error.stopReason? with
  | some .timeout => 124
  | some .interrupted => 130
  | _ => 1

end SessionError

inductive Ending where
  | finished (summary : Summary)
  | failed (error : SessionError)
  /-- It waits for a feed that stays silent, and no alarm is set. -/
  | waiting
  deriving DecidableEq, Repr

namespace Session

def new (plan : CapturePlan) (echoes : Bool) (flag : StopFlag) (alarms : List Alarm)
    (site : Site) : Session where
  recorder := .new plan echoes
  flag := flag
  clock := .start alarms
  counters := .zero
  site := site

def count (session : Session) (name : Counters.Name) : Session :=
  { session with counters := session.counters.add name 1 }

def mark (session : Session) (name : String) (facts : List Fact) : Session :=
  { session with site := session.site.mark name facts }

def raise (session : Session) (reason : StopReason) : Session :=
  { session with flag := (session.flag.raise reason).2 }

def countRow (session : Session) (openedBefore : Nat) (report : Report) : Session :=
  let counted := session.count .rows
  if openedBefore < counted.recorder.tally.opened then
    (counted.count .opened).mark "sink_opened"
      [.ofNat "node" report.mote.toNat, .ofText "path" (counted.recorder.plan.path report.mote)]
  else counted

def countVerdict (session : Session) (openedBefore : Nat) (report : Report) :
    Verdict → Session
  | .early => session
  | .start =>
      session.mark "capture_started" [.ofNat "node" report.mote.toNat, .ofWord "time" report.time]
  | .kept => session.countRow openedBefore report
  | .skipped => session.count .skipped

def process (session : Session) (report : Report) : Except CaptureError Unit × Session :=
  let openedBefore := session.recorder.tally.opened
  match session.recorder.take session.site report with
  | (.error e, recorder, site) => (.error e, { session with recorder, site })
  | (.ok verdict, recorder, site) =>
      (.ok (),
        ({ session with recorder, site }.count .reports).countVerdict openedBefore report verdict)

def summary (session : Session) (reason : StopReason) : Summary where
  reason := reason
  tally := session.recorder.tally
  files := session.recorder.closed

def conclude (session : Session) (reason : StopReason) : Ending × Session :=
  let marked := session.mark "capture_stopped"
    [.ofText "reason" reason.text, .ofNat "rows" session.recorder.tally.rows,
      .ofNat "files" session.recorder.closed.length]
  match reason with
  | .endOfInput => (.finished (session.summary reason), marked)
  | _ => (.failed (.capture (.stopped reason)), marked)

def pause (session : Session) : Option Ending × Session :=
  match session.recorder.pause session.site session.flag with
  | (.ok (), recorder, site) => (none, { session with recorder, site })
  | (.error (.stopped reason), recorder, site) =>
      let ended := { session with recorder, site }.conclude reason
      (some ended.1, ended.2)
  | (.error e, recorder, site) => (some (.failed (.capture e)), { session with recorder, site })

def stopNow (session : Session) : Ending × Session :=
  match session.pause with
  | (some ending, stopped) => (ending, stopped)
  | (none, same) => (.waiting, same)

def callOff (session : Session) (reason : StopReason) : Ending × Session :=
  stopNow { session with
    site := session.site.debug ("Stop raised while waiting for events: " ++ reason.text) }

def ring (session : Session) (clock : Clock) (alarm : Alarm) : Ending × Session :=
  let rung := alarm.ring session.flag session.site.journal
  callOff
    { session with clock, flag := rung.1, site := { session.site with journal := rung.2 } }
    (rung.1.reason.getD alarm.reason)

def hear {σ : Type} (session : Session) (pull : Pull σ) : Session :=
  let noted : Session :=
    { session with site := { session.site with journal := session.site.journal.append pull.notes } }
  match pull.raises with
  | some reason => noted.raise reason
  | none => noted

def loop {σ : Type} [Feed σ] (session : Session) (feed : σ) : Ending × Session × σ :=
  match session.flag.reason with
  | some reason =>
      let ended := session.callOff reason
      (ended.1, ended.2, feed)
  | none =>
      let heard := session.hear (Feed.pull session.site.disk feed)
      match _asked : (Feed.pull session.site.disk feed).turn with
      | .never rest =>
          match heard.clock.waitForAlarm with
          | some (clock, alarm) =>
              let ended := heard.ring clock alarm
              (ended.1, ended.2, rest)
          | none => (.waiting, heard, rest)
      | .comes ms delivery rest =>
          match heard.clock.wait ms with
          | (clock, some alarm) =>
              let ended := heard.ring clock alarm
              (ended.1, ended.2, feed)
          | (clock, none) =>
              let waited := { heard with clock }
              match delivery with
              | .ended =>
                  let ended := (waited.raise .endOfInput).stopNow
                  (ended.1, ended.2, rest)
              | .failed e => (.failed (.feed e), waited, rest)
              | .report report =>
                  match waited.process report with
                  | (.error e, broken) => (.failed (.capture e), broken, rest)
                  | (.ok (), taken) =>
                      match taken.pause with
                      | (some ending, stopped) => (ending, stopped, rest)
                      | (none, paused) => loop paused rest
termination_by Feed.size feed
decreasing_by exact Feed.size_lt _asked

def run {σ : Type} [Feed σ] (session : Session) (feed : σ) : Ending × Session × σ :=
  loop
    { session with
      site := session.site.info
        ("Waiting for '" ++ session.recorder.plan.marker ++ "' from node " ++
          toString session.recorder.plan.trigger.toNat) }
    feed

end Session

end MoteCapture

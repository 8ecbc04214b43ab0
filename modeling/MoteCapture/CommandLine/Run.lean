import MoteCapture.CommandLine.Read
import MoteCapture.Feed.Lines
import MoteCapture.Options.Load
import MoteCapture.Options.Written
import MoteCapture.Session.Basic

/-!
Carrying out of a command. Options are loaded, changed as the arguments say, and have to keep all rules
again. A capture opens the input, sets the timeout and runs the session; after it the counters are noted,
if the options ask for them.
-/

namespace MoteCapture

namespace Capture

def isStandardInput (path : Path) : Bool :=
  !path.rooted && path.plain.steps == ["-"]

inductive Input where
  | lines (feed : LineFeed)
  | file (feed : FileFeed)
  deriving Repr

/-- How many reports a file can give, even if it gets the rows of sheets with a header meanwhile. A
row is not longer than its line and, of two rows, one is shorter; so the lines that the reading
makes behind itself run out. -/
def reportBound (bytes : Text.Bytes) (header : String) : Nat :=
  2 * (bytes.length + header.utf8ByteSize + 1)

/-- Opens a file as an input. A folder is found out only when it is read. -/
def openFile (disk : Disk) (path : Path) (header : String) : Except IoError Input :=
  match disk.find path with
  | .error e => .error e
  | .ok (_, .folder) => .ok (.lines (.unreadable .isADirectory))
  | .ok (_, .full) => .ok (.lines (.ofBytes []))
  | .ok (place, .file bytes) => .ok (.file (.start place (reportBound bytes header)))

def openInput (site : Site) (input header : String) (standard : LineFeed) :
    Except IoError Input × Site :=
  let path := Path.ofString input
  if isStandardInput path then
    (.ok (.lines standard), site.debug "Reading mote output from stdin")
  else (openFile site.disk path header, site.debug ("Reading mote output from " ++ input))

def session (options : Options) (flag : StopFlag) (alarms : List Alarm) (site : Site) : Session :=
  let capture := options.capture
  .new capture.plan true flag (.timeout capture.timeoutMs.toNat :: alarms) <|
    site.mark "capture_configured"
      [.ofNat "trigger_node" capture.trigger.toNat, .ofText "row_format" capture.layout.name,
        .ofWord "timeout_ms" capture.timeoutMs]

/-- What is left when a session is over: sheets that are still open are closed. -/
def close (options : Options) (session : Session) : Site :=
  session.recorder.discard <|
    if options.telemetry.reportsCounters then
      session.site.info ("Capture metrics:\n" ++ session.counters.exposition)
    else session.site

def runFeed {σ : Type} [Feed σ] (options : Options) (feed : σ) (flag : StopFlag)
    (alarms : List Alarm) (site : Site) : Ending × Site :=
  let ended := (session options flag alarms site).run feed
  (ended.1, close options ended.2.1)

def run (options : Options) (input : String) (standard : LineFeed) (flag : StopFlag)
    (alarms : List Alarm) (site : Site) : Ending × Site :=
  match openInput site input options.capture.header standard with
  | (.error e, opened) => (.failed (.feed (.io e)), opened)
  | (.ok (.lines feed), opened) => runFeed options feed flag alarms opened
  | (.ok (.file feed), opened) => runFeed options feed flag alarms opened

end Capture

namespace CommandLine

inductive Failure where
  | options (error : OptionsError)
  | session (error : SessionError)
  deriving DecidableEq, Repr

namespace Failure

def message : Failure → String
  | .options error => error.message
  | .session error => error.message

def exitStatus : Failure → Nat
  | .options _ => 1
  | .session error => error.exitStatus

end Failure

inductive Outcome where
  | done
  | failed (failure : Failure)
  | waiting
  deriving DecidableEq, Repr

structure Result where
  outcome : Outcome
  printed : String
  site : Site

def options (line : CommandLine) (disk : Disk) (vars : List (String × String)) :
    Except OptionsError Options := do
  (line.overrides.apply (← Options.load disk vars line.optionsFile)).checked

def report (options : Options) (summary : Summary) (site : Site) : Site :=
  let warned :=
    if summary.files.isEmpty then
      site.warn ("Input ended before node " ++ toString options.capture.trigger.toNat ++
        " printed '" ++ options.capture.marker ++ "', nothing captured")
    else site
  summary.files.foldl
    (fun site entry =>
      site.info ("Node " ++ toString entry.1.toNat ++ ": " ++ toString entry.2.rows ++
        " rows in " ++ entry.2.path))
    warned

def capture (options : Options) (input : String) (standard : LineFeed) (alarms : List Alarm)
    (site : Site) : Result :=
  match Capture.run options input standard .clear alarms site with
  | (.finished summary, left) => ⟨.done, "", report options summary left⟩
  | (.failed error, left) => ⟨.failed (.session error), "", left⟩
  | (.waiting, left) => ⟨.waiting, "", left⟩

def run (line : CommandLine) (disk : Disk) (vars : List (String × String))
    (standard : LineFeed) (alarms : List Alarm) : Result :=
  match line.options disk vars with
  | .error error => ⟨.failed (.options error), "", ⟨disk, .empty⟩⟩
  | .ok options =>
      match line.job with
      | .showOptions => ⟨.done, options.write, ⟨disk, .empty⟩⟩
      | .capture input => capture options input standard alarms ⟨disk, .empty⟩

end CommandLine

end MoteCapture

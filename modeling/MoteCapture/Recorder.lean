import MoteCapture.Plan
import MoteCapture.Report
import MoteCapture.Sheet
import MoteCapture.Stop.Handles

/-!
The recorder takes reports one at a time. It waits for the report that starts the capture, then writes the
reports that the plan keeps as rows, each mote's to a sheet of its own. A stop is only noticed between two
reports; it closes every sheet, and nothing changes after it.

The tally counts without a bound. Words of 64 bits would do, for each count is at most the number of
reports that were taken, and no run takes 2^64 of them.
-/

namespace MoteCapture

inductive CaptureError where
  | stopped (reason : StopReason)
  | io (error : IoError)
  | line (error : Report.LineError)
  deriving DecidableEq, Repr

namespace CaptureError

def message : CaptureError → String
  | .stopped reason => "Capture terminated: " ++ reason.text
  | .io error => "I/O error: " ++ error.message
  | .line error => "Log parse error: " ++ error.message

def stopReason? : CaptureError → Option StopReason
  | .stopped reason => some reason
  | _ => none

end CaptureError

inductive Phase where
  | waiting
  | capturing
  | closing (reason : StopReason)
  | stopped (reason : StopReason)
  deriving DecidableEq, Repr

inductive Verdict where
  | early
  | start
  | kept
  /-- It came after the start and became no row. -/
  | skipped
  deriving DecidableEq, Repr

structure Tally where
  reports : Nat
  rows : Nat
  skipped : Nat
  opened : Nat
  deriving DecidableEq, Repr

structure Recorder where
  plan : CapturePlan
  echoes : Bool
  phase : Phase
  opened : OpenSheets
  tally : Tally
  closed : List (MoteId × ClosedSheet)
  newestRows : List (MoteId × String)
  deriving Repr

namespace Recorder

def new (plan : CapturePlan) (echoes : Bool) : Recorder where
  plan := plan
  echoes := echoes
  phase := .waiting
  opened := .empty
  tally := ⟨0, 0, 0, 0⟩
  closed := []
  newestRows := []

def rows (recorder : Recorder) : List (MoteId × String) :=
  recorder.newestRows.reverse

def countReport (recorder : Recorder) : Recorder :=
  { recorder with tally := { recorder.tally with reports := recorder.tally.reports + 1 } }

def countSkipped (recorder : Recorder) : Recorder :=
  { recorder with tally := { recorder.tally with skipped := recorder.tally.skipped + 1 } }

def countRow (recorder : Recorder) (isNew : Bool) : Recorder :=
  { recorder with
    tally := { recorder.tally with
      rows := recorder.tally.rows + 1
      opened := recorder.tally.opened + if isNew then 1 else 0 } }

def echo (recorder : Recorder) (site : Site) (mote : MoteId) (row : String) : Recorder × Site :=
  ({ recorder with newestRows := (mote, row) :: recorder.newestRows },
    if recorder.echoes then { site with journal := site.journal.note (.row mote row) } else site)

def openSheet (plan : CapturePlan) (mote : MoteId) (site : Site) : Except IoError Sheet × Site :=
  Sheet.create
    (site.info ("Opening " ++ plan.path mote ++ " for node " ++ toString mote.toNat))
    (plan.path mote) plan.header

def keep (recorder : Recorder) (site : Site) (report : Report) :
    Except CaptureError Verdict × Recorder × Site :=
  match recorder.opened.obtain report.mote site (openSheet recorder.plan report.mote) with
  | (.error e, _, opened, site) => (.error (.io e), { recorder with opened }, site)
  | (.ok _, isNew, opened, site) =>
      match opened.writeRow report.mote site.disk (recorder.plan.row report) with
      | (.error e, opened, disk) =>
          (.error (.io e), { recorder with opened }, { site with disk })
      | (.ok _, opened, disk) =>
          let counted := { recorder with opened }.countRow isNew
          let echoed := counted.echo { site with disk } report.mote (recorder.plan.row report)
          (.ok .kept, echoed.1, echoed.2)

def take (recorder : Recorder) (site : Site) (report : Report) :
    Except CaptureError Verdict × Recorder × Site :=
  match recorder.phase with
  | .stopped reason | .closing reason => (.error (.stopped reason), recorder, site)
  | .waiting =>
      let counted := recorder.countReport
      if recorder.plan.starts report then
        (.ok .start, { counted with phase := .capturing },
          site.info ("Start marker from node " ++ toString report.mote.toNat ++ " at " ++
            toString report.time.toNat ++ ", capturing"))
      else (.ok .early, counted, site)
  | .capturing =>
      let counted := recorder.countReport
      if recorder.plan.keeps report then counted.keep site report
      else (.ok .skipped, counted.countSkipped, site)

/-- Closes every sheet for good. The capture is stopped even if a sheet cannot be flushed; the
closed sheets are listed only if all could. -/
def stop (recorder : Recorder) (site : Site) (reason : StopReason) :
    Except CaptureError Unit × Recorder × Site :=
  match recorder.phase with
  | .stopped _ =>
      (.ok (), recorder,
        site.debug ("Shutdown requested again (" ++ reason.text ++ "), already terminated"))
  | _ =>
      let closing := { recorder with phase := .closing reason }
      let outcome :=
        closing.opened.closeAll (site.info ("Shutting down capture: " ++ reason.text))
      let stopped := { closing with phase := .stopped reason, opened := outcome.2.1 }
      match outcome.1 with
      | .ok closed => (.ok (), { stopped with closed := stopped.closed ++ closed }, outcome.2.2)
      | .error e => (.error (.io e), stopped, outcome.2.2)

/-- The moment between two reports, in which a raised flag stops the capture. -/
def pause (recorder : Recorder) (site : Site) (flag : StopFlag) :
    Except CaptureError Unit × Recorder × Site :=
  match flag.reason with
  | none => (.ok (), recorder, site)
  | some reason =>
      match recorder.stop site reason with
      | (.ok (), stopped, site) => (.error (.stopped reason), stopped, site)
      | failed => failed

/-- Gives the recorder up; sheets that are still open are closed as well as may be. -/
def discard (recorder : Recorder) (site : Site) : Site :=
  if recorder.opened.isEmpty then site
  else
    let outcome := recorder.opened.closeAll
      (site.debug ("Capturer dropped with " ++ toString recorder.opened.size ++ " open sinks"))
    match outcome.1 with
    | .ok _ => outcome.2.2
    | .error e => outcome.2.2.error ("Failed to flush CSV sinks on drop: " ++ e.message)

end Recorder

end MoteCapture

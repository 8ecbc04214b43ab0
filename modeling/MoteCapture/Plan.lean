import MoteCapture.Report
import MoteCapture.Text.Basic

/-!
A capture plan: which report starts the capture, which reports become rows, how a row is written and where
the rows go. The path of a mote's file is a pattern with placeholders. They are replaced one kind after
the other, so a later kind is also found in what an earlier one put in.
-/

namespace MoteCapture

open Text

structure OutputPattern where
  pattern : String
  runId : String
  fileId : String
  deriving DecidableEq, Repr

namespace OutputPattern

def runPlace : List Char :=
  ['\x7b', 'r', 'u', 'n', '_', 'i', 'd', '\x7d']

def filePlace : List Char :=
  ['\x7b', 'f', 'i', 'l', 'e', '_', 'i', 'd', '\x7d']

def motePlace : List Char :=
  ['\x7b', 'n', 'o', 'd', 'e', '\x7d']

def withIds (output : OutputPattern) : List Char :=
  substitute filePlace output.fileId.toList
    (substitute runPlace output.runId.toList output.pattern.toList)

def path (output : OutputPattern) (mote : MoteId) : String :=
  String.ofList (substitute motePlace (Numeral.write mote.toNat) output.withIds)

def isPerMote (output : OutputPattern) : Bool :=
  occurs motePlace output.pattern.toList

end OutputPattern

inductive RowLayout where
  | timePrefixed
  | messageOnly
  deriving DecidableEq, Repr, Inhabited

namespace RowLayout

def name : RowLayout → String
  | .timePrefixed => "time-prefixed"
  | .messageOnly => "message-only"

def ofName? (text : String) : Option RowLayout :=
  if text == "time-prefixed" then some .timePrefixed
  else if text == "message-only" then some .messageOnly
  else none

/-- A name of no layout, in the lower case in which it was looked up. -/
structure Unknown where
  name : String
  deriving DecidableEq, Repr

def Unknown.message (unknown : Unknown) : String :=
  "unknown row format '" ++ unknown.name ++ "'"

/-- Reads a name in any letter case, with a hyphen or an underscore. -/
def read (text : String) : Except Unknown RowLayout :=
  let lower := text.map Char.toLower
  if lower == "time-prefixed" || lower == "time_prefixed" then .ok .timePrefixed
  else if lower == "message-only" || lower == "message_only" then .ok .messageOnly
  else .error ⟨lower⟩

def row : RowLayout → Report → String
  | .timePrefixed, report =>
      String.ofList (Numeral.write report.time.toNat ++ [',']) ++ report.message
  | .messageOnly, report => report.message

end RowLayout

structure CapturePlan where
  trigger : MoteId
  marker : String
  motes : List MoteId
  header : String
  layout : RowLayout
  output : OutputPattern
  deriving DecidableEq, Repr

namespace CapturePlan

def standardHeader : String := "time,_Eihop,_P0,hops,d,_R,_Nb"

def standardMarker : String := "Starting to sense"

def standardOutput : OutputPattern where
  pattern := "csv/log_\x7brun_id\x7d\x7bfile_id\x7d.csv"
  runId := "1-"
  fileId := "5-duty-cycle"

def standard : CapturePlan where
  trigger := 1
  marker := standardMarker
  motes := [1]
  header := standardHeader
  layout := .timePrefixed
  output := standardOutput

def isMarked (plan : CapturePlan) (report : Report) : Bool :=
  occurs plan.marker.toList report.message.toList

def starts (plan : CapturePlan) (report : Report) : Bool :=
  report.mote == plan.trigger && plan.isMarked report

def keeps (plan : CapturePlan) (report : Report) : Bool :=
  plan.motes.contains report.mote && !plan.isMarked report

def row (plan : CapturePlan) (report : Report) : String :=
  plan.layout.row report

def path (plan : CapturePlan) (mote : MoteId) : String :=
  plan.output.path mote

end CapturePlan

end MoteCapture

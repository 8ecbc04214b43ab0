import MoteCapture.Plan
import MoteCapture.Text.Basic

/-!
The options of a capture, as they are written in files, the plan that they amount to, and the rules that
they have to keep. Every field has at most one flaw, and all complaints are made at once, as a tree that
follows the sections of the options. The rule about the files of several motes is looked at only if all
fields keep theirs.
-/

namespace MoteCapture

structure CaptureOptions where
  trigger : MoteId
  marker : String
  motes : List MoteId
  header : String
  layout : RowLayout
  pattern : String
  runId : String
  fileId : String
  timeoutMs : UInt64
  deriving DecidableEq, Repr

structure TelemetryOptions where
  logLevel : String
  reportsCounters : Bool
  deriving DecidableEq, Repr

structure Options where
  capture : CaptureOptions
  telemetry : TelemetryOptions
  deriving DecidableEq, Repr

def insertMote (mote : MoteId) : List MoteId → List MoteId
  | [] => [mote]
  | first :: rest =>
      if mote < first then mote :: first :: rest
      else if mote == first then first :: rest
      else first :: insertMote mote rest

/-- The members of the list in ascending order, each once. -/
def ascending (motes : List MoteId) : List MoteId :=
  motes.foldr insertMote []

namespace CaptureOptions

def standard : CaptureOptions where
  trigger := CapturePlan.standard.trigger
  marker := CapturePlan.standardMarker
  motes := CapturePlan.standard.motes
  header := CapturePlan.standardHeader
  layout := .timePrefixed
  pattern := CapturePlan.standardOutput.pattern
  runId := CapturePlan.standardOutput.runId
  fileId := CapturePlan.standardOutput.fileId
  timeoutMs := 100000

def plan (options : CaptureOptions) : CapturePlan where
  trigger := options.trigger
  marker := options.marker
  motes := ascending options.motes
  header := options.header
  layout := options.layout
  output := { pattern := options.pattern, runId := options.runId, fileId := options.fileId }

end CaptureOptions

def TelemetryOptions.standard : TelemetryOptions where
  logLevel := "info"
  reportsCounters := false

def Options.standard : Options := ⟨.standard, .standard⟩

structure Overrides where
  runId : Option String
  fileId : Option String
  pattern : Option String
  timeoutMs : Option UInt64
  layout : Option RowLayout
  /-- The motes to capture; an empty list leaves those of the options. -/
  motes : List MoteId
  reportsCounters : Bool
  deriving DecidableEq, Repr

namespace Overrides

def none : Overrides := ⟨.none, .none, .none, .none, .none, [], false⟩

def apply (overrides : Overrides) (options : Options) : Options where
  capture :=
    { options.capture with
      runId := overrides.runId.getD options.capture.runId
      fileId := overrides.fileId.getD options.capture.fileId
      pattern := overrides.pattern.getD options.capture.pattern
      timeoutMs := overrides.timeoutMs.getD options.capture.timeoutMs
      layout := overrides.layout.getD options.capture.layout
      motes := if overrides.motes.isEmpty then options.capture.motes else overrides.motes }
  telemetry :=
    { options.telemetry with
      reportsCounters := overrides.reportsCounters || options.telemetry.reportsCounters }

end Overrides

inductive Flaw where
  | length
  | header
  | pattern
  | placeholder
  | range
  | logLevel
  | sharedFile
  deriving DecidableEq, Repr

namespace Flaw

def code : Flaw → String
  | .length => "length"
  | .header => "invalid_header"
  | .pattern => "invalid_output_template"
  | .placeholder => "unknown_placeholder"
  | .range => "range"
  | .logLevel => "invalid_log_level"
  | .sharedFile => "missing_node_placeholder"

def message? : Flaw → Option String
  | .sharedFile => some "several nodes are captured but output has no \x7bnode\x7d"
  | _ => none

def reason (flaw : Flaw) : String :=
  flaw.message?.getD flaw.code

end Flaw

inductive Complaint where
  | flaws (field : String) (flaws : List Flaw)
  /-- About what is in a section, or in one item of a list. -/
  | inside (field : String) (index : Option Nat) (complaints : List Complaint)
  deriving Repr

namespace Complaint

mutual

def decEq : (complaint other : Complaint) → Decidable (complaint = other)
  | .flaws field own, .flaws field' own' =>
      decidable_of_iff (field = field' ∧ own = own') (by simp)
  | .inside field index complaints, .inside field' index' complaints' =>
      match decEqs complaints complaints' with
      | isTrue same => decidable_of_iff (field = field' ∧ index = index') (by simp [same])
      | isFalse different => isFalse (by simp [different])
  | .flaws .., .inside .. => isFalse (by simp)
  | .inside .., .flaws .. => isFalse (by simp)

def decEqs : (complaints others : List Complaint) → Decidable (complaints = others)
  | [], [] => isTrue rfl
  | complaint :: rest, other :: others =>
      match decEq complaint other, decEqs rest others with
      | isTrue first, isTrue later => isTrue (by rw [first, later])
      | isFalse first, _ => isFalse (by simp [first])
      | _, isFalse later => isFalse (by simp [later])
  | [], _ :: _ => isFalse (by simp)
  | _ :: _, [] => isFalse (by simp)

end

instance : DecidableEq Complaint := decEq

def path (lead field : String) : String :=
  if lead.isEmpty then field else lead ++ "." ++ field

def itemPath (lead field : String) : Option Nat → String
  | none => path lead field
  | some index => path lead field ++ "[" ++ toString index ++ "]"

mutual

def lines (lead : String) : Complaint → List String
  | .flaws field own => own.map fun flaw => path lead field ++ ": " ++ flaw.reason
  | .inside field index complaints => linesOf (itemPath lead field index) complaints

def linesOf (lead : String) : List Complaint → List String
  | [] => []
  | complaint :: rest => lines lead complaint ++ linesOf lead rest

end

def describe (complaints : List Complaint) : String :=
  String.join ((linesOf "" complaints).mergeSort.map fun line => "  " ++ line ++ "\n")

end Complaint

open Text

def noBrace (c : Char) : Bool :=
  c != '\x7b' && c != '\x7d'

/-- The text of the group in braces that the text begins with. There is no brace inside a group. -/
def groupAt? : List Char → Option (List Char)
  | '\x7b' :: rest =>
      match rest.dropWhile noBrace with
      | '\x7d' :: _ => some (rest.takeWhile noBrace)
      | _ => none
  | _ => none

/-- Skips `skip` characters, then finds the groups from left to right; none overlaps another. -/
def groupsFrom : (skip : Nat) → List Char → List (List Char)
  | _, [] => []
  | skip + 1, _ :: rest => groupsFrom skip rest
  | 0, c :: rest =>
      match groupAt? (c :: rest) with
      | some inside => inside :: groupsFrom (inside.length + 1) rest
      | none => groupsFrom 0 rest

def groups (text : List Char) : List (List Char) :=
  groupsFrom 0 text

def placeholders : List (List Char) :=
  [['r', 'u', 'n', '_', 'i', 'd'], ['f', 'i', 'l', 'e', '_', 'i', 'd'], ['n', 'o', 'd', 'e']]

def complain (field : String) (flaw : Option Flaw) : List Complaint :=
  match flaw with
  | some flaw => [.flaws field [flaw]]
  | none => []

def complainInside (field : String) (complaints : List Complaint) : List Complaint :=
  if complaints.isEmpty then [] else [.inside field none complaints]

namespace CaptureOptions

def headerFlaw? (header : List Char) : Option Flaw :=
  if header.isEmpty || header.any isLineEnd then some .header else none

def patternFlaw? (pattern : List Char) : Option Flaw :=
  if (trim pattern).isEmpty || pattern.getLast? == some '/' || pattern.getLast? == some '\\' then
    some .pattern
  else if (groups pattern).all placeholders.contains then none
  else some .placeholder

def greatestTimeout : UInt64 := 86400000

def timeoutFlaw? (timeoutMs : UInt64) : Option Flaw :=
  if 1 ≤ timeoutMs && timeoutMs ≤ greatestTimeout then none else some .range

def complaints (options : CaptureOptions) : List Complaint :=
  complain "start_marker" (if options.marker.isEmpty then some .length else none) ++
    complain "nodes" (if options.motes.isEmpty then some .length else none) ++
    complain "header" (headerFlaw? options.header.toList) ++
    complain "output" (patternFlaw? options.pattern.toList) ++
    complain "timeout_ms" (timeoutFlaw? options.timeoutMs)

def layoutComplaints (options : CaptureOptions) : List Complaint :=
  if 1 < (ascending options.motes).length && !options.plan.output.isPerMote then
    [.flaws "output" [.sharedFile]]
  else []

end CaptureOptions

def logLevels : List String := ["trace", "debug", "info", "warn", "error"]

namespace TelemetryOptions

def levelFlaw? (level : String) : Option Flaw :=
  if logLevels.contains (.ofList (LowerCase.ofText level.toList)) then none else some .logLevel

def complaints (options : TelemetryOptions) : List Complaint :=
  complain "log_level" (levelFlaw? options.logLevel)

end TelemetryOptions

namespace Options

def fieldComplaints (options : Options) : List Complaint :=
  complainInside "capture" options.capture.complaints ++
    complainInside "telemetry" options.telemetry.complaints

def check (options : Options) : List Complaint :=
  if options.fieldComplaints.isEmpty then options.capture.layoutComplaints
  else options.fieldComplaints

end Options

end MoteCapture

import MoteCapture.Options.Basic
import MoteCapture.Options.Value
import MoteCapture.Text.Basic
import MoteCapture.Yaml.Schema

/-!
Options as a value that says every field, and written as a document that loads to the same options.
-/

namespace MoteCapture

def CaptureOptions.tree (origin : Origin) (options : CaptureOptions) : Value :=
  let text (s : String) : Value := .scalar origin (.text s)
  let number (n : Nat) : Value := .scalar origin (.unsigned n)
  .map origin
    [("file_id", text options.fileId),
      ("header", text options.header),
      ("nodes", .list origin (options.motes.map fun mote => number mote.toNat)),
      ("output", text options.pattern),
      ("row_format", text options.layout.name),
      ("run_id", text options.runId),
      ("start_marker", text options.marker),
      ("timeout_ms", number options.timeoutMs.toNat),
      ("trigger_node", number options.trigger.toNat)]

def TelemetryOptions.tree (origin : Origin) (options : TelemetryOptions) : Value :=
  .map origin
    [("log_level", .scalar origin (.text options.logLevel)),
      ("report_metrics", .scalar origin (.bool options.reportsCounters))]

def Options.tree (origin : Origin) (options : Options) : Value :=
  .map origin
    [("capture", options.capture.tree origin), ("telemetry", options.telemetry.tree origin)]

namespace Options

def writeField (name : String) (value : List Char) : List Char :=
  [' ', ' '] ++ name.toList ++ [':', ' '] ++ value

def writeText (name text : String) : List Char :=
  writeField name (Yaml.Style.write (List.replicate 4 ' ') text.toList)

def writeNumber (name : String) (n : Nat) : List Char :=
  writeField name (Text.Numeral.write n ++ ['\n'])

def writeBool (name : String) (b : Bool) : List Char :=
  writeField name ((if b then "true" else "false").toList ++ ['\n'])

def writeNumbers (name : String) (ns : List Nat) : List Char :=
  if ns.isEmpty then writeField name ['[', ']', '\n']
  else
    [' ', ' '] ++ name.toList ++ [':', '\n'] ++
      ns.flatMap fun n => [' ', ' ', '-', ' '] ++ Text.Numeral.write n ++ ['\n']

def writeSection (name : String) (fields : List (List Char)) : List Char :=
  name.toList ++ [':', '\n'] ++ fields.flatten

def write (options : Options) : String :=
  let capture := options.capture
  let telemetry := options.telemetry
  String.ofList <|
    writeSection "capture"
      [writeNumber "trigger_node" capture.trigger.toNat,
        writeText "start_marker" capture.marker,
        writeNumbers "nodes" (capture.motes.map UInt32.toNat),
        writeText "header" capture.header,
        writeText "row_format" capture.layout.name,
        writeText "output" capture.pattern,
        writeText "run_id" capture.runId,
        writeText "file_id" capture.fileId,
        writeNumber "timeout_ms" capture.timeoutMs.toNat] ++
    writeSection "telemetry"
      [writeText "log_level" telemetry.logLevel,
        writeBool "report_metrics" telemetry.reportsCounters]

end Options

end MoteCapture

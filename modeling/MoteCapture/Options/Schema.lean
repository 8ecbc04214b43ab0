import MoteCapture.Disk
import MoteCapture.Options.Basic
import MoteCapture.Options.Value
import MoteCapture.Yaml.Source

/-!
Options read from values, and why they cannot be had. A section is a map of fields, or a row of them in
their order; fields that are missing keep their standard value and keys that are not known are passed
over. Nothing is converted: a number is not read from a text. In an exact document a row may not be too
long, and a layout that is written as a map has one entry.
-/

namespace MoteCapture

inductive Wanted where
  | word32
  | word64
  | text
  | boolean
  | sequence
  | unit
  | captureSection
  | telemetrySection
  | options
  | layout
  | variant
  deriving DecidableEq, Repr

def Wanted.describe : Wanted → String
  | .word32 => "u32"
  | .word64 => "u64"
  | .text => "a string"
  | .boolean => "a boolean"
  | .sequence => "a sequence"
  | .unit => "unit"
  | .captureSection => "struct CaptureConfig"
  | .telemetrySection => "struct TelemetryConfig"
  | .options => "struct SenselogConfig"
  | .layout => "enum RowFormat"
  | .variant => "enum"

inductive Mismatch where
  | wrongType (found : String) (wanted : Wanted)
  | outOfRange (found : String) (wanted : Wanted)
  | unknownLayout (found : String)
  /-- A row of values is longer than the section, or a variant has more than one name. -/
  | excess (wanted : Wanted)
  deriving DecidableEq, Repr

def Mismatch.describe : Mismatch → String
  | .wrongType found wanted => "invalid type: found " ++ found ++ ", expected " ++ wanted.describe
  | .outOfRange found wanted =>
      "invalid value " ++ found ++ ", expected " ++ wanted.describe
  | .unknownLayout found =>
      "unknown variant: found `" ++ found ++ "`, expected ``time-prefixed` or `message-only``"
  | .excess wanted => "invalid length, expected " ++ wanted.describe

structure Misfit where
  mismatch : Mismatch
  keys : List String
  origin : Origin
  deriving DecidableEq, Repr

namespace Misfit

/-- The keys as they are shown: as variables are named, or below the profile of files. Those of a
value that was read nowhere are not shown. -/
def shownKeys (misfit : Misfit) : String :=
  let keys := match misfit.origin with
    | .file _ => some (".".intercalate ("default" :: misfit.keys))
    | .environment => some ((".".intercalate misfit.keys).map Char.toUpper)
    | .direct => none
  match keys with
  | some text => if misfit.keys.isEmpty then "" else " for key " ++ Text.Quoted.quote text
  | none => ""

def shownOrigin : Origin → String
  | .file path => " in " ++ path ++ " YAML file"
  | .environment => " in `SENSELOG_` environment variable(s)"
  | .direct => ""

def message (misfit : Misfit) : String :=
  misfit.mismatch.describe ++ misfit.shownKeys ++ shownOrigin misfit.origin

end Misfit

inductive OptionsError where
  | fileNotFound (path : String)
  | invalid (complaints : List Complaint)
  | misfit (cause : Misfit)
  | malformed (fault : Yaml.Fault) (origin : Origin)
  | io (error : IoError)
  deriving DecidableEq, Repr

def OptionsError.message : OptionsError → String
  | .fileNotFound path => "Configuration file not found: " ++ path
  | .invalid complaints =>
      "Invalid capture configuration:\n" ++ Complaint.describe complaints
  | .misfit cause => "Cannot read configuration: " ++ cause.message
  | .malformed fault origin =>
      "Cannot read configuration: " ++ fault.message ++ Misfit.shownOrigin origin
  | .io error => "Configuration I/O error: " ++ error.message

namespace Value

def wrongType {α : Type} (value : Value) (wanted : Wanted) : Except Misfit α :=
  .error ⟨.wrongType value.describe wanted, [], value.origin⟩

def outOfRange {α : Type} (value : Value) (wanted : Wanted) : Except Misfit α :=
  .error ⟨.outOfRange value.describe wanted, [], value.origin⟩

def atKey {α : Type} (key : String) : Except Misfit α → Except Misfit α
  | .ok a => .ok a
  | .error misfit => .error { misfit with keys := key :: misfit.keys }

def readBelow (bound : Nat) (wanted : Wanted) (value : Value) : Except Misfit Nat :=
  match value with
  | .scalar _ (.unsigned n) => if n < bound then .ok n else value.outOfRange wanted
  | .scalar _ (.signed n) =>
      if 0 ≤ n && n.toNat < bound then .ok n.toNat else value.outOfRange wanted
  | _ => value.wrongType wanted

def readWord32 (value : Value) : Except Misfit UInt32 :=
  (value.readBelow UInt32.size .word32).map UInt32.ofNat

def readWord64 (value : Value) : Except Misfit UInt64 :=
  (value.readBelow UInt64.size .word64).map UInt64.ofNat

def readText (value : Value) : Except Misfit String :=
  match value with
  | .scalar _ (.text s) => .ok s
  | .scalar _ (.letter c) => .ok (String.ofList [c])
  | _ => value.wrongType .text

def readBool (value : Value) : Except Misfit Bool :=
  match value with
  | .scalar _ (.bool b) => .ok b
  | _ => value.wrongType .boolean

def readUnit (value : Value) : Except Misfit Unit :=
  match value with
  | .scalar _ .unit => .ok ()
  | _ => value.wrongType .unit

def readItems {α : Type} (read : Value → Except Misfit α) :
    Nat → List Value → Except Misfit (List α)
  | _, [] => .ok []
  | index, item :: rest => do
      let first ← atKey (toString index) (read item)
      let others ← readItems read (index + 1) rest
      return first :: others

def readList {α : Type} (read : Value → Except Misfit α) (value : Value) :
    Except Misfit (List α) :=
  match value with
  | .list _ items => readItems read 0 items
  | _ => value.wrongType .sequence

/-- A layout by its name. It may also be written as a map with the name as a key and no value. -/
def readLayout (exact : Bool) (value : Value) : Except Misfit RowLayout :=
  match value with
  | .scalar origin (.text name) =>
      match RowLayout.ofName? name with
      | some layout => .ok layout
      | none => .error ⟨.unknownLayout name, [], origin⟩
  | .map origin [] => .error ⟨.wrongType "map" .variant, [], origin⟩
  | .map origin ((name, inner) :: rest) =>
      match RowLayout.ofName? name with
      | none => .error ⟨.unknownLayout name, [name], inner.origin⟩
      | some layout => do
          atKey name inner.readUnit
          if exact && !rest.isEmpty then .error ⟨.excess .layout, [], origin⟩ else .ok layout
  | _ => value.wrongType .layout

def field {α : Type} (entries : List (String × Value)) (key : String)
    (read : Value → Except Misfit α) (standard : α) : Except Misfit α :=
  match entries.lookup key with
  | some value => atKey key (read value)
  | none => .ok standard

def place {α : Type} (items : List Value) (index : Nat) (read : Value → Except Misfit α)
    (standard : α) : Except Misfit α :=
  match items[index]? with
  | some value => atKey (toString index) (read value)
  | none => .ok standard

def limit (exact : Bool) (size : Nat) (wanted : Wanted) (value : Value) : Except Misfit Unit :=
  match value with
  | .list origin items =>
      if exact && size < items.length then .error ⟨.excess wanted, [], origin⟩ else .ok ()
  | _ => .ok ()

/-- The capture section. The fields of a map are read in the order of their names. -/
def readCapture (exact : Bool) (value : Value) : Except Misfit CaptureOptions :=
  let base := CaptureOptions.standard
  match value with
  | .map _ entries => do
      let fileId ← field entries "file_id" readText base.fileId
      let header ← field entries "header" readText base.header
      let motes ← field entries "nodes" (readList readWord32) base.motes
      let pattern ← field entries "output" readText base.pattern
      let layout ← field entries "row_format" (readLayout exact) base.layout
      let runId ← field entries "run_id" readText base.runId
      let marker ← field entries "start_marker" readText base.marker
      let timeoutMs ← field entries "timeout_ms" readWord64 base.timeoutMs
      let trigger ← field entries "trigger_node" readWord32 base.trigger
      return { trigger, marker, motes, header, layout, pattern, runId, fileId, timeoutMs }
  | .list _ items => do
      let trigger ← place items 0 readWord32 base.trigger
      let marker ← place items 1 readText base.marker
      let motes ← place items 2 (readList readWord32) base.motes
      let header ← place items 3 readText base.header
      let layout ← place items 4 (readLayout exact) base.layout
      let pattern ← place items 5 readText base.pattern
      let runId ← place items 6 readText base.runId
      let fileId ← place items 7 readText base.fileId
      let timeoutMs ← place items 8 readWord64 base.timeoutMs
      limit exact 9 .captureSection value
      return { trigger, marker, motes, header, layout, pattern, runId, fileId, timeoutMs }
  | _ => value.wrongType .captureSection

def readTelemetry (exact : Bool) (value : Value) : Except Misfit TelemetryOptions :=
  let base := TelemetryOptions.standard
  match value with
  | .map _ entries => do
      let logLevel ← field entries "log_level" readText base.logLevel
      let reportsCounters ← field entries "report_metrics" readBool base.reportsCounters
      return { logLevel, reportsCounters }
  | .list _ items => do
      let logLevel ← place items 0 readText base.logLevel
      let reportsCounters ← place items 1 readBool base.reportsCounters
      limit exact 2 .telemetrySection value
      return { logLevel, reportsCounters }
  | _ => value.wrongType .telemetrySection

end Value

namespace Options

open Value

def ofValue (exact : Bool) (value : Value) : Except Misfit Options :=
  match value with
  | .map _ entries => do
      let capture ← field entries "capture" (readCapture exact) .standard
      let telemetry ← field entries "telemetry" (readTelemetry exact) .standard
      return { capture, telemetry }
  | .list _ items => do
      let capture ← place items 0 (readCapture exact) .standard
      let telemetry ← place items 1 (readTelemetry exact) .standard
      limit exact 2 .options value
      return { capture, telemetry }
  | _ => value.wrongType .options

end Options

end MoteCapture

import MoteCapture.CommandLine.Read
import MoteCapture.CommandLine.Run
import MoteCapture.Disk
import MoteCapture.Journal

/-!
The program. It looks at everything on the disk that its command may touch, reads the standard input
if that is to be captured, carries out the command, and makes the changes that come of it. The
standard input is read to its end, or until the time limit is over.
-/

namespace MoteCapture

namespace Program

def readVars : IO (List (String × String)) := do
  try
    let bytes ← IO.FS.readBinFile "/proc/self/environ"
    let texts := (Text.splitAll 0 bytes.data.toList).filterMap Text.decode?
    return texts.filterMap fun text =>
      (Text.cutAt? (· == '=') text.toList).map fun parts =>
        (String.ofList parts.1, String.ofList parts.2)
  catch _ => return []

def pathText (place : Place) : String :=
  "/" ++ "/".intercalate place

def node? (place : Place) : IO (Option Node) := do
  let path := (← IO.currentDir) / pathText place
  if place == ["dev", "full"] then return some .full
  else if ← path.isDir then return some .folder
  else if ← path.pathExists then return some (.file (← IO.FS.readBinFile path).data.toList)
  else return none

def look (disk : Disk) (path : String) : IO Disk :=
  (disk.trail (.ofString path)).foldlM
    (fun disk place => do
      match ← node? place with
      | some node => return disk.put place node
      | none => return disk)
    disk

def make (change : Place × Node) : IO Unit :=
  match change.2 with
  | .folder => IO.FS.createDirAll (pathText change.1)
  | .file bytes => IO.FS.writeBinFile (pathText change.1) ⟨bytes.toArray⟩
  | .full => return

/-- Reads a stream to its end; `held` has what was read so far. A piece of more than one byte would
be held back until it is full. -/
partial def drain (stream : IO.FS.Stream) (held : IO.Ref ByteArray) : IO Unit := do
  if let some byte := (← stream.read 1)[0]? then
    held.modify (·.push byte)
    drain stream held

partial def endsBefore (moment : Nat) (reader : Task (Except IO.Error Unit)) : IO Bool := do
  if ← IO.hasFinished reader then return true
  else if moment ≤ (← IO.monoMsNow) then return false
  else
    IO.sleep 10
    endsBefore moment reader

def readStandard (ms : Nat) : IO LineFeed := do
  let moment := (← IO.monoMsNow) + ms
  let held ← IO.mkRef ByteArray.empty
  let reader ← IO.asTask (drain (← IO.getStdin) held) .dedicated
  let ended ← endsBefore moment reader
  let bytes := (← held.get).data.toList
  return if ended then .ofBytes bytes else .heldOpen bytes

def prepare (options : Options) (input : String) (disk : Disk) : IO (Disk × LineFeed) := do
  let plan := options.capture.plan
  let disk ← (plan.motes.map plan.path).foldlM look disk
  if Capture.isStandardInput (.ofString input) then
    return (disk, ← readStandard options.capture.timeoutMs.toNat)
  else return (← look disk input, .ofBytes [])

def lookForOptions (here : Place) (sources : List String) : IO Disk := do
  let folders := here :: Place.trail [] here
  let disk ← folders.foldlM
    (fun disk folder => sources.foldlM look { disk with here := folder }) (.standing here)
  return { disk with here }

def carryOut (line : CommandLine) : IO UInt32 := do
  let vars ← readVars
  let here := Place.ofString (← IO.currentDir).toString
  let disk ← lookForOptions here (Options.sources vars line.optionsFile)
  let options := line.options disk vars
  let (disk, standard) ← match options, line.job with
    | .ok options, .capture input => prepare options input disk
    | _, _ => pure (disk, .ofBytes [])
  let result := line.run disk vars standard []
  (disk.changes result.site.disk).forM make
  IO.print result.printed
  let least := match options with
    | .ok options => options.telemetry.logLevel
    | .error _ => Level.info.name
  (result.site.journal.shown least).forM fun text => IO.eprintln text
  match result.outcome with
  | .done => return 0
  | .failed failure =>
      IO.eprintln failure.message
      return UInt32.ofNat failure.exitStatus
  | .waiting => return 1

end Program

end MoteCapture

open MoteCapture in
def main (arguments : List String) : IO UInt32 := do
  match CommandLine.read arguments with
  | .ok line =>
      try Program.carryOut line
      catch e =>
        IO.eprintln (toString e)
        return 1
  | .error e =>
      if e.exitStatus == 0 then IO.println e.message else IO.eprintln e.message
      return UInt32.ofNat e.exitStatus

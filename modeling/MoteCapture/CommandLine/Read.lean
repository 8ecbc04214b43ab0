import MoteCapture.Options.Basic
import MoteCapture.Text.Basic

/-!
The arguments of the program: a command and the options that go with it. A switch may have its value in
the same argument or in the next one; in the second case it is looked at only when the argument after that
is. Two hyphens end the switches.
-/

namespace MoteCapture

inductive Job where
  | capture (input : String)
  | showOptions
  deriving DecidableEq, Repr

structure CommandLine where
  job : Job
  optionsFile : Option String
  overrides : Overrides
  deriving DecidableEq, Repr

namespace CommandLine

inductive UsageError where
  | help
  | version
  | nothing
  | missingCommand
  | unknownCommand
  | unknownArgument
  | missingValue
  | badValue
  | unneededValue
  | repeated
  deriving DecidableEq, Repr

namespace UsageError

def message : UsageError → String
  | .help =>
      "Usage: motecapture [-c FILE] capture|config [OPTION]...\n\n" ++
        "  -c, --config FILE     file with the options\n" ++
        "  -i, --input FILE      input of a capture, - for the standard input\n" ++
        "      --run-id TEXT     identifier of the run\n" ++
        "      --file-id TEXT    identifier of the file\n" ++
        "  -o, --output PATTERN  path of the output\n" ++
        "      --timeout-ms MS   time limit in milliseconds\n" ++
        "      --format NAME     time-prefixed or message-only\n" ++
        "      --node ID         mote to capture, may be repeated\n" ++
        "      --report-metrics  note the counters at the end"
  | .version => "motecapture 0.1.0"
  | .nothing => "no arguments, try --help"
  | .missingCommand => "no command, try --help"
  | .unknownCommand => "no such command"
  | .unknownArgument => "unexpected argument"
  | .missingValue => "an option lacks its value"
  | .badValue => "a value does not fit its option"
  | .unneededValue => "an option takes no value"
  | .repeated => "an option stands twice"

def exitStatus : UsageError → Nat
  | .help => 0
  | .version => 0
  | _ => 2

end UsageError

inductive Scope where
  | program
  | capture
  | config
  deriving DecidableEq, Repr

def Scope.ofName? (name : String) : Option Scope :=
  if name == "capture" then some .capture
  else if name == "config" then some .config
  else none

def helpName : String := "help"

def isCommand (word : String) : Bool :=
  word == helpName || (Scope.ofName? word).isSome

inductive Switch where
  | help
  | version
  | optionsFile
  | input
  | runId
  | fileId
  | pattern
  | timeoutMs
  | layout
  | mote
  | reportsCounters
  deriving DecidableEq, Repr

namespace Switch

def takesValue : Switch → Bool
  | .help => false
  | .version => false
  | .reportsCounters => false
  | _ => true

def isRepeatable : Switch → Bool
  | .mote => true
  | _ => false

def isKnown (scope : Scope) : Switch → Bool
  | .help => true
  | .optionsFile => true
  | .version => scope == .program
  | .input => scope == .capture
  | _ => scope != .program

def ofLongName? (name : String) : Option Switch :=
  match name with
  | "help" => some .help
  | "version" => some .version
  | "config" => some .optionsFile
  | "input" => some .input
  | "run-id" => some .runId
  | "file-id" => some .fileId
  | "output" => some .pattern
  | "timeout-ms" => some .timeoutMs
  | "format" => some .layout
  | "node" => some .mote
  | "report-metrics" => some .reportsCounters
  | _ => none

def ofShortName? (c : Char) : Option Switch :=
  match c with
  | 'h' => some .help
  | 'V' => some .version
  | 'c' => some .optionsFile
  | 'i' => some .input
  | 'o' => some .pattern
  | _ => none

def long? (scope : Scope) (name : String) : Option Switch :=
  (ofLongName? name).filter (isKnown scope)

def short? (scope : Scope) (c : Char) : Option Switch :=
  (ofShortName? c).filter (isKnown scope)

end Switch

end CommandLine

open Text

namespace CommandLine

structure Draft where
  optionsFile : Option String
  input : Option String
  overrides : Overrides
  seen : List Switch
  /-- The last switch, if it was not looked at yet, with its value if it has one. -/
  pending : Option (Switch × Option String)
  deriving DecidableEq, Repr

namespace Draft

def empty : Draft := ⟨none, none, .none, [], none⟩

def readPath (value : String) : Except UsageError String :=
  if value.isEmpty then .error .missingValue else .ok value

/-- The number of a mote. Zero may have a minus sign. -/
def readMote (value : String) : Except UsageError MoteId :=
  let digits := match value.toList with
    | '-' :: rest => (Numeral.readDigits? rest).filter (· == 0)
    | text => Numeral.read? text
  match digits with
  | some n => if n < UInt32.size then .ok (UInt32.ofNat n) else .error .badValue
  | none => .error .badValue

def readTimeout (value : String) : Except UsageError UInt64 :=
  match Numeral.readUInt64? value.toList with
  | some ms => .ok ms
  | none => .error .badValue

def readLayout (value : String) : Except UsageError RowLayout :=
  match RowLayout.read value with
  | .ok layout => .ok layout
  | .error _ => .error .badValue

def assign (draft : Draft) (switch : Switch) (value : String) : Except UsageError Draft := do
  let overrides := draft.overrides
  match switch with
  | .help => throw .help
  | .version => throw .version
  | .optionsFile => return { draft with optionsFile := some (← readPath value) }
  | .input => return { draft with input := some (← readPath value) }
  | .runId => return { draft with overrides := { overrides with runId := some value } }
  | .fileId => return { draft with overrides := { overrides with fileId := some value } }
  | .pattern => return { draft with overrides := { overrides with pattern := some value } }
  | .timeoutMs =>
      return { draft with overrides := { overrides with timeoutMs := some (← readTimeout value) } }
  | .layout =>
      return { draft with overrides := { overrides with layout := some (← readLayout value) } }
  | .mote =>
      return { draft with
        overrides := { overrides with motes := overrides.motes ++ [← readMote value] } }
  | .reportsCounters =>
      return { draft with overrides := { overrides with reportsCounters := true } }

/-- Looks at a switch: it needs a value if it takes one, and may stand once unless it is
repeatable. -/
def look (draft : Draft) (switch : Switch) (value : Option String) : Except UsageError Draft :=
  if switch.takesValue && value.isNone then .error .missingValue
  else if draft.seen.contains switch && !switch.isRepeatable then .error .repeated
  else { draft with seen := switch :: draft.seen }.assign switch (value.getD "")

def settle (draft : Draft) : Except UsageError Draft :=
  match draft.pending with
  | some (switch, value) => { draft with pending := none }.look switch value
  | none => .ok draft

def take (draft : Draft) (switch : Switch) (value : Option String) : Except UsageError Draft := do
  (← draft.settle).look switch value

def await (draft : Draft) (switch : Switch) : Except UsageError Draft := do
  return { ← draft.settle with pending := some (switch, none) }

def awaits (draft : Draft) : Bool :=
  match draft.pending with
  | some (_, none) => true
  | _ => false

def give (draft : Draft) (value : String) : Draft :=
  { draft with pending := draft.pending.map fun waiting => (waiting.1, some value) }

def readLong (scope : Scope) (draft : Draft) (text : List Char) : Except UsageError Draft :=
  let parts := cutAt? (· == '=') text
  let name := (parts.map Prod.fst).getD text
  match Switch.long? scope (String.ofList name), parts.map Prod.snd with
  | none, _ => .error .unknownArgument
  | some switch, some value =>
      if switch.takesValue then draft.take switch (some (String.ofList value))
      else .error .unneededValue
  | some switch, none =>
      if switch.takesValue then draft.await switch else draft.take switch none

def dropEquals : List Char → List Char
  | '=' :: rest => rest
  | text => text

/-- Reads an argument after one hyphen: letters, the last of which may have a value behind it. -/
def readShort (scope : Scope) (draft : Draft) : List Char → Except UsageError Draft
  | [] => .ok draft
  | c :: rest =>
      match Switch.short? scope c with
      | none => .error .unknownArgument
      | some switch =>
          if !switch.takesValue then do readShort scope (← draft.take switch none) rest
          else if rest.isEmpty then draft.await switch
          else draft.take switch (some (String.ofList (dropEquals rest)))

def misplaced (scope : Scope) (isTrailing : Bool) (word : String) : UsageError :=
  if scope != .program || (isTrailing && isCommand word) then .unknownArgument
  else .unknownCommand

def readOne (scope : Scope) (draft : Draft) (argument : String) : Except UsageError Draft :=
  match argument.toList with
  | '-' :: '-' :: text => draft.readLong scope text
  | '-' :: c :: text => draft.readShort scope (c :: text)
  | _ => if draft.awaits then .ok (draft.give argument) else .error (misplaced scope false argument)

def readAll (scope : Scope) (draft : Draft) : List String → Except UsageError Draft
  | [] => draft.settle
  | argument :: rest =>
      if argument == "--" then
        match rest with
        | [] => draft.settle
        | word :: _ => .error (misplaced scope true word)
      else do readAll scope (← draft.readOne scope argument) rest

end Draft

def ofDrafts (scope : Scope) (before after : Draft) : CommandLine where
  job := if scope == .capture then .capture (after.input.getD "-") else .showOptions
  optionsFile := after.optionsFile <|> before.optionsFile
  overrides := after.overrides

def readHelp : List String → UsageError
  | [] => .help
  | word :: rest => if isCommand word && rest.isEmpty then .help else .unknownCommand

def withoutCommand (draft : Draft) : UsageError :=
  if draft.seen.isEmpty then .nothing else .missingCommand

def readFrom (draft : Draft) : List String → Except UsageError CommandLine
  | [] => do throw (withoutCommand (← draft.settle))
  | argument :: rest =>
      if !draft.awaits && argument == helpName then .error (readHelp rest)
      else
        match if draft.awaits then none else Scope.ofName? argument with
        | some scope => do
            let after ← Draft.empty.readAll scope rest
            return ofDrafts scope (← draft.settle) after
        | none =>
            if argument == "--" then
              match rest with
              | [] => do throw (withoutCommand (← draft.settle))
              | word :: _ => .error (Draft.misplaced .program true word)
            else do readFrom (← draft.readOne .program argument) rest

def read (arguments : List String) : Except UsageError CommandLine :=
  readFrom .empty arguments

end CommandLine

end MoteCapture

import MoteCapture.Options.Basic
import MoteCapture.Report
import MoteCapture.Text.Basic
import MoteCapture.Text.Quoted

/-!
The journal of a capture: what it tells whoever watches it, line after line. It is shown with one line for
each entry that is loud enough.
-/

namespace MoteCapture

inductive Level where
  | debug
  | info
  | warn
  | error
  deriving DecidableEq, Repr

inductive FactValue where
  | number (n : Int)
  | text (s : String)
  deriving DecidableEq, Repr

structure Fact where
  key : String
  value : FactValue
  deriving DecidableEq, Repr

inductive Entry where
  | line (level : Level) (text : String)
  | row (mote : MoteId) (text : String)
  | milestone (name : String) (facts : List Fact)
  deriving DecidableEq, Repr

structure Journal where
  newestFirst : List Entry
  deriving DecidableEq, Repr

namespace Journal

def empty : Journal := ⟨[]⟩

def toList (journal : Journal) : List Entry :=
  journal.newestFirst.reverse

def note (journal : Journal) (entry : Entry) : Journal :=
  ⟨entry :: journal.newestFirst⟩

def append (journal later : Journal) : Journal :=
  ⟨later.newestFirst ++ journal.newestFirst⟩

@[simp] theorem toList_empty : empty.toList = [] := rfl

@[simp] theorem toList_note (journal : Journal) (entry : Entry) :
    (journal.note entry).toList = journal.toList ++ [entry] := by
  simp [toList, note]

@[simp] theorem toList_append (journal later : Journal) :
    (journal.append later).toList = journal.toList ++ later.toList := by
  simp [toList, append]

def debug (journal : Journal) (text : String) : Journal :=
  journal.note (.line .debug text)

def info (journal : Journal) (text : String) : Journal :=
  journal.note (.line .info text)

def warn (journal : Journal) (text : String) : Journal :=
  journal.note (.line .warn text)

def error (journal : Journal) (text : String) : Journal :=
  journal.note (.line .error text)

def mark (journal : Journal) (name : String) (facts : List Fact) : Journal :=
  journal.note (.milestone name facts)

end Journal

/-- A machine word as a signed number: its upper half stands for the negative ones. -/
def signed (word : UInt64) : Int :=
  Int.bmod word.toNat UInt64.size

namespace Fact

def ofNat (key : String) (n : Nat) : Fact :=
  ⟨key, .number n⟩

def ofWord (key : String) (word : UInt64) : Fact :=
  ⟨key, .number (signed word)⟩

def ofText (key text : String) : Fact :=
  ⟨key, .text text⟩

def describeValue : FactValue → String
  | .number n => "I64(" ++ toString n ++ ")"
  | .text s => "String(Owned(" ++ Text.Quoted.quote s ++ "))"

def describe (fact : Fact) : String :=
  "KeyValue \x7b key: Static(" ++ Text.Quoted.quote fact.key ++ "), value: " ++
    describeValue fact.value ++ " \x7d"

def describeAll (facts : List Fact) : String :=
  "[" ++ ", ".intercalate (facts.map describe) ++ "]"

end Fact

namespace Level

def name : Level → String
  | .debug => "debug"
  | .info => "info"
  | .warn => "warn"
  | .error => "error"

/-- How loud the level of a name is. A name that is no level is louder than all. -/
def loudness (name : String) : Nat :=
  logLevels.idxOf (name.map Char.toLower)

end Level

namespace Entry

/-- Rows and milestones are as loud as plain information. -/
def level : Entry → Level
  | .line level _ => level
  | .row _ _ => .info
  | .milestone _ _ => .info

def text : Entry → String
  | .line _ text => text
  | .row mote text => "[" ++ toString mote.toNat ++ "] " ++ text
  | .milestone name facts => name ++ " " ++ Fact.describeAll facts

end Entry

def Journal.shown (journal : Journal) (least : String) : List String :=
  journal.toList.filterMap fun entry =>
    if Level.loudness least ≤ Level.loudness entry.level.name then
      some (entry.level.name.toUpper ++ " " ++ entry.text)
    else none

end MoteCapture

import MoteCapture.Text.Basic

/-!
Reports: what one mote of a simulated sensor network printed, and when. A line of simulator output holds
the time, the mote as `ID:` with its number, and the message, either with tabs between the fields or with
blanks. The tab layout is recognised by the `ID:` that follows the first tab; a message is kept as it
stands in both layouts.

A time is either a plain count of milliseconds, or segments to base sixty with colons between them, the
last of which may have a decimal fraction of a second. It is computed in words of 64 bits, and every step
checks that a word holds what comes out.
-/

namespace MoteCapture

abbrev MoteId := UInt32

structure Report where
  /-- Simulated time in milliseconds. -/
  time : UInt64
  mote : MoteId
  message : String
  deriving DecidableEq, Repr, Inhabited

namespace Report.ClockTime

open Text

def plus? (a b : UInt64) : Option UInt64 :=
  if a.toNat + b.toNat < UInt64.size then some (a + b) else none

def times? (a b : UInt64) : Option UInt64 :=
  if a.toNat * b.toNat < UInt64.size then some (a * b) else none

def millis (fraction : List Char) : UInt64 :=
  ((fraction ++ ['0', '0', '0']).take 3).foldl
    (fun value c => value * 10 + UInt64.ofNat (Numeral.digitValue c)) 0

def sexagesimal? : UInt64 → List (List Char) → Option UInt64
  | high, [] => some high
  | high, segment :: rest => do
      let value ← Numeral.readUInt64? segment
      let shifted ← times? high 60
      sexagesimal? (← plus? shifted value) rest

def wholeAndFraction (seconds : List Char) : List Char × List Char :=
  (cutAt? (· == '.') seconds).getD (seconds, [])

def withSeconds? (minutes : UInt64) (seconds : List Char) : Option UInt64 := do
  let parts := wholeAndFraction seconds
  let whole ← Numeral.readUInt64? parts.1
  if parts.2.all Numeral.isDigit then
    let inSeconds ← plus? (← times? minutes 60) whole
    plus? (← times? inSeconds 1000) (millis parts.2)
  else none

def segmented? (field : List Char) : Option UInt64 := do
  let segments := splitAll ':' field
  let minutes ← sexagesimal? 0 segments.dropLast
  withSeconds? minutes (segments.getLast?.getD [])

def read? (field : List Char) : Option UInt64 :=
  if field.contains ':' then segmented? field else Numeral.readUInt64? field

end Report.ClockTime

namespace Report

open Text

inductive LineError where
  | missingMote
  | badTime (field : String)
  | badMote (field : String)
  deriving DecidableEq, Repr

def LineError.message : LineError → String
  | .missingMote => "missing node field"
  | .badTime field => "invalid time field '" ++ field ++ "'"
  | .badMote field => "invalid node field '" ++ field ++ "'"

def moteLead : List Char :=
  ['I', 'D', ':']

def readMote? (field : List Char) : Option MoteId :=
  (dropLead? moteLead field).bind Numeral.readUInt32?

structure Fields where
  time : List Char
  mote : List Char
  message : List Char

def isTabbed (line : List Char) : Bool :=
  match cutAt? (· == '\t') line with
  | some halves => moteLead.isPrefixOf (trimStart halves.2)
  | none => false

def tabbedFields (line : List Char) : Fields :=
  let first := (cutAt? (· == '\t') line).getD (line, [])
  let second := (cutAt? (· == '\t') first.2).getD (first.2, [])
  { time := trim first.1, mote := trim second.1, message := second.2 }

/-- Cuts at the first run of blanks, then at the one blank after the mote field. -/
def spacedFields? (line : List Char) : Option Fields :=
  (cutAt? isBlank (trimStart line)).map fun first =>
    let rest := trimStart first.2
    let second := (cutAt? isBlank rest).getD (rest, [])
    { time := first.1, mote := second.1, message := second.2 }

def fields? (line : List Char) : Option Fields :=
  if isTabbed line then some (tabbedFields line) else spacedFields? line

/-- Reads time and mote; of two bad fields the time is blamed. -/
def ofFields (fields : Fields) : Except LineError Report :=
  match ClockTime.read? fields.time with
  | none => .error (.badTime (String.ofList fields.time))
  | some time =>
      match readMote? fields.mote with
      | none => .error (.badMote (String.ofList fields.mote))
      | some mote => .ok { time, mote, message := String.ofList fields.message }

/-- Reads one line without its line end. A blank line is no report and no error. -/
def ofChars (line : List Char) : Except LineError (Option Report) :=
  let line := dropEnd isLineEnd line
  if (trim line).isEmpty then .ok none
  else
    match fields? line with
    | none => .error .missingMote
    | some fields => (ofFields fields).map some

def ofLine (line : String) : Except LineError (Option Report) :=
  ofChars line.toList

end Report

end MoteCapture

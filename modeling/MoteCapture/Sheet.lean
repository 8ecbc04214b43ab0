import MoteCapture.Disk
import MoteCapture.Journal

/-!
A sheet is an open file of rows with a buffer in front of it. Rows reach the disk when the buffer runs
full and when the sheet is closed; a failed write leaves the buffer as it was. A capture has at most one
open sheet per mote, in the order of the motes. Closing them all goes on after a sheet that cannot be
flushed, and reports the first error.

The rows of a sheet are counted without a bound. A word of 64 bits would do: every row is a report that
was taken, and no run takes 2^64 of them.
-/

namespace MoteCapture

open Text

structure Sheet where
  path : String
  place : Place
  offset : Nat
  newestPending : Bytes
  rows : Nat
  deriving DecidableEq, Repr

structure ClosedSheet where
  path : String
  rows : Nat
  deriving DecidableEq, Repr

namespace Sheet

def capacity : Nat := 8192

def pending (sheet : Sheet) : Bytes :=
  sheet.newestPending.reverse

def writeThrough (sheet : Sheet) (disk : Disk) (piece : Bytes) :
    Except IoError Unit × Sheet × Disk :=
  match disk.write sheet.place sheet.offset piece with
  | .ok written => (.ok (), { sheet with offset := sheet.offset + piece.length }, written)
  | .error e => (.error e, sheet, disk)

def flush (sheet : Sheet) (disk : Disk) : Except IoError Unit × Sheet × Disk :=
  if sheet.newestPending.isEmpty then (.ok (), sheet, disk)
  else
    match sheet.writeThrough disk sheet.pending with
    | (.ok (), written, disk) => (.ok (), { written with newestPending := [] }, disk)
    | failed => failed

/-- Puts a piece into the buffer, or writes it through if it is as long as the buffer. The buffer
is flushed first when the piece does not fit behind what waits there. -/
def put (sheet : Sheet) (disk : Disk) (piece : Bytes) : Except IoError Unit × Sheet × Disk :=
  let room :=
    if sheet.newestPending.length + piece.length ≤ capacity then (.ok (), sheet, disk)
    else sheet.flush disk
  match room with
  | (.ok (), sheet, disk) =>
      if piece.length < capacity then
        (.ok (), { sheet with newestPending := piece.reverse ++ sheet.newestPending }, disk)
      else sheet.writeThrough disk piece
  | failed => failed

def putLine (sheet : Sheet) (disk : Disk) (text : String) : Except IoError Unit × Sheet × Disk :=
  match sheet.put disk (encode text) with
  | (.ok (), sheet, disk) => sheet.put disk [10]
  | failed => failed

def writeRow (sheet : Sheet) (disk : Disk) (row : String) : Except IoError Unit × Sheet × Disk :=
  match sheet.putLine disk row with
  | (.ok (), sheet, disk) => (.ok (), { sheet with rows := sheet.rows + 1 }, disk)
  | failed => failed

def close (sheet : Sheet) (disk : Disk) : Except IoError ClosedSheet × Disk :=
  match sheet.flush disk with
  | (.ok (), _, disk) => (.ok ⟨sheet.path, sheet.rows⟩, disk)
  | (.error e, _, disk) => (.error e, disk)

end Sheet

/-- Where a capture takes place: the files it works on and the journal it keeps. -/
structure Site where
  disk : Disk
  journal : Journal

namespace Site

def debug (site : Site) (text : String) : Site :=
  { site with journal := site.journal.debug text }

def info (site : Site) (text : String) : Site :=
  { site with journal := site.journal.info text }

def warn (site : Site) (text : String) : Site :=
  { site with journal := site.journal.warn text }

def error (site : Site) (text : String) : Site :=
  { site with journal := site.journal.error text }

def mark (site : Site) (name : String) (facts : List Fact) : Site :=
  { site with journal := site.journal.mark name facts }

end Site

namespace Sheet

def create (site : Site) (path header : String) : Except IoError Sheet × Site :=
  match site.disk.ensureParent (.ofString path) with
  | (.error e, disk) => (.error e, { site with disk })
  | (.ok (), disk) =>
      match disk.create (.ofString path) with
      | (.error e, disk) => (.error e, { site with disk })
      | (.ok place, disk) =>
          match (Sheet.mk path place 0 [] 0).putLine disk header with
          | (.error e, _, disk) => (.error e, { site with disk })
          | (.ok (), sheet, disk) =>
              (.ok sheet, { site with disk }.debug ("Opened CSV sink " ++ path))

end Sheet

structure OpenSheets where
  sheets : List (MoteId × Sheet)
  deriving DecidableEq, Repr

namespace OpenSheets

def empty : OpenSheets := ⟨[]⟩

def size (opened : OpenSheets) : Nat :=
  opened.sheets.length

def isEmpty (opened : OpenSheets) : Bool :=
  opened.sheets.isEmpty

def get? (opened : OpenSheets) (mote : MoteId) : Option Sheet :=
  opened.sheets.lookup mote

def contains (opened : OpenSheets) (mote : MoteId) : Bool :=
  (opened.get? mote).isSome

def insertSorted (mote : MoteId) (sheet : Sheet) : List (MoteId × Sheet) → List (MoteId × Sheet)
  | [] => [(mote, sheet)]
  | entry :: rest =>
      if mote < entry.1 then (mote, sheet) :: entry :: rest
      else if mote == entry.1 then (mote, sheet) :: rest
      else entry :: insertSorted mote sheet rest

def insert (opened : OpenSheets) (mote : MoteId) (sheet : Sheet) : OpenSheets :=
  ⟨insertSorted mote sheet opened.sheets⟩

/-- The sheet of a mote. If it has none, `create` makes one; the flag tells that it was asked to,
and nothing is kept when it fails. -/
def obtain (opened : OpenSheets) (mote : MoteId) (site : Site)
    (create : Site → Except IoError Sheet × Site) :
    Except IoError Sheet × Bool × OpenSheets × Site :=
  match opened.get? mote with
  | some sheet => (.ok sheet, false, opened, site)
  | none =>
      match create site with
      | (.ok sheet, site) => (.ok sheet, true, opened.insert mote sheet, site)
      | (.error e, site) => (.error e, true, opened, site)

def writeRow (opened : OpenSheets) (mote : MoteId) (disk : Disk) (row : String) :
    Except IoError Nat × OpenSheets × Disk :=
  match opened.get? mote with
  | none => (.error .notFound, opened, disk)
  | some sheet =>
      match sheet.writeRow disk row with
      | (.ok (), sheet, disk) => (.ok sheet.rows, opened.insert mote sheet, disk)
      | (.error e, sheet, disk) => (.error e, opened.insert mote sheet, disk)

def closeOne (sheet : Sheet) (site : Site) : Except IoError ClosedSheet × Site :=
  match sheet.close site.disk with
  | (.ok closed, disk) =>
      (.ok closed, { site with disk }.debug
        ("Closed CSV sink " ++ closed.path ++ " (" ++ toString closed.rows ++ " rows)"))
  | (.error e, disk) =>
      (.error e, { site with disk }.warn
        ("Failed to flush CSV sink " ++ sheet.path ++ ": " ++ e.message))

def closeEach (site : Site) :
    List (MoteId × Sheet) → Except IoError (List (MoteId × ClosedSheet)) × Site
  | [] => (.ok [], site)
  | entry :: rest =>
      let first := closeOne entry.2 site
      let others := closeEach first.2 rest
      match first.1, others.1 with
      | .error e, _ => (.error e, others.2)
      | .ok _, .error e => (.error e, others.2)
      | .ok closed, .ok closeds => (.ok ((entry.1, closed) :: closeds), others.2)

/-- Closes all sheets; none is open afterwards, whether or not it went well. -/
def closeAll (opened : OpenSheets) (site : Site) :
    Except IoError (List (MoteId × ClosedSheet)) × OpenSheets × Site :=
  let outcome := closeEach site opened.sheets
  (outcome.1, empty, outcome.2)

/-- Writes out what waits in the buffers, as far as that goes, and keeps quiet about it. -/
def abandon (opened : OpenSheets) (disk : Disk) : Disk :=
  opened.sheets.foldl (fun disk entry => (entry.2.flush disk).2.2) disk

end OpenSheets

end MoteCapture

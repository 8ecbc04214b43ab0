import MoteCapture.Text.Basic

/-!
The disk that a capture reads from and writes to: a tree of folders and files with a working directory. A
path is a row of steps between slashes; a place is the row of names that leads to a node from the root.
There are no links, so every node has one place. All steps before the last one of a path have to be
folders, and neither a path nor a name in it may be too long.

A write to a file is assumed to go well and to write all its bytes: no disk runs full and none breaks.
Only the full device refuses bytes, and it refuses all of them.
-/

namespace MoteCapture

inductive IoError where
  | notFound
  | alreadyExists
  | notADirectory
  | isADirectory
  | storageFull
  | nameTooLong
  | nulInPath
  | other (text : String)
  deriving DecidableEq, Repr

def IoError.message : IoError → String
  | .notFound => "No such file or directory (os error 2)"
  | .alreadyExists => "File exists (os error 17)"
  | .notADirectory => "Not a directory (os error 20)"
  | .isADirectory => "Is a directory (os error 21)"
  | .storageFull => "No space left on device (os error 28)"
  | .nameTooLong => "File name too long (os error 36)"
  | .nulInPath => "file name contained an unexpected NUL byte"
  | .other text => text

open Text

structure Path where
  rooted : Bool
  steps : List String
  slashed : Bool
  /-- How many slashes are written that the path does not need. -/
  spare : Nat := 0
  deriving DecidableEq, Repr

namespace Path

def toString (path : Path) : String :=
  (if path.rooted then "/" else "") ++ "/".intercalate path.steps

def size (path : Path) : Nat :=
  path.toString.utf8ByteSize + (if path.slashed && !path.steps.isEmpty then 1 else 0) + path.spare

def ofString (text : String) : Path :=
  let pieces := splitAll '/' text.toList
  let path : Path :=
    { rooted := text.toList.head? == some '/'
      steps := (pieces.filter fun piece => !piece.isEmpty).map String.ofList
      slashed := (pieces.getLast?.getD []).isEmpty && !text.isEmpty }
  { path with spare := text.utf8ByteSize - path.size }

/-- The path without its single dots, save one at the front of a relative path. -/
def plain (path : Path) : Path :=
  let named := path.steps.filter fun step => step != "."
  { rooted := path.rooted
    steps := if !path.rooted && path.steps.head? == some "." then "." :: named else named
    slashed := false }

def parent? (path : Path) : Option Path :=
  let steps := path.plain.steps
  if steps.isEmpty then none
  else some { rooted := path.rooted, steps := steps.dropLast, slashed := false }

end Path

abbrev Place := List String

inductive Node where
  | folder
  | file (bytes : Bytes)
  /-- A device that can be opened and takes no byte. -/
  | full
  deriving DecidableEq, Repr

structure Disk where
  nodes : List (Place × Node)
  here : Place
  deriving Repr

def putNode (place : Place) (node : Node) : List (Place × Node) → List (Place × Node)
  | [] => [(place, node)]
  | entry :: rest =>
      if entry.1 == place then (place, node) :: rest else entry :: putNode place node rest

namespace Disk

/-- The node at a place; the root is always a folder. -/
def node? (disk : Disk) (place : Place) : Option Node :=
  if place.isEmpty then some .folder else disk.nodes.lookup place

def put (disk : Disk) (place : Place) (node : Node) : Disk :=
  { disk with nodes := putNode place node disk.nodes }

def greatestName : Nat := 255

def greatestPath : Nat := 4095

def look (disk : Disk) (place : Place) : Except IoError (Option Node) :=
  if (place.getLast?.getD "").utf8ByteSize ≤ greatestName then .ok (disk.node? place)
  else .error .nameTooLong

def enter (disk : Disk) (place : Place) (step : String) : Except IoError Place :=
  if step == "." then .ok place
  else if step == ".." then .ok place.dropLast
  else
    match disk.look (place ++ [step]) with
    | .error e => .error e
    | .ok none => .error .notFound
    | .ok (some .folder) => .ok (place ++ [step])
    | .ok (some _) => .error .notADirectory

def walk (disk : Disk) : Place → List String → Except IoError Place
  | place, [] => .ok place
  | place, step :: rest =>
      match disk.enter place step with
      | .ok next => disk.walk next rest
      | .error e => .error e

def locate (disk : Disk) (path : Path) : Except IoError Place :=
  if path.steps.any fun step => step.toList.contains '\x00' then .error .nulInPath
  else if greatestPath < path.size then .error .nameTooLong
  else
    match path.steps.getLast? with
    | none => if path.rooted then .ok [] else .error .notFound
    | some last =>
        match disk.walk (if path.rooted then [] else disk.here) path.steps.dropLast with
        | .error e => .error e
        | .ok folder =>
            if last == "." then .ok folder
            else if last == ".." then .ok folder.dropLast
            else .ok (folder ++ [last])

def find (disk : Disk) (path : Path) : Except IoError (Place × Node) :=
  match disk.locate path with
  | .error e => .error e
  | .ok place =>
      match disk.look place with
      | .error e => .error e
      | .ok none => .error .notFound
      | .ok (some .folder) => .ok (place, .folder)
      | .ok (some node) => if path.slashed then .error .notADirectory else .ok (place, node)

def has (disk : Disk) (path : Path) : Bool :=
  match disk.find path with
  | .ok _ => true
  | .error _ => false

def hasFolder (disk : Disk) (path : Path) : Bool :=
  match disk.find path with
  | .ok (_, .folder) => true
  | _ => false

def file? (disk : Disk) (path : Path) : Option Bytes :=
  match disk.find path with
  | .ok (_, .file bytes) => some bytes
  | _ => none

def makeFolder (disk : Disk) (path : Path) : Except IoError Unit × Disk :=
  match disk.locate path with
  | .error e => (.error e, disk)
  | .ok place =>
      match disk.look place with
      | .error e => (.error e, disk)
      | .ok (some _) => (.error .alreadyExists, disk)
      | .ok none => (.ok (), disk.put place .folder)

def ensureFolder (disk : Disk) (path : Path) : Except IoError Unit × Disk :=
  match disk.makeFolder path with
  | (.error e, _) => if disk.hasFolder path then (.ok (), disk) else (.error e, disk)
  | made => made

/-- Makes the folder that the steps lead to, given from the innermost outwards, and the folders
around it that are missing. Those that were made stay when a later one cannot be made. -/
def ensureFolders (disk : Disk) (rooted : Bool) : List String → Except IoError Unit × Disk
  | [] => (.ok (), disk)
  | last :: outer =>
      let path : Path := { rooted, steps := (last :: outer).reverse, slashed := false }
      match disk.makeFolder path with
      | (.ok (), made) => (.ok (), made)
      | (.error .notFound, _) =>
          match disk.ensureFolders rooted outer with
          | (.ok (), around) => around.ensureFolder path
          | failed => failed
      | (.error e, _) => if disk.hasFolder path then (.ok (), disk) else (.error e, disk)

def ensureParent (disk : Disk) (path : Path) : Except IoError Unit × Disk :=
  match path.parent? with
  | none => (.ok (), disk)
  | some parent => disk.ensureFolders parent.rooted parent.steps.reverse

def create (disk : Disk) (path : Path) : Except IoError Place × Disk :=
  match disk.locate path with
  | .error e => (.error e, disk)
  | .ok place =>
      if path.slashed then (.error .isADirectory, disk)
      else
        match disk.look place with
        | .error e => (.error e, disk)
        | .ok (some .folder) => (.error .isADirectory, disk)
        | .ok (some .full) => (.ok place, disk)
        | .ok _ => (.ok place, disk.put place (.file []))

/-- The bytes with `piece` written over them from `offset` on; a gap is filled with zeros. -/
def overwrite (bytes : Bytes) (offset : Nat) (piece : Bytes) : Bytes :=
  bytes.take offset ++ (List.replicate (offset - bytes.length) 0 ++
    (piece ++ bytes.drop (offset + piece.length)))

/-- Writes to an open file, which goes well and is never cut short; the full device refuses all bytes. -/
def write (disk : Disk) (place : Place) (offset : Nat) (piece : Bytes) : Except IoError Disk :=
  match disk.node? place with
  | some (.file bytes) => .ok (disk.put place (.file (overwrite bytes offset piece)))
  | _ => .error .storageFull

def filesHere (disk : Disk) : List (String × Bytes) :=
  disk.nodes.filterMap fun entry =>
    match entry.2 with
    | .file bytes =>
        if disk.here.isPrefixOf entry.1 then
          some ("/".intercalate (entry.1.drop disk.here.length), bytes)
        else none
    | _ => none

def withFile (disk : Disk) (path : Path) (bytes : Bytes) : Disk :=
  let around := (disk.ensureParent path).2
  match around.create path with
  | (.ok place, made) => made.put place (.file bytes)
  | (.error _, same) => same

def withFolder (disk : Disk) (path : Path) : Disk :=
  (disk.ensureFolders path.rooted path.plain.steps.reverse).2

def blank : Disk where
  nodes :=
    [(["dev"], .folder), (["dev", "full"], .full), (["work"], .folder), (["work", "run"], .folder)]
  here := ["work", "run"]

end Disk

/-! A glimpse of a larger disk holds only what some paths lead to. Whoever knows that disk fills the glimpse
place by place, lets something happen to it, and carries the changes back. -/

def Place.ofString (text : String) : Place :=
  (Path.ofString text).steps

def Place.next (place : Place) (step : String) : Place :=
  if step == "." then place
  else if step == ".." then place.dropLast
  else place ++ [step]

def Place.trail (place : Place) : List String → List Place
  | [] => []
  | step :: rest => place.next step :: Place.trail (place.next step) rest

namespace Disk

def standing (here : Place) : Disk where
  nodes := (Place.trail [] here).map fun place => (place, .folder)
  here := here

def trail (disk : Disk) (path : Path) : List Place :=
  Place.trail (if path.rooted then [] else disk.here) path.steps

def changes (before after : Disk) : List (Place × Node) :=
  after.nodes.filter fun entry => before.node? entry.1 != some entry.2

end Disk

end MoteCapture

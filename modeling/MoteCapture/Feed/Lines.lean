import MoteCapture.Feed.Script
import MoteCapture.Report
import MoteCapture.Text.Basic

/-!
Feeds of lines. Lines that are not UTF-8 or not reports are counted and noted, blank lines are passed over
in silence, and every other line is one report. The lines may all be there from the start, or come from a
file. A file is fetched piece by piece, and only when no line is held any more: what is written to it
meanwhile is read as well, and what is cut off is not.

Lines are counted without a bound. Words of 64 bits would do: a line takes a byte at least, and no run
reads 2^64 bytes.
-/

namespace MoteCapture

open Text

def cutLines (lines : List Bytes) (line : Bytes) : Bytes → List Bytes
  | [] => (if line.isEmpty then lines else line.reverse :: lines).reverse
  | b :: rest =>
      if b == 10 then cutLines ((b :: line).reverse :: lines) [] rest
      else cutLines lines (b :: line) rest

/-- The lines of some bytes, each with its line feed; only the last one may lack it. -/
def linesOf (bytes : Bytes) : List Bytes :=
  cutLines [] [] bytes

def readReport (line : Bytes) : Except String (Option Report) :=
  match decode? line with
  | none => .error "not valid UTF-8"
  | some text =>
      match Report.ofLine text with
      | .error e => .error e.message
      | .ok report => .ok report

def skipNote (number : Nat) (cause : String) : String :=
  "Skipping line " ++ toString number ++ ": " ++ cause

inductive Tail where
  | ended
  /-- The input stays open, and nothing comes. -/
  | held
  | broken (error : IoError)
  deriving DecidableEq, Repr

structure LineFeed where
  lines : List Bytes
  tail : Tail
  read : Nat
  skipped : Nat
  deriving Repr

namespace LineFeed

def ofBytes (bytes : Bytes) : LineFeed :=
  ⟨linesOf bytes, .ended, 0, 0⟩

/-- An input that does not end: its last line is not complete without a line feed. -/
def heldOpen (bytes : Bytes) : LineFeed :=
  ⟨(linesOf bytes).filter fun line => line.getLast? == some 10, .held, 0, 0⟩

def unreadable (error : IoError) : LineFeed :=
  ⟨[], .broken error, 0, 0⟩

def atEnd (tail : Tail) (read skipped : Nat) : Turn LineFeed :=
  match tail with
  | .ended => .comes 0 .ended ⟨[], tail, read, skipped⟩
  | .held => .never ⟨[], tail, read, skipped⟩
  | .broken error => .comes 0 (.failed (.io error)) ⟨[], tail, read, skipped⟩

def seek (tail : Tail) : List Bytes → Nat → Nat → Journal → Pull LineFeed
  | [], read, skipped, notes => ⟨notes, none, atEnd tail read skipped⟩
  | line :: rest, read, skipped, notes =>
      match readReport line with
      | .error cause =>
          seek tail rest (read + 1) (skipped + 1) (notes.warn (skipNote (read + 1) cause))
      | .ok none => seek tail rest (read + 1) skipped notes
      | .ok (some report) =>
          ⟨notes, none, .comes 0 (.report report) ⟨rest, tail, read + 1, skipped⟩⟩

theorem atEnd_ne_report {tail : Tail} {read skipped ms : Nat} {report : Report}
    {rest : LineFeed} : atEnd tail read skipped ≠ .comes ms (.report report) rest := by
  cases tail <;> simp [atEnd]

theorem seek_shorter {tail : Tail} {lines : List Bytes} {read skipped ms : Nat}
    {notes : Journal} {report : Report} {rest : LineFeed}
    (found : (seek tail lines read skipped notes).turn = .comes ms (.report report) rest) :
    rest.lines.length < lines.length := by
  fun_induction seek tail lines read skipped notes with
  | case1 => exact absurd found atEnd_ne_report
  | case2 _ _ _ _ _ _ _ ih => exact Nat.lt_succ_of_lt (ih found)
  | case3 _ _ _ _ _ _ ih => exact Nat.lt_succ_of_lt (ih found)
  | case4 => cases found; simp

instance : Feed LineFeed where
  pull _ feed := seek feed.tail feed.lines feed.read feed.skipped .empty
  size feed := feed.lines.length
  size_lt found := seek_shorter found

end LineFeed

structure FileFeed where
  place : Place
  position : Nat
  held : Bytes
  read : Nat
  skipped : Nat
  /-- How many reports the feed gives at most. -/
  left : Nat
  deriving Repr

namespace FileFeed

def piece : Nat := 8192

def start (place : Place) (left : Nat) : FileFeed :=
  ⟨place, 0, [], 0, 0, left⟩

def content (disk : Disk) (place : Place) : Bytes :=
  match disk.node? place with
  | some (.file bytes) => bytes
  | _ => []

/-- How many bytes are fetched of those that are there, so that at least `count` are. -/
def fetched (there count : Nat) : Nat :=
  min there (piece * ((count + piece - 1) / piece))

def lineLength (bytes : Bytes) : Nat :=
  min bytes.length ((bytes.takeWhile fun b => b != 10).length + 1)

/-- Reads a line. It is what is held up to a line feed or, if that has none, together with what
has to be fetched. -/
def readLine (content : Bytes) (feed : FileFeed) : Bytes × FileFeed :=
  let length := lineLength feed.held
  let line := feed.held.take length
  if line.getLast? == some 10 then (line, { feed with held := feed.held.drop length })
  else
    let fresh := content.drop feed.position
    let more := lineLength fresh
    let got := fetched fresh.length more
    (line ++ fresh.take more,
      { feed with held := (fresh.take got).drop more, position := feed.position + got })

def unread (content : Bytes) (feed : FileFeed) : Nat :=
  feed.held.length + (content.length - feed.position)

theorem lineLength_le (bytes : Bytes) : lineLength bytes ≤ bytes.length :=
  Nat.min_le_left ..

theorem le_fetched {there count : Nat} (bound : count ≤ there) : count ≤ fetched there count := by
  unfold fetched piece
  omega

theorem fetched_le (there count : Nat) : fetched there count ≤ there :=
  Nat.min_le_left ..

/-- What is read is not unread any more. -/
theorem unread_readLine (content : Bytes) (feed : FileFeed) :
    (readLine content feed).1.length + unread content (readLine content feed).2 ≤
      unread content feed := by
  have whole := lineLength_le feed.held
  have first := lineLength_le (content.drop feed.position)
  have enough := le_fetched first
  have there := fetched_le (content.drop feed.position).length
    (lineLength (content.drop feed.position))
  simp only [List.length_drop] at first enough there
  unfold readLine unread
  dsimp only
  split
  · simp
    omega
  · simp
    omega

def seek (content : Bytes) (feed : FileFeed) (notes : Journal) : Pull FileFeed :=
  match _line : readLine content feed with
  | ([], rest) => ⟨notes, none, .comes 0 .ended rest⟩
  | (b :: line, rest) =>
      let number := rest.read + 1
      match readReport (b :: line) with
      | .error cause =>
          seek content { rest with read := number, skipped := rest.skipped + 1 }
            (notes.warn (skipNote number cause))
      | .ok none => seek content { rest with read := number } notes
      | .ok (some report) =>
          ⟨notes, none, .comes 0 (.report report) { rest with read := number }⟩
termination_by unread content feed
decreasing_by
  all_goals
    have fewer := unread_readLine content feed
    simp only [_line, List.length_cons, unread] at fewer ⊢
    omega

theorem left_readLine (content : Bytes) (feed : FileFeed) :
    (readLine content feed).2.left = feed.left := by
  unfold readLine
  dsimp only
  split <;> rfl

theorem left_seek {content : Bytes} {feed rest : FileFeed} {notes : Journal} {ms : Nat}
    {delivery : Delivery} (found : (seek content feed notes).turn = .comes ms delivery rest) :
    rest.left = feed.left := by
  fun_induction seek content feed notes with
  | case1 feed _ _ _ => cases found; have := left_readLine content feed; simp_all
  | case2 feed _ _ _ _ _ _ _ _ ih =>
      have := left_readLine content feed; have := ih found; simp_all
  | case3 feed _ _ _ _ _ _ _ ih =>
      have := left_readLine content feed; have := ih found; simp_all
  | case4 feed _ _ _ _ _ => cases found; have := left_readLine content feed; simp_all

def next (disk : Disk) (feed : FileFeed) : Pull FileFeed :=
  match feed.left with
  | 0 => ⟨.empty, none, .comes 0 .ended feed⟩
  | left + 1 => seek (content disk feed.place) { feed with left } .empty

instance : Feed FileFeed where
  pull := next
  size feed := feed.left
  size_lt := by
    intro disk feed rest ms report found
    unfold next at found
    split at found
    · simp at found
    · next same => have := left_seek found; simp_all

end FileFeed

end MoteCapture

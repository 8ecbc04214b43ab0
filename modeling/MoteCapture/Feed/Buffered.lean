import MoteCapture.Feed.Lines

/-!
A feed of lines behind a buffer. The buffer shows some of the bytes to come, at least one as long as
there is any, and a line is put together from as many looks as it takes. Lines are told apart,
counted and noted as in a feed of lines.
-/

namespace MoteCapture

open Text
open FileFeed (lineLength lineLength_le)

structure BufferedFeed where
  unread : Bytes
  /-- How many bytes the buffer shows besides the first one, by the number of the bytes to come. -/
  shows : Nat → Nat
  read : Nat
  skipped : Nat

namespace BufferedFeed

def ofBytes (shows : Nat → Nat) (bytes : Bytes) : BufferedFeed :=
  ⟨bytes, shows, 0, 0⟩

/-- The looks into a buffer that is filled with `capacity` bytes whenever it is empty. -/
def filling (capacity total unread : Nat) : Nat :=
  capacity - 1 - (total - unread) % capacity

def readLine (shows : Nat → Nat) : Bytes → Bytes × Bytes
  | [] => ([], [])
  | b :: rest =>
      let shown := (b :: rest).take (shows (b :: rest).length + 1)
      let line := shown.take (lineLength shown)
      if line.getLast? == some 10 then (line, (b :: rest).drop line.length)
      else
        let more := readLine shows (rest.drop (shows (b :: rest).length))
        (line ++ more.1, more.2)
termination_by unread => unread.length
decreasing_by
  simp only [List.length_drop, List.length_cons]
  omega

theorem lineLength_cons (b : UInt8) (rest : Bytes) :
    lineLength (b :: rest) = if b = 10 then 1 else lineLength rest + 1 := by
  by_cases ends : b = 10
  · simp [lineLength, ends]
  · simp [lineLength, ends]

theorem take_lineLength_ends {bytes : Bytes} :
    (bytes.take (lineLength bytes)).getLast? = some 10 ↔ 10 ∈ bytes := by
  induction bytes with
  | nil => simp
  | cons b rest ih =>
      rw [lineLength_cons]
      by_cases ends : b = 10
      · simp [ends]
      · rw [if_neg ends, List.take_succ_cons, List.mem_cons, ← ih, List.getLast?_cons]
        rcases (rest.take (lineLength rest)).getLast? with _ | last
        · simp [ends, Ne.symm ends]
        · simp [Ne.symm ends]

theorem lineLength_append (first second : Bytes) :
    lineLength (first ++ second) =
      if 10 ∈ first then lineLength first else first.length + lineLength second := by
  induction first with
  | nil => simp
  | cons b rest ih =>
      rw [List.cons_append, lineLength_cons, lineLength_cons, ih]
      by_cases ends : b = 10
      · simp [ends]
      · by_cases later : 10 ∈ rest
        · simp [ends, later]
        · simp [ends, later, Ne.symm ends]
          omega

theorem lineLength_whole {bytes : Bytes} (outside : 10 ∉ bytes) : lineLength bytes = bytes.length := by
  have whole := lineLength_append bytes []
  rw [List.append_nil, if_neg outside] at whole
  exact whole

/-- Whatever the buffer shows at a time, the line is the same. -/
theorem readLine_eq (shows : Nat → Nat) (unread : Bytes) :
    readLine shows unread = (unread.take (lineLength unread), unread.drop (lineLength unread)) := by
  fun_induction readLine shows unread with
  | case1 => rfl
  | case2 b rest shown line ends =>
      have split : b :: rest = shown ++ (b :: rest).drop (shows (b :: rest).length + 1) :=
        (List.take_append_drop _ _).symm
      have inside : 10 ∈ shown := take_lineLength_ends.mp (beq_iff_eq.mp ends)
      have length : lineLength (b :: rest) = lineLength shown := by
        rw [split, lineLength_append, if_pos inside]
      have size : line.length = lineLength shown :=
        List.length_take_of_le (lineLength_le shown)
      rw [size, length, split, List.take_append_of_le_length (lineLength_le shown), ← split]
  | case3 b rest shown line unended more ih =>
      have split : b :: rest = shown ++ rest.drop (shows (b :: rest).length) :=
        (List.take_append_drop (shows (b :: rest).length + 1) (b :: rest)).symm
      have outside : 10 ∉ shown := fun inside =>
        unended (beq_iff_eq.mpr (take_lineLength_ends.mpr inside))
      have length : lineLength (b :: rest) =
          shown.length + lineLength (rest.drop (shows (b :: rest).length)) :=
        (congrArg lineLength split).trans ((lineLength_append ..).trans (if_neg outside))
      have whole : line = shown :=
        List.take_of_length_le (Nat.le_of_eq (lineLength_whole outside).symm)
      rw [length, show more = _ from ih, whole]
      generalize rest.drop (shows (b :: rest).length) = left at split
      rw [split, List.take_length_add_append, List.drop_length_add_append]

theorem unread_readLine (shows : Nat → Nat) (unread : Bytes) :
    (readLine shows unread).1.length + (readLine shows unread).2.length = unread.length := by
  have bound := lineLength_le unread
  simp only [readLine_eq, List.length_take, List.length_drop]
  omega

def seek (feed : BufferedFeed) (notes : Journal) : Pull BufferedFeed :=
  match _line : readLine feed.shows feed.unread with
  | ([], unread) => ⟨notes, none, .comes 0 .ended { feed with unread }⟩
  | (b :: line, unread) =>
      let number := feed.read + 1
      match readReport (b :: line) with
      | .error cause =>
          seek { feed with unread, read := number, skipped := feed.skipped + 1 }
            (notes.warn (skipNote number cause))
      | .ok none => seek { feed with unread, read := number } notes
      | .ok (some report) =>
          ⟨notes, none, .comes 0 (.report report) { feed with unread, read := number }⟩
termination_by feed.unread.length
decreasing_by
  all_goals
    have whole := unread_readLine feed.shows feed.unread
    simp only [_line, List.length_cons] at whole ⊢
    omega

theorem seek_shorter {feed rest : BufferedFeed} {notes : Journal} {ms : Nat} {report : Report}
    (found : (seek feed notes).turn = .comes ms (.report report) rest) :
    rest.unread.length < feed.unread.length := by
  fun_induction seek feed notes with
  | case1 => cases found
  | case2 feed _ _ _ _ line _ _ _ ih =>
      have whole := unread_readLine feed.shows feed.unread
      have later := ih found
      simp only [line, List.length_cons] at whole later
      omega
  | case3 feed _ _ _ _ line _ _ ih =>
      have whole := unread_readLine feed.shows feed.unread
      have later := ih found
      simp only [line, List.length_cons] at whole later
      omega
  | case4 feed _ _ _ _ line _ _ _ =>
      have whole := unread_readLine feed.shows feed.unread
      cases found
      simp only [line, List.length_cons] at whole ⊢
      omega

instance : Feed BufferedFeed where
  pull _ feed := seek feed .empty
  size feed := feed.unread.length
  size_lt found := seek_shorter found

end BufferedFeed

end MoteCapture

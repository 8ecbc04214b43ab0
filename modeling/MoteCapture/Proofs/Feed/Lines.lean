import MoteCapture.Feed.Buffered
import MoteCapture.Feed.Lines
import MoteCapture.Text.Basic

/-!
The reports that an input stands for. Its lines are the pieces between its line feeds, and each line that
is UTF-8 and a report counts. A feed of the input gives these reports one by one, and no more after them;
so does a feed behind a buffer, however much the buffer shows at a time, and the feed of a file, as long
as the file stays as it is.
-/

namespace MoteCapture

open Text

namespace Text

theorem encode_ofList (text : List Char) :
    encode (String.ofList text) = text.flatMap String.utf8EncodeChar := by
  simp [encode, List.utf8Encode]

theorem encode_append (first second : String) :
    encode (first ++ second) = encode first ++ encode second := by
  simp [encode, String.toByteArray_append]

-- The bytes of a character outside ASCII are all 128 or more.
theorem le_of_mem_utf8EncodeChar {c : Char} (long : 127 < c.val.toNat) :
    ∀ b ∈ String.utf8EncodeChar c, 128 ≤ b.toNat := by
  have high : ∀ {n : Nat}, 128 ≤ n → n < 256 → 128 ≤ (UInt8.ofNat n).toNat := by
    intro n low byte
    rw [UInt8.toNat_ofNat', Nat.mod_eq_of_lt byte]
    exact low
  fun_cases String.utf8EncodeChar c with
  | case1 v short => exact absurd long (Nat.not_lt.mpr short)
  | case2 | case3 | case4 =>
      intro b member
      simp only [List.mem_cons, List.not_mem_nil, or_false] at member
      rcases member with rfl | rfl | rfl | rfl
      all_goals exact high (by omega) (by omega)

-- So no longer character has the byte of a line feed in it.
theorem line_feed_mem_utf8EncodeChar {c : Char} (member : 10 ∈ String.utf8EncodeChar c) :
    c = '\n' := by
  by_cases long : 127 < c.val.toNat
  · have high : 128 ≤ (10 : UInt8).toNat := le_of_mem_utf8EncodeChar long 10 member
    exact absurd high (by decide)
  · have size : c.utf8Size = 1 := by
      rw [Char.utf8Size_eq_one_iff, UInt32.le_iff_toNat_le]
      exact Nat.not_lt.mp long
    rw [String.utf8EncodeChar_eq_singleton size, List.mem_singleton] at member
    have byte : c.val.toNat % 256 = 10 := (congrArg UInt8.toNat member).symm
    have value : c.val.toNat = 10 := by omega
    apply Char.ext
    apply UInt32.toNat_inj.mp
    rw [value]
    rfl

theorem line_feed_mem_encode {text : String} (member : 10 ∈ encode text) : '\n' ∈ text.toList := by
  rw [← String.ofList_toList (s := text), encode_ofList] at member
  obtain ⟨c, inText, inChar⟩ := List.mem_flatMap.mp member
  rwa [← line_feed_mem_utf8EncodeChar inChar]

-- A line feed at the end of a line is a character for itself.
theorem decode?_line_feed (line : Bytes) :
    decode? (line ++ [10]) = (decode? line).map (· ++ "\n") := by
  have feed : encode "\n" = [10] := by decide
  cases found : decode? line with
  | some text =>
      rw [decode?_eq_some_iff.mp found, ← feed, ← encode_append]
      exact decode?_eq_some_iff.mpr rfl
  | none =>
      rw [Option.map_none, Option.eq_none_iff_forall_ne_some]
      intro text whole
      have bytes := decode?_eq_some_iff.mp whole
      rw [← String.ofList_toList (s := text), encode_ofList] at bytes
      rcases List.eq_nil_or_concat text.toList with bare | ⟨start, c, split⟩
      · simp [bare] at bytes
      · rw [split, List.concat_eq_append, List.flatMap_append, List.flatMap_singleton] at bytes
        have last : (String.utf8EncodeChar c).getLast? = some 10 := by
          simpa [List.getLast?_append] using (congrArg List.getLast? bytes).symm
        rw [line_feed_mem_utf8EncodeChar (List.mem_of_getLast? last)] at bytes
        have same : line = encode (String.ofList start) := by
          rw [encode_ofList]
          exact List.append_cancel_right (bytes.trans (by rfl))
        rw [decode?_eq_some_iff.mpr same] at found
        cases found

end Text

def reportOf? (line : Bytes) : Option Report :=
  match readReport line with
  | .ok report => report
  | .error _ => none

def reportsIn (input : Bytes) : List Report :=
  (splitAll 10 input).filterMap reportOf?

@[simp] theorem reportOf?_nil : reportOf? [] = none := by
  decide +kernel

theorem ofLine_line_feed (text : String) : Report.ofLine (text ++ "\n") = Report.ofLine text := by
  have dropped : dropEnd isLineEnd (text.toList ++ ['\n']) = dropEnd isLineEnd text.toList := by
    simp [dropEnd, isLineEnd]
  have tail : "\n".toList = ['\n'] := rfl
  simp only [Report.ofLine, Report.ofChars, String.toList_append, tail, dropped]

theorem reportOf?_line_feed (line : Bytes) : reportOf? (line ++ [10]) = reportOf? line := by
  rw [reportOf?, reportOf?, readReport, readReport, decode?_line_feed]
  cases decode? line with
  | none => rfl
  | some text => simp only [Option.map_some, ofLine_line_feed]

-- The first piece goes on with the line that was begun, and the others are lines of their own.
theorem filterMap_cutLines (bytes : Bytes) :
    ∃ piece pieces, splitAll 10 bytes = piece :: pieces ∧ ∀ lines line,
      (cutLines lines line bytes).filterMap reportOf? =
        lines.reverse.filterMap reportOf? ++
          ((line.reverse ++ piece) :: pieces).filterMap reportOf? := by
  induction bytes with
  | nil =>
      refine ⟨[], [], rfl, fun lines line => ?_⟩
      by_cases bare : line = []
      · simp [cutLines, bare]
      · simp [cutLines, bare]
  | cons b rest ih =>
      obtain ⟨piece, pieces, same, cut⟩ := ih
      by_cases ends : b = 10
      · refine ⟨[], piece :: pieces, by simp [splitAll, same, ends], fun lines line => ?_⟩
        have whole : reportOf? (10 :: line).reverse = reportOf? (line.reverse ++ []) := by
          rw [List.reverse_cons, reportOf?_line_feed, List.append_nil]
        have next : cutLines lines line (10 :: rest) =
            cutLines ((10 :: line).reverse :: lines) [] rest := rfl
        rw [ends, next, cut, List.reverse_cons, List.filterMap_append, List.append_assoc]
        congr 1
        rw [← List.filterMap_append, List.singleton_append, List.filterMap_cons,
          List.filterMap_cons, whole]
        rfl
      · refine ⟨b :: piece, pieces, by simp [splitAll, same, ends], fun lines line => ?_⟩
        simp [cutLines, ends, cut]

-- The lines of a feed have the reports of its input.
theorem filterMap_linesOf (input : Bytes) : (linesOf input).filterMap reportOf? = reportsIn input := by
  obtain ⟨piece, pieces, same, cut⟩ := filterMap_cutLines input
  rw [linesOf, cut, reportsIn, same]
  rfl

namespace LineFeed

-- The next delivery of a feed is its next report, and when there is none the end of its input.
theorem seek_reports (tail : Tail) (lines : List Bytes) (read skipped : Nat) (notes : Journal) :
    (seek tail lines read skipped notes).raises = none ∧
      match lines.filterMap reportOf? with
      | [] => ∃ past left, (seek tail lines read skipped notes).turn = atEnd tail past left
      | report :: reports => ∃ rest : LineFeed,
          (seek tail lines read skipped notes).turn = .comes 0 (.report report) rest ∧
            rest.tail = tail ∧ rest.lines.filterMap reportOf? = reports := by
  fun_induction seek tail lines read skipped notes with
  | case1 read skipped notes => exact ⟨rfl, read, skipped, rfl⟩
  | case2 line rest read skipped notes cause broken ih =>
      have none : reportOf? line = none := by rw [reportOf?, broken]
      rw [List.filterMap_cons_none none]
      exact ih
  | case3 line rest read skipped notes blank ih =>
      have none : reportOf? line = none := by rw [reportOf?, blank]
      rw [List.filterMap_cons_none none]
      exact ih
  | case4 line rest read skipped notes report found =>
      have some : reportOf? line = some report := by rw [reportOf?, found]
      rw [List.filterMap_cons_some some]
      exact ⟨rfl, _, rfl, rfl, rfl⟩

end LineFeed

open FileFeed (lineLength lineLength_le)
open BufferedFeed (lineLength_cons lineLength_whole take_lineLength_ends)

theorem cutLines_eq (lines : List Bytes) (line bytes : Bytes) :
    cutLines lines line bytes = lines.reverse ++
      if line.reverse ++ bytes = [] then []
      else (line.reverse ++ bytes.take (lineLength bytes)) ::
        linesOf (bytes.drop (lineLength bytes)) := by
  induction bytes generalizing lines line with
  | nil =>
      by_cases bare : line = []
      · simp [cutLines, bare]
      · simp [cutLines, bare, linesOf]
  | cons b rest ih =>
      rw [lineLength_cons]
      by_cases ends : b = 10
      · have next : cutLines lines line (b :: rest) =
            cutLines ((b :: line).reverse :: lines) [] rest := by
          rw [ends]
          rfl
        have alone : linesOf rest = _ := ih [] []
        rw [next, ih, if_pos ends, List.take_succ_cons, List.take_zero, List.drop_succ_cons,
          List.drop_zero, alone]
        simp
      · have next : cutLines lines line (b :: rest) = cutLines lines (b :: line) rest := by
          simp [cutLines, ends]
        rw [next, ih, if_neg ends]
        simp

theorem linesOf_cons {bytes : Bytes} (filled : bytes ≠ []) :
    linesOf bytes = bytes.take (lineLength bytes) :: linesOf (bytes.drop (lineLength bytes)) := by
  rw [linesOf, cutLines_eq]
  simp [filled]

def IsLine (line : Bytes) : Prop :=
  line ≠ [] ∧ 10 ∉ line.dropLast

theorem isLine_take {bytes : Bytes} (filled : bytes ≠ []) :
    IsLine (bytes.take (lineLength bytes)) := by
  induction bytes with
  | nil => exact absurd rfl filled
  | cons b rest ih =>
      rw [lineLength_cons]
      by_cases ends : b = 10
      · simp [IsLine, ends]
      · rw [if_neg ends, List.take_succ_cons]
        refine ⟨List.cons_ne_nil _ _, ?_⟩
        cases rest with
        | nil => simp
        | cons c others =>
            obtain ⟨more, inner⟩ := ih (List.cons_ne_nil _ _)
            rw [List.dropLast_cons_of_ne_nil more, List.mem_cons, not_or]
            exact ⟨Ne.symm ends, inner⟩

-- Only the last line may lack its line feed.
theorem linesOf_lines (bytes : Bytes) :
    (∀ line ∈ linesOf bytes, IsLine line) ∧
      ∀ line ∈ (linesOf bytes).dropLast, line.getLast? = some 10 := by
  induction size : bytes.length using Nat.strongRecOn generalizing bytes with
  | ind size ih =>
    by_cases bare : bytes = []
    · rw [bare]
      exact ⟨fun _ member => (by cases member), fun _ member => by cases member⟩
    · have filled : bytes ≠ [] := bare
      have more := List.length_pos_iff.mpr (isLine_take filled).1
      rw [List.length_take] at more
      obtain ⟨lines, ended⟩ := ih (bytes.drop (lineLength bytes)).length
        (by rw [List.length_drop]; omega) _ rfl
      rw [linesOf_cons filled]
      refine ⟨List.forall_mem_cons.mpr ⟨isLine_take filled, lines⟩, ?_⟩
      by_cases last : linesOf (bytes.drop (lineLength bytes)) = []
      · rw [last]
        intro line member
        cases member
      · rw [List.dropLast_cons_of_ne_nil last]
        refine List.forall_mem_cons.mpr ⟨?_, ended⟩
        rw [take_lineLength_ends]
        apply Decidable.byContradiction
        intro outside
        apply last
        rw [lineLength_whole outside, List.drop_length]
        rfl

def Turn.map {σ τ : Type} (f : σ → τ) : Turn σ → Turn τ
  | .comes ms delivery rest => .comes ms delivery (f rest)
  | .never rest => .never (f rest)

def Pull.map {σ τ : Type} (f : σ → τ) (pull : Pull σ) : Pull τ :=
  ⟨pull.notes, pull.raises, pull.turn.map f⟩

namespace BufferedFeed

def lines (feed : BufferedFeed) : LineFeed :=
  ⟨linesOf feed.unread, .ended, feed.read, feed.skipped⟩

theorem readLine_none {shows : Nat → Nat} {bytes left : Bytes}
    (line : readLine shows bytes = ([], left)) : bytes = [] ∧ left = [] := by
  rw [readLine_eq, Prod.mk.injEq] at line
  have bare : bytes = [] := Decidable.byContradiction fun filled => (isLine_take filled).1 line.1
  refine ⟨bare, ?_⟩
  rw [← line.2, bare]
  rfl

theorem readLine_some {shows : Nat → Nat} {bytes line left : Bytes} {b : UInt8}
    (found : readLine shows bytes = (b :: line, left)) :
    linesOf bytes = (b :: line) :: linesOf left := by
  rw [readLine_eq, Prod.mk.injEq] at found
  have filled : bytes ≠ [] := by
    rintro rfl
    cases found.1
  rw [linesOf_cons filled, found.1, found.2]

-- What the buffer shows at a time makes no difference to what the feed gives and notes.
theorem seek_lines (feed : BufferedFeed) (notes : Journal) :
    (seek feed notes).map lines =
      LineFeed.seek .ended (linesOf feed.unread) feed.read feed.skipped notes := by
  fun_induction seek feed notes with
  | case1 feed notes unread line =>
      obtain ⟨bare, rfl⟩ := readLine_none line
      rw [bare]
      rfl
  | case2 feed notes b line unread same number cause broken ih =>
      rw [readLine_some same, ih, LineFeed.seek, broken]
  | case3 feed notes b line unread same number blank ih =>
      rw [readLine_some same, ih, LineFeed.seek, blank]
  | case4 feed notes b line unread same number report found =>
      rw [readLine_some same, LineFeed.seek, found]
      rfl

theorem pull_lines (disk : Disk) (feed : BufferedFeed) :
    (Feed.pull disk feed).map lines = Feed.pull disk feed.lines :=
  seek_lines feed .empty

end BufferedFeed

/-- Whenever it is asked on such a disk, the feed gives the next one of these reports, until there is none
any more. -/
def Tells {σ : Type} [Feed σ] (steady : Disk → Prop) : List Report → σ → Prop
  | [], feed => ∀ disk, steady disk → ∀ ms report rest,
      (Feed.pull disk feed).turn ≠ .comes ms (.report report) rest
  | report :: reports, feed => ∀ disk, steady disk →
      (Feed.pull disk feed).raises = none ∧
        ∃ rest, (Feed.pull disk feed).turn = .comes 0 (.report report) rest ∧
          Tells steady reports rest

theorem LineFeed.tells (steady : Disk → Prop) (feed : LineFeed) :
    Tells steady (feed.lines.filterMap reportOf?) feed := by
  generalize found : feed.lines.filterMap reportOf? = reports
  induction reports generalizing feed with
  | nil =>
      intro disk _ ms report rest told
      obtain ⟨-, next⟩ := seek_reports feed.tail feed.lines feed.read feed.skipped .empty
      rw [found] at next
      obtain ⟨past, left, turn⟩ := next
      exact atEnd_ne_report (turn.symm.trans told)
  | cons report reports ih =>
      intro disk _
      obtain ⟨silent, next⟩ := seek_reports feed.tail feed.lines feed.read feed.skipped .empty
      rw [found] at next
      obtain ⟨rest, turn, -, later⟩ := next
      exact ⟨silent, rest, turn, ih rest later⟩

namespace FileFeed

open BufferedFeed (lineLength_append lineLength_whole take_lineLength_ends)

def waiting (bytes : Bytes) (feed : FileFeed) : Bytes :=
  feed.held ++ bytes.drop feed.position

-- However the pieces fall, the next line is that of the bytes to come.
theorem readLine_waiting (bytes : Bytes) (feed : FileFeed) :
    let waits := waiting bytes feed
    (readLine bytes feed).1 = waits.take (lineLength waits) ∧
      waiting bytes (readLine bytes feed).2 = waits.drop (lineLength waits) := by
  intro waits
  by_cases ends : (feed.held.take (lineLength feed.held)).getLast? = some 10
  · have inside : 10 ∈ feed.held := take_lineLength_ends.mp ends
    have length : lineLength waits = lineLength feed.held := by
      rw [show waits = feed.held ++ _ from rfl, lineLength_append, if_pos inside]
    have within := lineLength_le feed.held
    have read : readLine bytes feed = (feed.held.take (lineLength feed.held),
        { feed with held := feed.held.drop (lineLength feed.held) }) := by
      simp [readLine, ends]
    rw [read, length]
    constructor
    · exact (List.take_append_of_le_length within).symm
    · exact (List.drop_append_of_le_length within).symm
  · have outside : 10 ∉ feed.held := fun inside => ends (take_lineLength_ends.mpr inside)
    have whole : feed.held.take (lineLength feed.held) = feed.held := by
      rw [lineLength_whole outside, List.take_length]
    let fresh := bytes.drop feed.position
    let got := fetched fresh.length (lineLength fresh)
    have length : lineLength waits = feed.held.length + lineLength fresh := by
      rw [show waits = feed.held ++ fresh from rfl, lineLength_append, if_neg outside]
    have read : readLine bytes feed = (feed.held ++ fresh.take (lineLength fresh),
        { feed with
          held := (fresh.take got).drop (lineLength fresh), position := feed.position + got }) := by
      rw [whole] at ends
      simp [readLine, whole, ends, fresh, got]
    rw [read, length]
    constructor
    · exact (List.take_length_add_append _).symm
    · have enough : lineLength fresh ≤ got := le_fetched (lineLength_le fresh)
      have there : (fresh.take got).length = got := List.length_take_of_le (fetched_le _ _)
      have after : bytes.drop (feed.position + got) = fresh.drop got := List.drop_drop.symm
      calc (fresh.take got).drop (lineLength fresh) ++ bytes.drop (feed.position + got)
        _ = (fresh.take got ++ fresh.drop got).drop (lineLength fresh) := by
            rw [after, List.drop_append_of_le_length (by omega)]
        _ = fresh.drop (lineLength fresh) := by rw [List.take_append_drop]
        _ = waits.drop (feed.held.length + lineLength fresh) :=
            (List.drop_length_add_append _).symm

theorem place_readLine (bytes : Bytes) (feed : FileFeed) :
    (readLine bytes feed).2.place = feed.place := by
  unfold readLine
  dsimp only
  split
  · rfl
  · rfl

theorem readLine_none {bytes : Bytes} {feed rest : FileFeed}
    (line : readLine bytes feed = ([], rest)) : waiting bytes feed = [] := by
  obtain ⟨first, -⟩ := readLine_waiting bytes feed
  rw [line] at first
  exact Decidable.byContradiction fun filled => (isLine_take filled).1 first.symm

theorem readLine_some {bytes line : Bytes} {b : UInt8} {feed rest : FileFeed}
    (found : readLine bytes feed = (b :: line, rest)) :
    linesOf (waiting bytes feed) = (b :: line) :: linesOf (waiting bytes rest) ∧
      (waiting bytes rest).length < (waiting bytes feed).length ∧ rest.place = feed.place := by
  obtain ⟨first, after⟩ := readLine_waiting bytes feed
  have place := place_readLine bytes feed
  rw [found] at first after place
  have filled : waiting bytes feed ≠ [] := by
    intro bare
    rw [bare] at first
    cases first
  have some : 0 < lineLength (waiting bytes feed) := by
    have length := congrArg List.length first
    rw [List.length_take] at length
    simp at length
    omega
  have length := List.length_pos_iff.mpr filled
  refine ⟨?_, ?_, place⟩
  · rw [linesOf_cons filled, ← first, ← after]
  · rw [after, List.length_drop]
    omega

-- The next delivery is the next report of the bytes to come.
theorem seek_waiting {bytes : Bytes} {feed : FileFeed} {place : Place} {most : Nat} (notes : Journal)
    (there : feed.place = place) (bound : (waiting bytes feed).length ≤ most) :
    (seek bytes feed notes).raises = none ∧
      match (linesOf (waiting bytes feed)).filterMap reportOf? with
      | [] => ∃ rest, (seek bytes feed notes).turn = .comes 0 .ended rest
      | report :: reports => ∃ rest,
          (seek bytes feed notes).turn = .comes 0 (.report report) rest ∧
            rest.place = place ∧ (waiting bytes rest).length < most ∧
            (linesOf (waiting bytes rest)).filterMap reportOf? = reports := by
  fun_induction seek bytes feed notes with
  | case1 feed notes rest line =>
      rw [readLine_none line]
      exact ⟨rfl, rest, rfl⟩
  | case2 feed notes b line rest same number cause broken ih =>
      have none : reportOf? (b :: line) = none := by rw [reportOf?, broken]
      obtain ⟨lines, fewer, here⟩ := readLine_some same
      rw [lines, List.filterMap_cons_none none]
      exact ih (here.trans there) (Nat.le_trans (Nat.le_of_lt fewer) bound)
  | case3 feed notes b line rest same number blank ih =>
      have none : reportOf? (b :: line) = none := by rw [reportOf?, blank]
      obtain ⟨lines, fewer, here⟩ := readLine_some same
      rw [lines, List.filterMap_cons_none none]
      exact ih (here.trans there) (Nat.le_trans (Nat.le_of_lt fewer) bound)
  | case4 feed notes b line rest same number report found =>
      have some : reportOf? (b :: line) = some report := by rw [reportOf?, found]
      obtain ⟨lines, fewer, here⟩ := readLine_some same
      rw [lines, List.filterMap_cons_some some]
      exact ⟨rfl, _, rfl, here.trans there, Nat.lt_of_lt_of_le fewer bound, rfl⟩

theorem pull_more {bytes : Bytes} {disk : Disk} {feed : FileFeed} {fewer : Nat}
    (steady : content disk feed.place = bytes) (left : feed.left = fewer + 1) :
    Feed.pull disk feed = seek bytes { feed with left := fewer } .empty := by
  simp [Feed.pull, next, left, steady]

-- A report is at least one byte, so the feed does not give up before the end.
theorem tells {bytes : Bytes} {feed : FileFeed} {place : Place} (there : feed.place = place)
    (enough : (waiting bytes feed).length ≤ feed.left) :
    Tells (fun disk => content disk place = bytes)
      ((linesOf (waiting bytes feed)).filterMap reportOf?) feed := by
  subst there
  generalize found : (linesOf (waiting bytes feed)).filterMap reportOf? = reports
  induction reports generalizing feed with
  | nil =>
      intro disk steady ms report rest told
      cases left : feed.left with
      | zero => simp [Feed.pull, next, left] at told
      | succ fewer =>
          have same : (linesOf (waiting bytes { feed with left := fewer })).filterMap reportOf? = [] :=
            found
          obtain ⟨-, seeks⟩ := @seek_waiting bytes { feed with left := fewer } _ _ .empty rfl enough
          rw [same] at seeks
          obtain ⟨rest, turn⟩ := seeks
          rw [pull_more steady left, turn] at told
          cases told
  | cons report reports ih =>
      intro disk steady
      cases left : feed.left with
      | zero =>
          have bare : waiting bytes feed = [] := List.eq_nil_of_length_eq_zero (by omega)
          rw [bare] at found
          cases found
      | succ fewer =>
          have same : (linesOf (waiting bytes { feed with left := fewer })).filterMap reportOf? =
            report :: reports := found
          obtain ⟨silent, seeks⟩ := @seek_waiting bytes { feed with left := fewer } _ _ .empty rfl enough
          rw [same] at seeks
          obtain ⟨rest, turn, place, less, later⟩ := seeks
          have remaining : rest.left = fewer := left_seek turn
          rw [pull_more steady left]
          refine ⟨silent, rest, turn, ?_⟩
          have told := @ih rest (by omega) later
          rwa [place] at told

theorem tells_start {bytes : Bytes} {place : Place} {left : Nat} (enough : bytes.length ≤ left) :
    Tells (fun disk => content disk place = bytes) (reportsIn bytes) (start place left) := by
  have told : Tells (fun disk => content disk place = bytes)
      ((linesOf (waiting bytes (start place left))).filterMap reportOf?) (start place left) :=
    tells rfl enough
  rwa [show waiting bytes (start place left) = bytes from rfl, filterMap_linesOf] at told

end FileFeed

end MoteCapture

import MoteCapture.Proofs.Feed.Lines
import MoteCapture.Proofs.Report.Line

/-!
What an input is read as, call by call: the reports of its lines in order, then the end of the input
as often as it is asked for. At every call the counts and the notes are those of the lines that were
read up to then.
-/

namespace MoteCapture

open Text

structure Reading where
  delivery : Delivery
  read : Nat
  skipped : Nat
  told : List Entry
  deriving DecidableEq, Repr

namespace LineFeed

def counts (feed : LineFeed) : Nat × Nat :=
  (feed.read, feed.skipped)

end LineFeed

namespace BufferedFeed

def counts (feed : BufferedFeed) : Nat × Nat :=
  (feed.read, feed.skipped)

end BufferedFeed

-- The bytes of a line have no line feed but at their end, so neither has its text.
theorem line_feed_inside {line : Bytes} {text : String} (found : decode? line = some text)
    (single : 10 ∉ line.dropLast) : '\n' ∉ text.toList.dropLast := by
  rw [decode?_eq_some_iff, ← String.ofList_toList (s := text), encode_ofList] at found
  intro member
  rcases List.eq_nil_or_concat text.toList with bare | ⟨start, c, split⟩
  · rw [bare] at member
    cases member
  · rw [List.concat_eq_append] at split
    rw [split, List.dropLast_concat] at member
    apply single
    rw [found, split, List.flatMap_append, List.flatMap_singleton,
      List.dropLast_append_of_ne_nil (List.ne_nil_of_length_pos
        (String.length_utf8EncodeChar c ▸ c.utf8Size_pos))]
    exact List.mem_append_left _ (List.mem_flatMap.mpr ⟨'\n', member, by decide⟩)

theorem reportOf?_some {line : Bytes} {report : Report} (found : reportOf? line = some report) :
    ∃ text, decode? line = some text ∧ Report.ofLine text = .ok (some report) := by
  rw [reportOf?, readReport] at found
  cases decoded : decode? line with
  | none =>
      rw [decoded] at found
      cases found
  | some text =>
      simp only [decoded] at found
      rcases read : Report.ofLine text with e | other
      · simp only [read] at found
        cases found
      · simp only [read] at found
        exact ⟨text, rfl, by rw [read, found]⟩

theorem reportOf?_message {line : Bytes} {report : Report} (isLine : IsLine line)
    (found : reportOf? line = some report) :
    '\n' ∉ report.message.toList ∧ report.message.toList.getLast? ≠ some '\r' := by
  obtain ⟨text, decoded, read⟩ := reportOf?_some found
  exact Report.ofLine_message (line_feed_inside decoded isLine.2) read

end MoteCapture

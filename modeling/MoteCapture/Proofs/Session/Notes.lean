import MoteCapture.Feed.Buffered
import MoteCapture.Feed.Script
import MoteCapture.Feed.Timed
import MoteCapture.Proofs.Recorder.Milestones
import MoteCapture.Proofs.Session.Take

/-!
What a session notes in the journal, on whatever feed and whichever way it ends: besides milestones and
what its recorder notes, only what the feed noted and the notices of its alarms. Feeds of lines note
nothing but the lines that they skip.
-/

namespace MoteCapture

section

def Entry.IsSkip (entry : Entry) : Prop :=
  ∃ number cause, entry = .line .warn (skipNote number cause)

def Journal.OnlySkips (journal : Journal) : Prop :=
  ∀ entry ∈ journal.toList, entry.IsSkip

def NotesSkips (σ : Type) [Feed σ] : Prop :=
  ∀ disk (feed : σ), (Feed.pull disk feed).notes.OnlySkips

namespace Journal

variable {journal : Journal}

theorem onlySkips_empty : empty.OnlySkips := by
  intro entry member
  rw [toList_empty] at member
  cases member

theorem OnlySkips.skip (only : journal.OnlySkips) (number : Nat) (cause : String) :
    (journal.warn (skipNote number cause)).OnlySkips := by
  intro entry member
  rw [warn, toList_note, List.mem_append, List.mem_singleton] at member
  rcases member with old | new
  · exact only entry old
  · exact ⟨number, cause, new⟩

end Journal

variable {notes : Journal}

theorem ScriptFeed.notesSkips : NotesSkips ScriptFeed := by
  intro disk feed
  simp only [Feed.pull, next]
  split
  · exact Journal.onlySkips_empty
  · exact Journal.onlySkips_empty

theorem TimedFeed.notesSkips : NotesSkips TimedFeed := by
  intro disk feed
  simp only [Feed.pull, next]
  split
  · exact Journal.onlySkips_empty
  · exact Journal.onlySkips_empty

theorem LineFeed.onlySkips_seek (only : notes.OnlySkips) (tail : Tail) (lines : List Text.Bytes)
    (read skipped : Nat) : (seek tail lines read skipped notes).notes.OnlySkips := by
  fun_induction seek tail lines read skipped notes with
  | case1 => exact only
  | case2 read _ _ _ _ cause _ ih => exact ih (only.skip _ cause)
  | case3 _ _ _ _ _ _ ih => exact ih only
  | case4 => exact only

theorem LineFeed.notesSkips : NotesSkips LineFeed :=
  fun _ feed => onlySkips_seek Journal.onlySkips_empty feed.tail feed.lines feed.read feed.skipped

theorem FileFeed.onlySkips_seek (only : notes.OnlySkips) (content : Text.Bytes) (feed : FileFeed) :
    (seek content feed notes).notes.OnlySkips := by
  fun_induction seek content feed notes with
  | case1 => exact only
  | case2 => next ih => exact ih (only.skip _ _)
  | case3 => next ih => exact ih only
  | case4 => exact only

theorem FileFeed.notesSkips : NotesSkips FileFeed := by
  intro disk feed
  simp only [Feed.pull, next]
  split
  · exact Journal.onlySkips_empty
  · exact onlySkips_seek Journal.onlySkips_empty _ _

theorem BufferedFeed.onlySkips_seek (only : notes.OnlySkips) (feed : BufferedFeed) :
    (seek feed notes).notes.OnlySkips := by
  fun_induction seek feed notes with
  | case1 => exact only
  | case2 => next ih => exact ih (only.skip _ _)
  | case3 => next ih => exact ih only
  | case4 => exact only

theorem BufferedFeed.notesSkips : NotesSkips BufferedFeed :=
  fun _ feed => onlySkips_seek Journal.onlySkips_empty feed

end

namespace Session

inductive Notes (σ : Type) [Feed σ] (alarms : List Alarm) : Entry → Prop where
  | recorder {entry : Entry} (notes : Recorder.Notes entry) : Notes σ alarms entry
  | milestone (name : String) (facts : List Fact) : Notes σ alarms (.milestone name facts)
  | heard (disk : Disk) (feed : σ) {entry : Entry} (told : entry ∈ (Feed.pull disk feed).notes.toList) :
      Notes σ alarms entry
  | notice {alarm : Alarm} (set : alarm ∈ alarms) : Notes σ alarms (.line .warn alarm.notice)

section Notes

variable {σ : Type} [Feed σ] {alarms : List Alarm} {session taken : Session} {feed rest : σ}

theorem adds_countVerdict (session : Session) (opened : Nat) (report : Report) (verdict : Verdict) :
    session.site.Adds (Notes σ alarms) (session.countVerdict opened report verdict).site := by
  cases verdict with
  | early => exact session.site.adds_none _
  | start => exact session.site.adds_note _ (.milestone _ _)
  | kept =>
      simp only [countVerdict, countRow]
      split
      · exact session.site.adds_note _ (.milestone _ _)
      · exact session.site.adds_none _
  | skipped => exact session.site.adds_none _

theorem adds_process (session : Session) (report : Report) :
    session.site.Adds (Notes σ alarms) (session.process report).2.site := by
  have took := (session.recorder.adds_take session.site report).mono fun _ =>
    @Notes.recorder σ _ alarms _
  unfold process
  split
  · next outcome => rw [outcome] at took; exact took
  · next outcome => rw [outcome] at took; exact took.trans (adds_countVerdict _ _ _ _)

theorem adds_conclude (session : Session) (reason : StopReason) :
    session.site.Adds (Notes σ alarms) (session.conclude reason).2.site := by
  have marked := @Notes.milestone σ _ alarms "capture_stopped"
  cases reason with
  | endOfInput => exact session.site.adds_note _ (marked _)
  | timeout => exact session.site.adds_note _ (marked _)
  | interrupted => exact session.site.adds_note _ (marked _)

theorem adds_stopNow (session : Session) :
    session.site.Adds (Notes σ alarms) session.stopNow.2.site := by
  cases flag : session.flag.reason with
  | none =>
      simp only [stopNow, pause_clear flag]
      exact session.site.adds_none _
  | some reason =>
      have stopped := (session.recorder.adds_stop session.site reason).mono fun _ =>
        @Notes.recorder σ _ alarms _
      rw [(pause_raised flag).2]
      rcases stop : session.recorder.stop session.site reason with ⟨e | ⟨⟩, recorder, site⟩
      · rw [stop] at stopped
        exact stopped
      · rw [stop] at stopped
        exact stopped.trans (adds_conclude { session with recorder, site } reason)

theorem adds_callOff (session : Session) (reason : StopReason) :
    session.site.Adds (Notes σ alarms) (session.callOff reason).2.site := by
  have told : session.site.Adds (Notes σ alarms)
      (session.site.debug ("Stop raised while waiting for events: " ++ reason.text)) :=
    session.site.adds_note _ (.recorder (.line nofun))
  exact told.trans (adds_stopNow _)

theorem adds_ring (session : Session) (clock : Clock) {alarm : Alarm} (set : alarm ∈ alarms) :
    session.site.Adds (Notes σ alarms) (session.ring clock alarm).2.site := by
  have rang : session.site.Adds (Notes σ alarms)
      { session.site with journal := (alarm.ring session.flag session.site.journal).2 } := by
    simp only [Alarm.ring]
    split
    · exact session.site.adds_note _ (.notice set)
    · exact session.site.adds_none _
  exact rang.trans (adds_callOff _ _)

theorem adds_hear (session : Session) (feed : σ) :
    session.site.Adds (Notes σ alarms) (session.hear (Feed.pull session.site.disk feed)).site := by
  have heard : session.site.Adds (Notes σ alarms)
      { session.site with
        journal := session.site.journal.append (Feed.pull session.site.disk feed).notes } :=
    ⟨_, session.site.journal.toList_append _, fun _ => .heard _ feed⟩
  unfold hear
  split
  · exact heard
  · exact heard

theorem clock_hear {σ : Type} (session : Session) (pull : Pull σ) :
    (session.hear pull).clock = session.clock := by
  unfold hear
  split
  · rfl
  · rfl

theorem adds_receive (rest : σ) (delivery : Delivery)
    (later : ∀ (taken : Session) report, delivery = .report report →
      taken.clock = session.clock →
      taken.site.Adds (Notes σ alarms) (taken.loop rest).2.1.site) :
    session.site.Adds (Notes σ alarms) (session.receive rest delivery).2.1.site := by
  cases delivery with
  | ended => exact adds_stopNow (session.raise .endOfInput)
  | failed e => exact session.site.adds_none _
  | report report =>
      have processed := @adds_process σ _ alarms session report
      have clock := session.process_clock report
      rcases outcome : session.process report with ⟨e | ⟨⟩, taken⟩
      · rw [outcome] at processed
        simp only [receive, outcome]
        exact processed
      · rw [outcome] at processed clock
        cases flag : taken.flag.reason with
        | none =>
            simp only [receive, outcome, pause_clear flag]
            exact processed.trans (later taken report rfl clock)
        | some reason =>
            simp only [receive, outcome, (pause_raised flag).1]
            exact processed.trans (adds_stopNow taken)

-- By the number of reports that the feed may still give. The alarms that are set only get fewer.
theorem adds_loop (session : Session) (feed : σ)
    (set : ∀ alarm ∈ session.clock.alarms, alarm ∈ alarms) :
    session.site.Adds (Notes σ alarms) (session.loop feed).2.1.site := by
  induction size : Feed.size feed using Nat.strongRecOn generalizing session feed with
  | ind left ih =>
    cases clear : session.flag.reason with
    | some reason =>
        rw [loop_raised clear]
        exact adds_callOff session reason
    | none =>
        have heard := @adds_hear σ _ alarms session feed
        rw [← session.clock_hear (Feed.pull session.site.disk feed)] at set
        generalize asked : session.hear (Feed.pull session.site.disk feed) = met at heard set
        cases turn : (Feed.pull session.site.disk feed).turn with
        | comes ms delivery rest =>
            rw [loop_comes clear rfl turn, asked]
            have waits := fun alarm => @Clock.mem_wait met.clock ms alarm
            rcases waited : met.clock.wait ms with ⟨clock, _ | alarm⟩
            · simp only [waited] at waits
              have received := @adds_receive σ _ alarms { met with clock } rest delivery
              refine heard.trans (received ?_)
              rintro taken report rfl same
              refine ih _ (size ▸ Feed.size_lt turn) taken rest ?_ rfl
              intro alarm still
              rw [same] at still
              exact set alarm ((waits alarm).1 still)
            · simp only [waited] at waits
              exact heard.trans (adds_ring met clock (set alarm ((waits alarm).2 rfl)))
        | never rest =>
            rw [loop_never clear rfl turn, asked]
            rcases rings : met.clock.waitForAlarm with _ | ⟨clock, alarm⟩
            · exact heard
            · exact heard.trans (adds_ring met clock (set alarm (Clock.mem_waitForAlarm rings)))

theorem adds_run (session : Session) (feed : σ)
    (set : ∀ alarm ∈ session.clock.alarms, alarm ∈ alarms) :
    session.site.Adds (Notes σ alarms) (session.run feed).2.1.site := by
  have begins : session.site.Adds (Notes σ alarms) session.begun.site :=
    session.site.adds_note _ (.recorder (.line nofun))
  exact begins.trans (adds_loop session.begun feed set)

end Notes

end Session

end MoteCapture

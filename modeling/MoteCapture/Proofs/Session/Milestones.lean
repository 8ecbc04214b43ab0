import MoteCapture.Proofs.Recorder.Milestones
import MoteCapture.Proofs.Recorder.Stranded
import MoteCapture.Proofs.Session.Accounts
import MoteCapture.Proofs.Session.Notes
import MoteCapture.Proofs.Session.Reason

/-!
The milestones in the journal of a run. A session infers from the counts of its recorder whether a sheet was
opened, and works out the path by itself; if the run ends in a stop, what it noted is what the capture
passed, and then the stop. A feed may note milestones of its own in between.
-/

namespace MoteCapture

/-- A list that two others were appended to, piece by piece. -/
inductive Woven {α : Type} : List α → List α → List α → Prop where
  | none : Woven [] [] []
  | own {own others whole : List α} (woven : Woven own others whole) (more : List α) :
      Woven (own ++ more) others (whole ++ more)
  | other {own others whole : List α} (woven : Woven own others whole) (more : List α) :
      Woven own (others ++ more) (whole ++ more)

theorem Woven.eq {α : Type} {own others whole : List α} (woven : Woven own others whole)
    (nothing : others = []) : whole = own := by
  induction woven with
  | none => rfl
  | own _ more ih => rw [ih nothing]
  | other _ more ih =>
      obtain ⟨before, rfl⟩ := List.append_eq_nil_iff.mp nothing
      rw [List.append_nil, ih before]

def Reticent (σ : Type) [Feed σ] : Prop :=
  ∀ disk (feed : σ), (Feed.pull disk feed).notes.milestones = []

theorem NotesSkips.reticent {σ : Type} [Feed σ] (skips : NotesSkips σ) : Reticent σ := by
  intro disk feed
  rw [Journal.milestones, List.filter_eq_nil_iff]
  intro entry member
  obtain ⟨number, cause, rfl⟩ := skips disk feed entry member
  exact Bool.false_ne_true

theorem Reticent.unheard {σ : Type} [Feed σ] (reticent : Reticent σ) {heard : List Entry}
    (noted : ∀ entry ∈ heard, ∃ disk, ∃ feed : σ, entry ∈ (Feed.pull disk feed).notes.milestones) :
    heard = [] := by
  apply List.eq_nil_iff_forall_not_mem.mpr
  intro entry member
  obtain ⟨disk, feed, own⟩ := noted entry member
  rw [reticent] at own
  cases own

theorem ScriptFeed.reticent : Reticent ScriptFeed := notesSkips.reticent

theorem TimedFeed.reticent : Reticent TimedFeed := notesSkips.reticent

theorem LineFeed.reticent : Reticent LineFeed := notesSkips.reticent

theorem FileFeed.reticent : Reticent FileFeed := notesSkips.reticent

theorem BufferedFeed.reticent : Reticent BufferedFeed := notesSkips.reticent

namespace Session

/-! What holds of the recorder and the site all through a run. -/

section Lasts

variable {σ : Type} [Feed σ] {Inv : List Report → Recorder → Site → Prop} {seen : List Report}
  {session taken : Session} {feed rest : σ} {report : Report}

/-- It holds of a recorder that runs, with the reports that it took, and neither a remark nor the notes of
the feed nor a report that breaks nothing ends it. -/
structure Lasts (σ : Type) [Feed σ] (Inv : List Report → Recorder → Site → Prop) : Prop where
  orderly : ∀ seen recorder site, Inv seen recorder site → recorder.Orderly
  running : ∀ seen recorder site, Inv seen recorder site → ∀ reason, recorder.phase ≠ .stopped reason
  remarks : ∀ seen recorder (site : Site) level text, Inv seen recorder site →
    Inv seen recorder { site with journal := site.journal.note (.line level text) }
  hears : ∀ seen recorder (site : Site) (feed : σ), Inv seen recorder site →
    Inv seen recorder { site with journal := site.journal.append (Feed.pull site.disk feed).notes }
  processes : ∀ seen (session taken : Session) report, session.process report = (.ok (), taken) →
    Inv seen session.recorder session.site → Inv (seen ++ [report]) taken.recorder taken.site

def StopsAt (Inv : List Report → Recorder → Site → Prop) (seen : List Report)
    (outcome : Ending × Session) : Prop :=
  outcome.1.stopReason? = none ∨ ∃ (met : Session) (reason : StopReason),
    Inv seen met.recorder met.site ∧ met.flag.reason = some reason ∧ outcome = met.stopNow

theorem Lasts.callOff (lasts : Lasts σ Inv) {raised : StopReason}
    (flag : session.flag.reason = some raised) (reason : StopReason)
    (inv : Inv seen session.recorder session.site) : StopsAt Inv seen (session.callOff reason) := by
  let told : Session := { session with
    site := session.site.debug ("Stop raised while waiting for events: " ++ reason.text) }
  have remarked : Inv seen told.recorder told.site := lasts.remarks _ _ _ _ _ inv
  exact .inr ⟨told, raised, remarked, flag, rfl⟩

theorem Lasts.ring (lasts : Lasts σ Inv) (clock : Clock) (alarm : Alarm)
    (inv : Inv seen session.recorder session.site) : StopsAt Inv seen (session.ring clock alarm) := by
  cases before : session.flag.reason with
  | none =>
      have raised : alarm.ring session.flag session.site.journal =
          (⟨some alarm.reason⟩, session.site.journal.warn alarm.notice) := by
        simp [Alarm.ring, StopFlag.raise, before]
      rw [Session.ring, raised]
      refine lasts.callOff rfl _ ?_
      exact lasts.remarks _ _ _ _ _ inv
  | some first =>
      have raised : alarm.ring session.flag session.site.journal =
          (session.flag, session.site.journal) := by
        simp [Alarm.ring, StopFlag.raise, before]
      have flag : ({ session with clock } : Session).flag.reason = some first := before
      rw [Session.ring, raised]
      exact lasts.callOff flag _ inv

theorem Lasts.hear (lasts : Lasts σ Inv) (feed : σ) (inv : Inv seen session.recorder session.site) :
    Inv seen (session.hear (Feed.pull session.site.disk feed)).recorder
      (session.hear (Feed.pull session.site.disk feed)).site := by
  have heard := lasts.hears seen session.recorder session.site feed inv
  unfold Session.hear
  split
  · exact heard
  · exact heard

theorem Lasts.receive (lasts : Lasts σ Inv) (rest : σ) (delivery : Delivery)
    (inv : Inv seen session.recorder session.site)
    (later : ∀ (taken : Session) report, delivery = .report report →
      Inv (seen ++ [report]) taken.recorder taken.site →
      StopsAt Inv (seen ++ [report] ++ taken.handed rest)
        ((taken.loop rest).1, (taken.loop rest).2.1)) :
    StopsAt Inv (seen ++ session.handedOn rest delivery)
      ((session.receive rest delivery).1, (session.receive rest delivery).2.1) := by
  cases delivery with
  | ended =>
      obtain ⟨first, raised, -⟩ := session.waited_raise .endOfInput session.clock rfl
      refine .inr ⟨session.raise .endOfInput, first, ?_, raised, rfl⟩
      rw [handedOn, List.append_nil]
      exact inv
  | failed e => exact .inl rfl
  | report report =>
      rcases outcome : session.process report with ⟨e | ⟨⟩, taken⟩
      · obtain ⟨cause, rfl⟩ := (process_error outcome).1.error_io (lasts.orderly _ _ _ inv)
          (lasts.running _ _ _ inv)
        simp only [Session.receive, outcome]
        exact .inl rfl
      · have next := lasts.processes _ _ _ _ outcome inv
        rcases flag : taken.flag.reason with _ | reason
        · have whole := later taken report rfl next
          rw [List.append_assoc] at whole
          simp only [Session.receive, handedOn, outcome, pause_clear flag]
          exact whole
        · simp only [Session.receive, handedOn, outcome, (pause_raised flag).1]
          exact .inr ⟨taken, reason, next, flag, rfl⟩

-- By the number of reports that the feed may still give.
theorem Lasts.loop (lasts : Lasts σ Inv) (session : Session) (feed : σ)
    (inv : Inv seen session.recorder session.site) :
    StopsAt Inv (seen ++ session.handed feed) ((session.loop feed).1, (session.loop feed).2.1) := by
  induction size : Feed.size feed using Nat.strongRecOn generalizing seen session feed with
  | ind left ih =>
    rcases clear : session.flag.reason with _ | reason
    · have heard := lasts.hear feed inv
      rcases turn : (Feed.pull session.site.disk feed).turn with ⟨ms, delivery, rest⟩ | rest
      · rw [loop_comes clear rfl turn, handed_comes clear turn]
        rcases (session.hear (Feed.pull session.site.disk feed)).clock.wait ms with ⟨clock, _ | alarm⟩
        · refine lasts.receive rest delivery heard ?_
          rintro taken report rfl next
          exact ih _ (size ▸ Feed.size_lt turn) taken rest next rfl
        · rw [List.append_nil]
          exact lasts.ring clock alarm heard
      · rw [loop_never clear rfl turn, handed_never turn, List.append_nil]
        rcases (session.hear (Feed.pull session.site.disk feed)).clock.waitForAlarm
          with _ | ⟨clock, alarm⟩
        · exact .inl rfl
        · exact lasts.ring clock alarm heard
    · rw [loop_raised clear, handed_raised clear, List.append_nil]
      exact lasts.callOff clear reason inv

end Lasts

/-! The milestones of a run. -/

def stoppedFor (reason : StopReason) (recorder : Recorder) : Entry :=
  .milestone "capture_stopped" [.ofText "reason" reason.text, .ofNat "rows" recorder.tally.rows,
    .ofNat "files" recorder.closed.length]

variable {plan : CapturePlan} {before : List Entry} {seen : List Report} {session taken : Session}
  {recorder : Recorder} {site : Site} {report : Report} {verdict : Verdict} {disk : Disk}

-- The count of opened sheets grows exactly with the first row of a mote.
theorem milestones_countRow {isNew : Bool} (has : recorder.HasSeen plan seen)
    (started : seen.any plan.starts = true) (keeps : plan.keeps report = true)
    (new : (!recorder.opened.contains report.mote) = isNew) (follows : session.recorder.plan = plan)
    (counted : session.recorder.tally.opened = recorder.tally.opened + if isNew then 1 else 0) :
    ∃ news, (session.countRow recorder.tally.opened report).site.journal.milestones =
        session.site.journal.milestones ++ news ∧
      plan.milestones (seen ++ [report]) = plan.milestones seen ++ news := by
  have row := CapturePlan.milestones_row started keeps
  cases isNew with
  | false =>
      have member : report.mote ∈ plan.keptMotes seen := by
        rw [← has.opened]
        simpa using new
      rw [if_pos member] at row
      have old : session.recorder.tally.opened = recorder.tally.opened := counted
      refine ⟨[], ?_, row⟩
      rw [countRow_old session report old]
      exact (List.append_nil _).symm
  | true =>
      have absent : report.mote ∉ plan.keptMotes seen := by
        rw [← has.opened]
        simpa using new
      rw [if_neg absent] at row
      have more : session.recorder.tally.opened = recorder.tally.opened + 1 := counted
      refine ⟨_, ?_, row⟩
      rw [countRow_new session report more, follows]
      exact session.site.journal.milestones_mark _ _

-- What the verdict on a report is noted as, is what the capture passed with it.
theorem milestones_countVerdict (has : recorder.HasSeen plan seen)
    (took : recorder.Took site report (.ok verdict) session.recorder disk) : ∃ news,
      (session.countVerdict recorder.tally.opened report verdict).site.journal.milestones =
        session.site.journal.milestones ++ news ∧
      plan.milestones (seen ++ [report]) = plan.milestones seen ++ news := by
  have follows := has.booked.follows
  obtain ⟨waits, started⟩ := has.any_starts
  generalize held : session.recorder = later at took
  cases took with
  | early phase starts =>
      rw [follows] at starts
      refine ⟨[], (List.append_nil _).symm, ?_⟩
      rw [List.append_nil]
      apply CapturePlan.milestones_passed fun _ => starts
      simp [plan.kept_append, waits phase]
  | start phase starts =>
      rw [follows] at starts
      exact ⟨[CapturePlan.startedBy report], session.site.journal.milestones_mark _ _,
        CapturePlan.milestones_start (waits phase) starts⟩
  | skipped phase keeps =>
      rw [follows] at keeps
      refine ⟨[], (List.append_nil _).symm, ?_⟩
      rw [List.append_nil]
      apply CapturePlan.milestones_passed
      · intro none
        rw [started phase] at none
        cases none
      · simp [plan.kept_append, keeps]
  | kept phase keeps obtained written =>
      rw [follows] at keeps
      apply milestones_countRow has (started phase) keeps obtained.isNew_eq
      · rw [held]
        exact follows
      · rw [held]
        rfl

theorem process_milestones (has : session.recorder.HasSeen plan seen)
    (well : session.process report = (.ok (), taken)) :
    taken.recorder.HasSeen plan (seen ++ [report]) ∧ ∃ news,
      taken.site.journal.milestones = session.site.journal.milestones ++ news ∧
      plan.milestones (seen ++ [report]) = plan.milestones seen ++ news := by
  have took := session.recorder.take_took session.site report
  have passes := (session.recorder.adds_take session.site report).passes
  rcases outcome : session.recorder.take session.site report with ⟨e | verdict, recorder, site⟩
  · simp only [process, outcome] at well
    cases well
  rw [outcome] at took passes
  simp only [process, outcome, Prod.mk.injEq, true_and] at well
  subst well
  refine ⟨?_, ?_⟩
  · rw [recorder_countVerdict]
    exact has.took took
  · obtain ⟨news, noted, passed⟩ := @milestones_countVerdict plan seen
      (({ session with recorder, site } : Session).count .reports) session.recorder session.site report
      verdict _ has took
    refine ⟨news, noted.trans ?_, passed⟩
    exact congrArg (· ++ news) passes

structure Logged (σ : Type) [Feed σ] (plan : CapturePlan) (before : List Entry) (seen : List Report)
    (recorder : Recorder) (site : Site) : Prop where
  has : recorder.HasSeen plan seen
  noted : ∃ heard woven, site.journal.milestones = before ++ woven ∧
    Woven (plan.milestones seen) heard woven ∧
    ∀ entry ∈ heard, ∃ disk, ∃ feed : σ, entry ∈ (Feed.pull disk feed).notes.milestones

theorem lasts_logged (σ : Type) [Feed σ] (plan : CapturePlan) (before : List Entry) :
    Lasts σ (Logged σ plan before) where
  orderly _ _ _ logged := logged.has.orderly
  running _ _ _ logged := logged.has.running
  remarks _ _ site level text logged := by
    refine ⟨logged.has, ?_⟩
    rw [site.journal.milestones_line level text]
    exact logged.noted
  hears _ _ site feed logged := by
    refine ⟨logged.has, ?_⟩
    obtain ⟨heard, woven, whole, weaves, told⟩ := logged.noted
    refine ⟨_, _, ?_, weaves.other (Feed.pull site.disk feed).notes.milestones, ?_⟩
    · rw [Journal.milestones_append, whole, List.append_assoc]
    · intro entry member
      rcases List.mem_append.mp member with old | new
      · exact told entry old
      · exact ⟨_, _, new⟩
  processes _ session taken report well logged := by
    obtain ⟨has, news, noted, passed⟩ := process_milestones logged.has well
    obtain ⟨heard, woven, whole, weaves, told⟩ := logged.noted
    refine ⟨has, heard, woven ++ news, ?_, ?_, told⟩
    · rw [noted, whole, List.append_assoc]
    · rw [passed]
      exact weaves.own news

theorem conclude_marked (session : Session) (reason : StopReason) :
    (session.conclude reason).2.site.journal.milestones =
      session.site.journal.milestones ++ [stoppedFor reason session.recorder] := by
  cases reason <;> exact session.site.journal.milestones_mark _ _

-- A stop of which the session tells is the last milestone.
theorem stopNow_milestones {raised reason : StopReason} (has : session.recorder.HasSeen plan seen)
    (flag : session.flag.reason = some raised) (told : session.stopNow.1.stopReason? = some reason) :
    session.stopNow.1 = session.stopNow.2.ending reason ∧
      session.stopNow.2.site.journal.milestones =
        session.site.journal.milestones ++ [stoppedFor reason session.stopNow.2.recorder] ∧
      (session.stopNow.2.recorder.closed.map fun entry => (entry.1, entry.2.path)).Perm
        ((plan.keptMotes seen).map fun mote => (mote, plan.path mote)) := by
  obtain ⟨-, -, tells⟩ := stopNow_inStep has.running flag
  obtain ⟨rfl, ends⟩ := tells reason told
  refine ⟨ends, ?_⟩
  have passes := (session.recorder.adds_stop session.site reason).passes
  rcases stop : session.recorder.stop session.site reason with ⟨e | ⟨⟩, recorder, site⟩
  · obtain ⟨cause, rfl⟩ := Recorder.stop_error stop
    rw [stopNow_ending flag, stop] at told
    cases told
  · rw [stop] at passes
    rw [stopNow_ok flag stop, conclude_marked, (conclude_eq _ reason).2.1]
    exact ⟨congrArg (· ++ _) passes, has.closes stop⟩

theorem run_logged {σ : Type} [Feed σ] {echoes : Bool} {flag : StopFlag} {alarms : List Alarm}
    {feed : σ} {reason : StopReason}
    (told : ((new plan echoes flag alarms site).run feed).1.stopReason? = some reason) :
    ∃ (met : Session) (raised : StopReason),
      Logged σ plan site.journal.milestones ((new plan echoes flag alarms site).begun.handed feed)
        met.recorder met.site ∧
      met.flag.reason = some raised ∧
      (((new plan echoes flag alarms site).run feed).1,
        ((new plan echoes flag alarms site).run feed).2.1) = met.stopNow := by
  let start := new plan echoes flag alarms site
  have begins : Logged σ plan site.journal.milestones [] start.begun.recorder start.begun.site := by
    refine ⟨Recorder.hasSeen_new plan echoes, [], [], ?_, .none, by simp⟩
    exact (site.journal.milestones_line .info _).trans (List.append_nil _).symm
  have stops := (lasts_logged σ plan site.journal.milestones).loop start.begun feed begins
  rw [List.nil_append] at stops
  rcases stops with silent | stopped
  · rw [show (start.begun.loop feed).1.stopReason? = some reason from told] at silent
    cases silent
  · exact stopped

/-- A run on such a feed that ends in a stop has noted the milestones of its capture, then the stop, and
nothing else. -/
def NotesCapture (σ : Type) [Feed σ] : Prop :=
  ∀ (plan : CapturePlan) (echoes : Bool) (flag : StopFlag) (alarms : List Alarm) (site : Site)
    (feed : σ) (reason : StopReason),
    let start := new plan echoes flag alarms site
    let ended := start.run feed
    ended.1.stopReason? = some reason →
      ended.2.1.site.journal.milestones = site.journal.milestones ++
        plan.milestones (start.begun.handed feed) ++ [stoppedFor reason ended.2.1.recorder]

theorem notesCapture_of_reticent {σ : Type} [Feed σ] (reticent : Reticent σ) : NotesCapture σ := by
  intro plan echoes flag alarms site feed reason start ended told
  obtain ⟨met, raised, logged, raise, outcome⟩ := run_logged told
  obtain ⟨heard, woven, whole, weaves, noted⟩ := logged.noted
  have stopped := @stopNow_milestones plan (start.begun.handed feed) met raised reason logged.has raise
  rw [← outcome] at stopped
  obtain ⟨-, marked, -⟩ := stopped told
  rw [marked, whole, weaves.eq (reticent.unheard noted)]

/-- So it is on every feed that there is. -/
theorem own_feeds_note_capture : NotesCapture ScriptFeed ∧ NotesCapture TimedFeed ∧
    NotesCapture LineFeed ∧ NotesCapture FileFeed ∧ NotesCapture BufferedFeed :=
  ⟨notesCapture_of_reticent ScriptFeed.reticent, notesCapture_of_reticent TimedFeed.reticent,
    notesCapture_of_reticent LineFeed.reticent, notesCapture_of_reticent FileFeed.reticent,
    notesCapture_of_reticent BufferedFeed.reticent⟩

/-- A run that ends in a stop has noted, behind what was in the journal, the start of the capture if a
report started it, each mote with rows in the order of their first ones, with its path, and the stop, with
the counts that it tells of; the sheets that it closed are those of these motes, with these paths.
Nothing is noted behind the stop, and before it nothing else but what the feed notes itself. -/
theorem run_notes_milestones {σ : Type} [Feed σ] (plan : CapturePlan) (echoes : Bool) (flag : StopFlag)
    (alarms : List Alarm) (site : Site) (feed : σ) {reason : StopReason}
    (told : ((new plan echoes flag alarms site).run feed).1.stopReason? = some reason) :
    let start := new plan echoes flag alarms site
    let ended := start.run feed
    let reports := start.begun.handed feed
    let last := stoppedFor reason ended.2.1.recorder
    ended.1 = ended.2.1.ending reason ∧
    (∃ heard woven, ended.2.1.site.journal.milestones = site.journal.milestones ++ woven ++ [last] ∧
      Woven (plan.milestones reports) heard woven ∧
      ∀ entry ∈ heard, ∃ disk, ∃ feed : σ, entry ∈ (Feed.pull disk feed).notes.milestones) ∧
    (Reticent σ → ended.2.1.site.journal.milestones =
      site.journal.milestones ++ plan.milestones reports ++ [last]) ∧
    (ended.2.1.recorder.closed.map fun entry => (entry.1, entry.2.path)).Perm
      ((plan.keptMotes reports).map fun mote => (mote, plan.path mote)) := by
  intro start ended reports last
  obtain ⟨met, raised, logged, raise, outcome⟩ := run_logged told
  obtain ⟨heard, woven, whole, weaves, noted⟩ := logged.noted
  have stopped := @stopNow_milestones plan reports met raised reason logged.has raise
  rw [← outcome] at stopped
  obtain ⟨ends, marked, listed⟩ := stopped told
  have journal : ended.2.1.site.journal.milestones = site.journal.milestones ++ woven ++ [last] := by
    rw [← whole]
    exact marked
  refine ⟨ends, ⟨heard, woven, journal, weaves, noted⟩, ?_, listed⟩
  intro reticent
  exact notesCapture_of_reticent reticent plan echoes flag alarms site feed reason told

def twoMotes : CapturePlan :=
  { CapturePlan.standard with
    motes := [1, 2]
    output := { CapturePlan.standardOutput with pattern := "x\x7bnode\x7d.csv" } }

def twoMotesFeed : ScriptFeed :=
  .ofList [⟨7, 2, "0"⟩, ⟨18446744073709551615, 1, CapturePlan.standardMarker⟩, ⟨5, 2, "1"⟩, ⟨6, 1, "2"⟩,
    ⟨6, 1, CapturePlan.standardMarker⟩, ⟨8, 2, "3"⟩]

theorem two_motes_in_journal :
    let ended := (new twoMotes false .clear [] ⟨.blank, .empty⟩).run twoMotesFeed
    ended.1.stopReason? = some .endOfInput ∧ ended.2.1.site.journal.milestones =
      [.milestone "capture_started" [⟨"node", .number 1⟩, ⟨"time", .number (-1)⟩],
        .milestone "sink_opened" [⟨"node", .number 2⟩, ⟨"path", .text "x2.csv"⟩],
        .milestone "sink_opened" [⟨"node", .number 1⟩, ⟨"path", .text "x1.csv"⟩],
        .milestone "capture_stopped"
          [⟨"reason", .text "end of input"⟩, ⟨"rows", .number 3⟩, ⟨"files", .number 2⟩]] := by
  intro ended
  have told : ended.1.stopReason? = some .endOfInput := by decide +kernel
  have notes := (run_notes_milestones twoMotes false .clear [] ⟨.blank, .empty⟩ twoMotesFeed told).2.2.1
  refine ⟨told, (notes ScriptFeed.reticent).trans ?_⟩
  decide +kernel

end Session

end MoteCapture

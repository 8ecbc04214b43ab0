import MoteCapture.Feed.Script
import MoteCapture.Proofs.Session.Course
import MoteCapture.Proofs.Stop.Calls

/-!
One reason for all. The flag keeps the reason of the first raise and the recorder the one that it was
stopped for, and an ending may be told by either; whatever raises the flag and however often a session
is run, the three agree, and once the recorder is stopped every run tells the same.
-/

namespace MoteCapture

def Ending.stopReason? : Ending → Option StopReason
  | .finished summary => some summary.reason
  | .failed error => error.stopReason?
  | .waiting => none

namespace Session

theorem flag_stopNow (session : Session) : session.stopNow.2.flag = session.flag := by
  simp only [stopNow, pause]
  rcases session.recorder.pause session.site session.flag with ⟨e | ⟨⟩, recorder, site⟩
  · cases e with
    | stopped reason => exact flag_conclude _ reason
    | io e => rfl
    | line e => rfl
  · rfl

@[simp] theorem stopReason?_ending (session : Session) (reason : StopReason) :
    (session.ending reason).stopReason? = some reason := by
  unfold ending
  split
  · next same => rw [same]; rfl
  · rfl

theorem Alike.ending {session other : Session} (alike : session.Alike other) (reason : StopReason) :
    other.ending reason = session.ending reason := by
  simp only [Session.ending, summary, alike.recorder]

section Raises

variable {σ : Type} [Feed σ]

/-- Whatever raises the flag in a run, in this order: the feed with its deliveries, an alarm that goes
off during a wait, and the end of the feed. A report does not look at the flag, so who raises it while
one is processed may as well raise it with the delivery. -/
def raises (session : Session) (feed : σ) : List StopReason :=
  match session.flag.reason with
  | some _ => []
  | none =>
      let heard := session.hear (Feed.pull session.site.disk feed)
      (Feed.pull session.site.disk feed).raises.toList ++
        match _asked : (Feed.pull session.site.disk feed).turn with
        | .never _ =>
            match heard.clock.waitForAlarm with
            | some (_, alarm) => [alarm.reason]
            | none => []
        | .comes ms delivery rest =>
            match heard.clock.wait ms with
            | (_, some alarm) => [alarm.reason]
            | (clock, none) =>
                match delivery with
                | .ended => [.endOfInput]
                | .failed _ => []
                | .report report =>
                    match ({ heard with clock } : Session).process report with
                    | (.error _, _) => []
                    | (.ok (), taken) =>
                        match taken.pause with
                        | (some _, _) => []
                        | (none, paused) => raises paused rest
termination_by Feed.size feed
decreasing_by exact Feed.size_lt _asked

def raisesOn (session : Session) (rest : σ) : Delivery → List StopReason
  | .ended => [.endOfInput]
  | .failed _ => []
  | .report report =>
      match session.process report with
      | (.error _, _) => []
      | (.ok (), taken) =>
          match taken.pause with
          | (some _, _) => []
          | (none, paused) => raises paused rest

variable {session : Session} {feed rest : σ}

theorem raises_raised {reason : StopReason} (raised : session.flag.reason = some reason) (feed : σ) :
    session.raises feed = [] := by
  rw [raises]
  split
  · rfl
  · next clear => rw [raised] at clear; cases clear

theorem raises_never (clear : session.flag.reason = none)
    (silent : (Feed.pull session.site.disk feed).turn = .never rest) :
    session.raises feed = (Feed.pull session.site.disk feed).raises.toList ++
      match (session.hear (Feed.pull session.site.disk feed)).clock.waitForAlarm with
      | some (_, alarm) => [alarm.reason]
      | none => [] := by
  rw [raises]
  split
  · next reason raised => rw [clear] at raised; cases raised
  · apply congrArg
    split
    · rfl
    · next other => rw [silent] at other; cases other

theorem raises_comes {ms : Nat} {delivery : Delivery} (clear : session.flag.reason = none)
    (comes : (Feed.pull session.site.disk feed).turn = .comes ms delivery rest) :
    session.raises feed = (Feed.pull session.site.disk feed).raises.toList ++
      match (session.hear (Feed.pull session.site.disk feed)).clock.wait ms with
      | (_, some alarm) => [alarm.reason]
      | (clock, none) => raisesOn { session.hear (Feed.pull session.site.disk feed) with clock }
          rest delivery := by
  rw [raises]
  split
  · next reason raised => rw [clear] at raised; cases raised
  · apply congrArg
    split
    · next other => rw [comes] at other; cases other
    · next other =>
      rw [comes] at other
      cases other
      cases delivery <;> rfl

omit [Feed σ] in
theorem flag_hear (session : Session) (pull : Pull σ) :
    (session.hear pull).flag.reason = session.flag.reason.or pull.raises := by
  unfold hear
  cases pull.raises with
  | none => simp
  | some reason => exact StopFlag.reason_raise session.flag reason

theorem flag_ring (session : Session) (clock : Clock) (alarm : Alarm) :
    (session.ring clock alarm).2.flag.reason = session.flag.reason.or (some alarm.reason) := by
  obtain ⟨site, -, stops⟩ := session.ring_stops clock alarm
  rw [stops, flag_stopNow]
  exact StopFlag.reason_raise session.flag alarm.reason

theorem flag_receive (session : Session) (rest : σ) (delivery : Delivery)
    (later : ∀ taken : Session, ∀ report, delivery = .report report →
      (taken.loop rest).2.1.flag.reason = taken.flag.reason.or (taken.raises rest).head?) :
    (session.receive rest delivery).2.1.flag.reason =
      session.flag.reason.or (session.raisesOn rest delivery).head? := by
  cases delivery with
  | ended =>
      simp only [receive, flag_stopNow]
      exact StopFlag.reason_raise session.flag .endOfInput
  | failed e => simp [receive, raisesOn]
  | report report =>
      have flag := (process_recorder session report).2.2
      rcases outcome : session.process report with ⟨e | ⟨⟩, taken⟩
      · replace flag : taken.flag = session.flag := by rwa [outcome] at flag
        simp [receive, raisesOn, outcome, flag]
      · replace flag : taken.flag = session.flag := by rwa [outcome] at flag
        cases raised : taken.flag.reason with
        | none =>
            simp only [receive, raisesOn, outcome, pause_clear raised]
            rw [later taken report rfl, flag]
        | some reason =>
            simp [receive, raisesOn, outcome, (pause_raised raised).1, flag_stopNow, flag]

-- A run leaves the flag with the first of all raises; by the number of reports that the feed may
-- still give.
theorem flag_loop (session : Session) (feed : σ) :
    (session.loop feed).2.1.flag.reason =
      session.flag.reason.or (session.raises feed).head? := by
  induction size : Feed.size feed using Nat.strongRecOn generalizing session feed with
  | ind left ih =>
    cases clear : session.flag.reason with
    | some reason =>
        rw [loop_raised clear, raises_raised clear]
        simp only [callOff, flag_stopNow]
        simp [clear]
    | none =>
        have heard := flag_hear session (Feed.pull session.site.disk feed)
        rw [clear, Option.none_or] at heard
        rcases turn : (Feed.pull session.site.disk feed).turn with ⟨ms, delivery, rest⟩ | rest
        · rw [loop_comes clear rfl turn, raises_comes clear turn, List.head?_append,
            Option.head?_toList, Option.none_or]
          rcases (session.hear (Feed.pull session.site.disk feed)).clock.wait ms
            with ⟨clock, _ | alarm⟩
          · have told := flag_receive
              { session.hear (Feed.pull session.site.disk feed) with clock } rest delivery (by
                rintro taken report rfl
                exact ih _ (size ▸ Feed.size_lt turn) taken rest rfl)
            exact told.trans (by rw [heard])
          · exact (flag_ring _ clock alarm).trans (by rw [heard]; rfl)
        · rw [loop_never clear rfl turn, raises_never clear turn, List.head?_append,
            Option.head?_toList, Option.none_or]
          rcases (session.hear (Feed.pull session.site.disk feed)).clock.waitForAlarm
            with _ | ⟨clock, alarm⟩
          · simp [heard]
          · exact (flag_ring _ clock alarm).trans (by rw [heard]; rfl)

end Raises

structure InStep (session : Session) : Prop where
  orderly : session.recorder.Orderly
  stopped : ∀ reason, session.recorder.phase = .stopped reason → session.flag.reason = some reason

variable {session met last : Session} {reports : List Report} {ending : Ending}

theorem inStep_running (orderly : session.recorder.Orderly)
    (running : ∀ reason, session.recorder.phase ≠ .stopped reason) : session.InStep :=
  ⟨orderly, fun reason phase => absurd phase (running reason)⟩

-- A stop that the flag calls for leaves the recorder stopped for the reason of the flag, and if every
-- sheet can be closed it tells this reason.
theorem stopNow_inStep {reason : StopReason}
    (running : ∀ earlier, session.recorder.phase ≠ .stopped earlier)
    (raised : session.flag.reason = some reason) :
    session.stopNow.2.InStep ∧ session.stopNow.2.recorder.phase = .stopped reason ∧
      ∀ told, session.stopNow.1.stopReason? = some told →
        told = reason ∧ session.stopNow.1 = session.stopNow.2.ending reason := by
  obtain ⟨closed, left⟩ := Recorder.stop_leaves running session.site reason
  obtain ⟨held, -, -⟩ := stopNow_left raised
  rw [left] at held
  have phase : session.stopNow.2.recorder.phase = .stopped reason := by rw [held]
  refine ⟨⟨?_, ?_⟩, phase, ?_⟩
  · rw [held]
    constructor <;> simp
  · intro other same
    rw [phase] at same
    cases same
    rw [flag_stopNow, raised]
  · intro told tells
    have ends := stopNow_ending raised
    rcases stop : session.recorder.stop session.site reason with ⟨e | ⟨⟩, recorder, site⟩
    · obtain ⟨cause, rfl⟩ := Recorder.stop_error stop
      rw [stop] at ends
      rw [ends] at tells
      cases tells
    · rw [stop] at ends
      replace ends : session.stopNow.1 = session.stopNow.2.ending reason := ends
      rw [ends, stopReason?_ending] at tells
      exact ⟨(Option.some.inj tells).symm, ends⟩

-- A session whose recorder runs tells a reason only if it stops the recorder for it.
theorem Course.inStep (course : session.Course reports ending last)
    (running : ∀ reason, session.recorder.phase ≠ .stopped reason)
    (orderly : session.recorder.Orderly) :
    last.InStep ∧ ∀ reason, ending.stopReason? = some reason →
      last.recorder.phase = .stopped reason ∧ ending = last.ending reason := by
  induction course with
  | waits waited =>
      rw [← waited.recorder] at running orderly
      exact ⟨inStep_running orderly running, nofun⟩
  | fails waited =>
      rw [← waited.recorder] at running orderly
      exact ⟨inStep_running orderly running, nofun⟩
  | stops waited raised =>
      rw [← waited.recorder] at running
      obtain ⟨inStep, phase, tells⟩ := stopNow_inStep running raised
      refine ⟨inStep, ?_⟩
      intro reason told
      obtain ⟨rfl, ends⟩ := tells reason told
      exact ⟨phase, ends⟩
  | breaks waited failed =>
      rw [← waited.recorder] at running orderly
      have took := (process_error failed).1
      obtain ⟨cause, rfl⟩ := took.error_io orderly running
      exact ⟨inStep_running (took.orderly orderly) (took.running running), nofun⟩
  | @takes session met taken last report reports ending waited well _ ih =>
      rw [← waited.recorder] at running orderly
      have took := met.recorder.take_took met.site report
      have held := (process_recorder met report).1
      rw [well] at held
      apply ih
      · rw [held]
        exact took.running running
      · rw [held]
        exact took.orderly orderly

section Histories

variable {σ : Type} [Feed σ]

-- A run on a recorder that is stopped asks for nothing, changes nothing and tells the reason.
theorem run_stopped {reason : StopReason} (inStep : session.InStep)
    (phase : session.recorder.phase = .stopped reason) (feed : σ) :
    (session.run feed).1 = session.ending reason ∧ (session.run feed).2.2 = feed ∧
      session.Alike (session.run feed).2.1 ∧ (session.run feed).2.1.flag = session.flag := by
  have raised : session.begun.flag.reason = some reason := inStep.stopped reason phase
  have ran : session.run feed = _ := loop_raised raised feed
  let noted : Session := { session.begun with
    site := session.begun.site.debug ("Stop raised while waiting for events: " ++ reason.text) }
  have again : noted.stopNow.1 = noted.ending reason ∧ noted.Alike noted.stopNow.2 :=
    stopNow_again phase raised
  rw [ran]
  exact ⟨again.1, rfl, ⟨again.2.recorder, again.2.counters, again.2.disk⟩, flag_stopNow noted⟩

theorem InStep.run (inStep : session.InStep) (feed : σ) :
    (session.run feed).2.1.InStep ∧
      ∀ reason, (session.run feed).1.stopReason? = some reason →
        (session.run feed).2.1.recorder.phase = .stopped reason ∧
          (session.run feed).1 = (session.run feed).2.1.ending reason := by
  rcases session.recorder.stopped_or_running with ⟨reason, phase⟩ | running
  · obtain ⟨ends, -, alike, flag⟩ := run_stopped inStep phase feed
    refine ⟨⟨?_, ?_⟩, ?_⟩
    · rw [alike.recorder]
      exact inStep.orderly
    · rw [alike.recorder, flag]
      exact inStep.stopped
    · intro told tells
      rw [ends, stopReason?_ending] at tells
      cases tells
      exact ⟨by rw [alike.recorder, phase], by rw [ends, alike.ending]⟩
  · obtain ⟨reports, course⟩ := session.run_course feed
    exact course.inStep running inStep.orderly

inductive Deed where
  | raise (reason : StopReason)
  /-- Time goes by, alarms are set, and others work on the disk. -/
  | elapse (clock : Clock) (site : Site)
  | run

structure History (σ : Type) where
  session : Session
  rest : σ
  raises : List StopReason

namespace History

def start (session : Session) (feed : σ) : History σ := ⟨session, feed, []⟩

def after (history : History σ) : Deed → History σ
  | .raise reason =>
      { history with session := history.session.raise reason, raises := history.raises ++ [reason] }
  | .elapse clock site => { history with session := { history.session with clock, site } }
  | .run =>
      let ended := history.session.run history.rest
      ⟨ended.2.1, ended.2.2, history.raises ++ history.session.begun.raises history.rest⟩

def afterAll (history : History σ) (deeds : List Deed) : History σ :=
  deeds.foldl after history

structure Sound (history : History σ) : Prop where
  inStep : history.session.InStep
  first : history.session.flag.reason = history.raises.head?

variable {history : History σ}

theorem Sound.after (sound : history.Sound) (deed : Deed) : (history.after deed).Sound := by
  cases deed with
  | raise reason =>
      have raised := StopFlag.reason_raise history.session.flag reason
      refine ⟨⟨sound.inStep.orderly, ?_⟩, ?_⟩
      · intro earlier phase
        exact raised.trans (by rw [sound.inStep.stopped earlier phase]; rfl)
      · exact raised.trans (by rw [sound.first, History.after, List.head?_append]; rfl)
  | elapse clock site => exact ⟨⟨sound.inStep.orderly, sound.inStep.stopped⟩, sound.first⟩
  | run =>
      refine ⟨(sound.inStep.run history.rest).1, ?_⟩
      have flag := flag_loop history.session.begun history.rest
      refine flag.trans ?_
      rw [History.after, List.head?_append, ← sound.first]
      rfl

theorem Sound.afterAll (sound : history.Sound) (deeds : List Deed) :
    (history.afterAll deeds).Sound := by
  induction deeds generalizing history with
  | nil => exact sound
  | cons deed rest ih => exact ih (sound.after deed)

-- After the stop nothing that happens reaches the recorder and the counters.
theorem Sound.kept {reason : StopReason} (sound : history.Sound)
    (phase : history.session.recorder.phase = .stopped reason) (deed : Deed) :
    (history.after deed).session.recorder = history.session.recorder ∧
      (history.after deed).session.counters = history.session.counters := by
  cases deed with
  | raise reason => exact ⟨rfl, rfl⟩
  | elapse clock site => exact ⟨rfl, rfl⟩
  | run =>
      obtain ⟨-, -, alike, -⟩ := run_stopped sound.inStep phase history.rest
      exact ⟨alike.recorder, alike.counters⟩

theorem Sound.keptAll {reason : StopReason} (sound : history.Sound)
    (phase : history.session.recorder.phase = .stopped reason) (deeds : List Deed) :
    (history.afterAll deeds).session.recorder = history.session.recorder ∧
      (history.afterAll deeds).session.counters = history.session.counters := by
  induction deeds generalizing history with
  | nil => exact ⟨rfl, rfl⟩
  | cons deed rest ih =>
      obtain ⟨recorder, counters⟩ := sound.kept phase deed
      obtain ⟨same, counted⟩ := ih (sound.after deed) (by rw [recorder, phase])
      exact ⟨same.trans recorder, counted.trans counters⟩

end History

/-- Whatever raises the flag and however often a session is run, the first raise gives the reason.
The flag keeps it, a recorder that is stopped was stopped for it, even if a sheet could not be
flushed, and an ending that tells a reason tells this one: a run finishes for the end of the feed, and
fails for any other reason. Every run after the stop asks the feed for nothing, changes nothing, and
ends the same way. -/
theorem first_raise_is_the_reason (plan : CapturePlan) (echoes : Bool) (alarms : List Alarm)
    (site : Site) (feed : σ) (deeds : List Deed) :
    let history := (History.start (new plan echoes .clear alarms site) feed).afterAll deeds
    let ended := history.session.run history.rest
    let raises := history.raises ++ history.session.begun.raises history.rest
    history.session.flag.reason = history.raises.head? ∧
    (∀ reason, history.session.recorder.phase = .stopped reason →
      history.session.flag.reason = some reason) ∧
    (∀ reason, ended.1.stopReason? = some reason →
      ended.2.1.recorder.phase = .stopped reason ∧ ended.2.1.flag.reason = some reason ∧
        raises.head? = some reason ∧
        ended.1 = if reason = .endOfInput then .finished (ended.2.1.summary reason)
          else .failed (.capture (.stopped reason))) ∧
    ∀ reason, history.session.recorder.phase = .stopped reason → ∀ later,
      let met := history.afterAll later
      let again := met.session.run met.rest
      met.session.recorder = history.session.recorder ∧
        met.session.counters = history.session.counters ∧
        again.2.2 = met.rest ∧ met.session.Alike again.2.1 ∧
        again.1 = if reason = .endOfInput then .finished (history.session.summary reason)
          else .failed (.capture (.stopped reason)) := by
  intro history ended raises
  have begins : (History.start (new plan echoes .clear alarms site) feed).Sound :=
    ⟨inStep_running (Recorder.orderly_new plan echoes) nofun, rfl⟩
  have sound : history.Sound := begins.afterAll deeds
  have next := sound.after .run
  refine ⟨sound.first, sound.inStep.stopped, ?_, ?_⟩
  · intro reason tells
    obtain ⟨phase, ends⟩ := (sound.inStep.run history.rest).2 reason tells
    have raised := next.inStep.stopped reason phase
    exact ⟨phase, raised, next.first.symm.trans raised, ends⟩
  · intro reason phase later met again
    obtain ⟨recorder, counters⟩ := sound.keptAll phase later
    have still : met.session.recorder.phase = .stopped reason := by rw [recorder, phase]
    obtain ⟨ends, left, alike, -⟩ := run_stopped (sound.afterAll later).inStep still met.rest
    refine ⟨recorder, counters, left, alike, ends.trans ?_⟩
    simp only [ending, summary, recorder]

end Histories

-- The sheet is on a device that takes no byte, and the interrupt comes after the end of the feed.
theorem late_interrupt_after_failed_flush :
    let plan := { CapturePlan.standard with
      output := { CapturePlan.standardOutput with pattern := "/dev/full" } }
    let feed := ScriptFeed.ofList [⟨0, 1, CapturePlan.standardMarker⟩, ⟨5, 1, "7"⟩]
    let start := new plan true .clear [] ⟨.blank, .empty⟩
    let history := (History.start start feed).afterAll [.run, .raise .interrupted]
    let again := history.session.run history.rest
    (start.run feed).1 = .failed (.capture (.io .storageFull)) ∧
      history.raises = [.endOfInput, .interrupted] ∧
      history.session.recorder.phase = .stopped .endOfInput ∧
      history.session.flag.reason = some .endOfInput ∧
      (∃ summary, again.1 = .finished summary) ∧ again.2.1.flag.reason = some .endOfInput ∧
      history.session.Alike again.2.1 := by
  intro plan feed start history again
  have failed : (start.run feed).1 = .failed (.capture (.io .storageFull)) := by decide +kernel
  have raises : history.raises = [.endOfInput, .interrupted] := by decide +kernel
  have phase : history.session.recorder.phase = .stopped .endOfInput := by decide +kernel
  have tells : again.1.stopReason? = some .endOfInput := by decide +kernel
  obtain ⟨-, agrees, told, same⟩ := first_raise_is_the_reason plan true [] ⟨.blank, .empty⟩ feed
    [.run, .raise .interrupted]
  obtain ⟨-, flag, -, ends⟩ := told .endOfInput tells
  obtain ⟨-, -, -, alike, -⟩ := same .endOfInput phase []
  exact ⟨failed, raises, phase, agrees _ phase, ⟨_, ends⟩, flag, alike⟩

end Session

end MoteCapture

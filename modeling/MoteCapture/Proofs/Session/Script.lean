import MoteCapture.Feed.Script
import MoteCapture.Proofs.Session.Take

/-!
Sessions on a list of reports. A stop that a list raises with one of its deliveries ends the session
right after this report, so the session comes to the same as one on a shorter list.
-/

namespace MoteCapture

open Session

namespace ScriptFeed

variable {session : Session} {feed : ScriptFeed} {report : Report} {rest : List Report}

theorem pull_cons (disk : Disk) (reports : feed.reports = report :: rest) :
    Feed.pull disk feed = ⟨.empty, feed.stopAt (feed.delivered + 1), .comes 0 (.report report)
      { feed with reports := rest, delivered := feed.delivered + 1 }⟩ := by
  simp only [Feed.pull, next, reports]

theorem pull_nil (disk : Disk) (reports : feed.reports = []) (tells : feed.stalls = false) :
    Feed.pull disk feed = ⟨.empty, none, .comes 0 .ended feed⟩ := by
  simp only [Feed.pull, next, reports, tells]
  rfl

theorem hear_quietly (session : Session) {σ : Type} (turn : Turn σ) :
    session.hear ⟨.empty, none, turn⟩ = session := rfl

-- A list that raises no stop and tells its end is taken to the end.
theorem loop_told (clear : session.flag.reason = none) (tells : feed.stalls = false)
    (silent : ∀ number, feed.delivered < number → number ≤ feed.delivered + feed.reports.length →
      feed.stopAt number = none) :
    ((session.loop feed).1, (session.loop feed).2.1) =
      endOn .endOfInput (session.takeAll feed.reports) := by
  generalize found : feed.reports = reports at silent ⊢
  -- By the reports that are left, for every session and every number of reports before them.
  induction reports generalizing session feed with
  | nil => rw [loop_ended clear (pull_nil _ found tells) rfl, hear_quietly, takeAll, endOn]
  | cons report rest ih =>
      have quiet := silent (feed.delivered + 1) (by omega) (by simp)
      rw [loop_next clear (pull_cons _ found) rfl quiet, quiet, hear_quietly, takeAll]
      have flag := (process_recorder session report).2.2
      rcases outcome : session.process report with ⟨e | ⟨⟩, taken⟩
      · rfl
      · rw [outcome] at flag
        have later : ∀ number, feed.delivered + 1 < number →
            number ≤ feed.delivered + 1 + rest.length → feed.stopAt number = none := by
          intro number above below
          exact silent number (by omega) (by simp; omega)
        exact @ih taken { feed with reports := rest, delivered := feed.delivered + 1 }
          (by rw [flag]; exact clear) tells rfl later

theorem stopAt_due {count number : Nat} {reason : StopReason}
    (raises : feed.raiseAfter = some (count, reason)) (due : count ≤ number) :
    feed.stopAt number = some reason := by
  simp only [stopAt, raises, if_pos due]

theorem stopAt_early {count number : Nat} {reason : StopReason}
    (raises : feed.raiseAfter = some (count, reason)) (early : number < count) :
    feed.stopAt number = none := by
  simp only [stopAt, raises, if_neg (Nat.not_le.mpr early)]

-- Reports that come without a stop are taken one after the other.
theorem loop_through {taken : Session} {early late : List Report} (clear : session.flag.reason = none)
    (found : feed.reports = early ++ late)
    (silent : ∀ number, feed.delivered < number → number ≤ feed.delivered + early.length →
      feed.stopAt number = none)
    (well : session.takeAll early = (.ok (), taken)) :
    session.loop feed =
      taken.loop { feed with reports := late, delivered := feed.delivered + early.length } := by
  induction early generalizing session feed with
  | nil =>
      cases well
      rw [List.nil_append] at found
      rw [← found]
      rfl
  | cons report rest ih =>
      have quiet := silent (feed.delivered + 1) (by omega) (by simp)
      rw [loop_next clear (pull_cons _ found) rfl quiet, quiet, hear_quietly]
      rw [takeAll] at well
      have flag := (process_recorder session report).2.2
      rcases outcome : session.process report with ⟨e | ⟨⟩, after⟩
      · rw [outcome] at well
        cases well
      · rw [outcome] at well flag
        have later : ∀ number, feed.delivered + 1 < number →
            number ≤ feed.delivered + 1 + rest.length → feed.stopAt number = none := by
          intro number above below
          exact silent number (by omega) (by simp; omega)
        have next := @ih after { feed with reports := rest ++ late, delivered := feed.delivered + 1 }
          (by rw [flag]; exact clear) rfl later well
        refine next.trans ?_
        simp only [List.length_cons, Nat.add_assoc, Nat.add_comm 1]

-- The report that the stop is raised with is still taken.
theorem loop_last {taken : Session} {reason : StopReason} (clear : session.flag.reason = none)
    (found : feed.reports = report :: rest)
    (due : feed.stopAt (feed.delivered + 1) = some reason)
    (processed : session.process report = (.ok (), taken)) :
    session.loop feed = ((taken.raise reason).stopNow.1, (taken.raise reason).stopNow.2,
      { feed with reports := rest, delivered := feed.delivered + 1 }) := by
  -- The flag goes up before this report is processed, and is seen only after it.
  have heard : session.hear ⟨.empty, feed.stopAt (feed.delivered + 1), .comes 0 (.report report)
      { feed with reports := rest, delivered := feed.delivered + 1 }⟩ = session.raise reason := by
    rw [due]
    rfl
  have flag := (process_recorder session report).2.2
  rw [processed] at flag
  have same : taken.raise reason = { taken with flag := ⟨some reason⟩ } :=
    raise_clear (by rw [flag]; exact clear) reason
  have raised : (taken.raise reason).flag.reason = some reason := by rw [same]
  rw [loop_report clear (pull_cons _ found) rfl, heard, raise_clear clear, process_raise, processed]
  simp only [← same, (pause_raised raised).1]

theorem loop_stopped {taken : Session} {count early : Nat} {reason : StopReason}
    (clear : session.flag.reason = none) (raises : feed.raiseAfter = some (count, reason))
    (due : count ≤ feed.delivered + (early + 1))
    (notYet : early = 0 ∨ feed.delivered + early < count)
    (enough : early < feed.reports.length)
    (well : session.takeAll (feed.reports.take (early + 1)) = (.ok (), taken)) :
    session.loop feed = ((taken.raise reason).stopNow.1, (taken.raise reason).stopNow.2,
      { feed with
        reports := feed.reports.drop (early + 1), delivered := feed.delivered + (early + 1) }) := by
  have found : feed.reports =
      feed.reports.take early ++ feed.reports[early] :: feed.reports.drop (early + 1) := by
    rw [List.getElem_cons_drop, List.take_append_drop]
  have size : (feed.reports.take early).length = early := by
    rw [List.length_take]
    omega
  rw [List.take_succ_eq_append_getElem enough] at well
  obtain ⟨before, others, last⟩ := takeAll_concat well
  have quiet : ∀ number, feed.delivered < number →
      number ≤ feed.delivered + (feed.reports.take early).length → feed.stopAt number = none := by
    intro number above below
    exact stopAt_early raises (by omega)
  have calm := takeAll_clear clear (feed.reports.take early)
  rw [others] at calm
  rw [loop_through clear found quiet others, size]
  exact loop_last calm rfl (stopAt_due raises due) last

end ScriptFeed

namespace Session

section Runs

variable (plan : CapturePlan) (echoes : Bool) (alarms : List Alarm) (site : Site)

theorem run_raised {σ : Type} [Feed σ] (feed : σ) (first : StopReason) :
    let ended := (new plan echoes ⟨some first⟩ alarms site).run feed
    ended.2.2 = feed ∧ ended.2.1.site.disk = site.disk ∧ ended.2.1.counters = .zero ∧
      ended.2.1.recorder = { Recorder.new plan echoes with phase := .stopped first } := by
  intro ended
  generalize begins : (new plan echoes ⟨some first⟩ alarms site).begun = session
  have raised : session.flag.reason = some first := by rw [← begins]; rfl
  -- No sheet is open, so nothing can fail and nothing reaches the disk.
  have stops : session.callOff first = conclude
      { session with
        recorder := { session.recorder with phase := .stopped first }
        site := (session.site.debug ("Stop raised while waiting for events: " ++ first.text)).info
          ("Shutting down capture: " ++ first.text) } first := by
    rw [callOff, (pause_raised (by exact raised)).2, ← begins]
    rfl
  have looped : ended = ((session.callOff first).1, (session.callOff first).2, feed) := by
    rw [← begins]
    exact loop_raised rfl feed
  obtain ⟨_, recorder, counters, disk⟩ := conclude_eq
    { session with
      recorder := { session.recorder with phase := .stopped first }
      site := (session.site.debug ("Stop raised while waiting for events: " ++ first.text)).info
        ("Shutting down capture: " ++ first.text) } first
  rw [looped, stops]
  refine ⟨rfl, disk.trans ?_, counters.trans ?_, recorder.trans ?_⟩
  · rw [← begins]
    rfl
  · rw [← begins]
    rfl
  · rw [← begins]
    rfl

-- A list that is told to its end leads to the same as any other with the same reports.
theorem run_told (feed : ScriptFeed) (fresh : feed.delivered = 0) (tells : feed.stalls = false)
    (silent : ∀ number, 0 < number → number ≤ feed.reports.length → feed.stopAt number = none) :
    let ended := (new plan echoes .clear alarms site).run feed
    (ended.1, ended.2.1) =
      endOn .endOfInput ((new plan echoes .clear alarms site).begun.takeAll feed.reports) := by
  intro ended
  exact ScriptFeed.loop_told rfl tells (by rw [fresh, Nat.zero_add]; exact silent)

-- The stop that goes with the last report of a prefix leaves what the end of this prefix leaves.
theorem run_shortened (feed : ScriptFeed) {count : Nat} {reason : StopReason} {summary : Summary}
    (fresh : feed.delivered = 0) (raises : feed.raiseAfter = some (count, reason))
    (enough : max count 1 ≤ feed.reports.length) :
    let start := new plan echoes .clear alarms site
    let stopped := start.run feed
    let plain := start.run (ScriptFeed.ofList (feed.reports.take (max count 1)))
    plain.1 = .finished summary →
    stopped.2.2.delivered = max count 1 ∧ stopped.2.2.reports = feed.reports.drop (max count 1) ∧
      stopped.2.1.site.disk = plain.2.1.site.disk ∧
      stopped.2.1.counters = plain.2.1.counters ∧
      stopped.2.1.recorder = { plain.2.1.recorder with phase := .stopped reason } ∧
      stopped.1 = if reason = .endOfInput then .finished summary
        else .failed (.capture (.stopped reason)) := by
  intro start stopped plain finished
  obtain ⟨early, last⟩ : ∃ early, max count 1 = early + 1 := ⟨max count 1 - 1, by omega⟩
  have told : (plain.1, plain.2.1) =
      endOn .endOfInput (start.begun.takeAll (feed.reports.take (max count 1))) :=
    run_told plan echoes alarms site (ScriptFeed.ofList _) rfl rfl fun _ _ _ => rfl
  have clear : (start.begun.takeAll (feed.reports.take (max count 1))).2.flag.reason = none :=
    takeAll_clear rfl _
  have running : ∀ reason, (start.begun.takeAll (feed.reports.take (max count 1))).2.recorder.phase ≠
      .stopped reason := takeAll_running (by intro reason phase; cases phase) _
  obtain ⟨taken, _, _, well, _, _⟩ := endOn_finished clear
    (by rw [← finished]; exact (congrArg Prod.fst told).symm)
  rw [well] at clear running told
  have due : count ≤ feed.delivered + (early + 1) := by omega
  have notYet : early = 0 ∨ feed.delivered + early < count := by omega
  have looped : stopped = _ := ScriptFeed.loop_stopped (rfl : start.begun.flag.reason = none) raises
    due notYet (by omega) (by rw [← last]; exact well)
  -- The sheets that the end of the prefix closes are closed by the stop as well.
  have raised : taken.raise reason = { taken with flag := ⟨some reason⟩ } := raise_clear clear reason
  have alike : taken.Alike (taken.raise reason) := by rw [raised]; exact ⟨rfl, rfl, rfl⟩
  have ends : endOn .endOfInput (.ok (), taken) = (.finished summary, plain.2.1) := by
    rw [← told, finished]
  obtain ⟨ending, recorder, counters, disk, _⟩ :=
    stopNow_endOn running clear ends alike (by rw [raised])
  rw [looped, last, fresh]
  exact ⟨Nat.zero_add _, rfl, disk, counters, recorder, ending⟩

end Runs

/-- A session that is stopped by its list right after a report does what a session on the list up to
this report does, and only the reason tells the two apart. On a flag that is raised from the start
nothing is done, and a stop that the list never comes to changes nothing. -/
theorem stopped_run_is_shorter_run (plan : CapturePlan) (echoes : Bool) (alarms : List Alarm)
    (site : Site) (reports : List Report) (count : Nat) (reason : StopReason) (stalls : Bool) :
    let start := new plan echoes .clear alarms site
    let feed : ScriptFeed := ⟨reports, 0, some (count, reason), stalls⟩
    let stopped := start.run feed
    let last := max count 1
    (∀ first,
      let ended := (new plan echoes ⟨some first⟩ alarms site).run feed
      ended.2.2 = feed ∧ ended.2.1.site.disk = site.disk ∧ ended.2.1.counters = .zero ∧
        ended.2.1.recorder = { Recorder.new plan echoes with phase := .stopped first }) ∧
    (∀ summary, last ≤ reports.length →
      let plain := start.run (ScriptFeed.ofList (reports.take last))
      plain.1 = .finished summary →
      stopped.2.2.delivered = last ∧ stopped.2.2.reports = reports.drop last ∧
        stopped.2.1.site.disk = plain.2.1.site.disk ∧
        stopped.2.1.counters = plain.2.1.counters ∧
        stopped.2.1.recorder = { plain.2.1.recorder with phase := .stopped reason } ∧
        stopped.1 = if reason = .endOfInput then .finished summary
          else .failed (.capture (.stopped reason))) ∧
    (reports.length < last → stalls = false →
      let plain := start.run (ScriptFeed.ofList reports)
      (stopped.1, stopped.2.1) = (plain.1, plain.2.1)) := by
  intro start feed stopped last
  refine ⟨?_, ?_, ?_⟩
  · intro first
    exact run_raised plan echoes alarms site feed first
  · intro summary enough plain finished
    exact run_shortened plan echoes alarms site feed rfl rfl enough finished
  · intro short tells plain
    have late : ∀ number, 0 < number → number ≤ reports.length → feed.stopAt number = none := by
      intro number above below
      have after : reports.length < max count 1 := short
      exact ScriptFeed.stopAt_early rfl (by omega)
    have one := run_told plan echoes alarms site feed rfl tells late
    have two := run_told plan echoes alarms site (ScriptFeed.ofList reports) rfl rfl
      fun _ _ _ => rfl
    exact one.trans two.symm

theorem interrupt_after_two_reports :
    let reports : List Report := [⟨0, 1, CapturePlan.standardMarker⟩, ⟨5, 1, "7"⟩, ⟨6, 1, "8"⟩]
    let start := new .standard true .clear [] ⟨.blank, .empty⟩
    let stopped := start.run (⟨reports, 0, some (2, .interrupted), true⟩ : ScriptFeed)
    let plain := start.run (ScriptFeed.ofList (reports.take 2))
    plain.1 = .finished ⟨.endOfInput, ⟨2, 1, 0, 1⟩, [(1, ⟨"csv/log_1-5-duty-cycle.csv", 1⟩)]⟩ ∧
      stopped.2.2.delivered = 2 ∧ stopped.2.1.site.disk = plain.2.1.site.disk ∧
      stopped.1 = .failed (.capture (.stopped .interrupted)) := by
  intro reports start stopped plain
  have finished : plain.1 =
      .finished ⟨.endOfInput, ⟨2, 1, 0, 1⟩, [(1, ⟨"csv/log_1-5-duty-cycle.csv", 1⟩)]⟩ := by
    decide +kernel
  obtain ⟨delivered, _, disk, _, _, ending⟩ := (stopped_run_is_shorter_run .standard true []
    ⟨.blank, .empty⟩ reports 2 .interrupted true).2.1 _ (by decide) finished
  exact ⟨finished, delivered, disk, ending⟩

end Session

end MoteCapture

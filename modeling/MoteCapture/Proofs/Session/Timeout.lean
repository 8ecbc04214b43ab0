import Mathlib.Algebra.GroupWithZero.Nat
import MoteCapture.Feed.Timed
import MoteCapture.Proofs.Session.Script

/-!
Sessions with a timeout. Only waiting takes time, so a timeout cuts a session off at the first report
that comes after its moment: the reports before it are taken as without a timeout, and the sheets are
closed as at the end of a feed of these reports.
-/

namespace MoteCapture

open Session

-- A wait that is over before every alarm takes its time and nothing else.
theorem Clock.wait_early {now ms : Nat} {alarms : List Alarm}
    (early : ∀ alarm ∈ alarms, now + ms < alarm.moment) :
    Clock.wait ⟨now, alarms⟩ ms = (⟨now + ms, alarms⟩, none) := by
  unfold wait
  split
  · next alarm first =>
    have after := early alarm (earliest?_mem first)
    have calm : ¬ (ms != 0 && alarm.moment ≤ now + ms) = true := by simp; omega
    rw [if_neg calm]
  · rfl

theorem Clock.wait_late {now ms : Nat} {alarm : Alarm} (waits : ms ≠ 0)
    (late : alarm.moment ≤ now + ms) :
    (Clock.wait ⟨now, [alarm]⟩ ms).2 = some alarm := by
  simp [wait, earliest?, waits, late]

-- An alarm that finds the flag raised has nothing to add.
theorem Alarm.ring_raised (alarm : Alarm) {flag : StopFlag} {reason : StopReason}
    (raised : flag.reason = some reason) (journal : Journal) :
    alarm.ring flag journal = (flag, journal) := by
  have again : flag.raise alarm.reason = (false, flag) := by simp only [StopFlag.raise, raised]
  simp [ring, again]

namespace TimedFeed

abbrev Paced := List (Nat × Report)

def ofPaced (paced : Paced) : TimedFeed :=
  ⟨paced.map fun entry => ⟨entry.1, .ok entry.2⟩⟩

def reports (paced : Paced) : List Report :=
  paced.map Prod.snd

def moments (now : Nat) : Paced → List Nat
  | [] => []
  | entry :: rest => (now + entry.1) :: moments (now + entry.1) rest

def before (moment : Nat) (paced : Paced) : Nat :=
  (moments 0 paced).countP (· < moment)

def reached (now : Nat) (paced : Paced) : Nat :=
  now + (paced.map Prod.fst).sum

theorem length_moments (now : Nat) (paced : Paced) : (moments now paced).length = paced.length := by
  induction paced generalizing now with
  | nil => rfl
  | cons entry rest ih => exact congrArg (· + 1) (ih _)

theorem before_le {moment : Nat} {paced : Paced} : before moment paced ≤ paced.length := by
  rw [← length_moments 0 paced]
  exact List.countP_le_length

theorem before_all {moment : Nat} {paced : Paced}
    (early : ∀ other ∈ moments 0 paced, other < moment) : before moment paced = paced.length := by
  rw [← length_moments 0 paced, before, List.countP_eq_length]
  intro other member
  exact decide_eq_true (early other member)

theorem reached_cons (now : Nat) (entry : Nat × Report) (rest : Paced) :
    reached now (entry :: rest) = reached (now + entry.1) rest := by
  simp [reached, Nat.add_assoc]

-- No report comes before its pause began.
theorem le_moments {now moment : Nat} {paced : Paced} (member : moment ∈ moments now paced) :
    now ≤ moment := by
  induction paced generalizing now with
  | nil => cases member
  | cons entry rest ih =>
      rcases List.mem_cons.mp member with rfl | later
      · exact Nat.le_add_right _ _
      · exact Nat.le_trans (Nat.le_add_right _ _) (ih later)

theorem reached_le {now limit : Nat} {paced : Paced} (start : now ≤ limit)
    (early : ∀ moment ∈ moments now paced, moment < limit) : reached now paced ≤ limit := by
  induction paced generalizing now with
  | nil => exact start
  | cons entry rest ih =>
      rw [reached_cons]
      apply ih
      · exact Nat.le_of_lt (early _ List.mem_cons_self)
      · intro moment member
        exact early moment (List.mem_cons_of_mem _ member)

-- The reports that come before a moment are the first ones, and the next one comes after it.
theorem split_moments {limit now : Nat} {paced : Paced} (apart : limit ∉ moments now paced) :
    (∀ moment ∈ moments now (paced.take ((moments now paced).countP (· < limit))),
      moment < limit) ∧
    ∀ entry rest, paced.drop ((moments now paced).countP (· < limit)) = entry :: rest →
      limit < reached now (paced.take ((moments now paced).countP (· < limit))) + entry.1 := by
  induction paced generalizing now with
  | nil => simp [moments]
  | cons entry rest ih =>
      rw [moments, List.mem_cons, not_or] at apart
      rw [moments]
      by_cases early : now + entry.1 < limit
      · rw [List.countP_cons_of_pos (by simpa using early), List.take_succ_cons,
          List.drop_succ_cons, reached_cons]
        obtain ⟨inTime, next⟩ := ih apart.2
        refine ⟨fun moment member => ?_, next⟩
        rcases List.mem_cons.mp member with rfl | later
        · exact early
        · exact inTime moment later
      · -- Nothing comes in time any more, for no report comes before the one ahead of it.
        have none : (moments (now + entry.1) rest).countP (· < limit) = 0 := by
          rw [List.countP_eq_zero]
          intro moment member
          have := le_moments member
          simp
          omega
        rw [List.countP_cons_of_neg (by simpa using early), none]
        refine ⟨fun moment member => (by cases member), fun first others same => ?_⟩
        cases same
        simp [reached]
        omega

variable {session taken : Session} {now : Nat} {alarms : List Alarm} {alarm : Alarm}
  {early : Paced}

-- Reports that come before every alarm are taken as if there were none.
theorem loop_early (late : Paced) (clear : session.flag.reason = none)
    (clock : session.clock = ⟨now, alarms⟩)
    (inTime : ∀ alarm ∈ alarms, ∀ moment ∈ moments now early, moment < alarm.moment)
    (well : session.takeAll (reports early) = (.ok (), taken)) :
    session.loop (ofPaced (early ++ late)) =
      ({ taken with clock := ⟨reached now early, alarms⟩ } : Session).loop (ofPaced late) := by
  induction early generalizing session now taken with
  | nil =>
      cases well
      rw [reached, List.map_nil, List.sum_nil, Nat.add_zero, ← clock]
      rfl
  | cons entry rest ih =>
      have waits : session.clock.wait entry.1 = (⟨now + entry.1, alarms⟩, none) := by
        rw [clock]
        apply Clock.wait_early
        intro alarm member
        exact inTime alarm member _ List.mem_cons_self
      have asked : Feed.pull session.site.disk (ofPaced (entry :: rest ++ late)) =
        ⟨.empty, none, .comes entry.1 (.report entry.2) (ofPaced (rest ++ late))⟩ := rfl
      rw [loop_comes clear asked rfl, ScriptFeed.hear_quietly, waits]
      rw [reports, List.map_cons, takeAll] at well
      have flag := (process_recorder session entry.2).2.2
      rcases outcome : session.process entry.2 with ⟨e | ⟨⟩, after⟩
      · rw [outcome] at well
        cases well
      · rw [outcome] at well flag
        have calm : ({ after with clock := ⟨now + entry.1, alarms⟩ } : Session).flag.reason = none :=
          flag ▸ clear
        simp only [receive, process_wait, outcome, pause_clear calm]
        have later := takeAll_wait after ⟨now + entry.1, alarms⟩ (reports rest)
        rw [show after.takeAll (reports rest) = (.ok (), taken) from well] at later
        have next := ih calm rfl (fun alarm member moment after =>
          inTime alarm member moment (List.mem_cons_of_mem _ after)) later
        rw [reached_cons]
        exact next

-- Reports that all come before every alarm lead to the end of the feed.
theorem loop_all (clear : session.flag.reason = none) (clock : session.clock = ⟨now, alarms⟩)
    (inTime : ∀ alarm ∈ alarms, ∀ moment ∈ moments now early, moment < alarm.moment)
    (well : session.takeAll (reports early) = (.ok (), taken)) :
    session.loop (ofPaced early) =
      let ended := endOn .endOfInput (.ok (), taken)
      (ended.1, { ended.2 with clock := ⟨reached now early, alarms⟩ }, ofPaced []) := by
  have through : session.loop (ofPaced (early ++ [])) = _ := loop_early [] clear clock inTime well
  have kept := takeAll_clear clear (reports early)
  rw [well] at kept
  have calm : ({ taken with clock := ⟨reached now early, alarms⟩ } : Session).flag.reason = none :=
    kept
  have asked : Feed.pull taken.site.disk (ofPaced []) =
    ⟨.empty, none, .comes 0 .ended (ofPaced [])⟩ := rfl
  rw [List.append_nil] at through
  rw [through, loop_ended calm asked rfl, ScriptFeed.hear_quietly]
  have ends := stopNow_wait (taken.raise .endOfInput) ⟨reached now early, alarms⟩
  exact congrArg (fun ended => (ended.1, ended.2, ofPaced [])) ends

-- A report that comes after an alarm is still to come when the session ends.
theorem loop_late (session : Session) (entry : Nat × Report) (rest : Paced)
    (clear : session.flag.reason = none) (clock : session.clock = ⟨now, [alarm]⟩) (waits : entry.1 ≠ 0)
    (late : alarm.moment ≤ now + entry.1) :
    ∃ met, session.Alike met ∧ met.flag.reason = some alarm.reason ∧
      session.loop (ofPaced (entry :: rest)) =
        (met.stopNow.1, met.stopNow.2, ofPaced (entry :: rest)) := by
  have asked : Feed.pull session.site.disk (ofPaced (entry :: rest)) =
    ⟨.empty, none, .comes entry.1 (.report entry.2) (ofPaced rest)⟩ := rfl
  have rings := Clock.wait_late waits late
  rw [← clock] at rings
  rw [loop_comes clear asked rfl, ScriptFeed.hear_quietly]
  rcases wait : session.clock.wait entry.1 with ⟨later, rung⟩
  rw [wait] at rings
  cases rings
  obtain ⟨met, alike, flag, stops⟩ := ring_clear clear later alarm
  exact ⟨met, alike, flag, by simp only [stops]⟩

end TimedFeed

-- A list that is drained and silent leaves nothing to wait for but an alarm.
theorem ScriptFeed.loop_silent (session : Session) (feed : ScriptFeed) {now : Nat} {alarm : Alarm}
    (clear : session.flag.reason = none) (clock : session.clock = ⟨now, [alarm]⟩)
    (drained : feed.reports = []) (stalls : feed.stalls = true) :
    ∃ met, session.Alike met ∧ met.flag.reason = some alarm.reason ∧
      session.loop feed = (met.stopNow.1, met.stopNow.2, feed) := by
  have asked : Feed.pull session.site.disk feed = ⟨.empty, none, .never feed⟩ := by
    simp only [Feed.pull, next, drained, stalls]
    rfl
  rw [loop_never clear asked rfl, hear_quietly, clock]
  obtain ⟨met, alike, flag, stops⟩ := ring_clear clear (Clock.ringUp ⟨now, [alarm]⟩ alarm) alarm
  refine ⟨met, alike, flag, ?_⟩
  simp only [Clock.waitForAlarm, Clock.earliest?, Option.map_some, stops]

namespace Session

/-- A session that a stop cut off has done what another one did that came to the end of its feed. -/
structure CutOff (reason : StopReason) (ended : Ending × Session) (plain : Session) : Prop where
  ending : ended.1 = .failed (.capture (.stopped reason))
  flag : ended.2.flag.reason = some reason
  recorder : ended.2.recorder = { plain.recorder with phase := .stopped reason }
  counters : ended.2.counters = plain.counters
  disk : ended.2.site.disk = plain.site.disk

theorem stopNow_cutOff {taken met left : Session} {summary : Summary} {reason : StopReason}
    (running : ∀ earlier, taken.recorder.phase ≠ .stopped earlier)
    (clear : taken.flag.reason = none)
    (ends : endOn .endOfInput (.ok (), taken) = (.finished summary, left))
    (alike : taken.Alike met) (raised : met.flag.reason = some reason)
    (early : reason ≠ .endOfInput) : CutOff reason met.stopNow left := by
  obtain ⟨ending, recorder, counters, disk, flag⟩ :=
    stopNow_endOn running clear ends alike raised
  rw [if_neg early] at ending
  exact ⟨ending, by rw [flag, raised], recorder, counters, disk⟩

section Runs

open TimedFeed

variable (plan : CapturePlan) (echoes : Bool) (site : Site)

-- A run on a list that no file breaks takes every report and tells of its end.
theorem run_sound (wanted : List Report) :
    let start := new plan echoes .clear [] site
    let plain := start.run (ScriptFeed.ofList wanted)
    (∀ e, plain.1 ≠ .failed (.capture (.io e))) →
    ∃ taken summary, start.begun.takeAll wanted = (.ok (), taken) ∧
      endOn .endOfInput (.ok (), taken) = (.finished summary, plain.2.1) ∧
      summary.reason = .endOfInput ∧ plain.2.1.recorder.tally.reports = wanted.length ∧
      taken.flag.reason = none ∧ ∀ reason, taken.recorder.phase ≠ .stopped reason := by
  intro start plain sound
  have waiting : ∀ reason, start.begun.recorder.phase ≠ .stopped reason := by
    intro reason phase
    cases phase
  have told : (plain.1, plain.2.1) = endOn .endOfInput (start.begun.takeAll wanted) :=
    run_told plan echoes [] site (ScriptFeed.ofList wanted) rfl rfl fun _ _ _ => rfl
  have clear := takeAll_clear (rfl : start.begun.flag.reason = none) wanted
  have running := takeAll_running waiting wanted
  obtain ⟨taken, summary, left, well, ends, reason⟩ :=
    endOn_sound (Recorder.orderly_new plan echoes) waiting rfl
      (by rw [← told]; exact sound)
  have counted := takeAll_reports well
  rw [well] at clear running told
  rw [ends, Prod.mk.injEq] at told
  rw [← told.2] at ends
  obtain ⟨_, recorder, site, same, stop, concludes⟩ :=
    endOn_finished clear (congrArg Prod.fst ends)
  cases same
  have kept := (Recorder.stop_frame taken.recorder taken.site .endOfInput).2.1
  rw [stop] at kept
  have held := (conclude_eq { taken with flag := ⟨some .endOfInput⟩, recorder, site }
    .endOfInput).2.1
  rw [← concludes, ends] at held
  refine ⟨taken, summary, well, ends, reason, ?_, clear, running⟩
  rw [held, kept, counted]
  exact Nat.zero_add _

-- The clock that a session starts with is no part of what it does with its reports.
theorem takeAll_timed {ms : Nat} {wanted : List Report} {taken : Session}
    (well : (new plan echoes .clear [] site).begun.takeAll wanted = (.ok (), taken)) :
    (new plan echoes .clear [.timeout ms] site).begun.takeAll wanted =
      (.ok (), { taken with clock := .start [.timeout ms] }) := by
  have same := takeAll_wait (new plan echoes .clear [] site).begun (.start [.timeout ms]) wanted
  rw [well] at same
  exact same

theorem run_in_time {ms : Nat} {paced : Paced} (inTime : ∀ moment ∈ moments 0 paced, moment < ms) :
    let timed := new plan echoes .clear [.timeout ms] site
    let free := new plan echoes .clear [] site
    let ended := timed.run (ofPaced paced)
    let unbounded := free.run (ofPaced paced)
    (∀ e, (free.run (ScriptFeed.ofList (reports paced))).1 ≠ .failed (.capture (.io e))) →
    (∃ summary, ended.1 = .finished summary ∧ summary.reason = .endOfInput) ∧
      ended.1 = unbounded.1 ∧ ended.2.2 = unbounded.2.2 ∧
      ended.2.1 = { unbounded.2.1 with clock := ended.2.1.clock } ∧
      ended.2.1.flag.reason = some .endOfInput := by
  intro timed free ended unbounded sound
  obtain ⟨taken, summary, well, ends, reason, -, clear, running⟩ :=
    run_sound plan echoes site (reports paced) sound
  have alone : unbounded = _ := loop_all (rfl : free.begun.flag.reason = none) rfl
    (fun _ member => by cases member) well
  have timely : ended = _ := loop_all (rfl : timed.begun.flag.reason = none) rfl
    (fun alarm member => by rw [List.mem_singleton.mp member]; exact inTime)
    (takeAll_timed plan echoes site well)
  have stops := stopNow_wait (taken.raise .endOfInput) (.start [.timeout ms])
  have same : endOn .endOfInput (.ok (), { taken with clock := .start [.timeout ms] }) =
      (.finished summary, { (endOn .endOfInput (.ok (), taken)).2 with
        clock := .start [.timeout ms] }) := by
    rw [ends]
    exact stops.trans (by rw [show (taken.raise .endOfInput).stopNow = _ from ends])
  have raised : (taken.raise .endOfInput).flag.reason = some .endOfInput := by
    rw [raise_clear clear]
  have alike : taken.Alike (taken.raise .endOfInput) := ⟨rfl, rfl, rfl⟩
  obtain ⟨_, _, _, _, flag⟩ := stopNow_endOn running clear ends alike raised
  replace flag : (endOn .endOfInput (.ok (), taken)).2.flag = _ := flag
  rw [ends] at flag
  rw [timely, alone, same, ends]
  exact ⟨⟨summary, rfl, reason⟩, rfl, rfl, rfl, (congrArg StopFlag.reason flag).trans raised⟩

theorem run_cut_off {ms : Nat} {paced : Paced} (apart : ms ∉ moments 0 paced)
    (late : ¬ ∀ moment ∈ moments 0 paced, moment < ms) :
    let ended := (new plan echoes .clear [.timeout ms] site).run (ofPaced paced)
    let inTime := before ms paced
    let plain :=
      (new plan echoes .clear [] site).run (ScriptFeed.ofList (reports (paced.take inTime)))
    (∀ e, plain.1 ≠ .failed (.capture (.io e))) →
    CutOff .timeout (ended.1, ended.2.1) plain.2.1 ∧
      ended.2.1.recorder.tally.reports = inTime ∧ ended.2.2 = ofPaced (paced.drop inTime) := by
  intro ended inTime plain sound
  obtain ⟨taken, summary, well, ends, -, counted, clear, running⟩ :=
    run_sound plan echoes site (reports (paced.take inTime)) sound
  obtain ⟨early, next⟩ := split_moments apart
  replace early : ∀ moment ∈ moments 0 (paced.take inTime), moment < ms := early
  rcases rest : paced.drop inTime with _ | ⟨entry, others⟩
  · -- Nothing is left to come late.
    rw [← List.take_append_drop inTime paced, rest, List.append_nil] at late
    exact absurd early late
  have through := loop_early (paced.drop inTime)
    (rfl : (new plan echoes .clear [.timeout ms] site).begun.flag.reason = none) rfl
    (fun alarm member => by rw [List.mem_singleton.mp member]; exact early)
    (takeAll_timed plan echoes site well)
  rw [List.take_append_drop, rest] at through
  replace through : ended = _ := through
  have start := reached_le (Nat.zero_le ms) early
  have after : ms < reached 0 (paced.take inTime) + entry.1 := next entry others rest
  obtain ⟨met, alike, raised, stops⟩ := loop_late
    { taken with clock := ⟨reached 0 (paced.take inTime), [.timeout ms]⟩ } entry others clear
    rfl (by omega) (Nat.le_of_lt after)
  have cut := stopNow_cutOff running clear ends ⟨alike.recorder, alike.counters, alike.disk⟩
    raised nofun
  rw [through, stops]
  refine ⟨cut, ?_, rfl⟩
  rw [cut.recorder]
  refine counted.trans ?_
  rw [reports, List.length_map, List.length_take]
  exact Nat.min_eq_left before_le

theorem run_silent (ms : Nat) (wanted : List Report) :
    let ended := (new plan echoes .clear [.timeout ms] site).run
      (⟨wanted, 0, none, true⟩ : ScriptFeed)
    let whole := (new plan echoes .clear [] site).run (ScriptFeed.ofList wanted)
    (∀ e, whole.1 ≠ .failed (.capture (.io e))) →
    CutOff .timeout (ended.1, ended.2.1) whole.2.1 ∧
      ended.2.1.recorder.tally.reports = wanted.length ∧ ended.2.2.delivered = wanted.length := by
  intro ended whole sound
  obtain ⟨taken, summary, well, ends, -, counted, clear, running⟩ :=
    run_sound plan echoes site wanted sound
  have through : ended = _ := ScriptFeed.loop_through
    (rfl : (new plan echoes .clear [.timeout ms] site).begun.flag.reason = none)
    (List.append_nil wanted).symm (fun _ _ _ => rfl) (takeAll_timed plan echoes site well)
  obtain ⟨met, alike, raised, stops⟩ := ScriptFeed.loop_silent
    { taken with clock := .start [.timeout ms] } ⟨[], 0 + wanted.length, none, true⟩ clear rfl rfl rfl
  have cut := stopNow_cutOff running clear ends ⟨alike.recorder, alike.counters, alike.disk⟩
    raised nofun
  rw [through, stops]
  refine ⟨cut, ?_, Nat.zero_add _⟩
  rw [cut.recorder]
  exact counted

/-- A timeout cuts a session exactly at its moment. If every report comes before it, the session goes
on to the end of its feed as if there were no timeout, and the alarm does not touch the flag when it
goes off later. Else the reports before it are taken and no other, and the session leaves what a
session leaves that comes to the end of a list of these reports. A list that is drained and silent is
cut off after all its reports. -/
theorem timeout_cuts_run (ms : Nat) (paced : Paced) :
    let timed := new plan echoes .clear [.timeout ms] site
    let free := new plan echoes .clear [] site
    let ended := timed.run (ofPaced paced)
    let inTime := before ms paced
    let plain := free.run (ScriptFeed.ofList (reports (paced.take inTime)))
    let silent := timed.run (⟨reports paced, 0, none, true⟩ : ScriptFeed)
    let whole := free.run (ScriptFeed.ofList (reports paced))
    (ms ∉ moments 0 paced → (∀ e, plain.1 ≠ .failed (.capture (.io e))) →
      ((∀ moment ∈ moments 0 paced, moment < ms) →
        let unbounded := free.run (ofPaced paced)
        (∃ summary, ended.1 = .finished summary ∧ summary.reason = .endOfInput) ∧
          ended.1 = unbounded.1 ∧ ended.2.2 = unbounded.2.2 ∧
          ended.2.1 = { unbounded.2.1 with clock := ended.2.1.clock } ∧
          ended.2.1.flag.reason = some .endOfInput ∧
          ∀ journal, (Alarm.timeout ms).ring ended.2.1.flag journal = (ended.2.1.flag, journal)) ∧
      ((¬ ∀ moment ∈ moments 0 paced, moment < ms) →
        CutOff .timeout (ended.1, ended.2.1) plain.2.1 ∧
          ended.2.1.recorder.tally.reports = inTime ∧
          ended.2.2 = ofPaced (paced.drop inTime))) ∧
    ((∀ e, whole.1 ≠ .failed (.capture (.io e))) →
      CutOff .timeout (silent.1, silent.2.1) whole.2.1 ∧
        silent.2.1.recorder.tally.reports = paced.length ∧
        silent.2.2.delivered = paced.length) := by
  intro timed free ended inTime plain silent whole
  refine ⟨fun apart sound => ⟨fun early => ?_, fun late => ?_⟩, fun sound => ?_⟩
  · have all : paced.take inTime = paced := by
      rw [show inTime = paced.length from before_all early, List.take_length]
    obtain ⟨finished, same, left, kept, raised⟩ := run_in_time plan echoes site early
      (by rw [← all]; exact sound)
    exact ⟨finished, same, left, kept, raised, fun journal => Alarm.ring_raised _ raised journal⟩
  · exact run_cut_off plan echoes site apart late sound
  · have cut := run_silent plan echoes site ms (reports paced) sound
    rw [reports, List.length_map] at cut
    exact cut

end Runs

theorem one_row_before_timeout :
    let paced : TimedFeed.Paced := [(0, ⟨0, 1, CapturePlan.standardMarker⟩), (20, ⟨5, 1, "7"⟩),
      (0, ⟨6, 2, "8"⟩), (40, ⟨7, 1, "9"⟩)]
    let start := fun ms => new .standard true .clear [.timeout ms] ⟨.blank, .empty⟩
    let cut := (start 50).run (TimedFeed.ofPaced paced)
    let silent := (start 50).run (⟨TimedFeed.reports paced, 0, none, true⟩ : ScriptFeed)
    cut.1 = .failed (.capture (.stopped .timeout)) ∧ cut.2.1.recorder.tally.reports = 3 ∧
      cut.2.2 = TimedFeed.ofPaced (paced.drop 3) ∧
      silent.1 = .failed (.capture (.stopped .timeout)) ∧ silent.2.2.delivered = 4 ∧
      ∃ summary, ((start 61).run (TimedFeed.ofPaced paced)).1 = .finished summary ∧
        summary.reason = .endOfInput := by
  intro paced start cut silent
  let free := new .standard true .clear [] ⟨.blank, .empty⟩
  have part : (free.run (ScriptFeed.ofList (TimedFeed.reports (paced.take 3)))).1 =
      .finished ⟨.endOfInput, ⟨3, 1, 1, 1⟩, [(1, ⟨"csv/log_1-5-duty-cycle.csv", 1⟩)]⟩ := by
    decide +kernel
  have whole : (free.run (ScriptFeed.ofList (TimedFeed.reports paced))).1 =
      .finished ⟨.endOfInput, ⟨4, 2, 1, 1⟩, [(1, ⟨"csv/log_1-5-duty-cycle.csv", 2⟩)]⟩ := by
    decide +kernel
  have three : TimedFeed.before 50 paced = 3 := by decide
  have four : TimedFeed.before 61 paced = 4 := by decide
  obtain ⟨timed, stalling⟩ := timeout_cuts_run .standard true ⟨.blank, .empty⟩ 50 paced
  obtain ⟨late, count, left⟩ :=
    (timed (by decide) (by rw [three]; exact part ▸ nofun)).2 (by decide)
  obtain ⟨quiet, _, delivered⟩ := stalling (whole ▸ nofun)
  have inTime := ((timeout_cuts_run .standard true ⟨.blank, .empty⟩ 61 paced).1 (by decide)
    (by rw [four]; exact whole ▸ nofun)).1 (by decide)
  exact ⟨late.ending, count, left, quiet.ending, delivered, inTime.1⟩

end Session

end MoteCapture

import MoteCapture.Proofs.Session.Timeout

/-!
Sessions on a feed that fails now and then. A failure ends a run and nothing else: the flag stays
clear, the sheets stay open, and the failure is used up. So the session can be run again on what is
left of the feed, as often as it takes, and comes to what a single run on the reports alone comes to.
-/

namespace MoteCapture

open Session

namespace TimedItem

def report? (item : TimedItem) : Option Report :=
  match item.item with
  | .ok report => some report
  | .error _ => none

def failure? (item : TimedItem) : Option FeedError :=
  match item.item with
  | .ok _ => none
  | .error e => some e

def cut : List TimedItem → List Report × List TimedItem
  | [] => ([], [])
  | first :: rest =>
      match first.item with
      | .ok report => (report :: (cut rest).1, (cut rest).2)
      | .error _ => ([], rest)

def reportsBefore : Nat → List TimedItem → List Report
  | 0, items => (cut items).1
  | number + 1, items => (cut items).1 ++ reportsBefore number (cut items).2

def itemsAfter : Nat → List TimedItem → List TimedItem
  | 0, items => (cut items).2
  | number + 1, items => itemsAfter number (cut items).2

theorem reports_cut (items : List TimedItem) :
    (cut items).1 ++ (cut items).2.filterMap report? = items.filterMap report? := by
  induction items with
  | nil => rfl
  | cons first rest ih =>
      obtain ⟨delay, e | report⟩ := first
      · rfl
      · exact congrArg (report :: ·) ih

theorem failures_cut (items : List TimedItem) :
    (cut items).2.filterMap failure? = (items.filterMap failure?).tail := by
  induction items with
  | nil => rfl
  | cons first rest ih =>
      obtain ⟨delay, e | report⟩ := first
      · rfl
      · exact ih

-- Without a failure there is nothing to cut off.
theorem cut_sound {items : List TimedItem} (sound : items.filterMap failure? = []) :
    cut items = (items.filterMap report?, []) := by
  induction items with
  | nil => rfl
  | cons first rest ih =>
      obtain ⟨delay, e | report⟩ := first
      · cases sound
      · simp only [cut, ih sound]
        rfl

theorem failures_filter (items : List TimedItem) :
    (items.filter (·.failure?.isNone)).filterMap failure? = [] := by
  rw [List.filterMap_eq_nil_iff]
  intro item member
  exact Option.isNone_iff_eq_none.mp (List.mem_filter.mp member).2

theorem reports_filter (items : List TimedItem) :
    (items.filter (·.failure?.isNone)).filterMap report? = items.filterMap report? := by
  induction items with
  | nil => rfl
  | cons first rest ih =>
      obtain ⟨delay, e | report⟩ := first
      · exact ih
      · exact congrArg (report :: ·) ih

end TimedItem

open TimedItem

theorem Clock.wait_calm {clock : Clock} (calm : clock.alarms = []) (ms : Nat) :
    clock.wait ms = (⟨clock.now + ms, []⟩, none) := by
  simp [wait, calm, earliest?]

namespace Session

/-- The end of a run on reports that were taken, or else broke it, with a failure after them or the
end of the feed. -/
def endBefore (failure : Option FeedError) (outcome : Except CaptureError Unit × Session) :
    Ending × Session :=
  match failure, outcome with
  | some e, (.ok (), taken) => (.failed (.feed e), taken)
  | _, outcome => endOn .endOfInput outcome

/-- The run of a number, which is counted from zero, if a session is run again and again, each time
on what is left of its feed. -/
def nthRun {σ : Type} [Feed σ] (session : Session) (feed : σ) : Nat → Ending × Session × σ
  | 0 => session.run feed
  | number + 1 =>
      let last := session.nthRun feed number
      last.2.1.run last.2.2

structure Resumes (session met : Session) : Prop extends session.Alike met where
  clear : met.flag.reason = none
  calm : met.clock.alarms = []

variable {session met taken : Session} {items : List TimedItem}

theorem endBefore_error (failure : Option FeedError) (e : CaptureError) (broken : Session) :
    endBefore failure (.error e, broken) = (.failed (.capture e), broken) := by
  cases failure <;> rfl

theorem nthRun_succ {σ : Type} [Feed σ] (session : Session) (feed : σ) (number : Nat) :
    session.nthRun feed (number + 1) =
      (session.run feed).2.1.nthRun (session.run feed).2.2 number := by
  induction number with
  | zero => rfl
  | succ number ih =>
      rw [nthRun, ih]
      rfl

-- If no alarm is set, a session takes the reports before the first failure and ends with it.
theorem loop_cut (clear : session.flag.reason = none) (calm : session.clock.alarms = [])
    (items : List TimedItem) :
    ∃ now rest,
      let outcome := session.takeAll (cut items).1
      let ended := endBefore (items.filterMap failure?).head?
        (outcome.1, { outcome.2 with clock := ⟨now, []⟩ })
      session.loop (⟨items⟩ : TimedFeed) = (ended.1, ended.2, rest) ∧
        (outcome.1 = .ok () → rest = ⟨(cut items).2⟩) := by
  induction items generalizing session with
  | nil =>
      have asked : Feed.pull session.site.disk (⟨[]⟩ : TimedFeed) =
        ⟨.empty, none, .comes 0 .ended ⟨[]⟩⟩ := rfl
      have same : { session with clock := ⟨session.clock.now, []⟩ } = session := by rw [← calm]
      refine ⟨session.clock.now, ⟨[]⟩, ?_, fun _ => rfl⟩
      rw [loop_ended clear asked rfl, ScriptFeed.hear_quietly]
      simp only [cut, takeAll, same]
      rfl
  | cons first rest ih =>
      obtain ⟨delay, item⟩ := first
      have asked : Feed.pull session.site.disk (⟨⟨delay, item⟩ :: rest⟩ : TimedFeed) =
        ⟨.empty, none, .comes delay (TimedFeed.delivery item) ⟨rest⟩⟩ := rfl
      rw [loop_comes clear asked rfl, ScriptFeed.hear_quietly, Clock.wait_calm calm]
      cases item with
      | error e => exact ⟨session.clock.now + delay, ⟨rest⟩, rfl, fun _ => rfl⟩
      | ok report =>
          have flag := (process_recorder session report).2.2
          simp only [TimedFeed.delivery, receive, process_wait, cut, takeAll]
          rcases outcome : session.process report with ⟨e | ⟨⟩, after⟩
          · refine ⟨session.clock.now + delay, ⟨rest⟩, ?_, fun well => by cases well⟩
            simp only [endBefore_error]
          · rw [outcome] at flag
            have still : ({ after with clock := ⟨session.clock.now + delay, []⟩ } :
                Session).flag.reason = none := flag ▸ clear
            obtain ⟨now, left, looped, told⟩ := ih still rfl
            rw [takeAll_wait] at looped told
            refine ⟨now, left, ?_, told⟩
            simp only [pause_clear still]
            exact looped

-- One run goes as far as the next failure.
theorem Resumes.run (resumes : session.Resumes met)
    (well : session.takeAll (cut items).1 = (.ok (), taken)) :
    ∃ left, taken.Resumes left ∧
      (∀ e, (items.filterMap failure?).head? = some e →
        met.run (⟨items⟩ : TimedFeed) = (.failed (.feed e), left, ⟨(cut items).2⟩)) ∧
      ((items.filterMap failure?).head? = none →
        ((met.run (⟨items⟩ : TimedFeed)).1, (met.run (⟨items⟩ : TimedFeed)).2.1) =
          endOn .endOfInput (.ok (), left)) := by
  have begins : session.Alike met.begun := ⟨resumes.recorder, resumes.counters, resumes.disk⟩
  obtain ⟨outcome, alike⟩ := begins.takeAll (cut items).1
  have clear : met.begun.flag.reason = none := resumes.clear
  have flag := takeAll_clear clear (cut items).1
  obtain ⟨now, rest, looped, told⟩ := loop_cut clear resumes.calm items
  rw [well] at outcome alike
  rw [outcome] at looped
  have ran : met.run (⟨items⟩ : TimedFeed) = _ := looped
  refine ⟨{ (met.begun.takeAll (cut items).1).2 with clock := ⟨now, []⟩ },
    ⟨⟨alike.recorder, alike.counters, alike.disk⟩, flag, rfl⟩, ?_, ?_⟩
  · intro e failure
    rw [ran, told outcome, failure]
    rfl
  · intro sound
    rw [ran, sound]
    rfl

-- The runs go from one failure to the next, and the one after the last failure to the end.
theorem Resumes.nthRun {failures : List FeedError} {all : Session}
    (found : items.filterMap failure? = failures) (resumes : session.Resumes met)
    (well : session.takeAll (items.filterMap report?) = (.ok (), all)) :
    (∀ (number : Nat) e, failures[number]? = some e → ∃ taken left,
      session.takeAll (reportsBefore number items) = (.ok (), taken) ∧ taken.Resumes left ∧
        met.nthRun (⟨items⟩ : TimedFeed) number =
          (.failed (.feed e), left, ⟨itemsAfter number items⟩)) ∧
    ∃ left, all.Resumes left ∧
      let last := met.nthRun (⟨items⟩ : TimedFeed) failures.length
      (last.1, last.2.1) = endOn .endOfInput (.ok (), left) := by
  induction failures generalizing session met items with
  | nil =>
      have whole : session.takeAll (cut items).1 = (.ok (), all) := by rwa [cut_sound found]
      obtain ⟨left, later, -, ends⟩ := resumes.run whole
      exact ⟨nofun, left, later, ends (by rw [found]; rfl)⟩
  | cons first failures ih =>
      rw [← reports_cut, takeAll_append] at well
      rcases outcome : session.takeAll (cut items).1 with ⟨e | ⟨⟩, taken⟩
      · rw [outcome] at well
        cases well
      · rw [outcome] at well
        obtain ⟨left, later, fails, -⟩ := resumes.run outcome
        have ran := fails first (by rw [found]; rfl)
        have others : (cut items).2.filterMap failure? = failures := by rw [failures_cut, found]; rfl
        obtain ⟨each, last⟩ := ih others later well
        constructor
        · intro number e here
          cases number with
          | zero =>
              cases here
              exact ⟨taken, left, outcome, later, ran⟩
          | succ number =>
              obtain ⟨next, further, took, goesOn, failed⟩ := each number e here
              refine ⟨next, further, ?_, goesOn, ?_⟩
              · rw [reportsBefore, takeAll_append, outcome]
                exact took
              · rw [nthRun_succ, ran]
                exact failed
        · rw [List.length_cons, nthRun_succ, ran]
          exact last

-- Two sessions that go on alike come to the same end of their feeds.
theorem Resumes.finish {summary : Summary} {plain : Session} (resumes : session.Resumes met)
    (running : ∀ reason, session.recorder.phase ≠ .stopped reason)
    (clear : session.flag.reason = none)
    (ends : endOn .endOfInput (.ok (), session) = (.finished summary, plain)) :
    (endOn .endOfInput (.ok (), met)).1 = .finished summary ∧
      plain.Alike (endOn .endOfInput (.ok (), met)).2 := by
  have told : session.Alike (met.raise .endOfInput) :=
    ⟨resumes.recorder, resumes.counters, resumes.disk⟩
  have same : session.Alike (session.raise .endOfInput) := ⟨rfl, rfl, rfl⟩
  obtain ⟨ending, recorder, counters, disk, -⟩ :=
    stopNow_endOn running clear ends told (by rw [raise_clear resumes.clear])
  -- What the other one leaves shows in which phase its recorder is.
  obtain ⟨-, own, -, -, -⟩ :=
    stopNow_endOn running clear ends same (by rw [raise_clear clear])
  rw [show (session.raise .endOfInput).stopNow = (.finished summary, plain) from ends] at own
  exact ⟨ending, recorder.trans own.symm, counters, disk⟩

-- A run on a list without failures that no file breaks takes every report and finishes.
theorem run_without_failures (plan : CapturePlan) (echoes : Bool) (site : Site) (items : List TimedItem) :
    let start := new plan echoes .clear [] site
    let plain := start.run (⟨items.filter (·.failure?.isNone)⟩ : TimedFeed)
    (∀ e, plain.1 ≠ .failed (.capture (.io e))) →
    ∃ all taken summary, start.takeAll (items.filterMap report?) = (.ok (), all) ∧
      taken.Alike all ∧ taken.flag.reason = none ∧
      (∀ reason, taken.recorder.phase ≠ .stopped reason) ∧
      endOn .endOfInput (.ok (), taken) = (.finished summary, plain.2.1) ∧
      plain.1 = .finished summary := by
  intro start plain sound
  obtain ⟨now, rest, looped, -⟩ := loop_cut (rfl : start.begun.flag.reason = none) rfl
    (items.filter (·.failure?.isNone))
  rw [cut_sound (failures_filter items), failures_filter, reports_filter, ← takeAll_wait] at looped
  -- The session that the reports are taken by, with the time at their end from the beginning.
  generalize begins : ({ start.begun with clock := ⟨now, []⟩ } : Session) = begun at looped
  have alike : begun.Alike start := by rw [← begins]; exact ⟨rfl, rfl, rfl⟩
  have clear : begun.flag.reason = none := by rw [← begins]; rfl
  have orderly : begun.recorder.Orderly := by
    rw [← begins]
    exact Recorder.orderly_new plan echoes
  have waiting : ∀ reason, begun.recorder.phase ≠ .stopped reason := by
    rw [← begins]
    intro reason phase
    cases phase
  have ran : plain = ((endOn .endOfInput (begun.takeAll (items.filterMap report?))).1,
    (endOn .endOfInput (begun.takeAll (items.filterMap report?))).2, rest) := looped
  obtain ⟨taken, summary, left, well, ends, -⟩ :=
    endOn_sound orderly waiting clear (by rw [ran] at sound; exact sound)
  have running := takeAll_running waiting (items.filterMap report?)
  have calm := takeAll_clear clear (items.filterMap report?)
  obtain ⟨outcome, after⟩ := alike.takeAll (items.filterMap report?)
  rw [well] at running calm outcome after
  rw [well, ends] at ran
  rw [ran]
  exact ⟨(start.takeAll (items.filterMap report?)).2, taken, summary, Prod.ext outcome rfl, after,
    calm, running, ends, rfl⟩

/-- Failures of a feed lose no report and repeat none. Each run ends with the next failure and leaves
the session as the reports before this failure left it, with the flag clear; the run after the last
failure finishes, and leaves what a single run on the list without its failures leaves. -/
theorem failures_lose_nothing (plan : CapturePlan) (echoes : Bool) (site : Site)
    (items : List TimedItem) :
    let start := new plan echoes .clear [] site
    let failures := items.filterMap failure?
    let plain := start.run (⟨items.filter (·.failure?.isNone)⟩ : TimedFeed)
    (∀ e, plain.1 ≠ .failed (.capture (.io e))) →
    (∀ (number : Nat) e, failures[number]? = some e →
      let failed := start.nthRun (⟨items⟩ : TimedFeed) number
      failed.1 = .failed (.feed e) ∧ failed.2.1.flag.reason = none ∧
        (∀ reason, failed.2.1.recorder.phase ≠ .stopped reason) ∧
        failed.2.2 = ⟨itemsAfter number items⟩ ∧
        ∃ taken, start.takeAll (reportsBefore number items) = (.ok (), taken) ∧
          taken.Alike failed.2.1) ∧
    let last := start.nthRun (⟨items⟩ : TimedFeed) failures.length
    (∃ summary, last.1 = .finished summary) ∧ last.1 = plain.1 ∧ plain.2.1.Alike last.2.1 := by
  intro start failures plain sound
  have waiting : ∀ reason, start.recorder.phase ≠ .stopped reason := by
    intro reason phase
    cases phase
  obtain ⟨all, taken, summary, well, alike, clear, running, ends, finished⟩ :=
    run_without_failures plan echoes site items sound
  have ready : start.Resumes start := ⟨.refl start, rfl, rfl⟩
  obtain ⟨each, left, later, last⟩ := ready.nthRun rfl well
  constructor
  · intro number e here
    obtain ⟨before, left, took, resumes, failed⟩ := each number e here
    have still := takeAll_running waiting (reportsBefore number items)
    rw [took] at still
    rw [failed]
    refine ⟨rfl, resumes.clear, ?_, rfl, before, took, resumes.toAlike⟩
    rw [resumes.recorder]
    exact still
  · have resumes : taken.Resumes left := ⟨alike.trans later.toAlike, later.clear, later.calm⟩
    obtain ⟨ending, same⟩ := resumes.finish running clear ends
    rw [← last] at ending same
    exact ⟨⟨summary, ending⟩, ending.trans finished.symm, same⟩

-- A failure before the start marker, one between the marker and the first row, and one after it.
theorem three_failures_on_the_way :
    let items : List TimedItem := [⟨0, .error (.processing "late")⟩,
      ⟨3, .ok ⟨0, 1, CapturePlan.standardMarker⟩⟩, ⟨0, .error (.io (.other "reset"))⟩,
      ⟨0, .ok ⟨5, 1, "7"⟩⟩, ⟨20, .error (.processing "late")⟩, ⟨1, .ok ⟨6, 1, "8"⟩⟩]
    let start := new .standard true .clear [] ⟨.blank, .empty⟩
    let runs := start.nthRun (⟨items⟩ : TimedFeed)
    (runs 0).1 = .failed (.feed (.processing "late")) ∧
      (runs 1).1 = .failed (.feed (.io (.other "reset"))) ∧
      (runs 2).1 = .failed (.feed (.processing "late")) ∧ (runs 2).2.2 = ⟨items.drop 5⟩ ∧
      (runs 3).1 = .finished ⟨.endOfInput, ⟨3, 2, 0, 1⟩, [(1, ⟨"csv/log_1-5-duty-cycle.csv", 2⟩)]⟩ := by
  intro items start runs
  have plain : (start.run (⟨items.filter (·.failure?.isNone)⟩ : TimedFeed)).1 =
      .finished ⟨.endOfInput, ⟨3, 2, 0, 1⟩, [(1, ⟨"csv/log_1-5-duty-cycle.csv", 2⟩)]⟩ := by
    decide +kernel
  obtain ⟨each, -, last, -⟩ :=
    failures_lose_nothing .standard true ⟨.blank, .empty⟩ items (plain ▸ nofun)
  obtain ⟨third, -, -, left, -⟩ := each 2 (.processing "late") rfl
  exact ⟨(each 0 (.processing "late") rfl).1, (each 1 (.io (.other "reset")) rfl).1, third, left,
    last.trans plain⟩

end Session

end MoteCapture

import Mathlib.Algebra.GroupWithZero.Nat
import MoteCapture.Proofs.Recorder.Calls
import MoteCapture.Proofs.Recorder.Durability

/-!
The books of a recorder. The rows of the open sheets add up to the rows that were counted, on every disk
and whatever fails; a stop that goes well lists the same sheets as closed. Beside the answers that it
gave, every report that was not refused is counted once, under what became of it, and the sheets, open or
closed, carry exactly the rows that were answered for.
-/

namespace MoteCapture

namespace Recorder

open Sheet (page)

structure Booked (plan : CapturePlan) (recorder : Recorder) : Prop where
  follows : recorder.plan = plan
  counted : recorder.tally.rows = recorder.rows.length
  ascending : recorder.opened.Ascending
  sheets : ∀ mote sheet, recorder.opened.get? mote = some sheet → mote ∈ plan.motes ∧
    sheet.path = plan.path mote ∧ sheet.rows = (recorder.rowsOf mote).length
  unopened : (∀ reason, recorder.phase ≠ .stopped reason) → ∀ mote,
    recorder.opened.get? mote = none → recorder.rowsOf mote = []
  unlisted : (∀ reason, recorder.phase ≠ .stopped reason) → recorder.closed = []

/-- The closed sheets are those of all motes with rows, each once, with its path and its rows. -/
structure Listed (plan : CapturePlan) (recorder : Recorder) : Prop where
  ascending : recorder.closed.Pairwise fun earlier later => earlier.1 < later.1
  entries : ∀ mote sheet, (mote, sheet) ∈ recorder.closed → mote ∈ plan.motes ∧
    sheet = ⟨plan.path mote, (recorder.rowsOf mote).length⟩
  covers : ∀ mote, recorder.rowsOf mote ≠ [] → ∃ sheet, (mote, sheet) ∈ recorder.closed

variable {plan : CapturePlan} {recorder later : Recorder} {site : Site} {report : Report}
  {outcome : Except CaptureError Verdict} {disk : Disk}

theorem mem_rowsOf {row : MoteId × String} (member : row ∈ recorder.rows) :
    row.2 ∈ recorder.rowsOf row.1 :=
  List.mem_map.mpr ⟨row, List.mem_filter.mpr ⟨member, beq_self_eq_true _⟩, rfl⟩

theorem booked_new (plan : CapturePlan) (echoes : Bool) : (new plan echoes).Booked plan := by
  constructor
  · rfl
  · rfl
  · exact OpenSheets.ascending_empty
  · intro mote sheet found
    cases found
  · intro _ mote _
    rfl
  · intro _
    rfl

theorem Booked.congr (booked : recorder.Booked plan) (follows : later.plan = recorder.plan)
    (tally : later.tally.rows = recorder.tally.rows) (rows : later.rows = recorder.rows)
    (opened : later.opened = recorder.opened) (closed : later.closed = recorder.closed)
    (running : (∀ reason, later.phase ≠ .stopped reason) → ∀ reason, recorder.phase ≠ .stopped reason) :
    later.Booked plan where
  follows := follows.trans booked.follows
  counted := by rw [tally, rows, booked.counted]
  ascending := opened ▸ booked.ascending
  sheets mote sheet found := by
    rw [rowsOf, rows]
    exact booked.sheets mote sheet (opened ▸ found)
  unopened goesOn mote missing := by
    rw [rowsOf, rows]
    exact booked.unopened (running goesOn) mote (opened ▸ missing)
  unlisted goesOn := closed.trans (booked.unlisted (running goesOn))

-- A sheet that is obtained counts the rows of its mote, be it new or not.
theorem Booked.obtained (booked : recorder.Booked plan)
    (running : ∀ reason, recorder.phase ≠ .stopped reason) {mote : MoteId} {sheet : Sheet}
    {isNew : Bool} {ready : Site} (obtained : recorder.Obtained mote site sheet isNew ready) :
    sheet.path = plan.path mote ∧ sheet.rows = (recorder.rowsOf mote).length := by
  rcases obtained with ⟨_, found, _⟩ | ⟨_, missing, made⟩
  · exact (booked.sheets mote sheet found).2
  · rw [booked.follows] at made
    obtain ⟨path, _, rows, _⟩ := Sheet.create_ok made
    rw [booked.unopened running mote missing]
    exact ⟨path, rows⟩

theorem Booked.put (booked : recorder.Booked plan)
    (running : ∀ reason, recorder.phase ≠ .stopped reason) {mote : MoteId}
    (wanted : mote ∈ plan.motes) {next : Sheet} (follows : later.plan = recorder.plan)
    (opened : later.opened = recorder.opened.insert mote next)
    (closed : later.closed = recorder.closed)
    (counted : later.tally.rows = later.rows.length)
    (others : ∀ other, other ≠ mote → later.rowsOf other = recorder.rowsOf other)
    (path : next.path = plan.path mote) (rows : next.rows = (later.rowsOf mote).length) :
    later.Booked plan where
  follows := follows.trans booked.follows
  counted := counted
  ascending := opened ▸ OpenSheets.ascending_insert mote next booked.ascending
  sheets other sheet found := by
    rw [opened, OpenSheets.get?_insert] at found
    by_cases same : other = mote
    · subst same
      rw [if_pos rfl] at found
      cases found
      exact ⟨wanted, path, rows⟩
    · rw [if_neg same] at found
      rw [others other same]
      exact booked.sheets other sheet found
  unopened _ other missing := by
    rw [opened, OpenSheets.get?_insert] at missing
    by_cases same : other = mote
    · rw [if_pos same] at missing
      cases missing
    · rw [if_neg same] at missing
      rw [others other same]
      exact booked.unopened running other missing
  unlisted _ := closed.trans (booked.unlisted running)

theorem Booked.took (booked : recorder.Booked plan)
    (took : recorder.Took site report outcome later disk) : later.Booked plan := by
  have listed : recorder.plan.keeps report = true → report.mote ∈ plan.motes := by
    rw [booked.follows]
    exact CapturePlan.mem_motes
  cases took with
  | refused _ => exact booked
  | early _ _ => exact booked.congr rfl rfl rfl rfl rfl id
  | start phase _ => exact booked.congr rfl rfl rfl rfl rfl fun _ => by simp [phase]
  | skipped _ _ => exact booked.congr rfl rfl rfl rfl rfl id
  | unopened _ _ _ _ => exact booked.congr rfl rfl rfl rfl rfl id
  | @broken sheet _ _ ready _ _ phase keeps obtained failed =>
      have running : ∀ reason, recorder.phase ≠ .stopped reason := by simp [phase]
      obtain ⟨path, rows⟩ := booked.obtained running obtained
      have kept := (sheet.writeRow_appended ready.disk (recorder.plan.row report)).path
      rw [failed] at kept
      exact booked.put running (listed keeps) rfl rfl rfl booked.counted (fun _ _ => rfl)
        (kept.trans path) ((Sheet.rows_writeRow_error failed).trans rows)
  | @kept sheet _ _ ready _ phase keeps obtained written =>
      have running : ∀ reason, recorder.phase ≠ .stopped reason := by simp [phase]
      obtain ⟨path, rows⟩ := booked.obtained running obtained
      have kept := (sheet.writeRow_appended ready.disk (recorder.plan.row report)).path
      rw [written] at kept
      refine booked.put running (listed keeps) rfl rfl rfl ?_ ?_ (kept.trans path) ?_
      · exact (congrArg (· + 1) booked.counted).trans (by simp [Recorder.rows])
      · intro other different
        rw [rowsOf_noted rfl, if_neg different, List.append_nil]
      · rw [rowsOf_noted rfl, if_pos rfl, List.length_append, Sheet.rows_writeRow written, rows]
        rfl

-- A stop leaves the books as they are; if it goes well, every sheet is listed.
theorem Booked.stop (booked : recorder.Booked plan) (reason : StopReason) :
    (recorder.stop site reason).2.1.Booked plan := by
  rcases recorder.stopped_or_running with ⟨earlier, phase⟩ | running
  · rw [stop_again phase]
    exact booked
  · obtain ⟨closed, left⟩ := stop_leaves running site reason
    rw [left]
    constructor
    · exact booked.follows
    · exact booked.counted
    · exact OpenSheets.ascending_empty
    · intro mote sheet found
      cases found
    · intro goesOn
      exact absurd rfl (goesOn reason)
    · intro goesOn
      exact absurd rfl (goesOn reason)

-- What is listed are the sheets as they stood open.
theorem Booked.closes (booked : recorder.Booked plan)
    (running : ∀ reason, recorder.phase ≠ .stopped reason) {reason : StopReason} {last : Site}
    (stops : recorder.stop site reason = (.ok (), later, last)) :
    later.closed =
      recorder.opened.sheets.map fun entry => (entry.1, ⟨entry.2.path, entry.2.rows⟩) := by
  rw [stop_first running] at stops
  split at stops
  · next closed left closing =>
    cases stops
    rw [booked.unlisted running, List.nil_append]
    exact OpenSheets.closeEach_ok (congrArg Prod.fst closing)
  · cases stops

theorem Booked.lists (booked : recorder.Booked plan)
    (running : ∀ reason, recorder.phase ≠ .stopped reason) {reason : StopReason} {last : Site}
    (stops : recorder.stop site reason = (.ok (), later, last)) : later.Listed plan := by
  obtain ⟨_, _, rows⟩ := recorder.stop_frame site reason
  rw [stops] at rows
  have same : later.rowsOf = recorder.rowsOf := by
    funext mote
    rw [rowsOf, rowsOf, rows]
  have all := booked.closes running stops
  constructor
  · rw [all]
    exact List.pairwise_map.mpr booked.ascending
  · intro mote sheet member
    rw [all] at member
    obtain ⟨entry, inside, own⟩ := List.mem_map.mp member
    obtain ⟨wanted, path, rows⟩ := booked.sheets entry.1 entry.2
      ((OpenSheets.get?_eq_some_iff booked.ascending _ _).mpr inside)
    cases own
    rw [path, rows, same]
    exact ⟨wanted, rfl⟩
  · intro mote rows
    rw [same] at rows
    cases found : recorder.opened.get? mote with
    | none => exact absurd (booked.unopened running mote found) rows
    | some sheet =>
        have inside := (OpenSheets.get?_eq_some_iff booked.ascending mote sheet).mp found
        rw [all]
        exact ⟨_, List.mem_map.mpr ⟨_, inside, rfl⟩⟩

theorem Booked.drops (booked : recorder.Booked plan)
    (running : ∀ reason, recorder.phase ≠ .stopped reason) {reason : StopReason} {last : Site}
    {e : CaptureError} (stops : recorder.stop site reason = (.error e, later, last)) :
    later.closed = [] := by
  rw [stop_first running] at stops
  split at stops
  · cases stops
  · cases stops
    exact booked.unlisted running

-- Shares of different motes that cover all rows add up to their number.
theorem sum_shares {shares : List (MoteId × Nat)} {rows : List (MoteId × String)}
    (ascending : shares.Pairwise fun earlier later => earlier.1 < later.1)
    (counts : ∀ share ∈ shares, share.2 = (rows.filter fun row => row.1 == share.1).length)
    (covers : ∀ row ∈ rows, ∃ share ∈ shares, share.1 = row.1) :
    (shares.map Prod.snd).sum = rows.length := by
  induction shares generalizing rows with
  | nil =>
      cases rows with
      | nil => rfl
      | cons row rest =>
          obtain ⟨share, member, _⟩ := covers row List.mem_cons_self
          cases member
  | cons share rest ih =>
      obtain ⟨below, sorted⟩ := List.pairwise_cons.mp ascending
      -- The first share takes its rows away, and the others are as they were.
      have others := @ih (rows.filter fun row => ¬ (row.1 == share.1) = true) sorted ?_ ?_
      · rw [List.map_cons, List.sum_cons, others, counts share List.mem_cons_self,
          ← List.countP_eq_length_filter, ← List.countP_eq_length_filter]
        exact (rows.length_eq_countP_add_countP fun row => row.1 == share.1).symm
      · intro other member
        have apart : other.1 ≠ share.1 := fun same => UInt32.lt_irrefl _ (same ▸ below other member)
        rw [counts other (List.mem_cons_of_mem _ member), List.filter_filter]
        congr 1
        apply List.filter_congr
        intro row _
        by_cases own : row.1 = other.1
        · simp [own, apart]
        · simp [own]
      · intro row member
        obtain ⟨inside, different⟩ := List.mem_filter.mp member
        obtain ⟨other, found, same⟩ := covers row inside
        rcases List.mem_cons.mp found with rfl | later
        · simp [same] at different
        · exact ⟨other, later, same⟩

theorem Listed.sum (listed : recorder.Listed plan) :
    (recorder.closed.map fun entry => entry.2.rows).sum = recorder.rows.length := by
  have whole := @sum_shares (recorder.closed.map fun entry => (entry.1, entry.2.rows)) recorder.rows
    (List.pairwise_map.mpr listed.ascending) ?_ ?_
  · rw [← whole, List.map_map]
    rfl
  · intro share member
    obtain ⟨entry, inside, rfl⟩ := List.mem_map.mp member
    rw [(listed.entries entry.1 entry.2 inside).2, rowsOf, List.length_map]
  · intro row member
    obtain ⟨sheet, inside⟩ := listed.covers row.1 (List.ne_nil_of_mem (mem_rowsOf member))
    exact ⟨_, List.mem_map.mpr ⟨_, inside, rfl⟩, rfl⟩

def Filed (plan : CapturePlan) (here : Place) (recorder : Recorder) (disk : Disk) : Prop :=
  ∀ mote, recorder.rowsOf mote ≠ [] → mote ∈ plan.motes ∧ disk.node? (plan.place here mote) =
    some (.file (page (plan.header :: recorder.rowsOf mote)))

theorem Filed.waits {met : Site} (filed : recorder.Filed plan site.disk.here site.disk)
    (quiet : Undisturbed plan site met) : recorder.Filed plan site.disk.here met.disk := by
  intro mote rows
  obtain ⟨wanted, file⟩ := filed mote rows
  exact ⟨wanted, (quiet.2 mote wanted).trans file⟩

-- A stop that goes well met no sheet on a device, so all rows are in files.
theorem Tidy.files {here : Place} {reason : StopReason} {last : Site}
    (tidy : Tidy plan here recorder site) (apart : plan.Apart here)
    (running : ∀ reason, recorder.phase ≠ .stopped reason)
    (stops : recorder.stop site reason = (.ok (), later, last)) :
    later.Filed plan here last.disk := by
  obtain ⟨_, _, rows⟩ := recorder.stop_frame site reason
  have disk := stop_disk running site reason
  have closing := stop_first running site reason
  rw [stops] at rows disk closing
  intro mote filled
  rw [rowsOf, rows] at filled ⊢
  rcases found : recorder.opened.get? mote with _ | sheet
  · exact absurd (tidy.unopened running mote found) filled
  obtain ⟨wanted, bears⟩ := tidy.sheets mote sheet found
  refine ⟨wanted, ?_⟩
  rcases bears.kept with ⟨file, _⟩ | clogged
  · rw [disk]
    exact tidy.closes apart found file
  · have member := (OpenSheets.get?_eq_some_iff tidy.ascending mote sheet).mp found
    split at closing
    · next closed left outcome =>
      have still : sheet.Clogged (site.info ("Shutting down capture: " ++ reason.text)).disk := clogged
      exact absurd (congrArg Prod.fst outcome) (OpenSheets.closeEach_clogged member still closed)
    · cases closing

end Recorder

/-! The counts beside the answers. -/

namespace Recorder

def Answer.outcome? : Answer → Option (Except CaptureError Verdict)
  | .taken outcome => some outcome
  | .done _ => none

def outcomes (log : List (Call × Answer)) : List (Except CaptureError Verdict) :=
  log.filterMap fun entry => entry.2.outcome?

def isVerdict (verdict : Verdict) : Except CaptureError Verdict → Bool
  | .ok other => other == verdict
  | .error _ => false

def isRefusal : Except CaptureError Verdict → Bool
  | .error (.stopped _) => true
  | _ => false

def isBreak : Except CaptureError Verdict → Bool
  | .error (.io _) => true
  | _ => false

def keptFor (mote : MoteId) : Call × Answer → Bool
  | (.take report, .taken (.ok .kept)) => report.mote == mote
  | _ => false

/-- How two outcomes may follow each other: nothing that belongs to a capture stands before its start,
and nothing that is early behind it. -/
def Follows (earlier later : Except CaptureError Verdict) : Prop :=
  (later = .ok .start → earlier ≠ .ok .start ∧ earlier ≠ .ok .skipped ∧ earlier ≠ .ok .kept) ∧
    (earlier = .ok .start → later ≠ .ok .early)

structure Balanced (log : List (Call × Answer)) (recorder : Recorder) : Prop where
  reports : recorder.tally.reports = (outcomes log).countP fun outcome => !isRefusal outcome
  shares : recorder.tally.reports = (outcomes log).countP (isVerdict .early) +
    (outcomes log).countP (isVerdict .start) + recorder.tally.skipped + recorder.tally.rows +
      (outcomes log).countP isBreak
  skipped : recorder.tally.skipped = (outcomes log).countP (isVerdict .skipped)
  rows : recorder.tally.rows = (outcomes log).countP (isVerdict .kept)
  noted : recorder.rows.length = recorder.tally.rows
  startsOnce : (outcomes log).countP (isVerdict .start) ≤ 1
  order : (outcomes log).Pairwise Follows

variable {plan : CapturePlan} {recorder later final : Recorder} {site last : Site}
  {report : Report} {outcome : Except CaptureError Verdict} {disk : Disk}
  {log : List (Call × Answer)} {between : Site → Site → Prop}

/-! The counts. -/

structure Counted (before after : Tally) (outcomes : List (Except CaptureError Verdict)) : Prop where
  reports : after.reports = before.reports + outcomes.countP fun outcome => !isRefusal outcome
  shares : after.reports = before.reports + (outcomes.countP (isVerdict .early) +
    outcomes.countP (isVerdict .start) + outcomes.countP (isVerdict .skipped) +
      outcomes.countP (isVerdict .kept) + outcomes.countP isBreak)
  skipped : after.skipped = before.skipped + outcomes.countP (isVerdict .skipped)
  rows : after.rows = before.rows + outcomes.countP (isVerdict .kept)

theorem counted_nil (tally : Tally) : Counted tally tally [] :=
  ⟨rfl, rfl, rfl, rfl⟩

theorem Counted.append {before middle after : Tally}
    {first second : List (Except CaptureError Verdict)} (one : Counted before middle first)
    (two : Counted middle after second) : Counted before after (first ++ second) := by
  constructor
  · rw [two.reports, one.reports, List.countP_append, Nat.add_assoc]
  · rw [two.shares, one.shares]
    simp only [List.countP_append]
    omega
  · rw [two.skipped, one.skipped, List.countP_append, Nat.add_assoc]
  · rw [two.rows, one.rows, List.countP_append, Nat.add_assoc]

theorem Took.counted (took : recorder.Took site report outcome later disk) :
    Counted recorder.tally later.tally [outcome] := by
  cases took with
  | refused _ => exact ⟨rfl, rfl, rfl, rfl⟩
  | early _ _ => exact ⟨rfl, rfl, rfl, rfl⟩
  | start _ _ => exact ⟨rfl, rfl, rfl, rfl⟩
  | skipped _ _ => exact ⟨rfl, rfl, rfl, rfl⟩
  | unopened _ _ _ _ => exact ⟨rfl, rfl, rfl, rfl⟩
  | broken _ _ _ _ => exact ⟨rfl, rfl, rfl, rfl⟩
  | kept _ _ _ _ => exact ⟨rfl, rfl, rfl, rfl⟩

theorem outcomes_cons (entry : Call × Answer) (log : List (Call × Answer)) :
    outcomes (entry :: log) = outcomes [entry] ++ outcomes log :=
  @List.filterMap_append _ _ [entry] log _

-- Nothing but a report moves the counts.
theorem answer_counted (recorder : Recorder) (site : Site) (call : Call) :
    Counted recorder.tally (recorder.answer site call).2.1.tally
      (outcomes [(call, (recorder.answer site call).1)]) := by
  cases call with
  | take report => exact (recorder.take_took site report).counted
  | stop reason =>
      rw [answer, (recorder.stop_frame site reason).2.1]
      exact counted_nil _
  | pause flag =>
      cases raised : flag.reason with
      | none =>
          rw [answer, pause_clear raised]
          exact counted_nil _
      | some reason =>
          rw [answer, pause_raised raised, (recorder.stop_frame site reason).2.1]
          exact counted_nil _

theorem Runs.counted (run : Runs between recorder site log final last) :
    Counted recorder.tally final.tally (outcomes log) := by
  induction run with
  | done => exact counted_nil _
  | call call meanwhile rest ih =>
      rw [outcomes_cons]
      exact (answer_counted _ _ call).append ih

/-! The order of the outcomes. -/

theorem mem_outcomes {call : Call} {answer : Answer} (member : outcome ∈ outcomes [(call, answer)]) :
    answer = .taken outcome := by
  cases answer with
  | taken own =>
      rw [List.mem_singleton.mp member]
  | done own => cases member

-- A recorder that waits on has met nothing but early reports; the others find it moved on.
theorem Took.waits (took : recorder.Took site report outcome later disk)
    (waiting : later.phase = .waiting) : outcome = .ok .early ∨ ∃ e, outcome = .error e := by
  cases took with
  | refused _ => exact Or.inr ⟨_, rfl⟩
  | early _ _ => exact Or.inl rfl
  | start _ _ => cases waiting
  | skipped phase _ => cases phase.symm.trans waiting
  | unopened _ _ _ _ => exact Or.inr ⟨_, rfl⟩
  | broken _ _ _ _ => exact Or.inr ⟨_, rfl⟩
  | kept phase _ _ _ => cases phase.symm.trans waiting

theorem Took.moved (took : recorder.Took site report outcome later disk)
    (moved : recorder.phase ≠ .waiting) : outcome ≠ .ok .early ∧ outcome ≠ .ok .start := by
  cases took with
  | early phase _ => exact absurd phase moved
  | start phase _ => exact absurd phase moved
  | _ => exact ⟨nofun, nofun⟩

theorem answer_moved (moved : recorder.phase ≠ .waiting) (site : Site) (call : Call) :
    (recorder.answer site call).2.1.phase ≠ .waiting := by
  intro waiting
  rcases recorder.answer_left site call with ⟨report, rfl⟩ | same | ⟨reason, stops⟩
  · rcases (recorder.take_took site report).phase_eq with same | ⟨before, _⟩
    · exact moved (same.symm.trans waiting)
    · exact moved before
  · rw [same] at waiting
    exact moved waiting
  · obtain ⟨first, phase⟩ := recorder.stop_stops site reason
    rw [stops] at waiting
    cases phase.symm.trans waiting

theorem Runs.moved (run : Runs between recorder site log final last)
    (moved : recorder.phase ≠ .waiting) :
    ∀ outcome ∈ outcomes log, outcome ≠ .ok .early ∧ outcome ≠ .ok .start := by
  induction run with
  | done => exact fun _ member => by cases member
  | @call recorder _ _ met _ _ call meanwhile _ ih =>
      intro outcome member
      rw [outcomes_cons] at member
      rcases List.mem_append.mp member with now | later
      · have told := mem_outcomes now
        cases call with
        | take report =>
            cases told
            exact (recorder.take_took met report).moved moved
        | pause flag => cases told
        | stop reason => cases told
      · exact ih (answer_moved moved met call) outcome later

theorem isVerdict_iff (verdict : Verdict) (outcome : Except CaptureError Verdict) :
    isVerdict verdict outcome = true ↔ outcome = .ok verdict := by
  cases outcome with
  | ok other => simp [isVerdict]
  | error e => simp [isVerdict]

-- What is early or failed may stand before anything, and is no start.
theorem follows_idle (idle : outcome = .ok .early ∨ ∃ e, outcome = .error e) :
    isVerdict .start outcome = false ∧ ∀ later, Follows outcome later := by
  rcases idle with rfl | ⟨e, rfl⟩
  · exact ⟨rfl, fun _ => ⟨fun _ => ⟨nofun, nofun, nofun⟩, nofun⟩⟩
  · exact ⟨rfl, fun _ => ⟨fun _ => ⟨nofun, nofun, nofun⟩, nofun⟩⟩

theorem Runs.follows (run : Runs between recorder site log final last) :
    (outcomes log).Pairwise Follows ∧ (outcomes log).countP (isVerdict .start) ≤ 1 := by
  induction run with
  | done => exact ⟨.nil, Nat.zero_le 1⟩
  | @call recorder _ _ met _ log call meanwhile rest ih =>
      cases call with
      | pause flag => exact ih
      | stop reason => exact ih
      | take report =>
          obtain ⟨order, once⟩ := ih
          have took := recorder.take_took met report
          have whole : outcomes ((.take report, (recorder.answer met (.take report)).1) :: log) =
              (recorder.take met report).1 :: outcomes log := rfl
          rw [whole, List.pairwise_cons, List.countP_cons]
          by_cases waiting : (recorder.take met report).2.1.phase = .waiting
          · obtain ⟨noStart, before⟩ := follows_idle (took.waits waiting)
            rw [noStart]
            exact ⟨⟨fun later _ => before later, order⟩, once⟩
          · -- The capture has started, so what comes later is neither early nor a start.
            have others := rest.moved waiting
            have none : (outcomes log).countP (isVerdict .start) = 0 := by
              rw [List.countP_eq_zero]
              intro outcome member
              rw [isVerdict_iff]
              exact (others outcome member).2
            rw [none]
            refine ⟨⟨fun later member => ?_, order⟩, ?_⟩
            · obtain ⟨notEarly, notStart⟩ := others later member
              exact ⟨fun start => absurd start notStart, fun _ => notEarly⟩
            · split
              · exact Nat.le_refl 1
              · exact Nat.zero_le 1

/-! The sheets. -/

theorem Booked.answer (booked : recorder.Booked plan) (site : Site) (call : Call) :
    (recorder.answer site call).2.1.Booked plan := by
  rcases recorder.answer_left site call with ⟨report, rfl⟩ | same | ⟨reason, stops⟩
  · exact booked.took (recorder.take_took site report)
  · rw [same]
    exact booked
  · rw [stops]
    exact booked.stop reason

theorem Runs.booked (run : Runs between recorder site log final last)
    (booked : recorder.Booked plan) : final.Booked plan :=
  run.keeps (fun recorder _ => recorder.Booked plan) (fun _ _ _ _ booked => booked)
    (fun _ site call booked => booked.answer site call) booked

-- The rows of a mote are the reports of this mote that were answered as kept.
theorem count_keptRow? (plan : CapturePlan) (mote : MoteId) (log : List (Call × Answer)) :
    ((log.filterMap (keptRow? plan)).filter fun row => row.1 == mote).length =
      log.countP (keptFor mote) := by
  rw [← List.countP_eq_length_filter, List.countP_filterMap]
  apply List.countP_congr
  rintro ⟨report | flag | reason, (e | verdict) | done⟩ _
  case take.taken.ok => cases verdict <;> rfl
  all_goals rfl

-- As long as the recorder is not stopped, its open sheets have all rows.
theorem Booked.sum (booked : recorder.Booked plan)
    (running : ∀ reason, recorder.phase ≠ .stopped reason) :
    (recorder.opened.sheets.map fun entry => entry.2.rows).sum = recorder.tally.rows := by
  have ascending : (recorder.opened.sheets.map fun entry => (entry.1, entry.2.rows)).Pairwise
      fun earlier later => earlier.1 < later.1 := List.pairwise_map.mpr booked.ascending
  have whole := @sum_shares _ recorder.rows ascending ?_ ?_
  · rw [booked.counted, ← whole, List.map_map]
    rfl
  · intro share member
    obtain ⟨entry, inside, rfl⟩ := List.mem_map.mp member
    have found := (OpenSheets.get?_eq_some_iff booked.ascending entry.1 entry.2).mpr inside
    rw [(booked.sheets entry.1 entry.2 found).2.2, rowsOf, List.length_map]
  · intro row member
    cases found : recorder.opened.get? row.1 with
    | none => exact absurd (booked.unopened running row.1 found) (List.ne_nil_of_mem (mem_rowsOf member))
    | some sheet =>
        have inside := (OpenSheets.get?_eq_some_iff booked.ascending row.1 sheet).mp found
        exact ⟨_, List.mem_map.mpr ⟨_, inside, rfl⟩, rfl⟩

theorem Booked.rows_eq (booked : recorder.Booked plan)
    (rows : recorder.rows = log.filterMap (keptRow? plan)) {mote : MoteId} {sheet : Sheet}
    (found : recorder.opened.get? mote = some sheet) :
    mote ∈ plan.motes ∧ sheet.path = plan.path mote ∧ sheet.rows = log.countP (keptFor mote) := by
  obtain ⟨wanted, path, count⟩ := booked.sheets mote sheet found
  refine ⟨wanted, path, ?_⟩
  rw [count, rowsOf, List.length_map, rows, count_keptRow?]

-- A call that stops the recorder goes well or breaks over a file.
theorem answer_closes {call : Call} (stops : call.stops = true)
    (well : ∀ e, (recorder.answer site call).1 ≠ .done (.error (.io e))) :
    ∃ reason, (recorder.answer site call).2 = (recorder.stop site reason).2 ∧
      (recorder.stop site reason).1 = .ok () := by
  cases call with
  | take report => cases stops
  | stop reason =>
      refine ⟨reason, rfl, ?_⟩
      rcases outcome : recorder.stop site reason with ⟨e | ⟨⟩, left, after⟩
      · obtain ⟨cause, rfl⟩ := stop_error outcome
        exact absurd (by simp only [answer, outcome]) (well cause)
      · rfl
  | pause flag =>
      obtain ⟨reason, raised⟩ := Option.isSome_iff_exists.mp stops
      refine ⟨reason, by rw [answer, pause_raised raised], ?_⟩
      rcases outcome : recorder.stop site reason with ⟨e | ⟨⟩, left, after⟩
      · obtain ⟨cause, rfl⟩ := stop_error outcome
        exact absurd (by simp only [answer, pause, raised, outcome]) (well cause)
      · rfl

/-- Wherever a run of calls leads, whatever failed on the way, the counts are those of the answers. As
long as the recorder is not stopped, each open sheet belongs to a mote of the plan, has its path and as
many rows as reports of this mote were answered as kept, so that they add up to all rows; and if a call
stops the recorder and breaks over no file, these sheets are listed as closed in ascending order, with
the same paths and rows, whatever is asked later. -/
theorem answers_are_accounted_for (plan : CapturePlan) (echoes : Bool) {start : Site}
    (run : Runs (fun _ _ => True) (new plan echoes) start log recorder site) :
    recorder.Balanced log ∧
    ((∀ reason, recorder.phase ≠ .stopped reason) →
      (∀ mote sheet, recorder.opened.get? mote = some sheet → mote ∈ plan.motes ∧
        sheet.path = plan.path mote ∧ sheet.rows = log.countP (keptFor mote)) ∧
      (recorder.opened.sheets.map fun entry => entry.2.rows).sum = recorder.tally.rows ∧
      ∀ met call, call.stops = true →
        (∀ e, (recorder.answer met call).1 ≠ .done (.error (.io e))) →
        ∀ later final last, Runs (fun _ _ => True) (recorder.answer met call).2.1
          (recorder.answer met call).2.2 later final last →
            (final.closed.Pairwise fun earlier later => earlier.1 < later.1) ∧
            final.closed =
              recorder.opened.sheets.map fun entry => (entry.1, ⟨entry.2.path, entry.2.rows⟩)) := by
  have booked : recorder.Booked plan := run.booked (booked_new plan echoes)
  have counted : Counted ⟨0, 0, 0, 0⟩ recorder.tally (outcomes log) := run.counted
  have rows : recorder.rows = log.filterMap (keptRow? plan) := run.rows
  constructor
  · obtain ⟨order, once⟩ := run.follows
    have shares := counted.shares
    have skipped := counted.skipped
    have kept := counted.rows
    simp only [Nat.zero_add] at shares skipped kept
    constructor
    · simpa using counted.reports
    · rw [shares, skipped, kept]
    · exact skipped
    · exact kept
    · exact booked.counted.symm
    · exact once
    · exact order
  · intro running
    refine ⟨fun mote sheet found => booked.rows_eq rows found, booked.sum running, ?_⟩
    intro met call stops well later final last goesOn
    obtain ⟨reason, left, outcome⟩ := answer_closes stops well
    rw [left] at goesOn
    obtain ⟨first, phase⟩ := recorder.stop_stops met reason
    have same := (goesOn.stopped phase).1
    have closed := booked.closes running (Prod.ext outcome rfl : recorder.stop met reason =
      (.ok (), (recorder.stop met reason).2.1, (recorder.stop met reason).2.2))
    rw [same, closed]
    exact ⟨List.pairwise_map.mpr booked.ascending, rfl⟩

-- A report of each kind, one of them broken by a file in the place of a folder.
theorem five_reports_accounted_for :
    let blocked : Site := ⟨Disk.blank.withFile (.ofString "csv") [], .empty⟩
    let early := (new .standard true).answer ⟨.blank, .empty⟩ (.take ⟨0, 1, "boot"⟩)
    let started := early.2.1.answer early.2.2 (.take ⟨1, 1, CapturePlan.standardMarker⟩)
    let broken := started.2.1.answer blocked (.take ⟨5, 1, "6"⟩)
    let kept := broken.2.1.answer started.2.2 (.take ⟨6, 1, "7"⟩)
    let skipped := kept.2.1.answer kept.2.2 (.take ⟨7, 2, "8"⟩)
    let stopped := skipped.2.1.answer skipped.2.2 (.stop .timeout)
    let log := [(.take ⟨0, 1, "boot"⟩, early.1),
      (.take ⟨1, 1, CapturePlan.standardMarker⟩, started.1), (.take ⟨5, 1, "6"⟩, broken.1),
      (.take ⟨6, 1, "7"⟩, kept.1), (.take ⟨7, 2, "8"⟩, skipped.1)]
    skipped.2.1.Balanced log ∧ skipped.2.1.tally = ⟨5, 1, 1, 1⟩ ∧
      (outcomes log).map isBreak = [false, false, true, false, false] ∧
      stopped.2.1.closed = [(1, ⟨CapturePlan.standard.path 1, 1⟩)] := by
  intro blocked early started broken kept skipped stopped log
  have ends : Runs (fun _ _ => True) kept.2.1 kept.2.2 _ skipped.2.1 skipped.2.2 :=
    .call (.take ⟨7, 2, "8"⟩) trivial (.done _ _)
  have writes : Runs (fun _ _ => True) broken.2.1 broken.2.2 _ skipped.2.1 skipped.2.2 :=
    .call (.take ⟨6, 1, "7"⟩) trivial ends
  have breaks : Runs (fun _ _ => True) started.2.1 started.2.2 _ skipped.2.1 skipped.2.2 :=
    .call (.take ⟨5, 1, "6"⟩) trivial writes
  have starts : Runs (fun _ _ => True) early.2.1 early.2.2 _ skipped.2.1 skipped.2.2 :=
    .call (.take ⟨1, 1, CapturePlan.standardMarker⟩) trivial breaks
  have run : Runs (fun _ _ => True) (new .standard true) ⟨.blank, .empty⟩ log skipped.2.1
      skipped.2.2 := .call (.take ⟨0, 1, "boot"⟩) trivial starts
  obtain ⟨balanced, running⟩ := answers_are_accounted_for .standard true run
  have capturing : skipped.2.1.phase = .capturing := by decide +kernel
  have goesWell : ∀ e, stopped.1 ≠ .done (.error (.io e)) := by
    intro e same
    have well : (skipped.2.1.stop skipped.2.2 .timeout).1.isOk = true := by decide +kernel
    rw [Answer.done.inj same] at well
    cases well
  obtain ⟨_, closed⟩ := (running (by simp [capturing])).2.2 skipped.2.2 (.stop .timeout) rfl
    goesWell [] _ _ (.done _ _)
  refine ⟨balanced, by decide +kernel, by decide +kernel, ?_⟩
  rw [closed]
  decide +kernel

end Recorder

end MoteCapture

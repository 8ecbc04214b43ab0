import MoteCapture.Proofs.Recorder.Calls

/-!
What a recorder keeps up about its sheets while it is called: each stands at the place of its mote's file
and holds the header and the rows that were written for this mote, in order. A sheet on a device is
clogged for good; nothing is said about its text.

So every row that was answered for reaches its file. It may wait in a buffer for long; a stop that goes
well, a stop that fails over another sheet, and the giving up of the recorder all bring it to the disk, in
whatever order reports, pauses and stops came and whichever of them failed.
-/

namespace MoteCapture

open Sheet (page)

def CapturePlan.place (plan : CapturePlan) (here : Place) (mote : MoteId) : Place :=
  (Path.ofString (plan.path mote)).place here

def CapturePlan.Apart (plan : CapturePlan) (here : Place) : Prop :=
  ∀ mote ∈ plan.motes, ∀ other ∈ plan.motes,
    plan.place here mote = plan.place here other → mote = other

theorem CapturePlan.apart_single {plan : CapturePlan} {mote : MoteId} (only : plan.motes = [mote])
    (here : Place) : plan.Apart here := by
  intro first wanted second wanted' _
  rw [only, List.mem_singleton] at wanted wanted'
  rw [wanted, wanted']

theorem CapturePlan.mem_motes {plan : CapturePlan} {report : Report}
    (keeps : plan.keeps report = true) : report.mote ∈ plan.motes := by
  rw [CapturePlan.keeps, Bool.and_eq_true] at keeps
  simpa using keeps.1

structure Sheet.Bears (plan : CapturePlan) (here : Place) (mote : MoteId) (rows : List String)
    (sheet : Sheet) (disk : Disk) : Prop where
  path : sheet.path = plan.path mote
  place : sheet.place = plan.place here mote
  counted : sheet.rows = rows.length
  kept : sheet.OnFile disk ∧ sheet.Holds disk (page (plan.header :: rows)) ∨ sheet.Clogged disk

namespace Sheet.Bears

variable {own : Place → Prop} {plan : CapturePlan} {here : Place} {mote : MoteId}
  {rows : List String} {sheet next : Sheet} {disk after : Disk} {row : String}

theorem changed (bears : Bears plan here mote rows sheet disk) (changed : disk.Changed own after)
    (foreign : ¬ own (plan.place here mote)) : Bears plan here mote rows sheet after where
  path := bears.path
  place := bears.place
  counted := bears.counted
  kept := Carries.changed bears.kept changed (bears.place ▸ foreign)

theorem writeRow_ok (bears : Bears plan here mote rows sheet disk)
    (written : sheet.writeRow disk row = (.ok (), next, after)) :
    Bears plan here mote (rows ++ [row]) next after ∧
      disk.Changed (· = plan.place here mote) after := by
  have appended := writeRow_appended sheet disk row
  rw [written] at appended
  refine ⟨⟨appended.path.trans bears.path, appended.place.trans bears.place, ?_, ?_⟩, ?_⟩
  · rw [rows_writeRow written, bears.counted, List.length_append, List.length_singleton]
  · have more := Carries.writeRow_ok bears.kept written
    rwa [← page_append] at more
  · rw [← bears.place]
    exact appended.changed

theorem writeRow_error {e : IoError} (bears : Bears plan here mote rows sheet disk)
    (failed : sheet.writeRow disk row = (.error e, next, after)) :
    Bears plan here mote rows next after ∧ disk.Changed (· = plan.place here mote) after := by
  have appended := writeRow_appended sheet disk row
  have count := rows_writeRow_error failed
  rw [failed] at appended
  refine ⟨⟨appended.path.trans bears.path, appended.place.trans bears.place, ?_, ?_⟩, ?_⟩
  · rw [count, bears.counted]
  · exact Carries.writeRow_error bears.kept failed
  · rw [← bears.place]
    exact appended.changed

theorem met (bears : Bears plan here mote rows sheet disk)
    (same : after.node? (plan.place here mote) = disk.node? (plan.place here mote)) :
    Bears plan here mote rows sheet after where
  path := bears.path
  place := bears.place
  counted := bears.counted
  kept := Carries.met bears.kept (by rw [bears.place, same])

theorem ofCreate {site left : Site}
    (created : create site (plan.path mote) plan.header = (.ok sheet, left)) :
    Bears plan site.disk.here mote [] sheet left.disk := by
  obtain ⟨path, place, rows, _, _⟩ := create_ok created
  exact ⟨path, place, rows, Carries.ofCreate created⟩

end Sheet.Bears

namespace Recorder

theorem changed_openSheet (plan : CapturePlan) (mote : MoteId) (site : Site) :
    site.disk.Changed (· = plan.place site.disk.here mote) (openSheet plan mote site).2.disk := by
  generalize informed : site.info ("Opening " ++ plan.path mote ++ " for node " ++
    toString mote.toNat) = told
  have same : told.disk = site.disk := by rw [← informed]; rfl
  have created := Sheet.changed_create told (plan.path mote) plan.header
  rw [same] at created
  rw [openSheet, informed]
  exact created

def rowsOf (recorder : Recorder) (mote : MoteId) : List String :=
  (recorder.rows.filter fun row => row.1 == mote).map Prod.snd

theorem rowsOf_noted {recorder later : Recorder} {mote : MoteId} {row : String}
    (noted : later.newestRows = (mote, row) :: recorder.newestRows) (other : MoteId) :
    later.rowsOf other = recorder.rowsOf other ++ if other = mote then [row] else [] := by
  by_cases same : other = mote
  · simp [rowsOf, rows, noted, same]
  · simp [rowsOf, rows, noted, same, Ne.symm same]

/-- Nobody else touches what is at the places of the plan's files. -/
def Undisturbed (plan : CapturePlan) (site met : Site) : Prop :=
  met.disk.here = site.disk.here ∧ ∀ mote ∈ plan.motes,
    met.disk.node? (plan.place site.disk.here mote) =
      site.disk.node? (plan.place site.disk.here mote)

theorem Undisturbed.refl (plan : CapturePlan) (site : Site) : Undisturbed plan site site :=
  ⟨rfl, fun _ _ => rfl⟩

/-- Every open sheet is the sheet of a mote of the plan, with all rows of this mote. -/
structure Tidy (plan : CapturePlan) (here : Place) (recorder : Recorder) (site : Site) : Prop where
  follows : recorder.plan = plan
  stands : site.disk.here = here
  ascending : recorder.opened.Ascending
  sheets : ∀ mote sheet, recorder.opened.get? mote = some sheet → mote ∈ plan.motes ∧
    sheet.Bears plan here mote (recorder.rowsOf mote) site.disk
  unopened : (∀ reason, recorder.phase ≠ .stopped reason) → ∀ mote,
    recorder.opened.get? mote = none → recorder.rowsOf mote = []

variable {plan : CapturePlan} {here : Place} {recorder : Recorder} {site met : Site}

theorem tidy_new (plan : CapturePlan) (echoes : Bool) (site : Site) :
    Tidy plan site.disk.here (new plan echoes) site := by
  constructor
  · rfl
  · rfl
  · exact OpenSheets.ascending_empty
  · intro mote sheet found
    cases found
  · intro _ mote _
    rfl

-- Whatever changes neither the sheets nor the rows nor the disk.
theorem Tidy.congr {other : Recorder} (tidy : Tidy plan here recorder site)
    (follows : other.plan = recorder.plan) (opened : other.opened = recorder.opened)
    (rows : other.rows = recorder.rows)
    (running : (∀ reason, other.phase ≠ .stopped reason) → ∀ reason, recorder.phase ≠ .stopped reason)
    (disk : met.disk = site.disk) : Tidy plan here other met where
  follows := follows.trans tidy.follows
  stands := disk ▸ tidy.stands
  ascending := opened ▸ tidy.ascending
  sheets mote sheet found := by
    have same : other.rowsOf mote = recorder.rowsOf mote := by rw [rowsOf, rows, rowsOf]
    rw [same, disk]
    exact tidy.sheets mote sheet (opened ▸ found)
  unopened goesOn mote missing := by
    rw [rowsOf, rows]
    exact tidy.unopened (running goesOn) mote (opened ▸ missing)

theorem Tidy.waits (tidy : Tidy plan here recorder site) (quiet : Undisturbed plan site met) :
    Tidy plan here recorder met where
  follows := tidy.follows
  stands := quiet.1.trans tidy.stands
  ascending := tidy.ascending
  sheets mote sheet found := by
    obtain ⟨wanted, bears⟩ := tidy.sheets mote sheet found
    have same := quiet.2 mote wanted
    rw [tidy.stands] at same
    exact ⟨wanted, bears.met same⟩
  unopened := tidy.unopened

-- What happens at the place of one mote leaves the sheets of the others alone.
theorem Tidy.others (tidy : Tidy plan here recorder site) (apart : plan.Apart here) {mote : MoteId}
    (wanted : mote ∈ plan.motes) {after : Disk}
    (changed : site.disk.Changed (· = plan.place here mote) after) {other : MoteId} {sheet : Sheet}
    (different : other ≠ mote) (found : recorder.opened.get? other = some sheet) :
    other ∈ plan.motes ∧ sheet.Bears plan here other (recorder.rowsOf other) after := by
  obtain ⟨kept, bears⟩ := tidy.sheets other sheet found
  refine ⟨kept, bears.changed changed fun same => ?_⟩
  exact different (apart other kept mote wanted same)

-- The sheet that is obtained for a mote bears the rows of this mote, be it new or not.
theorem Tidy.obtained (tidy : Tidy plan here recorder site)
    (running : ∀ reason, recorder.phase ≠ .stopped reason) {mote : MoteId} {sheet : Sheet}
    {isNew : Bool} {ready : Site} (obtained : recorder.Obtained mote site sheet isNew ready) :
    sheet.Bears plan here mote (recorder.rowsOf mote) ready.disk ∧
      site.disk.Changed (· = plan.place here mote) ready.disk := by
  rcases obtained with ⟨_, found, same⟩ | ⟨_, missing, made⟩
  · rw [same]
    exact ⟨(tidy.sheets mote sheet found).2, .refl _⟩
  · rw [tidy.follows] at made
    have bears := Sheet.Bears.ofCreate made
    have changed := changed_openSheet plan mote site
    rw [made] at changed
    rw [tidy.unopened running mote missing, ← tidy.stands]
    exact ⟨bears, changed⟩

-- One sheet is put in place of another one of its mote, or as its first.
theorem Tidy.put {later : Recorder} {after : Site} (tidy : Tidy plan here recorder site)
    (apart : plan.Apart here) (running : ∀ reason, recorder.phase ≠ .stopped reason)
    {mote : MoteId} (wanted : mote ∈ plan.motes) {next : Sheet}
    (follows : later.plan = recorder.plan)
    (opened : later.opened = recorder.opened.insert mote next)
    (others : ∀ other, other ≠ mote → later.rowsOf other = recorder.rowsOf other)
    (bears : next.Bears plan here mote (later.rowsOf mote) after.disk)
    (changed : site.disk.Changed (· = plan.place here mote) after.disk) :
    Tidy plan here later after where
  follows := follows.trans tidy.follows
  stands := changed.here.trans tidy.stands
  ascending := opened ▸ OpenSheets.ascending_insert mote next tidy.ascending
  sheets other sheet found := by
    rw [opened, OpenSheets.get?_insert] at found
    by_cases same : other = mote
    · subst same
      rw [if_pos rfl] at found
      cases found
      exact ⟨wanted, bears⟩
    · rw [if_neg same] at found
      rw [others other same]
      exact tidy.others apart wanted changed same found
  unopened _ other missing := by
    rw [opened, OpenSheets.get?_insert] at missing
    by_cases same : other = mote
    · rw [if_pos same] at missing
      cases missing
    · rw [if_neg same] at missing
      rw [others other same]
      exact tidy.unopened running other missing

-- Whatever was made on the way to a sheet that was not opened, the other sheets stand elsewhere.
theorem Tidy.opensNone {e : IoError} {mote : MoteId} {left : Site}
    (tidy : Tidy plan here recorder site) (apart : plan.Apart here) (wanted : mote ∈ plan.motes)
    (missing : recorder.opened.get? mote = none)
    (failed : openSheet recorder.plan mote site = (.error e, left)) :
    Tidy plan here recorder left := by
  have changed := changed_openSheet plan mote site
  rw [← tidy.follows, failed, tidy.follows, tidy.stands] at changed
  refine ⟨tidy.follows, changed.here.trans tidy.stands, tidy.ascending, ?_, tidy.unopened⟩
  intro other sheet found
  have different : other ≠ mote := by
    rintro rfl
    rw [missing] at found
    cases found
  exact tidy.others apart wanted changed different found

theorem Tidy.took {report : Report} {outcome : Except CaptureError Verdict} {later : Recorder}
    {left : Site} (tidy : Tidy plan here recorder site) (apart : plan.Apart here)
    (took : recorder.Took site report outcome later left.disk) : Tidy plan here later left := by
  have listed : recorder.plan.keeps report = true → report.mote ∈ plan.motes := by
    rw [tidy.follows]
    exact CapturePlan.mem_motes
  generalize saved : left.disk = disk at took
  cases took with
  | refused _ => exact tidy.congr rfl rfl rfl id saved
  | early _ _ => exact tidy.congr rfl rfl rfl id saved
  | start phase _ => exact tidy.congr rfl rfl rfl (fun _ => by simp [phase]) saved
  | skipped _ _ => exact tidy.congr rfl rfl rfl id saved
  | unopened _ missing keeps failed =>
      have still := tidy.opensNone apart (listed keeps) missing failed
      exact still.congr rfl rfl rfl id saved
  | broken phase keeps obtained failed =>
      have running : ∀ reason, recorder.phase ≠ .stopped reason := by simp [phase]
      obtain ⟨bears, opening⟩ := tidy.obtained running obtained
      rw [tidy.follows] at failed
      obtain ⟨still, writing⟩ := bears.writeRow_error failed
      rw [← saved] at still writing
      exact tidy.put apart running (listed keeps) rfl rfl (fun _ _ => rfl) still
        (opening.trans writing)
  | kept phase keeps obtained written =>
      have running : ∀ reason, recorder.phase ≠ .stopped reason := by simp [phase]
      obtain ⟨bears, opening⟩ := tidy.obtained running obtained
      obtain ⟨more, writing⟩ := bears.writeRow_ok written
      rw [← saved] at more writing
      refine tidy.put apart running (listed keeps) rfl rfl ?_ ?_ (opening.trans writing)
      · intro other different
        rw [rowsOf_noted rfl, if_neg different, List.append_nil]
      · rw [rowsOf_noted rfl, if_pos rfl]
        exact more

-- After the stop no sheet is open, so there is nothing to keep up.
theorem Tidy.stop (tidy : Tidy plan here recorder site) (reason : StopReason) :
    Tidy plan here (recorder.stop site reason).2.1 (recorder.stop site reason).2.2 := by
  rcases recorder.stopped_or_running with ⟨earlier, phase⟩ | running
  · rw [stop_again phase]
    exact tidy.congr rfl rfl rfl id rfl
  · obtain ⟨closed, left⟩ := stop_leaves running site reason
    have changed := changed_stop recorder site reason
    rw [left]
    refine ⟨tidy.follows, changed.here.trans tidy.stands, OpenSheets.ascending_empty, ?_, ?_⟩
    · intro mote sheet found
      cases found
    · intro goesOn
      exact absurd rfl (goesOn reason)

theorem Tidy.answer (tidy : Tidy plan here recorder site) (apart : plan.Apart here) (call : Call) :
    Tidy plan here (recorder.answer site call).2.1 (recorder.answer site call).2.2 := by
  rcases recorder.answer_left site call with ⟨report, rfl⟩ | same | ⟨reason, stops⟩
  · exact tidy.took apart (take_took recorder site report)
  · rw [same]
    exact tidy
  · rw [stops]
    exact tidy.stop reason

theorem Runs.tidy {final : Recorder} {last : Site} {log : List (Call × Answer)}
    (run : Runs (Undisturbed plan) recorder site log final last) (apart : plan.Apart here)
    (tidy : Tidy plan here recorder site) : Tidy plan here final last :=
  run.keeps (Tidy plan here) (fun _ _ _ quiet tidy => tidy.waits quiet)
    (fun _ _ call tidy => tidy.answer apart call) tidy

end Recorder

/-! What reaches the files. -/

namespace Recorder

open Sheet (page)

def Call.stops : Call → Bool
  | .take _ => false
  | .pause flag => flag.isRaised
  | .stop _ => true

def keptRow? (plan : CapturePlan) : Call × Answer → Option (MoteId × String)
  | (.take report, .taken (.ok .kept)) => some (report.mote, plan.row report)
  | _ => none

variable {plan : CapturePlan} {here : Place} {recorder later : Recorder} {site met : Site}
  {mote : MoteId} {report : Report} {outcome : Except CaptureError Verdict} {disk : Disk}

theorem Took.rows (took : recorder.Took site report outcome later disk) :
    later.rows = recorder.rows ++
      (keptRow? recorder.plan (.take report, .taken outcome)).toList := by
  cases took with
  | kept _ _ _ _ => exact List.reverse_cons
  | _ => exact (List.append_nil _).symm

theorem answer_rows (recorder : Recorder) (site : Site) (call : Call) :
    (recorder.answer site call).2.1.rows = recorder.rows ++
      (keptRow? recorder.plan (call, (recorder.answer site call).1)).toList := by
  cases call with
  | take report => exact (take_took recorder site report).rows
  | stop reason =>
      rw [answer, (stop_frame recorder site reason).2.2]
      exact (List.append_nil _).symm
  | pause flag =>
      cases raised : flag.reason with
      | none =>
          rw [answer, pause_clear raised]
          exact (List.append_nil _).symm
      | some reason =>
          rw [answer, pause_raised raised, (stop_frame recorder site reason).2.2]
          exact (List.append_nil _).symm

theorem Runs.rows {between : Site → Site → Prop} {final : Recorder} {last : Site}
    {log : List (Call × Answer)} (run : Runs between recorder site log final last) :
    final.rows = recorder.rows ++ log.filterMap (keptRow? recorder.plan) := by
  induction run with
  | done => exact (List.append_nil _).symm
  | @call recorder final site met last log call meanwhile rest ih =>
      rw [ih, answer_rows, answer_plan, List.append_assoc]
      congr 1
      rw [List.filterMap_cons]
      cases keptRow? recorder.plan (call, (recorder.answer met call).1) with
      | none => rfl
      | some row => rfl

/-- The file of a mote is open, or it is complete. -/
structure Delivers (plan : CapturePlan) (here : Place) (mote : MoteId) (recorder : Recorder)
    (site : Site) : Prop where
  tidy : Tidy plan here recorder site
  wanted : mote ∈ plan.motes
  stage : (∃ sheet, recorder.opened.get? mote = some sheet ∧ sheet.OnFile site.disk) ∨
    (∃ reason, recorder.phase = .stopped reason) ∧ site.disk.node? (plan.place here mote) =
      some (.file (page (plan.header :: recorder.rowsOf mote)))

-- Different sheets stand at different places, because the files of their motes are different.
theorem Tidy.apart_sheets (tidy : Tidy plan here recorder site) (apart : plan.Apart here) :
    OpenSheets.Apart recorder.opened.sheets := by
  refine tidy.ascending.imp_of_mem fun {first second} one two before => ?_
  obtain ⟨wanted, bears⟩ := tidy.sheets first.1 first.2
    ((OpenSheets.get?_eq_some_iff tidy.ascending _ _).mpr one)
  obtain ⟨wanted', bears'⟩ := tidy.sheets second.1 second.2
    ((OpenSheets.get?_eq_some_iff tidy.ascending _ _).mpr two)
  intro same
  rw [bears.place, bears'.place] at same
  rw [apart first.1 wanted second.1 wanted' same] at before
  exact UInt32.lt_irrefl _ before

-- Closing the sheets, as often as some of them fail, completes each file that is open.
theorem Tidy.closes (tidy : Tidy plan here recorder site) (apart : plan.Apart here)
    {sheet : Sheet} (found : recorder.opened.get? mote = some sheet)
    (file : sheet.OnFile site.disk) :
    (OpenSheets.closeEach site recorder.opened.sheets).2.disk.node? (plan.place here mote) =
      some (.file (page (plan.header :: recorder.rowsOf mote))) := by
  obtain ⟨_, bears⟩ := tidy.sheets mote sheet found
  have held : sheet.Holds site.disk (page (plan.header :: recorder.rowsOf mote)) := by
    rcases bears.kept with ⟨_, held⟩ | clogged
    · exact held
    · exact absurd file clogged.not_onFile
  have member := (OpenSheets.get?_eq_some_iff tidy.ascending mote sheet).mp found
  rw [← bears.place]
  exact OpenSheets.closeEach_leaves (tidy.apart_sheets apart) member
    (Sheet.page_cons_ne_nil _ _) held file

theorem Delivers.waits (delivers : Delivers plan here mote recorder site)
    (quiet : Undisturbed plan site met) : Delivers plan here mote recorder met where
  tidy := delivers.tidy.waits quiet
  wanted := delivers.wanted
  stage := by
    have same := quiet.2 mote delivers.wanted
    rw [delivers.tidy.stands] at same
    rw [same]
    refine delivers.stage.imp_left ?_
    rintro ⟨sheet, found, bytes, isFile⟩
    rw [(delivers.tidy.sheets mote sheet found).2.place] at isFile
    exact ⟨sheet, found, bytes, by
      rw [(delivers.tidy.sheets mote sheet found).2.place, same]; exact isFile⟩

theorem Obtained.changed {sheet : Sheet} {isNew : Bool} {ready : Site}
    (obtained : recorder.Obtained mote site sheet isNew ready) :
    site.disk.Changed (fun _ => True) ready.disk := by
  rcases obtained with ⟨_, _, same⟩ | ⟨_, _, made⟩
  · rw [same]
    exact .refl _
  · have opening := changed_openSheet recorder.plan mote site
    rw [made] at opening
    exact opening.mono fun _ _ => trivial

theorem Took.changed (took : recorder.Took site report outcome later disk) :
    site.disk.Changed (fun _ => True) disk := by
  have writing : ∀ (sheet : Sheet) (disk : Disk),
      disk.Changed (fun _ => True) (sheet.writeRow disk (recorder.plan.row report)).2.2 := by
    intro sheet disk
    exact (Sheet.writeRow_appended sheet disk (recorder.plan.row report)).changed.mono
      fun _ _ => trivial
  cases took with
  | unopened _ _ _ failed =>
      have opening := changed_openSheet recorder.plan report.mote site
      rw [failed] at opening
      exact opening.mono fun _ _ => trivial
  | @broken sheet _ _ ready _ _ _ _ obtained failed =>
      have wrote := writing sheet ready.disk
      rw [failed] at wrote
      exact obtained.changed.trans wrote
  | @kept sheet _ _ ready _ _ _ obtained written =>
      have wrote := writing sheet ready.disk
      rw [written] at wrote
      exact obtained.changed.trans wrote
  | _ => exact .refl _

theorem Took.opened {sheet : Sheet} (took : recorder.Took site report outcome later disk)
    (found : recorder.opened.get? mote = some sheet) :
    ∃ still, later.opened.get? mote = some still := by
  have inserted : ∀ next, ∃ still,
      (recorder.opened.insert report.mote next).get? mote = some still := by
    intro next
    rw [OpenSheets.get?_insert]
    split
    · exact ⟨next, rfl⟩
    · exact ⟨sheet, found⟩
  cases took with
  | broken _ _ _ _ => exact inserted _
  | kept _ _ _ _ => exact inserted _
  | _ => exact ⟨sheet, found⟩

theorem Delivers.take (delivers : Delivers plan here mote recorder site) (apart : plan.Apart here)
    (report : Report) :
    Delivers plan here mote (recorder.take site report).2.1 (recorder.take site report).2.2 where
  tidy := delivers.tidy.took apart (take_took recorder site report)
  wanted := delivers.wanted
  stage := by
    have took := take_took recorder site report
    rcases delivers.stage with ⟨sheet, found, bytes, isFile⟩ | ⟨⟨reason, phase⟩, complete⟩
    · left
      -- The mote still has a sheet; it stands where the file was, which is a file still.
      obtain ⟨later, still⟩ := took.opened found
      have place := (delivers.tidy.sheets mote sheet found).2.place
      have samePlace := ((delivers.tidy.took apart took).sheets mote later still).2.place
      rw [place, ← samePlace] at isFile
      exact ⟨later, still, took.changed.file isFile⟩
    · right
      rw [take_stopped phase]
      exact ⟨⟨reason, phase⟩, complete⟩

theorem Delivers.stop (delivers : Delivers plan here mote recorder site) (apart : plan.Apart here)
    (reason : StopReason) :
    Delivers plan here mote (recorder.stop site reason).2.1 (recorder.stop site reason).2.2 := by
  rcases recorder.stopped_or_running with ⟨earlier, phase⟩ | running
  · rw [stop_again phase]
    exact ⟨delivers.tidy.congr rfl rfl rfl id rfl, delivers.wanted, delivers.stage⟩
  refine ⟨delivers.tidy.stop reason, delivers.wanted, Or.inr ⟨stop_stops recorder site reason, ?_⟩⟩
  rcases delivers.stage with ⟨sheet, found, file⟩ | ⟨⟨earlier, phase⟩, _⟩
  · obtain ⟨closed, left⟩ := stop_leaves running site reason
    rw [stop_disk running, left]
    exact delivers.tidy.closes apart found file
  · exact absurd phase (running earlier)

-- Giving the recorder up completes the file, if no stop has done so.
theorem Delivers.discard (delivers : Delivers plan here mote recorder site)
    (apart : plan.Apart here) (orderly : recorder.Orderly) :
    (recorder.discard site).disk.node? (plan.place here mote) =
      some (.file (page (plan.header :: recorder.rowsOf mote))) := by
  rcases delivers.stage with ⟨sheet, found, file⟩ | ⟨⟨reason, phase⟩, complete⟩
  · rw [discard_disk]
    exact delivers.tidy.closes apart found file
  · rw [discard_disk, orderly.stopped reason phase]
    exact complete

theorem Delivers.answer (delivers : Delivers plan here mote recorder site)
    (apart : plan.Apart here) (call : Call) :
    Delivers plan here mote (recorder.answer site call).2.1 (recorder.answer site call).2.2 := by
  rcases recorder.answer_left site call with ⟨report, rfl⟩ | same | ⟨reason, stops⟩
  · exact delivers.take apart report
  · rw [same]
    exact delivers
  · rw [stops]
    exact delivers.stop apart reason

theorem answer_stops {call : Call} (stops : call.stops = true) (recorder : Recorder)
    (site : Site) : ∃ reason, (recorder.answer site call).2.1.phase = .stopped reason := by
  cases call with
  | take report => cases stops
  | stop reason => exact stop_stops recorder site reason
  | pause flag =>
      obtain ⟨reason, raised⟩ := Option.isSome_iff_exists.mp stops
      rw [answer, pause_raised raised]
      exact stop_stops recorder site reason

section Runs

variable {final : Recorder} {last : Site} {before after log : List (Call × Answer)}

theorem Runs.stops {between : Site → Site → Prop} (run : Runs between recorder site log final last)
    (stops : ∃ entry ∈ log, entry.1.stops = true) : ∃ reason, final.phase = .stopped reason := by
  induction run with
  | done =>
      obtain ⟨entry, member, _⟩ := stops
      cases member
  | call call meanwhile rest ih =>
      obtain ⟨entry, member, stops⟩ := stops
      rcases List.mem_cons.mp member with rfl | later
      · obtain ⟨reason, phase⟩ := answer_stops stops _ _
        exact ⟨reason, by rw [(rest.stopped phase).1]; exact phase⟩
      · exact ih ⟨entry, later, stops⟩

theorem Runs.delivers (run : Runs (Undisturbed plan) recorder site log final last)
    (apart : plan.Apart here) (delivers : Delivers plan here mote recorder site) :
    Delivers plan here mote final last :=
  run.keeps (Delivers plan here mote) (fun _ _ _ quiet delivers => delivers.waits quiet)
    (fun _ _ call delivers => delivers.answer apart call) delivers

/-- The rows that are noted are the rows of the reports that were answered as kept, in order, and
those of each mote are in its file in the end: if its sheet was ever open on a file, then after a
stop, and also if the recorder is given up without one, this file holds the header and these rows
and nothing else. -/
theorem rows_reach_files (plan : CapturePlan) (echoes : Bool) (apart : plan.Apart site.disk.here)
    {halfway : Site}
    (earlier : Runs (Undisturbed plan) (new plan echoes) site before recorder halfway)
    (later : Runs (Undisturbed plan) recorder halfway after final last) :
    final.rows = (before ++ after).filterMap (keptRow? plan) ∧
      ∀ mote sheet, recorder.opened.get? mote = some sheet → sheet.OnFile halfway.disk →
        ((∃ entry ∈ after, entry.1.stops = true) → last.disk.node? sheet.place =
          some (.file (page (plan.header :: final.rowsOf mote)))) ∧
        ∀ met, Undisturbed plan last met → (final.discard met).disk.node? sheet.place =
          some (.file (page (plan.header :: final.rowsOf mote))) := by
  have whole := earlier.append later
  have bare : (new plan echoes).rows = [] := rfl
  have own : (new plan echoes).plan = plan := rfl
  constructor
  · rw [whole.rows, bare, own, List.nil_append]
  intro mote sheet found file
  have tidy := earlier.tidy apart (tidy_new plan echoes site)
  obtain ⟨wanted, bears⟩ := tidy.sheets mote sheet found
  have delivers := later.delivers apart ⟨tidy, wanted, Or.inl ⟨sheet, found, file⟩⟩
  have orderly := whole.orderly (orderly_new plan echoes)
  rw [bears.place]
  constructor
  · intro stops
    obtain ⟨reason, phase⟩ := later.stops stops
    rcases delivers.stage with ⟨sheet, still, _⟩ | ⟨_, complete⟩
    · rw [orderly.stopped reason phase] at still
      cases still
    · exact complete
  · intro met quiet
    exact (delivers.waits quiet).discard apart orderly

theorem row_reaches_file :
    let started := (new .standard true).answer ⟨.blank, .empty⟩
      (.take ⟨0, 1, CapturePlan.standardMarker⟩)
    let kept := started.2.1.answer started.2.2 (.take ⟨5, 1, "7"⟩)
    let stopped := kept.2.1.answer kept.2.2 (.stop .timeout)
    ∃ sheet, kept.2.1.opened.get? 1 = some sheet ∧ sheet.OnFile kept.2.2.disk ∧
      stopped.2.2.disk.node? sheet.place =
        some (.file (page [CapturePlan.standardHeader, "5,7"])) := by
  intro started kept stopped
  have apart : CapturePlan.standard.Apart (Site.mk .blank .empty).disk.here :=
    CapturePlan.apart_single rfl _
  have quiet := Undisturbed.refl CapturePlan.standard
  obtain ⟨sheet, found⟩ : ∃ sheet, kept.2.1.opened.get? 1 = some sheet :=
    Option.isSome_iff_exists.mp (by decide +kernel)
  have file : sheet.OnFile kept.2.2.disk := by
    have place : sheet.place = ["work", "run", "csv", "log_1-5-duty-cycle.csv"] := by
      have all : (kept.2.1.opened.get? 1).map Sheet.place =
          some ["work", "run", "csv", "log_1-5-duty-cycle.csv"] := by decide +kernel
      simpa [found] using all
    exact ⟨[], by rw [place]; decide +kernel⟩
  have rows : stopped.2.1.rowsOf 1 = ["5,7"] := by decide +kernel
  have earlier : Runs (Undisturbed .standard) (new .standard true) ⟨.blank, .empty⟩ _ kept.2.1
      kept.2.2 := .call _ (quiet _) (.call _ (quiet _) (.done _ _))
  have later : Runs (Undisturbed .standard) kept.2.1 kept.2.2 _ stopped.2.1 stopped.2.2 :=
    .call _ (quiet _) (.done _ _)
  have stops : ∃ entry ∈ [(Call.stop .timeout, stopped.1)], entry.1.stops = true :=
    ⟨_, List.mem_singleton_self _, rfl⟩
  have reached := ((rows_reach_files .standard true apart earlier later).2 1 sheet found file).1 stops
  rw [rows] at reached
  exact ⟨sheet, found, file, reached⟩

end Runs

end Recorder

end MoteCapture
